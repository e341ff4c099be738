import TrinoGoway.Gateway.Upstream
import TrinoGoway.Go.UrlSite

/-! The target of the upstream request: the path and the query of the client's request. -/
namespace TrinoGoway

open Go Go.Http Routing Prog

/-- A request as `net/http` hands it over: its method is a token, and path and query are those of
the request target. -/
structure Received (auth : Url.Authority) (r : Request) : Prop where
  isToken_method : isToken r.method = true
  target : ∃ target u, Url.parseRequestURI auth target = .ok u ∧ u.path = r.path ∧
    u.rawPath = r.rawPath ∧ u.rawQuery = r.rawQuery

def receivedPath (r : Request) : GoString :=
  Url.escapedPath { Url.empty with path := r.path, rawPath := r.rawPath }

theorem Received.isTarget {auth : Url.Authority} {r : Request} (h : Received auth r) :
    Url.IsTarget
      { Url.empty with path := r.path, rawPath := r.rawPath, rawQuery := r.rawQuery } := by
  obtain ⟨target, u, hparse, hpath, hraw, hquery⟩ := h.target
  have hu := Url.isTarget_of_parseRequestURI hparse
  rw [← hpath, ← hraw, ← hquery]
  exact ⟨hu.path, hu.rawPath, hu.rawQuery⟩

section Target

variable {auth : Url.Authority} {p : Proxy} {r : Request} {scheme authority host : GoString}
  {result : RouteResult}

/-- A path that came in the default encoding is sent in it; one that came in another valid encoding
loses that encoding. -/
theorem escapedPath_eq_receivedPath_iff (hr : Received auth r) {u : URL}
    (hpath : u.path = if r.path = str "*" then str "/*" else r.path)
    (hraw : u.rawPath = if r.path = str "*" then str "/*" else []) :
    Url.escapedPath u = receivedPath r ↔
      (r.rawPath = [] ∨ Url.validEncoded r.rawPath .path = false) ∧ r.path ≠ str "*" := by
  have htarget := hr.isTarget
  by_cases hstar : r.path = str "*"
  · -- the asterisk form has no path; behind a host it turns into one
    have hrawPath : r.rawPath = [] := by
      by_contra hne
      exact (htarget.rawPath hne).2.2 hstar
    have hu : Url.escapedPath u = str "/*" := by
      unfold Url.escapedPath
      rw [hpath, hraw, if_pos hstar, if_pos hstar]
      decide
    have hreceived : receivedPath r = str "*" := by
      unfold receivedPath Url.escapedPath
      rw [hrawPath, hstar]
      decide
    rw [hu, hreceived]
    exact iff_of_false (by decide) fun h => h.2 hstar
  · rw [if_neg hstar] at hpath hraw
    have hu : Url.escapedPath u = Url.escape r.path .path := by
      unfold Url.escapedPath
      rw [hpath, hraw, if_neg (fun h => h.1 rfl), if_neg hstar]
    by_cases hkept : r.rawPath ≠ [] ∧ Url.validEncoded r.rawPath .path = true
    · have hrawPath := htarget.rawPath hkept.1
      have hreceived : receivedPath r = r.rawPath := by
        unfold receivedPath Url.escapedPath
        exact if_pos ⟨hkept.1, hkept.2, hrawPath.1⟩
      rw [hu, hreceived]
      refine iff_of_false (Ne.symm hrawPath.2.1) fun h => ?_
      rcases h.1 with hnil | hvalid
      · exact hkept.1 hnil
      · rw [hkept.2] at hvalid
        cases hvalid
    · have hreceived : receivedPath r = Url.escape r.path .path := by
        unfold receivedPath Url.escapedPath
        rw [if_neg (fun h => hkept ⟨h.1, h.2.1⟩), if_neg hstar]
      rw [hu, hreceived]
      refine iff_of_true rfl ⟨?_, hstar⟩
      rw [not_and_or, not_not, Bool.not_eq_true] at hkept
      exact hkept

section Site

variable (hurls : p.router.urls = Url.codec auth) (hr : Received auth r)
  (hsite : Url.Site auth scheme authority host)
  (hprint : Url.Reprints auth (scheme.map Byte.toLower) host)
  (hbackend : result.backendURL = Url.siteText scheme authority [])
include hurls hr hsite hbackend

/-- Only the URL can keep the request from being built: it is printed and read again. -/
theorem upstreamRequest_site {body : Except GoError GoString} {up : UpstreamRequest} :
    p.upstreamRequest r body result = some up ↔
      ∃ url, Url.parse auth (Url.print auth
          { Url.empty with
            scheme := scheme.map Byte.toLower
            host
            path := r.path
            rawQuery := r.rawQuery }) = .ok url ∧
        up =
          { method := r.method
            url
            header := Proxy.injectHeaders (r.header.filterKeys fun k => !Proxy.isHopByHop k) r
              result.externalHeaders
            body } := by
  have hparse : p.router.urls.parse result.backendURL =
      .ok { Url.empty with scheme := scheme.map Byte.toLower, host } := by
    rw [hurls, hbackend]
    exact Url.parse_site hsite
  unfold Proxy.upstreamRequest Proxy.buildUpstreamRequest
  rw [hparse, hurls]
  simp only [Url.codec]
  split
  · rename_i hreparse
    rw [hreparse]
    simp
  · rename_i hreparse
    rw [hreparse, if_pos hr.isToken_method]
    simp [eq_comm]

include hprint

/-- What the backend gets is the client's path, in the default encoding, and the client's query up
to a number sign. -/
theorem url_of_upstreamRequest {body : Except GoError GoString} {up : UpstreamRequest}
    (hup : p.upstreamRequest r body result = some up) :
    up.url.path = (if r.path = str "*" then str "/*" else r.path) ∧
      up.url.rawPath = (if r.path = str "*" then str "/*" else []) ∧
      up.url.rawQuery = (cut Byte.hash r.rawQuery).1 := by
  obtain ⟨url, hurl, rfl⟩ := (upstreamRequest_site hurls hr hsite hbackend).mp hup
  exact Url.parse_print_site (hsite.reprint hprint) hr.isTarget.path hr.isTarget.rawQuery hurl

theorem exists_upstreamRequest (hhash : Byte.hash ∉ r.rawQuery) (body : Except GoError GoString) :
    ∃ up, p.upstreamRequest r body result = some up := by
  obtain ⟨url, hurl⟩ := Url.parse_print_site_ok (hsite.reprint hprint) hr.isTarget.path
    hr.isTarget.rawQuery hhash
  exact ⟨_, (upstreamRequest_site hurls hr hsite hbackend).mpr ⟨url, hurl, rfl⟩⟩

/-- The target is forwarded unchanged exactly when it came in the default encoding of its path,
and with no number sign in its query. -/
theorem target_forwarded_iff (body : Except GoError GoString) :
    (∃ up, p.upstreamRequest r body result = some up ∧
        Url.escapedPath up.url = receivedPath r ∧ up.url.rawQuery = r.rawQuery) ↔
      (r.rawPath = [] ∨ Url.validEncoded r.rawPath .path = false) ∧
        Byte.hash ∉ r.rawQuery ∧ r.path ≠ str "*" := by
  constructor
  · rintro ⟨up, hup, hpath, hquery⟩
    obtain ⟨hupPath, hupRaw, hupQuery⟩ := url_of_upstreamRequest hurls hr hsite hprint hbackend hup
    have hcond := (escapedPath_eq_receivedPath_iff hr hupPath hupRaw).mp hpath
    refine ⟨hcond.1, ?_, hcond.2⟩
    rw [← hquery, hupQuery]
    exact not_mem_cut_fst Byte.hash r.rawQuery
  · rintro ⟨hraw, hhash, hstar⟩
    obtain ⟨up, hup⟩ := exists_upstreamRequest hurls hr hsite hprint hbackend hhash body
    obtain ⟨hupPath, hupRaw, hupQuery⟩ := url_of_upstreamRequest hurls hr hsite hprint hbackend hup
    refine ⟨up, hup, (escapedPath_eq_receivedPath_iff hr hupPath hupRaw).mpr ⟨hraw, hstar⟩, ?_⟩
    rw [hupQuery, cut_of_not_mem hhash]

end Site

end Target

private def bareHosts : Url.Authority := ⟨fun _ authority => .ok ([], authority), id⟩

private def siteProxy : Proxy :=
  { sampleProxy false with
    router := { (sampleProxy false).router with urls := Url.codec bareHosts } }

private def siteResult : RouteResult := ⟨str "http://b", str "adhoc", none, [], .ok⟩

private theorem site_bareHosts : Url.Site bareHosts (str "http") (str "b") (str "b") where
  scheme_alpha := ⟨104, str "ttp", by decide, by decide⟩
  scheme_bytes := List.all_eq_true.mp (by decide : (str "http").all Url.isSchemeByte = true)
  authority_bytes := List.all_eq_true.mp (by decide : (str "b").all Url.isAuthorityByte = true)
  parse := rfl
  host_ne_nil := by decide

private theorem reprints_bareHosts :
    Url.Reprints bareHosts ((str "http").map Byte.toLower) (str "b") where
  bytes := List.all_eq_true.mp (by decide : (str "b").all Url.isAuthorityByte = true)
  parse := rfl

private theorem received_of_target {r : Request} (target : GoString)
    (hmethod : isToken r.method = true)
    (h : Url.parseRequestURI bareHosts target =
      .ok { Url.empty with path := r.path, rawPath := r.rawPath, rawQuery := r.rawQuery }) :
    Received bareHosts r :=
  ⟨hmethod, target, _, h, rfl, rfl, rfl⟩

theorem target_forwarded_plain :
    ∃ up, siteProxy.upstreamRequest (sampleRequest "GET" "/v1/query/a" "") (.ok []) siteResult =
        some up ∧
      Url.escapedPath up.url = receivedPath (sampleRequest "GET" "/v1/query/a" "") ∧
      up.url.rawQuery = [] :=
  (target_forwarded_iff rfl
    (received_of_target (str "/v1/query/a") (by decide) (by decide)) site_bareHosts
    reprints_bareHosts (by decide) (.ok [])).mpr ⟨Or.inl rfl, by decide, by decide⟩

private def encodedSlash : Request :=
  { sampleRequest "GET" "/v1/query/a/b" "" with rawPath := str "/v1/query/a%2Fb" }

/-- The encoded slash of a path reaches the backend as a separator. -/
theorem encoded_slash_decoded :
    Received bareHosts encodedSlash ∧ Url.Site bareHosts (str "http") (str "b") (str "b") ∧
      Url.Reprints bareHosts ((str "http").map Byte.toLower) (str "b") ∧
      siteResult.backendURL = Url.siteText (str "http") (str "b") [] ∧
      receivedPath encodedSlash = str "/v1/query/a%2Fb" ∧
      (siteProxy.upstreamRequest encodedSlash (.ok []) siteResult).map
        (fun up => Url.escapedPath up.url) = some (str "/v1/query/a/b") :=
  ⟨received_of_target (str "/v1/query/a%2Fb") (by decide) (by decide), site_bareHosts,
    reprints_bareHosts, by decide, by decide, by decide⟩

end TrinoGoway
