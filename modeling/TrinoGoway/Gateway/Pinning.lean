import TrinoGoway.Gateway.Exchange
import TrinoGoway.Gateway.World
import TrinoGoway.Routing.Decision

/-! Where requests that carry a gateway cookie go. -/
namespace TrinoGoway

open Go Go.Http Routing Prog

def Streamed (p : Proxy) (r : Request) : Prop :=
  (∀ a, p.auth = some a → ∃ principal, a.authenticate r = .ok principal) ∧
    Proxy.knownMethods.contains r.method = true ∧ Proxy.isStatement r = false ∧
    hasPrefix (Proxy.routePath r) [Byte.slash] = true

theorem serveHTTP_streamed {p : Proxy} {r : Request} (h : Streamed p r) :
    p.serveHTTP r = p.handleStream r := by
  obtain ⟨hauth, hmethod, hst, hslash⟩ := h
  rw [serveHTTP_authenticated p r hauth]
  unfold Proxy.dispatch
  simp only [hmethod, hst, hslash, Bool.not_true, Bool.false_eq_true, if_false, if_true]

/-- The request is sent on to `b`, the backend that `Route` returned for it. -/
def ForwardedTo (p : Proxy) (r : Request) (f : (o : Op) → o.Ret) (b : GoString) : Prop :=
  ∃ result upReq, (p.router.route (newRouteInput r [])).eval f = .ok result ∧
    result.backendURL = b ∧ p.upstreamRequest r r.body result = some upReq ∧
    ⟨.roundTrip upReq, f (.roundTrip upReq)⟩ ∈ (p.serveHTTP r).trace f

/-- The paths of a gateway cookie do not name queries. -/
theorem extractQueryID_of_routingPath {codec : Proxy.CookieCodec} {cfg : CookieConfig}
    {b : GoString} {now : Time} {req : RouteInput} {path : GoString}
    (hpath : path ∈ (Proxy.newCookie codec cfg b now).routingPaths.getD [])
    (huri : OnPath path req.requestURI) : extractQueryID req = [] := by
  have hclosed : ∀ path ∈ [str "/oauth2", str "/logout", str "/oauth2/logout"],
      2 ≤ path.length ∧ path.take 2 ≠ queryPrefix.take 2 := by decide
  obtain ⟨hlen, hne⟩ := hclosed path hpath
  obtain ⟨t, ht⟩ : ∃ t, req.requestURI = path ++ t := by
    obtain h | ⟨c, suffix, -, h⟩ := huri
    · exact ⟨[], by simpa using h⟩
    · exact ⟨c :: suffix, h⟩
  unfold extractQueryID
  dsimp only
  rw [ht, if_neg]
  rintro ⟨-, htake⟩
  apply hne
  calc path.take 2 = (path ++ t).take 2 := (List.take_append_of_le_length hlen).symm
    _ = ((path ++ t).take queryPrefix.length).take 2 := by
      rw [List.take_take]
      rfl
    _ = queryPrefix.take 2 := by rw [htake]

/-- On the paths of a gateway cookie, a request goes to `b` exactly when `b` is what the external
router and the list of active backends lead to; the cookie has no part in it. -/
theorem forwarded_iff_chosen (p : Proxy) (r : Request) (f : (o : Op) → o.Ret)
    (b path : GoString) (now : Time) (hstream : Streamed p r)
    (hpath : path ∈ (Proxy.newCookie p.codec p.cookie b now).routingPaths.getD [])
    (huri : OnPath path r.requestURI) (hb : b ≠ [])
    (hbuild : (Proxy.buildUpstreamRequest p.router.urls b r r.body).isSome) :
    ForwardedTo p r f b ↔ chosenURL p.router f (newRouteInput r []) = b := by
  have hid : extractQueryID (newRouteInput r []) = [] := extractQueryID_of_routingPath hpath huri
  obtain ⟨result, hroute, hurl⟩ :=
    eval_route_chosen (f := f) p.router (newRouteInput r []) rfl hid
  rw [← hurl]
  constructor
  · rintro ⟨result', upReq, hroute', hb', -⟩
    rw [hroute] at hroute'
    obtain rfl := Except.ok.inj hroute'
    exact hb'
  · rintro rfl
    obtain ⟨up, hup⟩ := Option.isSome_iff_exists.mp hbuild
    have hupReq : p.upstreamRequest r r.body result =
        some { up with header := Proxy.injectHeaders up.header r result.externalHeaders } := by
      simp [Proxy.upstreamRequest, hup]
    refine ⟨result, _, hroute, rfl, hupReq, ?_⟩
    rw [serveHTTP_streamed hstream]
    unfold Proxy.handleStream
    rw [trace_bind, hroute]
    refine List.mem_append_right _ ?_
    dsimp only
    rw [if_neg hb]
    unfold Proxy.forwardStream Proxy.roundTrip
    simp [hupReq, trace]

section Samples

private def pinCookie : Proxy.GatewayCookie where
  backend := some (str "http://etl")
  deletePaths := some [str "/logout", str "/oauth2/logout"]
  name := Proxy.cookieName
  payload := none
  priority := 0
  routingPaths := some [str "/oauth2", str "/logout", str "/oauth2/logout"]
  ts := 0
  ttl := str "10.00m"
  signature := str "secret"

private def pinProxy : Proxy :=
  { sampleProxy false with
    cookie := ⟨str "secret", 600000000000, true⟩
    codec :=
      { sign := fun secret _ => secret
        encode := fun _ gc => if gc = pinCookie then str "token" else []
        decode := fun _ value => if value = str "token" then some pinCookie else none
        formatTTL := fun _ _ => str "10.00m"
        parseTTL := fun _ => 600000000000 } }

private def pinRequest : Request :=
  let r := sampleRequest "GET" "/oauth2/callback" ""
  { r with header := r.header.set (str "Cookie") (str "TG.OAUTH2=token") }

private def pinAnswers : (o : Op) → o.Ret :=
  World.answers
    { active := .ok [sampleBackend "http://adhoc" "adhoc", sampleBackend "http://etl" "etl"]
      clock := Time.ofUnixMilli 1000 } (.init [])

private theorem pinRequest_streamed : Streamed pinProxy pinRequest := by
  refine ⟨?_, by decide, by decide, by decide⟩
  rintro a ⟨⟩

private theorem pinRequest_uri : OnPath (str "/oauth2") pinRequest.requestURI :=
  Or.inr ⟨Byte.slash, str "callback", Or.inl rfl, by decide⟩

theorem forwarded_iff_chosen_sample :
    ForwardedTo pinProxy pinRequest pinAnswers (str "http://adhoc") ↔
      chosenURL pinProxy.router pinAnswers (newRouteInput pinRequest []) = str "http://adhoc" :=
  forwarded_iff_chosen pinProxy pinRequest pinAnswers _ _ (Time.ofUnixMilli 0)
    pinRequest_streamed List.mem_cons_self pinRequest_uri (by decide) rfl

/-- The cookie is valid, was issued for an active backend and lists the path; the request goes to
another backend. -/
theorem pinned_request_forwarded_elsewhere :
    let value := pinProxy.codec.encode pinProxy.cookie.wireCompat
      (Proxy.newCookie pinProxy.codec pinProxy.cookie (str "http://etl") (Time.ofUnixMilli 0))
    pinProxy.cookie.secret ≠ [] ∧ pinRequest.cookie Proxy.cookieName = some value ∧
      (∃ paths, Proxy.validateCookie pinProxy.codec pinProxy.cookie value (pinAnswers .now) =
        .valid paths) ∧
      (∃ path ∈ pinCookie.routingPaths.getD [], OnPath path pinRequest.requestURI) ∧
      (∃ active, pinAnswers .selectActive = .ok active ∧
        ∃ x ∈ active, x.url = str "http://etl") ∧
      ¬ForwardedTo pinProxy pinRequest pinAnswers (str "http://etl") := by
  refine ⟨by decide, by decide +kernel, ⟨_, rfl⟩, ⟨_, List.mem_cons_self, pinRequest_uri⟩,
    ⟨_, rfl, sampleBackend "http://etl" "etl", by simp, rfl⟩, ?_⟩
  rintro ⟨result, upReq, hroute, hurl, -⟩
  obtain rfl : (⟨str "http://adhoc", str "adhoc", none, [], .fallback⟩ : RouteResult) = result :=
    Except.ok.inj hroute
  exact absurd hurl (by decide)

end Samples

end TrinoGoway
