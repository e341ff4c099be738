import TrinoGoway.Gateway.Exchange
import TrinoGoway.Gateway.World
import TrinoGoway.Routing.RouterHeaders

/-! The headers of the requests that go upstream and of the responses that come back. -/
namespace TrinoGoway

open Go Go.Http Routing Prog

def sentHeaders (h : List GwEvent) : List Header :=
  h.filterMap fun e =>
    match e.op with
    | .roundTrip upReq => some upReq.header
    | _ => none

def writtenHeaders (h : List GwEvent) : List Header :=
  h.filterMap fun e =>
    match e.op with
    | .writeHeader _ header => some header
    | _ => none

theorem exists_of_mem_sentHeaders {h : List GwEvent} {header : Header}
    (hmem : header ∈ sentHeaders h) :
    ∃ upReq ans, ⟨.roundTrip upReq, ans⟩ ∈ h ∧ upReq.header = header := by
  obtain ⟨⟨o, ans⟩, he, hheader⟩ := List.mem_filterMap.mp hmem
  cases o with
  | roundTrip upReq => exact ⟨upReq, ans, he, Option.some.inj hheader⟩
  | _ => cases hheader

theorem exists_of_mem_writtenHeaders {h : List GwEvent} {header : Header}
    (hmem : header ∈ writtenHeaders h) : ∃ status, ⟨.writeHeader status header, ()⟩ ∈ h := by
  obtain ⟨⟨o, ans⟩, he, hheader⟩ := List.mem_filterMap.mp hmem
  cases o with
  | writeHeader status header' =>
    obtain rfl := Option.some.inj hheader
    exact ⟨status, he⟩
  | _ => cases hheader

section Sent

variable {p : Proxy} {r : Request} {h : List GwEvent} {P' : Gw Served} {upReq : UpstreamRequest}
  {ans : Except GoError Response}

theorem Op.not_isExternal_of_isAnswering {o : Op} {b : GoString} (ho : o.isAnswering b) :
    o.isExternal = false :=
  Op.not_isExternal_of (fun _ _ => rfl) (fun _ => rfl) ho

/-- A round trip is one operation, after which the transport decodes what was on the wire. -/
theorem roundTrip_bind (p : Proxy) (up : UpstreamRequest)
    (f : Except GoError Response → Gw Served) :
    p.roundTrip up >>= f = call (.roundTrip up) fun ans : Except GoError Response =>
      f (ans.map (Proxy.receive p.gunzip up)) := by
  unfold Proxy.roundTrip
  rw [perform_bind, call_bind]
  congr 1
  funext ans
  cases ans with
  | error e => rfl
  | ok wire => rfl

theorem roundTrip_first {up : UpstreamRequest} {b : GoString}
    {f : Except GoError Response → Gw Served} (hf : ∀ res, (f res).Performs (·.isAnswering b))
    (hp : Path (p.roundTrip up >>= f) h P') (hmem : ⟨.roundTrip upReq, ans⟩ ∈ h) :
    ∃ h₂, up = upReq ∧ h = ⟨.roundTrip upReq, ans⟩ :: h₂ ∧ NotAsked h₂ := by
  rw [roundTrip_bind] at hp
  cases hp with
  | nil => cases hmem
  | cons ans' ht =>
    have hrest := ((hf _).path ht).1
    rcases List.mem_cons.mp hmem with heq | hmem
    · obtain ⟨hop, hans⟩ := Event.mk.inj heq
      obtain rfl := Op.roundTrip.inj hop
      obtain rfl := eq_of_heq hans
      exact ⟨_, rfl, rfl, fun e he => Op.not_isExternal_of_isAnswering (hrest e he)⟩
    · have hop := hrest _ hmem
      cases hop

theorem forward_roundTrip {body : Except GoError GoString} {result : RouteResult} {b : GoString}
    {f : Except GoError Response → Gw Served} (hf : ∀ res, (f res).Performs (·.isAnswering b))
    (hp : Path (match p.upstreamRequest r body result with
      | none => pure .panicked
      | some up => p.roundTrip up >>= f) h P') (hmem : ⟨.roundTrip upReq, ans⟩ ∈ h) :
    ∃ h₂, p.upstreamRequest r body result = some upReq ∧
      h = ⟨.roundTrip upReq, ans⟩ :: h₂ ∧ NotAsked h₂ := by
  cases hup : p.upstreamRequest r body result with
  | none =>
    rw [hup] at hp
    obtain ⟨rfl, -⟩ := hp.of_ret
    cases hmem
  | some up =>
    rw [hup] at hp
    obtain ⟨h₂, rfl, hh, hrest⟩ := roundTrip_first hf hp hmem
    exact ⟨h₂, rfl, hh, hrest⟩

theorem forwardStatement_roundTrip {reqBody : GoString} {result : RouteResult}
    (hp : Path (p.forwardStatement r reqBody result) h P') (hmem : ⟨.roundTrip upReq, ans⟩ ∈ h) :
    ∃ h₂, p.upstreamRequest r (.ok reqBody) result = some upReq ∧
      h = ⟨.roundTrip upReq, ans⟩ :: h₂ ∧ NotAsked h₂ := by
  unfold Proxy.forwardStatement at hp
  split at hp
  · have hop := ((httpError_performs _ _ _).path hp).1 _ hmem
    cases hop
  · exact forward_roundTrip (statementReceived_answers p r result) hp hmem

theorem decided_roundTrip {reqBody : GoString}
    {f : Except GoError RouteResult → Gw Served}
    (hp : Path (p.router.route (newRouteInput r reqBody) >>= f) h P')
    (hmem : ⟨.roundTrip upReq, ans⟩ ∈ h) :
    ∃ res h₁ h₂, h = h₁ ++ h₂ ∧ Runs (p.router.route (newRouteInput r reqBody)) h₁ res ∧
      Path (f res) h₂ P' ∧ ⟨.roundTrip upReq, ans⟩ ∈ h₂ := by
  have hnot : ∀ {h : List GwEvent}, (∀ e ∈ h, e.op.isRouting) → ⟨.roundTrip upReq, ans⟩ ∉ h := by
    intro h hh hmem
    have hop := hh _ hmem
    cases hop
  rcases hp.of_bind with ⟨prog, hprog, -⟩ | ⟨h₁, h₂, res, rfl, hroute, hrest⟩
  · exact absurd hmem (hnot (route_routing _ _ hprog))
  · have hmem₂ := (List.mem_append.mp hmem).resolve_left (hnot (route_routing _ _ hroute))
    exact ⟨res, h₁, h₂, rfl, hroute, hrest, hmem₂⟩

/-- A request that goes upstream was built for the backend of a routing decision, and the external
router is not asked after that. -/
theorem serveHTTP_roundTrip (hp : Path (p.serveHTTP r) h P')
    (hmem : ⟨.roundTrip upReq, ans⟩ ∈ h) :
    ∃ reqBody body result h₁ h₂, h = h₁ ++ ⟨.roundTrip upReq, ans⟩ :: h₂ ∧
      Runs (p.router.route (newRouteInput r reqBody)) h₁ (.ok result) ∧
      p.upstreamRequest r body result = some upReq ∧ NotAsked h₂ := by
  have hresponse : ∀ {prog : Gw Served} {h : List GwEvent}, prog.Performs (·.isResponse) →
      Path prog h P' → ⟨.roundTrip upReq, ans⟩ ∉ h := by
    intro prog h hprog hpath hmem
    have hop := (hprog.path hpath).1 _ hmem
    cases hop
  have hdispatch : p.serveHTTP r = p.dispatch r := by
    obtain hs | ⟨msg, hs⟩ := serveHTTP_eq p r
    · exact hs
    · rw [hs] at hp
      exact absurd hmem (hresponse ((writeUnauthorized_performs msg).bind (by simp)) hp)
  rw [hdispatch] at hp
  unfold Proxy.dispatch at hp
  split at hp
  · exact absurd hmem (hresponse (by simp [Op.isResponse]) hp)
  split at hp
  · unfold Proxy.handleStatement at hp
    cases hbody : r.body with
    | error e =>
      rw [hbody] at hp
      exact absurd hmem (hresponse (httpError_performs _ _ _) hp)
    | ok reqBody =>
      rw [hbody] at hp
      obtain ⟨res, h₁, h₂, rfl, hroute, hrest, hmem₂⟩ := decided_roundTrip hp hmem
      cases res with
      | error e => exact absurd hmem₂ (hresponse (httpError_performs _ _ _) hrest)
      | ok result =>
        dsimp only at hrest
        split at hrest
        · exact absurd hmem₂ (hresponse (httpError_performs _ _ _) hrest)
        · obtain ⟨h₃, hup, rfl, hno⟩ := forwardStatement_roundTrip hrest hmem₂
          exact ⟨reqBody, _, result, h₁, h₃, rfl, hroute, hup, hno⟩
  split at hp
  · unfold Proxy.handleStream at hp
    obtain ⟨res, h₁, h₂, rfl, hroute, hrest, hmem₂⟩ := decided_roundTrip hp hmem
    cases res with
    | error e => exact absurd hmem₂ (hresponse (httpError_performs _ _ _) hrest)
    | ok result =>
      dsimp only at hrest
      split at hrest
      · exact absurd hmem₂ (hresponse (httpError_performs _ _ _) hrest)
      · obtain ⟨h₃, hup, rfl, hno⟩ :=
          forward_roundTrip (streamReceived_answers p r result) hrest hmem₂
        exact ⟨[], _, result, h₁, h₃, rfl, hroute, hup, hno⟩
  · exact absurd hmem (hresponse (httpError_performs _ _ _) hp)

/-- The headers that go upstream are the client's, those the gateway adds, and what the decision
passes on of the router's. -/
theorem roundTrip_header (hp : Path (p.serveHTTP r) h P') (hmem : ⟨.roundTrip upReq, ans⟩ ∈ h) :
    upReq.header = Proxy.injectHeaders (r.header.filterKeys fun k => !Proxy.isHopByHop k) r
      (some (p.router.passedOn (routerHeaders h))) := by
  obtain ⟨reqBody, body, result, h₁, h₂, rfl, hroute, hup, hno⟩ := serveHTTP_roundTrip hp hmem
  have hasked : routerHeaders (h₁ ++ ⟨.roundTrip upReq, ans⟩ :: h₂) = routerHeaders h₁ := by
    refine routerHeaders_append_right ?_
    rw [List.forall_mem_cons]
    exact ⟨rfl, hno⟩
  have hext := route_headers hroute
  rw [hasked, ← hext]
  unfold Proxy.upstreamRequest at hup
  obtain ⟨up, hbuild, rfl⟩ := Option.map_eq_some_iff.mp hup
  unfold Proxy.buildUpstreamRequest at hbuild
  split at hbuild
  · cases hbuild
  dsimp only at hbuild
  split at hbuild
  · cases hbuild
  split at hbuild
  · obtain rfl := Option.some.inj hbuild
    rfl
  · cases hbuild

end Sent

/-! ### Hop-by-hop headers -/

namespace Proxy

def NoHopByHop (h : Header) : Prop := ∀ k, (h.get? k).isSome → isHopByHop k = false

theorem isHopByHop_canonicalHeaderKey (k : GoString) :
    isHopByHop (canonicalHeaderKey k) = isHopByHop k := by
  unfold isHopByHop
  rw [canonicalHeaderKey_canonicalHeaderKey]

theorem noHopByHop_empty : NoHopByHop .empty := by
  intro k hk
  cases hk

theorem noHopByHop_filterKeys (h : Header) : NoHopByHop (h.filterKeys fun k => !isHopByHop k) := by
  intro k hk
  rw [GoMap.get?_filterKeys] at hk
  cases hhop : isHopByHop k with
  | false => rfl
  | true => simp [hhop] at hk

theorem NoHopByHop.set {h : Header} (hh : NoHopByHop h) {k : GoString} {vv : List GoString}
    (hk : isHopByHop k = false) : NoHopByHop (GoMap.set h k vv) := by
  intro k' hk'
  rw [GoMap.get?_set] at hk'
  split at hk'
  · rename_i heq
    rw [heq]
    exact hk
  · exact hh k' hk'

theorem NoHopByHop.headerSet {h : Header} (hh : NoHopByHop h) {name value : GoString}
    (hname : isHopByHop name = false) : NoHopByHop (h.set name value) :=
  NoHopByHop.set hh (by rw [isHopByHop_canonicalHeaderKey, hname])

theorem NoHopByHop.headerAdd {h : Header} (hh : NoHopByHop h) {name value : GoString}
    (hname : isHopByHop name = false) : NoHopByHop (h.add name value) :=
  NoHopByHop.set hh (by rw [isHopByHop_canonicalHeaderKey, hname])

theorem NoHopByHop.headerDel {h : Header} (hh : NoHopByHop h) (name : GoString) :
    NoHopByHop (h.del name) := by
  intro k hk
  rw [Header.get?_del] at hk
  split at hk
  · cases hk
  · exact hh k hk

theorem NoHopByHop.foldl_set {β : Type} {f : GoString → GoString} {g : β → List GoString}
    {es : List (GoString × β)} {h : Header} (hh : NoHopByHop h)
    (hall : ∀ e ∈ es, isHopByHop (f e.1) = false) :
    NoHopByHop (es.foldl (fun h e => GoMap.set h (f e.1) (g e.2)) h) := by
  induction es generalizing h with
  | nil => exact hh
  | cons e es ih =>
    rw [List.forall_mem_cons] at hall
    exact ih (hh.set hall.1) hall.2

theorem NoHopByHop.of_mem {h : Header} (hh : NoHopByHop h) :
    ∀ e ∈ h.entries, isHopByHop e.1 = false := by
  intro e he
  apply hh
  rw [GoMap.get?_eq_some.mpr he]
  rfl

theorem noHopByHop_copyHeaders {dst : Header} (hdst : NoHopByHop dst) (src : Header) :
    NoHopByHop (copyHeaders dst src) :=
  hdst.foldl_set (f := id) (g := id) (noHopByHop_filterKeys src).of_mem

theorem noHopByHop_applyCookies {codec : CookieCodec} {cfg : CookieConfig} {h : Header}
    {r : Request} {backendURL : GoString} (hh : NoHopByHop h) :
    (applyCookies codec cfg h r backendURL).wp (fun _ => True)
      fun res => ∀ h' ∈ res, NoHopByHop h' := by
  have hsetCookie : isHopByHop (str "Set-Cookie") = false := by decide
  have hself : ∀ h' ∈ some h, NoHopByHop h' := by
    intro h' hh'
    obtain rfl := Option.some.inj hh'
    exact hh
  have hdelete : ∀ h' ∈ some (deleteCookie h), NoHopByHop h' := by
    intro h' hh'
    obtain rfl := Option.some.inj hh'
    exact hh.headerAdd hsetCookie
  unfold applyCookies
  split
  · exact hself
  · split
    · rw [wp_bind, wp_perform]
      intro now _
      split
      · intro h' hh'
        cases hh'
      · exact hdelete
      · split
        · exact hdelete
        · exact hself
    · split
      · unfold issueCookie
        simp only [wp_bind, wp_perform, wp_pure]
        intro now _ h' hh'
        obtain rfl := Option.some.inj hh'
        exact hh.headerAdd hsetCookie
      · exact hself

theorem injectHeaders_some (header : Header) (r : Request) (ext : GoMap GoString) :
    injectHeaders header r (some ext) =
      ext.entries.foldl (fun h e => Header.set h e.1 e.2) (injectHeaders header r none) := rfl

theorem noHopByHop_injectHeaders_none {header : Header} (hh : NoHopByHop header) (r : Request) :
    NoHopByHop (injectHeaders header r none) :=
  (((hh.headerSet (by decide)).headerSet (by decide)).headerSet (by decide)).headerSet (by decide)

/-- The headers of the upstream request are free of hop-by-hop ones exactly if those are that come
from the router. -/
theorem noHopByHop_injectHeaders {header : Header} (hh : NoHopByHop header) (r : Request)
    (ext : GoMap GoString) :
    NoHopByHop (injectHeaders header r (some ext)) ↔
      ∀ k, (ext.get? k).isSome → isHopByHop k = false := by
  rw [injectHeaders_some]
  constructor
  · intro hclean k hk
    obtain ⟨v, hv⟩ := Option.isSome_iff_exists.mp hk
    rw [← isHopByHop_canonicalHeaderKey]
    apply hclean
    exact GoMap.isSome_get?_foldl_set (f := canonicalHeaderKey) (g := fun v => [v])
      (Or.inr ⟨_, GoMap.get?_eq_some.mp hv, rfl⟩)
  · intro hext
    refine (noHopByHop_injectHeaders_none hh r).foldl_set (f := canonicalHeaderKey)
      (g := fun v => [v]) ?_
    intro e he
    rw [isHopByHop_canonicalHeaderKey]
    apply hext
    rw [GoMap.get?_eq_some.mpr he]
    rfl

end Proxy

def Op.respondsClean : Op → Prop
  | writeHeader _ header => Proxy.NoHopByHop header
  | _ => True

theorem Op.respondsClean_of_isRouting {o : Op} (h : o.isRouting) : o.respondsClean := by
  cases o with
  | writeHeader status header => cases h
  | _ => trivial

theorem Op.respondsClean_of_isRecording {o : Op} (h : o.isRecording) : o.respondsClean := by
  cases o with
  | writeHeader status header => cases h
  | _ => trivial

section Responses

variable (p : Proxy) (r : Request)

theorem httpError_clean {header : Header} (hh : Proxy.NoHopByHop header) (msg : GoString)
    (code : ℕ) : (Proxy.httpError header msg code).Performs Op.respondsClean := by
  have hclean : Proxy.NoHopByHop (((header.del (str "Content-Length")).set (str "Content-Type")
      (str "text/plain; charset=utf-8")).set (str "X-Content-Type-Options") (str "nosniff")) :=
    ((hh.headerDel _).headerSet (by decide)).headerSet (by decide)
  exact ⟨hclean, fun _ => ⟨trivial, fun _ => trivial⟩⟩

theorem writeUnauthorized_clean (msg : GoString) :
    (Auth.writeUnauthorized msg).Performs Op.respondsClean := by
  have hclean : Proxy.NoHopByHop ((Header.set .empty (str "Content-Type")
      (str "application/json")).set (str "WWW-Authenticate") (str "Bearer")) :=
    (Proxy.noHopByHop_empty.headerSet (by decide)).headerSet (by decide)
  exact ⟨hclean, fun _ => ⟨trivial, fun _ => trivial⟩⟩

theorem applyCookies_clean (h : Header) (backendURL : GoString) :
    (Proxy.applyCookies p.codec p.cookie h r backendURL).Performs Op.respondsClean := by
  refine (applyCookies_performs p r h backendURL).mono ?_
  rintro o rfl
  trivial

theorem relay_clean (backendURL : GoString) (resp : Response) (body : GoString) :
    (p.relay r backendURL resp body).Performs Op.respondsClean := by
  have hcopied := Proxy.noHopByHop_copyHeaders Proxy.noHopByHop_empty resp.header
  unfold Proxy.relay
  refine (applyCookies_clean p r _ backendURL).bind_wp (Proxy.noHopByHop_applyCookies hcopied) ?_
  intro res hres
  cases res with
  | none => exact httpError_clean hcopied _ _
  | some h' => exact writeResponse_performs (hres h' rfl) trivial

theorem roundTrip_clean (upReq : UpstreamRequest) :
    (p.roundTrip upReq).Performs Op.respondsClean := by
  unfold Proxy.roundTrip
  refine Performs.bind ((performs_perform _).mpr trivial) fun ans => ?_
  cases ans with
  | error e => exact performs_pure _
  | ok wire => exact performs_pure _

theorem bufferStatement_clean (result : RouteResult) (resp : Response) :
    (p.bufferStatement r result resp).Performs Op.respondsClean :=
  bufferStatement_performs p r result resp
    (fun _ => httpError_clean Proxy.noHopByHop_empty _ _) (fun _ => trivial)
    (fun _ => Op.respondsClean_of_isRecording) (relay_clean p r _ _)

theorem forwardStatement_clean (reqBody : GoString) (result : RouteResult) :
    (p.forwardStatement r reqBody result).Performs Op.respondsClean := by
  unfold Proxy.forwardStatement
  split
  · exact httpError_clean Proxy.noHopByHop_empty _ _
  · split
    · exact performs_pure _
    · refine (roundTrip_clean p _).bind fun res => ?_
      cases res with
      | error e => exact httpError_clean Proxy.noHopByHop_empty _ _
      | ok resp => exact bufferStatement_clean p r result resp

theorem forwardStream_clean (result : RouteResult) :
    (p.forwardStream r result).Performs Op.respondsClean := by
  unfold Proxy.forwardStream
  split
  · exact performs_pure _
  · refine (roundTrip_clean p _).bind fun res => ?_
    cases res with
    | error e => exact httpError_clean Proxy.noHopByHop_empty _ _
    | ok resp => exact relay_clean p r _ _ _

theorem serveHTTP_clean :
    (p.serveHTTP r).Emits fun h => ∀ e ∈ h, e.op.respondsClean := by
  have hemits : ∀ {α : Type} {prog : Gw α}, prog.Performs Op.respondsClean →
      prog.Emits fun h => ∀ e ∈ h, e.op.respondsClean := by
    intro α prog hprog
    exact hprog.emits fun h hh => hh
  have hdispatch : (p.dispatch r).Emits fun h => ∀ e ∈ h, e.op.respondsClean := by
    refine dispatch_emits p r ?_ ?_ ?_ ?_ ?_ ?_
    · exact fun h h' hh hh' e he => (List.mem_append.mp he).elim (hh e) (hh' e)
    · intro req h prog hpath e he
      exact Op.respondsClean_of_isRouting (route_routing _ _ hpath e he)
    · exact fun msg code _ => hemits (httpError_clean Proxy.noHopByHop_empty msg code)
    · exact hemits ⟨Proxy.noHopByHop_empty, fun _ => ⟨trivial, fun _ => trivial⟩⟩
    · exact fun reqBody result _ => hemits (forwardStatement_clean p r reqBody result)
    · exact fun result _ => hemits (forwardStream_clean p r result)
  obtain hs | ⟨msg, hs⟩ := serveHTTP_eq p r
  · rw [hs]
    exact hdispatch
  · rw [hs]
    exact hemits ((writeUnauthorized_clean msg).bind fun _ => performs_pure _)

end Responses

/-- Whatever a request does: no response has a hop-by-hop header, and a request that goes upstream
has none exactly if every hop-by-hop header that the router returned is on the exclude list. -/
theorem hopByHop_relayed_iff (p : Proxy) (r : Request) {h : List GwEvent} {P' : Gw Served}
    (hp : Path (p.serveHTTP r) h P') :
    (∀ header ∈ writtenHeaders h, Proxy.NoHopByHop header) ∧
      ∀ header ∈ sentHeaders h,
        (Proxy.NoHopByHop header ↔
          ∀ k, ((routerHeaders h).get? k).isSome → Proxy.isHopByHop k = true →
            isExcluded p.router.cfg.external.excludeHeaders k = true) := by
  constructor
  · intro header hmem
    obtain ⟨status, he⟩ := exists_of_mem_writtenHeaders hmem
    exact serveHTTP_clean p r hp _ he
  · intro header hmem
    obtain ⟨upReq, ans, he, rfl⟩ := exists_of_mem_sentHeaders hmem
    rw [roundTrip_header hp he, Proxy.noHopByHop_injectHeaders (Proxy.noHopByHop_filterKeys _)]
    refine forall_congr' fun k => ?_
    unfold Router.passedOn
    rw [GoMap.get?_filterKeys]
    cases isExcluded p.router.cfg.external.excludeHeaders k with
    | true => simp
    | false => simp

section Samples

def routedProxy (exclude : List GoString) : Proxy :=
  { sampleProxy false with
    router :=
      ⟨⟨str "adhoc", ⟨str "http://router", [], 0, exclude⟩⟩, (sampleProxy false).router.urls⟩ }

/-- A request to such a gateway, where the router returns `headers` and the backend answers. -/
def routedTrace (exclude : List GoString) (r : Request) (headers : GoMap GoString) : List GwEvent :=
  ((routedProxy exclude).serveHTTP r).trace (World.answers
    { active := .ok [sampleBackend "http://a" "adhoc"]
      http := fun _ => .ok ⟨200, .ok ⟨some (str "adhoc"), [], some headers⟩⟩
      upstream := fun _ => .ok (sampleResponse "") } (.init []))

end Samples

theorem hopByHop_relayed_iff_sample :
    let h := routedTrace [] (sampleRequest "GET" "/v1/info" "")
      (GoMap.set .empty (str "X-Trino-User") (str "etl"))
    (∀ header ∈ writtenHeaders h, Proxy.NoHopByHop header) ∧
      ∀ header ∈ sentHeaders h,
        (Proxy.NoHopByHop header ↔
          ∀ k, ((routerHeaders h).get? k).isSome → Proxy.isHopByHop k = true →
            isExcluded [] k = true) :=
  hopByHop_relayed_iff (routedProxy []) (sampleRequest "GET" "/v1/info" "") (runs_trace _ _)

/-- The router returns a `Connection` header, and the backend gets it. -/
theorem router_connection_sent :
    let r := sampleRequest "GET" "/v1/info" ""
    let h := routedTrace [] r (GoMap.set .empty (str "connection") (str "x-internal"))
    Runs ((routedProxy []).serveHTTP r) h .done ∧
      (sentHeaders h).map (fun header => header.get? (str "Connection")) =
        [some [str "x-internal"]] := by
  constructor
  · exact runs_trace _ _
  · decide +kernel

end TrinoGoway
