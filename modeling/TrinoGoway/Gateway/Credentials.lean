import TrinoGoway.Gateway.Upstream

/-! Gateway credentials on the proxy port. Two requests that differ only in their `Authorization`
header are the same request to everything behind the authenticator; the authenticator itself is
installed there for every type. -/
namespace TrinoGoway

open Go Go.Http Routing Prog

/-! ### Headers without credentials -/

def authorization : GoString := str "Authorization"

/-- The header map without the credentials that an authenticator reads. -/
def withoutCredentials (h : Header) : Header :=
  h.filterKeys fun k => canonicalHeaderKey k != authorization

theorem withoutCredentials_add (h : Header) (name value : GoString) :
    withoutCredentials (h.add name value) =
      if canonicalHeaderKey name = authorization then withoutCredentials h
      else (withoutCredentials h).add name value := by
  unfold withoutCredentials Header.add
  dsimp only
  rw [GoMap.filterKeys_set]
  split
  · rename_i hne
    have hname : canonicalHeaderKey name ≠ authorization := by simpa using hne
    rw [if_neg hname, GoMap.get?_filterKeys, if_pos hne]
  · rename_i hname
    rw [if_pos (by simpa using hname)]

theorem withoutCredentials_foldl_add (es : List (GoString × List GoString)) (start : Header) :
    withoutCredentials (es.foldl (fun h e => e.2.foldl (fun h v => h.add e.1 v) h) start) =
      (es.filter fun e => canonicalHeaderKey e.1 != authorization).foldl
        (fun h e => e.2.foldl (fun h v => h.add e.1 v) h) (withoutCredentials start) := by
  have hvalues : ∀ (name : GoString) (vv : List GoString) (h : Header),
      withoutCredentials (vv.foldl (fun h v => h.add name v) h) =
        if canonicalHeaderKey name = authorization then withoutCredentials h
        else vv.foldl (fun h v => h.add name v) (withoutCredentials h) := by
    intro name vv
    induction vv with
    | nil => simp
    | cons v vv ih =>
      intro h
      rw [List.foldl_cons, ih, withoutCredentials_add]
      split
      · rfl
      · rw [List.foldl_cons]
  induction es generalizing start with
  | nil => rfl
  | cons e es ih =>
    rw [List.foldl_cons, ih, hvalues]
    by_cases hname : canonicalHeaderKey e.1 = authorization
    · rw [if_pos hname, List.filter_cons_of_neg (by simpa using hname)]
    · rw [if_neg hname, List.filter_cons_of_pos (by simpa using hname), List.foldl_cons]

theorem withoutCredentials_routerHeader (cfg : ExternalConfig) (h : Header) :
    withoutCredentials (routerHeader cfg h) = routerHeader cfg (withoutCredentials h) := by
  unfold routerHeader
  rw [withoutCredentials_foldl_add]
  congr 1
  exact List.filter_comm _ _ _

section Headers

variable {h h' : Header} (heq : withoutCredentials h = withoutCredentials h')

include heq

theorem get?_eq_of_withoutCredentials {k : GoString} (hk : canonicalHeaderKey k ≠ authorization) :
    h.get? k = h'.get? k := by
  have hget := congrArg (·.get? k) heq
  unfold withoutCredentials at hget
  simpa [GoMap.get?_filterKeys, hk] using hget

theorem get_eq_of_withoutCredentials (name : GoString)
    (hk : canonicalHeaderKey name ≠ authorization) : h.get name = h'.get name := by
  unfold Header.get
  rw [get?_eq_of_withoutCredentials heq (by rwa [canonicalHeaderKey_canonicalHeaderKey])]

theorem withoutCredentials_filterKeys (p : GoString → Bool) :
    withoutCredentials (h.filterKeys p) = withoutCredentials (h'.filterKeys p) := by
  unfold withoutCredentials at heq ⊢
  rw [GoMap.filterKeys_comm, heq, GoMap.filterKeys_comm]

theorem withoutCredentials_set (name value : GoString) :
    withoutCredentials (h.set name value) = withoutCredentials (h'.set name value) := by
  unfold withoutCredentials at heq ⊢
  unfold Header.set
  rw [GoMap.filterKeys_set, GoMap.filterKeys_set, heq]

theorem withoutCredentials_injectHeaders (r : Request)
    (externalHeaders : Option (GoMap GoString)) :
    withoutCredentials (Proxy.injectHeaders h r externalHeaders) =
      withoutCredentials (Proxy.injectHeaders h' r externalHeaders) := by
  have hfold : ∀ (es : List (GoString × GoString)) {h h' : Header},
      withoutCredentials h = withoutCredentials h' →
      withoutCredentials (es.foldl (fun h e => Header.set h e.1 e.2) h) =
        withoutCredentials (es.foldl (fun h e => Header.set h e.1 e.2) h') := by
    intro es
    induction es with
    | nil => exact id
    | cons e es ih => exact fun heq => ih (withoutCredentials_set heq e.1 e.2)
  unfold Proxy.injectHeaders
  rw [get_eq_of_withoutCredentials heq _ (by decide)]
  apply hfold
  iterate 4 apply withoutCredentials_set
  exact heq

end Headers

/-! ### Programs that differ in credentials -/

def blind : (o : Op) → Gw o.Ret
  | .httpRoute req => perform (.httpRoute { req with header := withoutCredentials req.header })
  | .roundTrip req => perform (.roundTrip { req with header := withoutCredentials req.header })
  | o => perform o

/-- The two programs do the same in every environment, except for the credentials in their requests
to the router and to backends. -/
def Alike {α : Type} (P P' : Gw α) : Prop := P.interp blind = P'.interp blind

theorem Alike.bind {α β : Type} {P P' : Gw α} {f f' : α → Gw β} (hP : Alike P P')
    (hf : ∀ a, Alike (f a) (f' a)) : Alike (P >>= f) (P' >>= f') := by
  unfold Alike at hP ⊢
  rw [interp_bind, interp_bind, hP]
  congr 1
  funext a
  exact hf a

theorem Alike.refl {α : Type} (P : Gw α) : Alike P P := Eq.refl _

theorem Alike.httpRoute {β : Type} {req req' : RouterRequest}
    (h : { req with header := withoutCredentials req.header } =
      { req' with header := withoutCredentials req'.header })
    {f f' : Except GoError RouterAnswer → Gw β} (hf : ∀ ans, Alike (f ans) (f' ans)) :
    Alike (perform (.httpRoute req) >>= f) (perform (.httpRoute req') >>= f') := by
  have hk : (fun ans => (f ans).interp blind) = fun ans => (f' ans).interp blind := funext hf
  change call (.httpRoute { req with header := withoutCredentials req.header })
      (fun ans : Except GoError RouterAnswer => (f ans).interp blind) =
    call (.httpRoute { req' with header := withoutCredentials req'.header })
      fun ans : Except GoError RouterAnswer => (f' ans).interp blind
  rw [h, hk]

theorem Alike.roundTrip {β : Type} {req req' : UpstreamRequest}
    (h : { req with header := withoutCredentials req.header } =
      { req' with header := withoutCredentials req'.header })
    {f f' : Except GoError Response → Gw β} (hf : ∀ ans, Alike (f ans) (f' ans)) :
    Alike (perform (.roundTrip req) >>= f) (perform (.roundTrip req') >>= f') := by
  have hk : (fun ans => (f ans).interp blind) = fun ans => (f' ans).interp blind := funext hf
  change call (.roundTrip { req with header := withoutCredentials req.header })
      (fun ans : Except GoError Response => (f ans).interp blind) =
    call (.roundTrip { req' with header := withoutCredentials req'.header })
      fun ans : Except GoError Response => (f' ans).interp blind
  rw [h, hk]

section Decision

variable {req : RouteInput} {h' : Header}
  (heq : withoutCredentials req.headers = withoutCredentials h')

include heq

theorem buildExternalBody_eq :
    buildExternalBody req = buildExternalBody { req with headers := h' } := by
  unfold buildExternalBody
  rw [get_eq_of_withoutCredentials heq (str "X-Trino-Catalog") (by decide),
    get_eq_of_withoutCredentials heq (str "X-Trino-Schema") (by decide),
    get_eq_of_withoutCredentials heq (str "X-Trino-User") (by decide)]

theorem buildProtoRequest_eq :
    buildProtoRequest req = buildProtoRequest { req with headers := h' } := by
  unfold buildProtoRequest
  rw [get_eq_of_withoutCredentials heq (str "X-Trino-Catalog") (by decide),
    get_eq_of_withoutCredentials heq (str "X-Trino-Schema") (by decide),
    get_eq_of_withoutCredentials heq (str "X-Trino-User") (by decide),
    get_eq_of_withoutCredentials heq (str "X-Trino-Source") (by decide),
    get_eq_of_withoutCredentials heq (str "X-Trino-Client-Tags") (by decide)]

theorem routerRequest_eq (cfg : ExternalConfig) :
    let req' := routerRequest cfg { req with headers := h' }
    { routerRequest cfg req with
        header := withoutCredentials (routerRequest cfg req).header } =
      { req' with header := withoutCredentials req'.header } := by
  unfold routerRequest
  dsimp only
  rw [withoutCredentials_routerHeader, withoutCredentials_routerHeader, heq,
    buildExternalBody_eq heq]

theorem selectGroupHTTP_alike (urls : URLCodec) (cfg : ExternalConfig) :
    Alike (selectGroupHTTP urls cfg req) (selectGroupHTTP urls cfg { req with headers := h' }) := by
  unfold selectGroupHTTP
  split
  · exact .refl _
  · split
    · exact .refl _
    · refine Alike.httpRoute (routerRequest_eq heq cfg) fun ans => ?_
      cases ans with
      | error e => exact .refl _
      | ok resp => exact .refl _

theorem callHTTP_alike (r : Router) :
    Alike (r.callHTTP req) (r.callHTTP { req with headers := h' }) := by
  unfold Router.callHTTP
  exact (selectGroupHTTP_alike heq r.urls r.cfg.external).bind fun _ => .refl _

theorem callExternal_alike (r : Router) :
    Alike (r.callExternal req) (r.callExternal { req with headers := h' }) := by
  unfold Router.callExternal
  split
  · exact callHTTP_alike heq r
  · have hgrpc : selectGroupGRPC r.cfg.external req =
        selectGroupGRPC r.cfg.external { req with headers := h' } := by
      unfold selectGroupGRPC
      rw [buildProtoRequest_eq heq, perform_bind, perform_bind]
      congr 1
      funext ans
      cases ans with
      | error e => rfl
      | ok resp => rfl
    rw [← hgrpc]
    refine Alike.bind (.refl _) fun res => ?_
    cases res with
    | ok sel => exact .refl _
    | error e => exact callHTTP_alike heq r

theorem route_alike (r : Router) :
    Alike (r.route req) (r.route { req with headers := h' }) := by
  have hgroup : Alike (r.routeGroup req) (r.routeGroup { req with headers := h' }) := by
    unfold Router.routeGroup
    exact (callExternal_alike heq r).bind fun _ => .refl _
  have hcached : Router.routeCached req = Router.routeCached { req with headers := h' } := by
    have hid : extractQueryID req = extractQueryID { req with headers := h' } := rfl
    unfold Router.routeCached
    rw [hid, perform_bind, perform_bind]
    congr 2
    funext ans
    cases ans with
    | none => rfl
    | some url => rfl
  unfold Router.route
  refine Alike.bind (.refl (Router.routeKill req)) fun killed => ?_
  cases killed with
  | some result => exact .refl _
  | none =>
    dsimp only
    rw [← hcached]
    refine Alike.bind (.refl _) fun cached => ?_
    cases cached with
    | some result => exact .refl _
    | none => exact hgroup.bind fun _ => .refl _

end Decision

section Exchange

variable {p : Proxy} {r : Request} {h' : Header}
  (heq : withoutCredentials r.header = withoutCredentials h')

include heq

theorem cookie_eq (name : GoString) : r.cookie name = { r with header := h' }.cookie name := by
  unfold Request.cookie
  rw [get?_eq_of_withoutCredentials heq (by decide)]

theorem relay_credentials (b : GoString) (resp : Response) (body : GoString) :
    p.relay r b resp body = p.relay { r with header := h' } b resp body := by
  unfold Proxy.relay Proxy.applyCookies
  rw [cookie_eq heq]

theorem bufferStatement_credentials (result : RouteResult) (resp : Response) :
    p.bufferStatement r result resp = p.bufferStatement { r with header := h' } result resp := by
  unfold Proxy.bufferStatement Proxy.relayStatement Proxy.recordHistory
  rw [get_eq_of_withoutCredentials heq (str "X-Trino-User") (by decide),
    get_eq_of_withoutCredentials heq (str "X-Trino-Source") (by decide)]
  simp only [relay_credentials heq]

/-- The upstream requests are both missing, or equal without their credentials. -/
theorem upstreamRequest_credentials (body : Except GoError GoString) (result : RouteResult) :
    (p.upstreamRequest r body result = none ∧
      p.upstreamRequest { r with header := h' } body result = none) ∨
    ∃ up up', p.upstreamRequest r body result = some up ∧
      p.upstreamRequest { r with header := h' } body result = some up' ∧
      { up with header := withoutCredentials up.header } =
        { up' with header := withoutCredentials up'.header } := by
  have hheader : withoutCredentials (Proxy.injectHeaders
      (r.header.filterKeys fun k => !Proxy.isHopByHop k) r result.externalHeaders) =
      withoutCredentials (Proxy.injectHeaders (h'.filterKeys fun k => !Proxy.isHopByHop k) r
        result.externalHeaders) :=
    withoutCredentials_injectHeaders (withoutCredentials_filterKeys heq _) r _
  unfold Proxy.upstreamRequest Proxy.buildUpstreamRequest
  cases p.router.urls.parse result.backendURL with
  | error e => exact Or.inl ⟨rfl, rfl⟩
  | ok target =>
    dsimp only
    cases p.router.urls.parse _ with
    | error e => exact Or.inl ⟨rfl, rfl⟩
    | ok url =>
      dsimp only
      split
      · refine Or.inr ⟨_, _, rfl, rfl, ?_⟩
        dsimp only
        rw [hheader]
        rfl
      · exact Or.inl ⟨rfl, rfl⟩

omit heq in
theorem receive_credentials {up up' : UpstreamRequest}
    (h : { up with header := withoutCredentials up.header } =
      { up' with header := withoutCredentials up'.header }) :
    Proxy.receive p.gunzip up = Proxy.receive p.gunzip up' := by
  obtain ⟨hmethod, -, hheader, -⟩ := UpstreamRequest.mk.inj h
  have hgzip : Proxy.transparentGzip up = Proxy.transparentGzip up' := by
    unfold Proxy.transparentGzip
    rw [hmethod, get_eq_of_withoutCredentials hheader (str "Accept-Encoding") (by decide),
      get_eq_of_withoutCredentials hheader (str "Range") (by decide)]
  funext wire
  unfold Proxy.receive
  rw [hgzip]

omit heq in
theorem roundTrip_alike {up up' : UpstreamRequest}
    (h : { up with header := withoutCredentials up.header } =
      { up' with header := withoutCredentials up'.header })
    {f f' : Except GoError Response → Gw Served} (hf : ∀ res, Alike (f res) (f' res)) :
    Alike (p.roundTrip up >>= f) (p.roundTrip up' >>= f') := by
  rw [roundTrip_bind, roundTrip_bind, receive_credentials h]
  exact Alike.roundTrip h fun ans => hf _

theorem forwardStatement_alike (reqBody : GoString) (result : RouteResult) :
    Alike (p.forwardStatement r reqBody result)
      (p.forwardStatement { r with header := h' } reqBody result) := by
  unfold Proxy.forwardStatement
  split
  · exact .refl _
  · obtain ⟨hnone, hnone'⟩ | ⟨up, up', hsome, hsome', hup⟩ :=
      upstreamRequest_credentials (p := p) heq (.ok reqBody) result
    · rw [hnone, hnone']
      exact .refl _
    · rw [hsome, hsome']
      refine roundTrip_alike hup fun res => ?_
      cases res with
      | error e => exact .refl _
      | ok resp =>
        dsimp only
        rw [bufferStatement_credentials heq]
        exact .refl _

theorem forwardStream_alike (result : RouteResult) :
    Alike (p.forwardStream r result) (p.forwardStream { r with header := h' } result) := by
  unfold Proxy.forwardStream
  obtain ⟨hnone, hnone'⟩ | ⟨up, up', hsome, hsome', hup⟩ :=
    upstreamRequest_credentials (p := p) heq r.body result
  · rw [hnone, hnone']
    exact .refl _
  · rw [hsome, hsome']
    refine roundTrip_alike hup fun res => ?_
    cases res with
    | error e => exact .refl _
    | ok resp =>
      dsimp only
      rw [relay_credentials heq]
      exact .refl _

theorem newRouteInput_credentials (body : GoString) :
    newRouteInput { r with header := h' } body =
      { newRouteInput r body with headers := h' } := by
  unfold newRouteInput
  rw [get_eq_of_withoutCredentials heq (str "X-Trino-User") (by decide)]

theorem dispatch_alike : Alike (p.dispatch r) (p.dispatch { r with header := h' }) := by
  have hroute : ∀ body, Alike (p.router.route (newRouteInput r body))
      (p.router.route (newRouteInput { r with header := h' } body)) := by
    intro body
    have hheaders : withoutCredentials (newRouteInput r body).headers = withoutCredentials h' := heq
    rw [newRouteInput_credentials heq]
    exact route_alike hheaders p.router
  have hstatement : Alike (p.handleStatement r) (p.handleStatement { r with header := h' }) := by
    unfold Proxy.handleStatement
    dsimp only
    split
    · exact .refl _
    · refine (hroute _).bind fun res => ?_
      cases res with
      | error e => exact .refl _
      | ok result =>
        dsimp only
        split
        · exact .refl _
        · exact forwardStatement_alike heq _ result
  have hstream : Alike (p.handleStream r) (p.handleStream { r with header := h' }) := by
    unfold Proxy.handleStream
    refine (hroute _).bind fun res => ?_
    cases res with
    | error e => exact .refl _
    | ok result =>
      dsimp only
      split
      · exact .refl _
      · exact forwardStream_alike heq result
  have hpath : Proxy.routePath { r with header := h' } = Proxy.routePath r := rfl
  have hkind : Proxy.isStatement { r with header := h' } = Proxy.isStatement r := rfl
  unfold Proxy.dispatch
  rw [hpath, hkind]
  dsimp only
  split
  · exact .refl _
  · split
    · exact hstatement
    · split
      · exact hstream
      · exact .refl _

end Exchange

/-! ### Responses with the status 401 -/

def Op.isUnauthorized : Op → Bool
  | writeHeader status _ => status = 401
  | _ => false

/-- Every response with the status 401 is one that a backend has sent. -/
def Relayed401 (h : List GwEvent) : Prop :=
  ∀ pre header post, h = pre ++ ⟨.writeHeader 401 header, ()⟩ :: post →
    ∃ upReq resp, ⟨.roundTrip upReq, .ok resp⟩ ∈ pre ∧ resp.status = 401

theorem Relayed401.of_not_isUnauthorized {h : List GwEvent}
    (hh : ∀ e ∈ h, e.op.isUnauthorized = false) : Relayed401 h := by
  rintro pre header post rfl
  have hop := hh ⟨.writeHeader 401 header, ()⟩ (by simp)
  cases hop

theorem Relayed401.append (h h' : List GwEvent) (hh : Relayed401 h) (hh' : Relayed401 h') :
    Relayed401 (h ++ h') := by
  intro pre header post heq
  rcases List.append_eq_append_iff.mp heq with ⟨c, rfl, hc⟩ | ⟨c, rfl, hc⟩
  · obtain ⟨upReq, resp, hmem, hstatus⟩ := hh' c header post hc
    exact ⟨upReq, resp, List.mem_append_right h hmem, hstatus⟩
  · cases c with
    | nil =>
      obtain ⟨upReq, resp, hmem, hstatus⟩ := hh' [] header post hc.symm
      cases hmem
    | cons e c =>
      obtain ⟨rfl, -⟩ := List.cons.inj hc
      exact hh pre header c rfl

section Unauthorized

variable (p : Proxy) (r : Request)

theorem Op.not_isUnauthorized_of_not_isResponse {o : Op} (h : o.isResponse = false) :
    o.isUnauthorized = false := by
  cases o with
  | writeHeader status header => cases h
  | _ => rfl

theorem httpError_not401 (h : Header) (msg : GoString) {code : ℕ} (hcode : code ≠ 401) :
    (Proxy.httpError h msg code).Performs (·.isUnauthorized = false) := by
  simp [Proxy.httpError, Op.isUnauthorized, hcode]

theorem relay_not401 (b : GoString) {resp : Response} (hstatus : resp.status ≠ 401)
    (body : GoString) : (p.relay r b resp body).Performs (·.isUnauthorized = false) := by
  unfold Proxy.relay
  refine Performs.bind ((applyCookies_performs p r _ b).mono ?_) fun header => ?_
  · rintro o rfl
    rfl
  · cases header with
    | none => exact httpError_not401 _ _ (by decide)
    | some header => exact writeResponse_performs (by simp [Op.isUnauthorized, hstatus]) rfl

theorem bufferStatement_not401 (result : RouteResult) {resp : Response}
    (hstatus : resp.status ≠ 401) :
    (p.bufferStatement r result resp).Performs (·.isUnauthorized = false) :=
  bufferStatement_performs p r result resp (fun _ => httpError_not401 _ _ (by decide))
    (fun _ => rfl)
    (fun _ ho => Op.not_isUnauthorized_of_not_isResponse (Op.not_isResponse_of_isRecording ho))
    (relay_not401 p r _ hstatus)

/-- After a round trip whose response is not a 401, nothing writes that status. -/
theorem roundTrip_relayed401 (up : UpstreamRequest) {f : Except GoError Response → Gw Served}
    (hf : ∀ res, (∀ resp, res = .ok resp → resp.status ≠ 401) →
      (f res).Performs (·.isUnauthorized = false)) :
    (p.roundTrip up >>= f).Emits Relayed401 := by
  rw [roundTrip_bind]
  intro h P' hp
  cases hp with
  | nil => exact Relayed401.of_not_isUnauthorized (by simp)
  | cons ans ht =>
    by_cases hans : ∃ wire, ans = .ok wire ∧ wire.status = 401
    · obtain ⟨wire, rfl, hwire⟩ := hans
      intro pre header post heq
      cases pre with
      | nil => cases heq
      | cons e pre =>
        obtain ⟨rfl, -⟩ := List.cons.inj heq
        exact ⟨up, wire, List.mem_cons_self, hwire⟩
    · have hquiet : (f (ans.map (Proxy.receive p.gunzip up))).Performs
          (·.isUnauthorized = false) := by
        refine hf _ ?_
        intro resp hresp hstatus
        cases ans with
        | error e => cases hresp
        | ok wire =>
          obtain rfl := Except.ok.inj hresp
          refine hans ⟨wire, rfl, ?_⟩
          unfold Proxy.receive at hstatus
          split at hstatus <;> exact hstatus
      refine Relayed401.of_not_isUnauthorized ?_
      rw [List.forall_mem_cons]
      exact ⟨rfl, (hquiet.path ht).1⟩

theorem dispatch_relayed401 : (p.dispatch r).Emits Relayed401 := by
  have hquiet : ∀ {prog : Gw Served}, prog.Performs (·.isUnauthorized = false) →
      prog.Emits Relayed401 := by
    intro prog hprog
    exact hprog.emits fun h hh => Relayed401.of_not_isUnauthorized hh
  refine dispatch_emits p r Relayed401.append ?_ ?_ ?_ ?_ ?_
  · intro req h prog hpath
    refine Relayed401.of_not_isUnauthorized fun e he => ?_
    exact Op.not_isUnauthorized_of_not_isResponse
      (Op.not_isResponse_of_isRouting (route_routing _ _ hpath e he))
  · exact fun msg code hcode => hquiet (httpError_not401 _ msg hcode)
  · exact hquiet (by simp [Op.isUnauthorized])
  · intro reqBody result _
    unfold Proxy.forwardStatement
    split
    · exact hquiet (httpError_not401 _ _ (by decide))
    · split
      · exact hquiet (performs_pure _)
      · refine roundTrip_relayed401 p _ fun res hres => ?_
        cases res with
        | error e => exact httpError_not401 _ _ (by decide)
        | ok resp => exact bufferStatement_not401 p r result (hres resp rfl)
  · intro result _
    unfold Proxy.forwardStream
    split
    · exact hquiet (performs_pure _)
    · refine roundTrip_relayed401 p _ fun res hres => ?_
      cases res with
      | error e => exact httpError_not401 _ _ (by decide)
      | ok resp => exact relay_not401 p r _ (hres resp rfl) _

end Unauthorized

/-! ### The proxy port -/

def SameButCredentials (r r' : Request) : Prop :=
  withoutCredentials r.header = withoutCredentials r'.header ∧
    { r with header := r'.header } = r'

def Proxy.admits (p : Proxy) (r : Request) : Prop :=
  ∀ a, p.auth = some a → ∃ principal, a.authenticate r = .ok principal

theorem serveHTTP_of_admits {p : Proxy} {r : Request} (h : p.admits r) :
    p.serveHTTP r = p.dispatch r := by
  unfold Proxy.serveHTTP
  cases hauth : p.auth with
  | none => rfl
  | some a =>
    obtain ⟨principal, hok⟩ := h a hauth
    dsimp only
    rw [hok]

/-- A request that is not let through gets a 401 from the gateway. -/
theorem admits_of_relayed401 {p : Proxy} {r : Request} (h : (p.serveHTTP r).Emits Relayed401) :
    p.admits r := by
  intro a hauth
  cases hres : a.authenticate r with
  | ok principal => exact ⟨principal, rfl⟩
  | error msg =>
    exfalso
    have hserve : p.serveHTTP r = do Auth.writeUnauthorized msg; return .done := by
      unfold Proxy.serveHTTP
      rw [hauth]
      dsimp only
      rw [hres]
    rw [hserve] at h
    obtain ⟨upReq, resp, hmem, -⟩ := h (.cons () (.nil _)) [] _ [] rfl
    cases hmem

/-- `run`: the middleware of the admin server is installed in front of the proxy too. -/
def wireProxy (authType : GoString) (s : Auth.Services) (p : Proxy) : Except GoError Proxy :=
  match Auth.buildAuthMiddleware authType s with
  | .error e => .error (e.wrap "trino-goway: build auth: ")
  | .ok a => .ok { p with auth := some a }

theorem admits_of_noop {authType : GoString} {s : Auth.Services} {base p : Proxy}
    (hp : wireProxy authType s base = .ok p) (htype : authType = str "NOOP" ∨ authType = [])
    (r : Request) : p.admits r := by
  have hnoop : Auth.buildAuthMiddleware authType s = .ok .noop := by
    rcases htype with rfl | rfl <;> rfl
  unfold wireProxy at hp
  rw [hnoop] at hp
  obtain rfl := Except.ok.inj hp
  intro a ha
  obtain rfl := Option.some.inj ha
  exact ⟨_, rfl⟩

/-- **Credentials on the proxy port.** In the gateway as `run` wires it, two requests that differ
only in gateway credentials are routed and forwarded alike, without a 401 of the gateway's own,
exactly if the type is `NOOP` or the authenticator lets both through. -/
theorem credentials_ignored_iff {authType : GoString} {s : Auth.Services} {base p : Proxy}
    (hp : wireProxy authType s base = .ok p) {r r' : Request} (h : SameButCredentials r r') :
    (Alike (p.serveHTTP r) (p.serveHTTP r') ∧ (p.serveHTTP r).Emits Relayed401 ∧
        (p.serveHTTP r').Emits Relayed401) ↔
      (authType = str "NOOP" ∨ authType = []) ∨ (p.admits r ∧ p.admits r') := by
  obtain ⟨heq, hr'⟩ := h
  constructor
  · rintro ⟨-, hown, hown'⟩
    exact Or.inr ⟨admits_of_relayed401 hown, admits_of_relayed401 hown'⟩
  · intro hadmits
    obtain ⟨hr, hadm⟩ : p.admits r ∧ p.admits r' := by
      rcases hadmits with htype | hadmits
      · exact ⟨admits_of_noop hp htype r, admits_of_noop hp htype r'⟩
      · exact hadmits
    rw [serveHTTP_of_admits hr, serveHTTP_of_admits hadm]
    refine ⟨?_, dispatch_relayed401 p r, dispatch_relayed401 p r'⟩
    rw [← hr']
    exact dispatch_alike heq

section Samples

def sampleServices : Auth.Services where
  basicAuth v := if v = str "Basic YWxpY2U6cHc=" then some (str "alice", str "pw") else none
  bind _ _ := .ok []
  jwks := .error ⟨str "unreachable"⟩

def ldapProxy : Proxy :=
  { routedProxy [] with auth := some (.ldap sampleServices.basicAuth sampleServices.bind) }

def signedInRequest : Request :=
  { sampleRequest "GET" "/v1/info" "" with
    header := GoMap.set .empty authorization [str "Basic YWxpY2U6cHc="] }

def ldapTrace (r : Request) : List GwEvent :=
  (ldapProxy.serveHTTP r).trace (World.answers
    { active := .ok [sampleBackend "http://a" "adhoc"]
      http := fun _ => .ok ⟨200, .ok ⟨some (str "adhoc"), [], none⟩⟩
      upstream := fun _ => .ok (sampleResponse "") } (.init []))

end Samples

theorem credentials_ignored_iff_ldap :
    wireProxy (str "LDAP") sampleServices (routedProxy []) = .ok ldapProxy ∧
      SameButCredentials signedInRequest (sampleRequest "GET" "/v1/info" "") ∧
      ((Alike (ldapProxy.serveHTTP signedInRequest)
            (ldapProxy.serveHTTP (sampleRequest "GET" "/v1/info" "")) ∧
          (ldapProxy.serveHTTP signedInRequest).Emits Relayed401 ∧
          (ldapProxy.serveHTTP (sampleRequest "GET" "/v1/info" "")).Emits Relayed401) ↔
        (str "LDAP" = str "NOOP" ∨ str "LDAP" = []) ∨
          (ldapProxy.admits signedInRequest ∧
            ldapProxy.admits (sampleRequest "GET" "/v1/info" ""))) := by
  have hsame : SameButCredentials signedInRequest (sampleRequest "GET" "/v1/info" "") :=
    ⟨by decide, rfl⟩
  have hwired : wireProxy (str "LDAP") sampleServices (routedProxy []) = .ok ldapProxy := rfl
  exact ⟨hwired, hsame, credentials_ignored_iff hwired hsame⟩

/-- With LDAP, the request of the user goes upstream, and the same request without credentials is
answered with a 401 by the gateway. -/
theorem missing_credentials_refused :
    wireProxy (str "LDAP") sampleServices (routedProxy []) = .ok ldapProxy ∧
      SameButCredentials signedInRequest (sampleRequest "GET" "/v1/info" "") ∧
      (sentHeaders (ldapTrace signedInRequest)).length = 1 ∧
      sentHeaders (ldapTrace (sampleRequest "GET" "/v1/info" "")) = [] ∧
      ¬ Relayed401 (ldapTrace (sampleRequest "GET" "/v1/info" "")) := by
  refine ⟨rfl, ⟨by decide, rfl⟩, by decide +kernel, by decide +kernel, ?_⟩
  intro hrelayed
  obtain ⟨upReq, resp, hmem, -⟩ := hrelayed [] _ _ rfl
  cases hmem

end TrinoGoway
