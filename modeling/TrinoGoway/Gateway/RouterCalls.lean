import TrinoGoway.Gateway.Exchange
import TrinoGoway.Gateway.World
import TrinoGoway.Go.Url
import TrinoGoway.Service.Server

/-! What the routing service is told about a request, and what it makes of it. -/
namespace TrinoGoway

open Go Go.Http Routing Prog

section Asked

def OnlyAsksAbout (p : Proxy) (r : Request) (h : List GwEvent) : Prop :=
  ∀ e ∈ h, e.op.isExternal = true → ∃ body, e.op.asks p.router.cfg.external (newRouteInput r body)

variable {p : Proxy} {r : Request}

theorem OnlyAsksAbout.append {h h' : List GwEvent} (hh : OnlyAsksAbout p r h)
    (hh' : OnlyAsksAbout p r h') : OnlyAsksAbout p r (h ++ h') :=
  fun e he => (List.mem_append.mp he).elim (hh e) (hh' e)

theorem OnlyAsksAbout.of_not_isExternal {h : List GwEvent} {P : Op → Bool}
    (hP : ∀ o, P o = true → o.isExternal = false) (hh : ∀ e ∈ h, P e.op = true) :
    OnlyAsksAbout p r h := by
  intro e he hext
  rw [hP e.op (hh e he)] at hext
  cases hext

theorem Op.not_isExternal_of_isResponse {o : Op} (h : o.isResponse) : o.isExternal = false :=
  Op.not_isExternal_of (fun _ _ => rfl) (fun _ => rfl) h

theorem Op.not_isExternal_of_isServing {o : Op} {b : GoString} (h : o.isServing b) :
    o.isExternal = false :=
  Op.not_isExternal_of (fun _ _ => rfl) (fun _ => rfl) h

theorem route_asks (body : GoString) :
    (p.router.route (newRouteInput r body)).Emits (OnlyAsksAbout p r) := by
  refine route_emits ?_ ?_ ?_ ?_
  · exact fun h => OnlyAsksAbout.of_not_isExternal fun _ => Op.not_isExternal_of_isAsking
  · exact fun h h' => OnlyAsksAbout.append
  · exact fun q => (singleFlight_performs q).emits fun h =>
      OnlyAsksAbout.of_not_isExternal fun _ => Op.not_isExternal_of_isLookup
  · exact (callExternal_asks _ _).emits fun h hh e he _ => ⟨body, hh e he⟩

theorem serveHTTP_asks (p : Proxy) (r : Request) : (p.serveHTTP r).Emits (OnlyAsksAbout p r) := by
  have hresponse : ∀ {prog : Gw Served}, prog.Performs (·.isResponse) →
      prog.Emits (OnlyAsksAbout p r) := fun hprog => hprog.emits fun h =>
    OnlyAsksAbout.of_not_isExternal fun _ => Op.not_isExternal_of_isResponse
  have hserving : ∀ {prog : Gw Served} {b : GoString}, prog.Performs (·.isServing b) →
      prog.Emits (OnlyAsksAbout p r) := fun hprog => hprog.emits fun h =>
    OnlyAsksAbout.of_not_isExternal fun _ => Op.not_isExternal_of_isServing
  obtain hs | ⟨msg, hs⟩ := serveHTTP_eq p r
  · rw [hs]
    refine dispatch_emits p r ?_ route_asks ?_ ?_ ?_ ?_
    · exact fun h h' => OnlyAsksAbout.append
    · exact fun msg code _ => hresponse (httpError_performs _ msg code)
    · exact hresponse (by simp [Op.isResponse])
    · exact fun reqBody result _ => hserving (forwardStatement_serves p r reqBody result)
    · exact fun result _ => hserving (forwardStream_serves p r result)
  · rw [hs]
    exact hresponse ((writeUnauthorized_performs msg).bind fun _ => performs_pure _)

end Asked

def onWire (req : Routing.RouteRequest) : Engine.RouteRequest where
  trinoQueryProperties := some req.trinoQueryProperties
  trinoRequestUser := some req.trinoRequestUser
  method := req.method
  requestUri := req.requestUri
  remoteAddr := req.remoteAddr
  parameterMap := req.parameterMap
  trinoSource := req.trinoSource
  clientTags := req.clientTags

section Samples

open Service Engine

private def grpcProxy : Proxy :=
  { sampleProxy false with
    router := ⟨⟨str "adhoc", ⟨[], str "router:9001", 0, []⟩⟩, (sampleProxy false).router.urls⟩ }

private def grpcTrace (r : Request) : List GwEvent :=
  (grpcProxy.serveHTTP r).trace (World.answers
    { active := .ok [sampleBackend "http://a" "adhoc"]
      grpc := fun _ => .ok ⟨[], none, []⟩
      upstream := fun _ => .ok (sampleResponse "") } (.init []))

private def grpcQuestion (r : Request) : GwEvent :=
  ⟨.grpcRoute defaultExternalTimeout (buildProtoRequest (newRouteInput r [])),
    .ok ⟨[], none, []⟩⟩

private def oneMethod : Server Numbered :=
  ⟨defaultConfig, { live := [⟨0, str "expr"⟩], configVersion := [] }⟩

end Samples

section Gate

open Service Engine

/-- The gate of `Server.Route`: whether the pipeline is evaluated. -/
def evaluates (req : Engine.RouteRequest) : Bool :=
  (req.trinoQueryProperties.map (·.isNewQuerySubmission)).getD false

variable {M : Type} [RoutingMethod M] (w : Service.World M) (srv : Server M)
  {req : Engine.RouteRequest}

theorem route_of_not_evaluates (h : evaluates req = false) :
    srv.route w req = pure ⟨[], none, []⟩ := by
  unfold evaluates at h
  unfold Server.route
  cases hqp : req.trinoQueryProperties with
  | none => rfl
  | some qp =>
    rw [hqp] at h
    have hnew : qp.isNewQuerySubmission = false := h
    simp only [hnew, Bool.not_false, if_true]

theorem evaluates_onWire {req : Routing.RouteInput} :
    evaluates (onWire (buildProtoRequest req)) = true ↔ req.method = str "POST" := by
  simp [evaluates, onWire, buildProtoRequest]

/-- The service evaluates only new statements exactly when the request is not a POST to another
path. -/
theorem evaluates_only_statements_iff {p : Proxy} {r : Request} {h : List GwEvent}
    {P' : Gw Served} (hp : Path (p.serveHTTP r) h P') {timeout : Duration}
    {req : Routing.RouteRequest} {ans : Except GoError Routing.RouteResponse}
    (hasked : ⟨.grpcRoute timeout req, ans⟩ ∈ h) :
    (evaluates (onWire req) = true → Proxy.isStatement r = true) ∧
        (Proxy.isStatement r = false → srv.route w (onWire req) = pure ⟨[], none, []⟩) ↔
      (r.method = str "POST" → Proxy.isStatement r = true) := by
  obtain ⟨body, -, rfl⟩ := serveHTTP_asks p r hp _ hasked rfl
  have hgate : evaluates (onWire (buildProtoRequest (newRouteInput r body))) = true ↔
      r.method = str "POST" := evaluates_onWire
  constructor
  · rintro ⟨honly, -⟩ hpost
    exact honly (hgate.mpr hpost)
  · intro hpost
    refine ⟨fun heval => hpost (hgate.mp heval), fun hst => ?_⟩
    apply route_of_not_evaluates
    by_contra heval
    have hst' := hpost (hgate.mp (by simpa using heval))
    rw [hst] at hst'
    cases hst'

theorem evaluates_only_statements_get :
    let r := sampleRequest "GET" "/v1/info" ""
    let req := onWire (buildProtoRequest (newRouteInput r []))
    (evaluates req = true → Proxy.isStatement r = true) ∧
      (Proxy.isStatement r = false → oneMethod.route accepting req = pure ⟨[], none, []⟩) :=
  (evaluates_only_statements_iff accepting oneMethod (runs_trace _ _)
    (show grpcQuestion (sampleRequest "GET" "/v1/info" "") ∈
      grpcTrace (sampleRequest "GET" "/v1/info" "") from List.mem_cons_self)).mpr (by decide)

/-- A POST to another path than that of statements runs the method. -/
theorem post_elsewhere_evaluated :
    let r := sampleRequest "POST" "/v1/info" ""
    grpcQuestion r ∈ grpcTrace r ∧ Proxy.isStatement r = false ∧
      Pipeline.called
        (oneMethod.route accepting (onWire (buildProtoRequest (newRouteInput r [])))) deferring =
        [⟨0, str "expr"⟩] := by
  refine ⟨List.mem_cons_self, ?_, ?_⟩
  · decide
  · decide

end Gate

section Parameters

/-- The operation tells the external router these parameters: lists of values over HTTP, and over
gRPC the values joined with commas, as the methods of the routing service find them. -/
def Op.carries (upperText : GoString → GoString) (analyzer : SqlMeta.SQLAnalyzer)
    (params : GoMap (List GoString)) : Op → Prop
  | .httpRoute req => ∀ k, req.body.parameters.get? k = params.get? k
  | .grpcRoute _ req =>
    ∀ k, (Engine.inputFromProto upperText analyzer (onWire req)).paramMap.get? k =
      (params.get? k).map fun vals => join vals (str ",")
  | _ => True

theorem inputFromProto_paramMap (upperText : GoString → GoString) (analyzer : SqlMeta.SQLAnalyzer)
    (req : Engine.RouteRequest) :
    (Engine.inputFromProto upperText analyzer req).paramMap = req.parameterMap := by
  have hfill : ∀ input, (Engine.fillSQLMeta analyzer input).paramMap = input.paramMap := by
    intro input
    unfold Engine.fillSQLMeta
    split
    · rfl
    · rfl
  have hproto : (Engine.fromProto req).paramMap = req.parameterMap := by
    unfold Engine.fromProto
    cases req.trinoRequestUser with
    | none => cases req.trinoQueryProperties <;> rfl
    | some u => cases req.trinoQueryProperties <;> rfl
  unfold Engine.inputFromProto
  rw [hfill, ← hproto]
  split
  · rfl
  · rfl

/-- Nothing on the proxy port parses the form of a request, so the parameters reach the external
router exactly when there are none. -/
theorem carries_parameters_iff (upperText : GoString → GoString) (analyzer : SqlMeta.SQLAnalyzer)
    {p : Proxy} {r : Request} (hform : r.form = none) {h : List GwEvent} {P' : Gw Served}
    (hp : Path (p.serveHTTP r) h P') {e : GwEvent} (he : e ∈ h) (hasked : e.op.isExternal = true) :
    e.op.carries upperText analyzer (Url.parseQuery r.rawQuery) ↔
      ∀ k, (Url.parseQuery r.rawQuery).get? k = none := by
  obtain ⟨body, hop⟩ := serveHTTP_asks p r hp e he hasked
  obtain ⟨op, ans⟩ := e
  cases op with
  | httpRoute req =>
    have hparams : req.body.parameters = .empty := by
      rw [hop]
      simp [routerRequest, buildExternalBody, newRouteInput, hform]
    simp only [Op.carries, hparams]
    exact forall_congr' fun k => eq_comm
  | grpcRoute timeout req =>
    have hparams : req.parameterMap = .empty := by
      rw [hop.2]
      simp [buildProtoRequest, newRouteInput, hform, GoMap.mapVals, GoMap.empty]
    have hparamMap : (Engine.inputFromProto upperText analyzer (onWire req)).paramMap = .empty :=
      (inputFromProto_paramMap upperText analyzer (onWire req)).trans hparams
    simp only [Op.carries, hparamMap]
    refine forall_congr' fun k => ?_
    rw [eq_comm]
    exact Option.map_eq_none_iff
  | _ => cases hasked

theorem carries_parameters_none :
    (grpcQuestion (sampleRequest "GET" "/v1/info" "")).op.carries id SqlMeta.noop .empty :=
  (carries_parameters_iff id SqlMeta.noop rfl (runs_trace _ _)
    (show grpcQuestion (sampleRequest "GET" "/v1/info" "") ∈
      grpcTrace (sampleRequest "GET" "/v1/info" "") from List.mem_cons_self) rfl).mpr fun _ => rfl

/-- Neither transport tells the router the parameter of the query string. -/
theorem query_parameter_dropped :
    let r := { sampleRequest "GET" "/v1/info" "" with rawQuery := str "a=1" }
    grpcQuestion r ∈ grpcTrace r ∧
      (Url.parseQuery r.rawQuery).get? (str "a") = some [str "1"] ∧
      (Engine.inputFromProto id SqlMeta.noop
        (onWire (buildProtoRequest (newRouteInput r [])))).paramMap.get? (str "a") = none ∧
      (buildExternalBody (newRouteInput r [])).parameters.get? (str "a") = none := by
  refine ⟨List.mem_cons_self, ?_, ?_, ?_⟩
  · decide
  · decide
  · decide

end Parameters

end TrinoGoway
