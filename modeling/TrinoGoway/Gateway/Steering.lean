import TrinoGoway.Gateway.World
import TrinoGoway.Routing.Calls
import TrinoGoway.Routing.Decision

/-! What the text of a statement can change about its routing. -/
namespace TrinoGoway.Routing

open Go Go.Http Prog

/-! ### Statements up to their comments and string literals -/

/-- Where a scan of a statement is; a quoted identifier ends at the byte that opened it. -/
inductive SqlMode
  | code
  | identifier (delimiter : UInt8)
  | lineComment
  | blockComment
  | literal

inductive SqlItem
  | code (b : UInt8)
  | lineComment
  | blockComment
  | literal
  deriving DecidableEq

/-- The statement without the text of its comments and single-quoted literals. -/
def sqlShape : SqlMode → GoString → List SqlItem
  | _, [] => []
  | .code, 45 :: 45 :: s => .lineComment :: sqlShape .lineComment s
  | .code, 47 :: 42 :: s => .blockComment :: sqlShape .blockComment s
  | .code, 39 :: s => .literal :: sqlShape .literal s
  | .code, b :: s =>
    -- double quotes and backquotes open an identifier
    .code b :: sqlShape (if b = Byte.doubleQuote ∨ b = 96 then .identifier b else .code) s
  | .identifier d, b :: s => .code b :: sqlShape (if b = d then .code else .identifier d) s
  | .lineComment, b :: s =>
    if b = Byte.newline ∨ b = Byte.carriageReturn then .code b :: sqlShape .code s
    else sqlShape .lineComment s
  | .blockComment, 42 :: 47 :: s => sqlShape .code s
  | .blockComment, _ :: s => sqlShape .blockComment s
  -- a doubled quote is a quote in the literal
  | .literal, 39 :: 39 :: s => sqlShape .literal s
  | .literal, 39 :: s => sqlShape .code s
  | .literal, _ :: s => sqlShape .literal s

def takeWord : List SqlItem → GoString
  | .code b :: s => if Byte.isWord b then Byte.toUpper b :: takeWord s else []
  | _ => []

def firstWord : List SqlItem → GoString
  | .lineComment :: s => firstWord s
  | .blockComment :: s => firstWord s
  | .code b :: s => if isSpace b then firstWord s else takeWord (.code b :: s)
  | _ => []

/-! ### Asking the external router -/

def Consults {α : Type} (f : (o : Op) → o.Ret) (p : Gw α) : Prop :=
  ∃ e ∈ p.trace f, e.op.isExternal

section Consults

variable {α β : Type} {f : (o : Op) → o.Ret}

theorem consults_bind {p : Gw α} {g : α → Gw β} :
    Consults f (p >>= g) ↔ Consults f p ∨ Consults f (g (p.eval f)) := by
  unfold Consults
  simp only [trace_bind, List.mem_append, or_and_right, exists_or]

@[simp] theorem not_consults_pure (a : α) : ¬Consults f (pure a : Gw α) := by
  simp [Consults]

theorem consults_call {o : Op} {k : o.Ret → Gw α} :
    Consults f (call o k) ↔ o.isExternal ∨ Consults f (k (f o)) := by
  simp [Consults, trace]

private abbrev SilentTrace (h : List GwEvent) : Prop := ∀ e ∈ h, ¬e.op.isExternal

theorem not_consults_of_emits {p : Gw α} (hp : p.Emits SilentTrace) : ¬Consults f p := by
  rintro ⟨e, he, hext⟩
  exact hp (runs_trace f p) e he hext

private theorem silent_of_ops {P : Op → Bool} (hP : ∀ o, o.isExternal → P o = false)
    (h : List GwEvent) (hh : ∀ e ∈ h, P e.op) : SilentTrace h := by
  intro e he hext
  have hop := hh e he
  rw [hP e.op hext] at hop
  cases hop

private theorem silent_asking (h : List GwEvent) (hh : ∀ e ∈ h, e.op.isAsking) : SilentTrace h :=
  silent_of_ops (fun o ho => by cases o <;> simp_all [Op.isAsking, Op.isExternal]) h hh

private theorem silent_append (h h' : List GwEvent) (hh : SilentTrace h) (hh' : SilentTrace h') :
    SilentTrace (h ++ h') :=
  fun e he => (List.mem_append.mp he).elim (hh e) (hh' e)

private theorem silent_flight (q : GoString) :
    (singleFlight q (Persistence.HistoryDAO.lookupByQueryID q)).Emits SilentTrace :=
  (singleFlight_performs q).emits
    (silent_of_ops fun o ho => by cases o <;> simp_all [Op.isLookup, Op.isExternal])

theorem not_consults_routeKill (req : RouteInput) : ¬Consults f (Router.routeKill req) :=
  not_consults_of_emits (routeKill_emits silent_asking silent_append silent_flight req)

theorem not_consults_routeCached (req : RouteInput) : ¬Consults f (Router.routeCached req) :=
  not_consults_of_emits ((routeCached_performs req).emits silent_asking)

theorem consults_routeGroup (r : Router) (req : RouteInput) :
    Consults f (r.routeGroup req) ↔ Consults f (r.callExternal req) := by
  unfold Router.routeGroup
  rw [consults_bind, or_iff_left]
  rw [consults_bind, not_or]
  refine ⟨not_consults_of_emits ((resolveGroup_performs _).emits silent_asking), ?_⟩
  have hrecovered (group : GoString) (sel : Selection) :
      ¬Consults f (Router.routeRecovered req group sel) :=
    not_consults_of_emits
      (routeRecovered_emits silent_asking silent_append silent_flight req group sel)
  split
  · exact hrecovered _ _
  · exact hrecovered _ _
  · exact not_consults_pure _

/-- The external router is asked when neither a kill statement nor the cache decides. -/
theorem consults_route (r : Router) (req : RouteInput) :
    Consults f (r.route req) ↔ (Router.routeKill req).eval f = none ∧
      (Router.routeCached req).eval f = none ∧ Consults f (r.callExternal req) := by
  unfold Router.route
  rw [consults_bind, or_iff_right (not_consults_routeKill req)]
  cases (Router.routeKill req).eval f with
  | some result => simp
  | none =>
    dsimp only
    rw [consults_bind, or_iff_right (not_consults_routeCached req)]
    cases (Router.routeCached req).eval f with
    | some result => simp
    | none => simp [consults_bind, consults_routeGroup]

/-- Some transport is configured: gRPC, or HTTP with a URL that requests can be built for. -/
def Router.Reachable (r : Router) : Prop :=
  r.cfg.external.grpcAddr ≠ [] ∨
    r.cfg.external.url ≠ [] ∧ ∃ u, r.urls.parse r.cfg.external.url = .ok u

private theorem consults_selectGroupHTTP (r : Router) (req : RouteInput) :
    Consults f (selectGroupHTTP r.urls r.cfg.external req) ↔
      r.cfg.external.url ≠ [] ∧ ∃ u, r.urls.parse r.cfg.external.url = .ok u := by
  unfold selectGroupHTTP
  split
  · next hurl => simp [hurl]
  · next hurl =>
    cases r.urls.parse r.cfg.external.url with
    | error e => simp
    | ok u => simp [consults_call, Op.isExternal, hurl]

private theorem consults_callHTTP (r : Router) (req : RouteInput) :
    Consults f (r.callHTTP req) ↔
      r.cfg.external.url ≠ [] ∧ ∃ u, r.urls.parse r.cfg.external.url = .ok u := by
  unfold Router.callHTTP
  rw [consults_bind, or_iff_left, consults_selectGroupHTTP]
  split
  · exact not_consults_pure _
  · exact not_consults_pure _

theorem consults_callExternal (r : Router) (req : RouteInput) :
    Consults f (r.callExternal req) ↔ r.Reachable := by
  unfold Router.callExternal Router.Reachable
  split
  · next hgrpc => simp [hgrpc, consults_callHTTP]
  · next hgrpc => simp [hgrpc, selectGroupGRPC, consults_bind, consults_call, Op.isExternal]

end Consults

/-! ### Two bodies of one request -/

def RouteResult.selected (result : RouteResult) :
    GoString × GoString × Option (GoMap GoString) × List GoString :=
  (result.backendURL, result.routingGroup, result.externalHeaders, result.errors)

def grpcAnswer (r : Router) (f : (o : Op) → o.Ret) (req : RouteInput) :
    Except GoError RouteResponse :=
  f (.grpcRoute (externalTimeout r.cfg.external) (buildProtoRequest req))

def httpAnswer (r : Router) (f : (o : Op) → o.Ret) (req : RouteInput) :
    Except GoError RouterAnswer :=
  f (.httpRoute (routerRequest r.cfg.external req))

def SameAnswers (r : Router) (f : (o : Op) → o.Ret) (in₁ in₂ : RouteInput) : Prop :=
  grpcAnswer r f in₁ = grpcAnswer r f in₂ ∧ httpAnswer r f in₁ = httpAnswer r f in₂

/-- The external router is asked for both inputs or for neither, and equal answers of it lead to
equal selections. -/
def SameTreatment (r : Router) (f : (o : Op) → o.Ret) (in₁ in₂ : RouteInput) : Prop :=
  (Consults f (r.route in₁) ↔ Consults f (r.route in₂)) ∧
    (SameAnswers r f in₁ in₂ →
      ((r.route in₁).eval f).map RouteResult.selected =
        ((r.route in₂).eval f).map RouteResult.selected)

theorem SameTreatment.symm {r : Router} {f : (o : Op) → o.Ret} {in₁ in₂ : RouteInput}
    (h : SameTreatment r f in₁ in₂) : SameTreatment r f in₂ in₁ :=
  ⟨h.1.symm, fun hans => (h.2 ⟨hans.1.symm, hans.2.symm⟩).symm⟩

theorem SameTreatment.backendURL_eq {r : Router} {f : (o : Op) → o.Ret} {in₁ in₂ : RouteInput}
    (h : SameTreatment r f in₁ in₂) (hans : SameAnswers r f in₁ in₂) :
    ((r.route in₁).eval f).map (·.backendURL) = ((r.route in₂).eval f).map (·.backendURL) := by
  have hsel := h.2 hans
  rw [eval_route, eval_route] at hsel ⊢
  exact congrArg Except.ok (congrArg Prod.fst (Except.ok.inj hsel))

section SameKill

variable {r : Router} {f : (o : Op) → o.Ret} {in₁ in₂ : RouteInput}

theorem eval_callExternal_congr (h : SameAnswers r f in₁ in₂) :
    (r.callExternal in₁).eval f = (r.callExternal in₂).eval f := by
  obtain ⟨hgrpc, hhttp⟩ := h
  unfold grpcAnswer at hgrpc
  unfold httpAnswer at hhttp
  have hselect : (selectGroupHTTP r.urls r.cfg.external in₁).eval f =
      (selectGroupHTTP r.urls r.cfg.external in₂).eval f := by
    unfold selectGroupHTTP
    split
    · rfl
    · cases r.urls.parse r.cfg.external.url with
      | error e => rfl
      | ok u =>
        dsimp only
        rw [eval_bind, eval_bind, eval_perform, eval_perform, hhttp]
        cases f (.httpRoute (routerRequest r.cfg.external in₂)) with
        | error e => rfl
        | ok resp => rfl
  have hselect' : (selectGroupGRPC r.cfg.external in₁).eval f =
      (selectGroupGRPC r.cfg.external in₂).eval f := by
    unfold selectGroupGRPC
    rw [eval_bind, eval_bind, eval_perform, eval_perform, hgrpc]
    cases f (.grpcRoute (externalTimeout r.cfg.external) (buildProtoRequest in₂)) with
    | error e => rfl
    | ok resp => rfl
  have hcall : (r.callHTTP in₁).eval f = (r.callHTTP in₂).eval f := by
    unfold Router.callHTTP
    rw [eval_bind, eval_bind, hselect]
  unfold Router.callExternal
  split
  · exact hcall
  · rw [eval_bind, eval_bind, hselect']
    split
    · rfl
    · exact hcall

theorem eval_routeGroup_congr (hid : extractQueryID in₁ = extractQueryID in₂)
    (h : SameAnswers r f in₁ in₂) :
    (r.routeGroup in₁).eval f = (r.routeGroup in₂).eval f := by
  have hrecovered : Router.routeRecovered in₁ = Router.routeRecovered in₂ := by
    unfold Router.routeRecovered Router.recoverPath
    rw [hid]
  unfold Router.routeGroup
  simp only [eval_bind, eval_callExternal_congr h, hrecovered]

/-- Of a body, only the query id of its `KILL QUERY` matters outside of the external router. -/
theorem sameTreatment_of_kill (hid : extractQueryID in₁ = extractQueryID in₂)
    (hkill : extractKillQueryID in₁.body = extractKillQueryID in₂.body) :
    SameTreatment r f in₁ in₂ := by
  have hk : Router.routeKill in₁ = Router.routeKill in₂ := by
    unfold Router.routeKill
    rw [hkill]
  have hc : (Router.routeCached in₁).eval f = (Router.routeCached in₂).eval f := by
    by_cases hnil : extractQueryID in₂ = []
    · rw [eval_routeCached_none hnil, eval_routeCached_none (hid.trans hnil)]
    · rw [eval_routeCached hnil, eval_routeCached (hid.trans_ne hnil), hid]
  constructor
  · rw [consults_route, consults_route, consults_callExternal, consults_callExternal, hk, hc]
  · intro hans
    rw [eval_route, eval_route, hk, hc, eval_routeGroup_congr hid hans]

end SameKill

section OtherKill

-- no backend is active, the history knows `q` only, and the cache knows the id in the path
private def steeringState (q path : GoString) : Shared :=
  let row : Persistence.QueryRecord :=
    { queryID := q, backendURL := str "a", externalURL := [], userName := [], source := [] }
  let s := Shared.init [row]
  { s with cache := s.cache.add path (str "b") }

private def steeringAnswers (q path : GoString) : (o : Op) → o.Ret :=
  World.answers { active := .ok [] } (steeringState q path)

variable {q q' path : GoString}

private theorem steering_maps : HistoryMaps (steeringAnswers q path) q (str "a") := by
  refine ⟨?_, fun c h => ?_⟩
  · simp [steeringAnswers, World.answers, World.answer, steeringState, Shared.init,
      Shared.backendOf]
  · cases h

private theorem steering_lost (h : q ≠ q') :
    (recoverBackend q').eval (steeringAnswers q path) = [] := by
  have hselect : steeringAnswers q path (.selectHistory q') = .ok none := by
    simp [steeringAnswers, World.answers, World.answer, steeringState, Shared.init,
      Shared.backendOf, h]
  have hactive : listActive.eval (steeringAnswers q path) = .ok [] := rfl
  have hhistory : (recoverFromHistory q').eval (steeringAnswers q path) = [] := by
    unfold recoverFromHistory singleFlight Persistence.HistoryDAO.lookupByQueryID
    have henter : steeringAnswers q path (.enterFlight q') = .lead ⟨q', 0⟩ := rfl
    simp [hselect, henter]
  unfold recoverBackend recoverFromActive
  rw [eval_bind, hhistory]
  simp [hactive]

/-- The state tells the two apart: only the first is sent where the history says. -/
private theorem steering_differs (r : Router) (in₁ in₂ : RouteInput)
    (hnil : extractKillQueryID in₁.body ≠ [])
    (hne : extractKillQueryID in₁.body ≠ extractKillQueryID in₂.body) :
    ∃ f, ¬SameTreatment r f in₁ in₂ := by
  let f := steeringAnswers (extractKillQueryID in₁.body) (extractQueryID in₂)
  have hkill₁ : (Router.routeKill in₁).eval f = some ⟨str "a", [], none, [], .killQuery⟩ := by
    rw [eval_routeKill hnil, eval_recoverBackend steering_maps (by decide)]
    rfl
  have hkill₂ : (Router.routeKill in₂).eval f = none := by
    by_cases hnil₂ : extractKillQueryID in₂.body = []
    · exact eval_routeKill_none hnil₂
    · rw [eval_routeKill hnil₂, steering_lost hne]
      rfl
  have hactive : listActive.eval f = .ok [] := rfl
  have hurl₂ : (((Router.routeCached in₂).eval f).getD ((r.routeGroup in₂).eval f)).backendURL ≠
      str "a" := by
    by_cases hpath : extractQueryID in₂ = []
    · have hchosen : chosenURL r f in₂ = [] := by
        simp [chosenURL, resolvedURL, groupURL, firstActiveURL, firstURL, hactive]
      rw [eval_routeCached_none hpath, Option.getD_none, eval_routeGroup_chosen r hpath, hchosen]
      decide
    · have hcached : f (.cacheGet (extractQueryID in₂)) = some (str "b") :=
        Lru.Cache.lookup_add_self _ _ _ (by decide)
      rw [eval_routeCached hpath, hcached]
      exact (by decide : str "b" ≠ str "a")
  refine ⟨f, fun h => ?_⟩
  have hurl := h.backendURL_eq ⟨rfl, rfl⟩
  rw [eval_route, eval_route, hkill₁, hkill₂] at hurl
  exact hurl₂ (Except.ok.inj hurl).symm

end OtherKill

/-- Two bodies of one request are treated alike in every state exactly when the gateway reads
the same killed query from them, whatever their comments and literals. -/
theorem sameTreatment_iff (r : Router) (req : Request) (b₁ b₂ : GoString) :
    (∀ f, SameTreatment r f (newRouteInput req b₁) (newRouteInput req b₂)) ↔
      extractKillQueryID b₁ = extractKillQueryID b₂ := by
  have hid : extractQueryID (newRouteInput req b₁) = extractQueryID (newRouteInput req b₂) := rfl
  constructor
  · intro h
    by_contra hne
    by_cases hnil : extractKillQueryID b₁ = []
    · have hnil₂ : extractKillQueryID b₂ ≠ [] := fun h₂ => hne (hnil.trans h₂.symm)
      obtain ⟨f, hf⟩ := steering_differs r (newRouteInput req b₂) (newRouteInput req b₁) hnil₂
        (Ne.symm hne)
      exact hf (h f).symm
    · obtain ⟨f, hf⟩ := steering_differs r (newRouteInput req b₁) (newRouteInput req b₂) hnil hne
      exact hf (h f)
  · exact fun h f => sameTreatment_of_kill hid h

/-- A comment takes a statement past the external router, to the backend of another query. -/
theorem comment_steers :
    let router : Router :=
      { (sampleProxy true).router with
        cfg := ⟨str "adhoc", ⟨str "http://router", [], 0, []⟩⟩ }
    let row : Persistence.QueryRecord :=
      { queryID := str "1_2_3_x", backendURL := str "http://etl", externalURL := [],
        userName := [], source := [] }
    let world : World :=
      { active := .ok [sampleBackend "http://adhoc" "adhoc"]
        http := fun _ => .ok ⟨200, .ok ⟨some (str "adhoc"), [], none⟩⟩ }
    let f := world.answers (.init [row])
    let b₁ := str "SELECT 1 /* KILL QUERY '1_2_3_x' */"
    let b₂ := str "SELECT 1 /* one */"
    let in₁ := newRouteInput (sampleRequest "POST" "/v1/statement" "") b₁
    let in₂ := newRouteInput (sampleRequest "POST" "/v1/statement" "") b₂
    sqlShape .code b₁ = sqlShape .code b₂ ∧ firstWord (sqlShape .code b₁) ≠ str "KILL" ∧
      firstWord (sqlShape .code b₂) ≠ str "KILL" ∧ SameAnswers router f in₁ in₂ ∧
      ((router.route in₁).eval f).map (·.backendURL) = .ok (str "http://etl") ∧
      ((router.route in₂).eval f).map (·.backendURL) = .ok (str "http://adhoc") ∧
      ¬SameTreatment router f in₁ in₂ := by
  intro router row world f b₁ b₂ in₁ in₂
  have hbackend₁ : ((router.route in₁).eval f).map (·.backendURL) = .ok (str "http://etl") := by
    decide +kernel
  have hbackend₂ : ((router.route in₂).eval f).map (·.backendURL) = .ok (str "http://adhoc") := by
    decide +kernel
  refine ⟨by decide +kernel, by decide +kernel, by decide +kernel, ⟨rfl, rfl⟩, hbackend₁,
    hbackend₂, fun h => ?_⟩
  have hurl := h.backendURL_eq ⟨rfl, rfl⟩
  rw [hbackend₁, hbackend₂] at hurl
  exact absurd (Except.ok.inj hurl) (by decide)

end TrinoGoway.Routing
