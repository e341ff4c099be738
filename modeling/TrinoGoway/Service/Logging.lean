import TrinoGoway.Go.Marshal
import TrinoGoway.Service.Server

/-! What the routing service logs while it serves `Route`: the pipeline's records of failed methods
and recovered panics, and the sampled, redacted record of the decision. -/
namespace TrinoGoway.Service.Logging

open Go Engine SqlMeta Prog
open Json (hexEncode)

inductive Level
  | debug
  | info
  | warn
  | error
  deriving DecidableEq

def Level.severity : Level → ℤ
  | debug => -4
  | info => 0
  | warn => 4
  | error => 8

/-- `slog.Value`; `V` are the values that a method may panic with. -/
inductive Value (V : Type)
  | string (s : GoString)
  | int (n : ℤ)
  | bool (b : Bool)
  | error (e : GoError)
  | any (v : V)
  deriving DecidableEq

structure Record (V : Type) where
  level : Level
  message : GoString
  attrs : List (GoString × Value V)
  deriving DecidableEq

/-- How a call of a method's `Evaluate` ends. -/
inductive Outcome (V : Type)
  | returned (d : Decision) (err : Option GoError)
  | panicked (v : V)

variable {M V : Type}

/-- What the pipeline sees of it; `sprint` is how `fmt` prints a value for `%v`. -/
def Outcome.ended (sprint : V → GoString) : Outcome V → Ended
  | returned d err => .returned d err
  | panicked v => .panicked (sprint v)

inductive Op (M V : Type)
  | evaluate (c : Call M)
  /-- `debug.Stack()`, in the function that is deferred around `c` -/
  | stack (c : Call M)
  | emit (r : Record V)
  /-- `time.Now()` -/
  | now
  /-- `time.Since(start)` -/
  | since (start : Time)
  /-- the sampler's choice -/
  | sample

abbrev Ret : Op M V → Type
  | .evaluate _ => Outcome V
  | .stack _ => GoString
  | .emit _ => Unit
  | .now => Time
  | .since _ => Duration
  | .sample => Bool

abbrev Code (M V α : Type) := Prog (Ret (M := M) (V := V)) α

namespace Code

def evaluate (c : Call M) : Code M V (Outcome V) := Prog.perform (Op.evaluate c)
def stack (c : Call M) : Code M V GoString := Prog.perform (Op.stack c)
def now : Code M V Time := Prog.perform Op.now
def since (start : Time) : Code M V Duration := Prog.perform (Op.since start)
def sample : Code M V Bool := Prog.perform Op.sample

def log (min : Level) (r : Record V) : Code M V Unit :=
  if min.severity ≤ r.level.severity then Prog.perform (Op.emit r) else pure ()

end Code

/-! ### The records -/

def panicRecord (type : GoString) (v : V) (stack : GoString) : Record V :=
  ⟨.error, str "engine: pipeline: panic in method — recovered",
    [(str "type", .string type), (str "panic", .any v), (str "stack", .string stack)]⟩

def errorRecord (type : GoString) (err : GoError) : Record V :=
  ⟨.warn, str "engine: pipeline: method error, skipping",
    [(str "type", .string type), (str "err", .error err)]⟩

def getUser (req : RouteRequest) : GoString := (req.trinoRequestUser.map (·.user)).getD []

def skippingRecord (req : RouteRequest) : Record V :=
  ⟨.debug, str "routing: non-new submission, skipping eval",
    [(str "uri", .string req.requestUri), (str "method", .string req.method)]⟩

def evaluatingRecord (req : RouteRequest) : Record V :=
  ⟨.debug, str "routing: evaluating",
    [(str "source", .string req.trinoSource), (str "user", .string (getUser req)),
      (str "uri", .string req.requestUri)]⟩

def categoryText : Option Category → GoString
  | none => []
  | some .read => str "READ"
  | some .write => str "WRITE"
  | some .ddl => str "DDL"
  | some .dml => str "DML"
  | some .explain => str "EXPLAIN"
  | some .other => str "OTHER"

structure SQLSummary where
  queryType : GoString
  queryCategory : Option Category
  parseOK : Bool
  catalogCount : ℕ
  schemaCount : ℕ
  tableCount : ℕ
  deriving DecidableEq

def summarize (input : RouteInput) : SQLSummary where
  queryType := input.queryType
  queryCategory := input.queryCategory
  parseOK := input.parseOK
  catalogCount := input.catalogs.length
  schemaCount := input.schemas.length
  tableCount := input.tables.length

structure DecisionFields where
  ruleID : GoString
  source : GoString
  user : GoString
  body : GoString
  routingGroup : GoString
  latency : Duration
  configVersionHash : GoString
  fallback : Bool
  sql : SQLSummary

def bodyHash (sum256 : GoString → GoString) (body : GoString) : GoString :=
  if body = [] then [] else (hexEncode (sum256 body)).take 8

def decisionRecord (sum256 : GoString → GoString) (f : DecisionFields) : Record V :=
  ⟨.info, str "routing: decision",
    [(str "rule_id", .string f.ruleID),
      (str "source", .string f.source),
      (str "user", .string f.user),
      (str "body_sha256", .string (bodyHash sum256 f.body)),
      (str "routing_group", .string f.routingGroup),
      (str "latency_ms", .int (f.latency.tdiv 1000000)),
      (str "config_version_hash", .string f.configVersionHash),
      (str "fallback", .bool f.fallback),
      (str "query_type", .string f.sql.queryType),
      (str "query_category", .string (categoryText f.sql.queryCategory)),
      (str "sql_parse_ok", .bool f.sql.parseOK),
      (str "catalog_count", .int f.sql.catalogCount),
      (str "schema_count", .int f.sql.schemaCount),
      (str "table_count", .int f.sql.tableCount)]⟩

/-- The server as `Route` reads it: `level` is that of its logger, and `pipeline`, `analyzer` and
`upperText` make up its evaluator. -/
structure RouteServer (M V : Type) where
  pipeline : Pipeline M
  analyzer : SQLAnalyzer
  upperText : GoString → GoString
  defaultRoutingGroup : GoString
  configVersion : GoString
  level : Level
  sprint : V → GoString
  sum256 : GoString → GoString

namespace RouteServer

variable [RoutingMethod M] (srv : RouteServer M V)

def inputFromProto (req : RouteRequest) : RouteInput :=
  Engine.inputFromProto srv.upperText srv.analyzer req

def panicError (type : GoString) (v : V) : GoError :=
  ⟨str "panic in method " ++ quoted type ++ str ": " ++ srv.sprint v⟩

/-- The function that `safeEvaluate` defers, after a call that ended with this outcome. -/
def deferred (c : Call M) : Outcome V → Code M V (Decision × Option GoError)
  | .returned d err => pure (d, err)
  | .panicked v => do
    let stack ← Code.stack c
    Code.log srv.level (panicRecord (typeName c.method) v stack)
    pure ({}, some (srv.panicError (typeName c.method) v))

def safeEvaluate (input : RouteInput) : Engine.Entry M → Code M V (Decision × Option GoError)
  | .live m => do
    let r ← Code.evaluate ⟨m, input⟩
    srv.deferred ⟨m, input⟩ r
  | .disabled _ => pure ({}, none)

def evaluateResultFrom (input : RouteInput) : Bool → List (Engine.Entry M) → Code M V EvalResult
  | hadErr, [] =>
    pure { routingGroup := srv.pipeline.defaultGroup, decided := false, hadError := hadErr }
  | hadErr, m :: ms =>
    if m.isDisabled then evaluateResultFrom input hadErr ms
    else do
      match ← srv.safeEvaluate input m with
      | (_, some err) =>
        Code.log srv.level (errorRecord m.typeName err)
        evaluateResultFrom input true ms
      | (d, none) =>
        if d.decided then
          let group := if d.routingGroup = [] then srv.pipeline.defaultGroup else d.routingGroup
          pure
            { routingGroup := group, methodType := m.typeName, decided := true, hadError := hadErr }
        else evaluateResultFrom input hadErr ms

def evaluateResult (input : RouteInput) : Code M V EvalResult :=
  srv.evaluateResultFrom input false srv.pipeline.methods

def shouldLog (isFallback : Bool) : Code M V Bool :=
  if isFallback then pure true else Code.sample

def logDecision (f : DecisionFields) : Code M V Unit := do
  if ← shouldLog f.fallback then Code.log srv.level (decisionRecord srv.sum256 f)

def decisionFields (req : RouteRequest) (body : GoString) (input : RouteInput) (res : EvalResult)
    (latency : Duration) : DecisionFields where
  ruleID := res.methodType
  source := req.trinoSource
  user := getUser req
  body := body
  routingGroup := res.routingGroup
  latency := latency
  configVersionHash := srv.configVersion
  fallback := !res.decided
  sql := summarize input

def withDefault (res : EvalResult) : EvalResult :=
  if res.routingGroup = [] then { res with routingGroup := srv.defaultRoutingGroup } else res

omit [RoutingMethod M] in
theorem routingGroup_withDefault {res : EvalResult}
    (h : res.routingGroup = [] → srv.defaultRoutingGroup = []) :
    (srv.withDefault res).routingGroup = res.routingGroup := by
  unfold withDefault
  split
  next hnil => exact (h hnil).trans hnil.symm
  next => rfl

def route (req : RouteRequest) : Code M V Routing.RouteResponse :=
  match req.trinoQueryProperties with
  | none => do
    Code.log srv.level (skippingRecord req)
    pure ⟨[], none, []⟩
  | some qp =>
    if !qp.isNewQuerySubmission then do
      Code.log srv.level (skippingRecord req)
      pure ⟨[], none, []⟩
    else do
      Code.log srv.level (evaluatingRecord req)
      let start ← Code.now
      let input := srv.inputFromProto req
      let res ← srv.evaluateResult input
      let latency ← Code.since start
      let res := srv.withDefault res
      srv.logDecision (srv.decisionFields req qp.body input res latency)
      pure ⟨res.routingGroup, none, []⟩

end RouteServer

/-! ### Runs -/

structure Answers (M V : Type) where
  evaluate : Call M → Outcome V
  stack : Call M → GoString
  now : Time
  since : Time → Duration
  sample : Bool

namespace Answers

variable (a : Answers M V)

def answer : (o : Op M V) → Ret o
  | .evaluate c => a.evaluate c
  | .stack c => a.stack c
  | .emit _ => ()
  | .now => a.now
  | .since start => a.since start
  | .sample => a.sample

def ended (sprint : V → GoString) (c : Call M) : Ended := (a.evaluate c).ended sprint

end Answers

def Op.record? : Op M V → Option (Record V)
  | .emit r => some r
  | _ => none

def logged {α : Type} (a : Answers M V) (p : Code M V α) : List (Record V) :=
  (p.trace a.answer).filterMap fun e => e.op.record?

section Logged

variable {α β : Type} (a : Answers M V)

@[simp] theorem logged_pure (x : α) : logged a (pure x : Code M V α) = [] := rfl

theorem logged_bind (p : Code M V α) (k : α → Code M V β) :
    logged a (p >>= k) = logged a p ++ logged a (k (p.eval a.answer)) := by
  rw [logged, trace_bind, List.filterMap_append]
  rfl

def Level.admits (min : Level) (r : Record V) : Bool := min.severity ≤ r.level.severity

@[simp] theorem logged_log (min : Level) (r : Record V) :
    logged a (Code.log min r : Code M V Unit) = [r].filter min.admits := by
  unfold Code.log
  split
  next h => simp [logged, Prog.perform, trace, Op.record?, Level.admits, h]
  next h => simp [Level.admits, h]

@[simp] theorem logged_now : logged a (Code.now : Code M V Time) = [] := rfl

@[simp] theorem logged_since (start : Time) :
    logged a (Code.since start : Code M V Duration) = [] := rfl

@[simp] theorem logged_sample : logged a (Code.sample : Code M V Bool) = [] := rfl

@[simp] theorem eval_now : (Code.now : Code M V Time).eval a.answer = a.now := rfl

@[simp] theorem eval_since (start : Time) :
    (Code.since start : Code M V Duration).eval a.answer = a.since start := rfl

@[simp] theorem eval_sample : (Code.sample : Code M V Bool).eval a.answer = a.sample := rfl

end Logged

inductive Failure (V : Type)
  | error (e : GoError)
  | panic (v : V) (stack : GoString)
  deriving DecidableEq

def Answers.failure? (a : Answers M V) (c : Call M) : Option (Failure V) :=
  match a.evaluate c with
  | .returned _ none => none
  | .returned _ (some e) => some (.error e)
  | .panicked v => some (.panic v (a.stack c))

namespace RouteServer

variable [RoutingMethod M] (srv : RouteServer M V) (a : Answers M V) (input : RouteInput)

def panicRecords (type : GoString) : Failure V → List (Record V)
  | .error _ => []
  | .panic v stack => [panicRecord type v stack]

def failureError (type : GoString) : Failure V → GoError
  | .error e => e
  | .panic v _ => srv.panicError type v

def failureRecords (type : GoString) (x : Failure V) : List (Record V) :=
  panicRecords type x ++ [errorRecord type (srv.failureError type x)]

def failuresOf (ms : List M) : List (Record V) :=
  ms.flatMap fun m => (a.failure? ⟨m, input⟩).toList.flatMap (srv.failureRecords (typeName m))

theorem failuresOf_cons (m : M) (ms : List M) :
    srv.failuresOf a input (m :: ms) =
      (a.failure? ⟨m, input⟩).toList.flatMap (srv.failureRecords (typeName m)) ++
        srv.failuresOf a input ms := rfl

inductive CallEnds (c : Call M) : Prop
  | fails (x : Failure V) (hfailure : a.failure? c = some x) (d : Decision)
      (hrec : recovered c.method (a.ended srv.sprint c) =
        (d, some (srv.failureError (typeName c.method) x)))
      (hf : (a.ended srv.sprint c).failed = true) (hd : (a.ended srv.sprint c).decision? = none)
  | returns (d : Decision) (hfailure : a.failure? c = none)
      (hended : a.ended srv.sprint c = .returned d none)

theorem callEnds (c : Call M) : srv.CallEnds a c := by
  cases hm : a.evaluate c with
  | panicked v =>
    have hended : a.ended srv.sprint c = .panicked (srv.sprint v) := by
      rw [Answers.ended, hm]
      rfl
    refine .fails (.panic v (a.stack c)) ?_ {} ?_ ?_ ?_
    · rw [Answers.failure?, hm]
    · rw [hended]
      rfl
    · rw [hended]
      rfl
    · rw [hended]
      rfl
  | returned d err =>
    have hended : a.ended srv.sprint c = .returned d err := by
      rw [Answers.ended, hm]
      rfl
    cases err with
    | none => exact .returns d (by rw [Answers.failure?, hm]) hended
    | some e =>
      refine .fails (.error e) ?_ d ?_ ?_ ?_
      · rw [Answers.failure?, hm]
      · rw [hended]
        rfl
      · rw [hended]
        rfl
      · rw [hended]
        rfl

theorem safeEvaluate_spec (m : M) :
    (srv.safeEvaluate input (.live m)).eval a.answer =
        recovered m (a.ended srv.sprint ⟨m, input⟩) ∧
      logged a (srv.safeEvaluate input (.live m)) =
        ((a.failure? ⟨m, input⟩).toList.flatMap (panicRecords (typeName m))).filter
          srv.level.admits := by
  have hcall : (srv.safeEvaluate input (.live m)).eval a.answer =
      (srv.deferred ⟨m, input⟩ (a.evaluate ⟨m, input⟩)).eval a.answer := rfl
  have hlog : logged a (srv.safeEvaluate input (.live m)) =
      logged a (srv.deferred ⟨m, input⟩ (a.evaluate ⟨m, input⟩)) := rfl
  rw [hcall, hlog, Answers.ended, Answers.failure?]
  cases a.evaluate ⟨m, input⟩ with
  | returned d err =>
    cases err with
    | none => exact ⟨rfl, rfl⟩
    | some e => exact ⟨rfl, rfl⟩
  | panicked v =>
    constructor
    · simp only [deferred, eval_bind]
      rfl
    · simp only [deferred, logged_bind, logged_log, logged_pure, List.append_nil]
      rfl

theorem evaluateResultFrom_spec (hadErr : Bool) (ms : List (Engine.Entry M)) :
    (srv.evaluateResultFrom input hadErr ms).eval a.answer =
        srv.pipeline.reported input (a.ended srv.sprint) hadErr (enabled ms) ∧
      logged a (srv.evaluateResultFrom input hadErr ms) =
        (srv.failuresOf a input
          (passedOver (a.ended srv.sprint) input (enabled ms))).filter srv.level.admits := by
  induction ms generalizing hadErr with
  | nil =>
    constructor
    · simp [evaluateResultFrom, Pipeline.reported, passedOver, chosen, decider]
    · rfl
  | cons m ms ih =>
    cases m with
    | disabled e => exact ih hadErr
    | live m =>
      obtain ⟨hcall, hlog⟩ := srv.safeEvaluate_spec a input m
      have hloop : srv.evaluateResultFrom input hadErr (.live m :: ms) =
        srv.safeEvaluate input (.live m) >>= _ := rfl
      rw [hloop, eval_bind, logged_bind, hcall, hlog, enabled_live]
      rcases srv.callEnds a ⟨m, input⟩ with ⟨x, hfailure, d, hrec, hf, hd⟩ | ⟨d, hfailure, hended⟩
      · rw [Pipeline.reported_of_fails _ hf hd, passedOver_of_passes hd, hrec, failuresOf_cons,
          hfailure]
        dsimp only
        rw [eval_bind, logged_bind, logged_log, (ih true).1, (ih true).2]
        simp only [Option.toList_some, List.flatMap_cons, List.flatMap_nil, List.append_nil,
          failureRecords, List.filter_append, List.append_assoc]
        exact ⟨trivial, rfl⟩
      · have hf : (a.ended srv.sprint ⟨m, input⟩).failed = false := by rw [hended]; rfl
        rw [hfailure]
        cases hdec : d.decided with
        | true =>
          have hd : (a.ended srv.sprint ⟨m, input⟩).decision? = some d := by
            rw [hended]
            exact if_pos hdec
          rw [Pipeline.reported_of_decides _ hd, passedOver_of_decides hd, hended, recovered]
          dsimp only
          rw [if_pos hdec]
          exact ⟨rfl, rfl⟩
        | false =>
          have hd : (a.ended srv.sprint ⟨m, input⟩).decision? = none := by
            rw [hended]
            exact if_neg (by simp [hdec])
          rw [Pipeline.reported_of_defers _ hf hd, passedOver_of_passes hd, failuresOf_cons,
            hfailure, hended, recovered]
          dsimp only
          rw [if_neg (by simp [hdec])]
          exact ih hadErr

def resultOf (req : RouteRequest) : EvalResult :=
  srv.withDefault (srv.pipeline.reported (srv.inputFromProto req) (a.ended srv.sprint) false
    (enabled srv.pipeline.methods))

def passedOverOf (req : RouteRequest) : List M :=
  passedOver (a.ended srv.sprint) (srv.inputFromProto req) (enabled srv.pipeline.methods)

omit [RoutingMethod M] in
@[simp] theorem logged_logDecision (f : DecisionFields) :
    logged a (srv.logDecision f : Code M V Unit) =
      (if f.fallback || a.sample then [decisionRecord srv.sum256 f] else []).filter
        srv.level.admits := by
  unfold logDecision shouldLog
  rw [logged_bind]
  cases hf : f.fallback with
  | true => simp
  | false =>
    simp only [Bool.false_eq_true, if_false, Bool.false_or, eval_sample, logged_sample,
      List.nil_append]
    cases a.sample with
    | true => simp
    | false => simp

variable {srv a} {req : RouteRequest} {qp : Routing.TrinoQueryProperties GoString}
  (hqp : req.trinoQueryProperties = some qp) (hnew : qp.isNewQuerySubmission = true)
include hqp hnew

theorem route_spec :
    (srv.route req).eval a.answer = ⟨(srv.resultOf a req).routingGroup, none, []⟩ ∧
      logged a (srv.route req) =
        ([evaluatingRecord req] ++ srv.failuresOf a (srv.inputFromProto req)
          (srv.passedOverOf a req) ++
          if !(srv.resultOf a req).decided || a.sample then
            [decisionRecord srv.sum256 (srv.decisionFields req qp.body (srv.inputFromProto req)
              (srv.resultOf a req) (a.since a.now))]
          else []).filter srv.level.admits := by
  obtain ⟨heval, hlog⟩ := srv.evaluateResultFrom_spec a (srv.inputFromProto req) false
    srv.pipeline.methods
  unfold route
  rw [hqp]
  dsimp only
  rw [if_neg (by simp [hnew])]
  have heval' : (srv.evaluateResult (srv.inputFromProto req)).eval a.answer = _ := heval
  have hlog' : logged a (srv.evaluateResult (srv.inputFromProto req)) = _ := hlog
  constructor
  · simp only [eval_bind, heval']
    rfl
  · simp only [logged_bind, logged_log, logged_logDecision, logged_now, logged_since, logged_pure,
      eval_now, eval_since, heval', hlog', List.nil_append, List.append_nil, List.filter_append,
      List.append_assoc]
    rfl

end RouteServer

/-- The server that `main` has started, with its logger. -/
def ofServer (w : World M) (srv : Server M) (level : Level) (sprint : V → GoString)
    (sum256 : GoString → GoString) : RouteServer M V where
  pipeline := newPipeline srv.state.live srv.cfg.defaultRoutingGroup
  analyzer := analyzerOf w srv.cfg.sqlParsing
  upperText := w.upperText
  defaultRoutingGroup := srv.cfg.defaultRoutingGroup
  configVersion := srv.state.configVersion
  level := level
  sprint := sprint
  sum256 := sum256

/-- Logging apart, this is the server's `Route`. -/
theorem eval_route_ofServer [RoutingMethod M] (w : World M) (srv : Server M) (level : Level)
    (sprint : V → GoString) (sum256 : GoString → GoString) (a : Answers M V)
    (req : RouteRequest) :
    .ok (((ofServer w srv level sprint sum256).route req).eval a.answer) =
      (srv.route w req).run.eval (a.ended sprint) := by
  cases hqp : req.trinoQueryProperties with
  | none =>
    unfold RouteServer.route Server.route
    rw [hqp]
    dsimp only
    rw [eval_bind]
    rfl
  | some qp =>
    cases hnew : qp.isNewQuerySubmission with
    | false =>
      unfold RouteServer.route Server.route
      rw [hqp]
      dsimp only
      rw [if_pos (by simp [hnew]), if_pos (by simp [hnew]), eval_bind]
      rfl
    | true =>
      have hlive : enabled (srv.state.live.map Engine.Entry.live) = srv.state.live :=
        enabled_map_live srv.state.live
      rw [(RouteServer.route_spec hqp hnew).1, srv.eval_route hqp hnew, RouteServer.resultOf,
        RouteServer.routingGroup_withDefault]
      · dsimp only [Pipeline.reported, ofServer, newPipeline]
        rw [hlive]
        rfl
      · exact chosen_group_eq_nil

/-! ### Two requests that differ in the body -/

/-- A record without the body hash and the latency. -/
def Record.redact (r : Record V) : Record V :=
  { r with attrs := r.attrs.filter fun kv => kv.1 ≠ str "body_sha256" ∧ kv.1 ≠ str "latency_ms" }

theorem redact_errorRecord (type : GoString) (err : GoError) :
    (errorRecord type err : Record V).redact = errorRecord type err := rfl

theorem redact_panicRecord (type : GoString) (v : V) (stack : GoString) :
    (panicRecord type v stack).redact = panicRecord type v stack := rfl

theorem redact_decisionRecord (sum256 : GoString → GoString) (f : DecisionFields) :
    (decisionRecord sum256 f : Record V).redact =
      (decisionRecord sum256 { f with body := [], latency := 0 }).redact := rfl

theorem map_redact_decisionRecord (sum256 : GoString → GoString) {f₁ f₂ : DecisionFields}
    (h : { f₁ with body := [], latency := 0 } = { f₂ with body := [], latency := 0 })
    (min : Level) :
    ([decisionRecord (V := V) sum256 f₁].filter min.admits).map Record.redact =
      ([decisionRecord sum256 f₂].filter min.admits).map Record.redact := by
  have hredact : (decisionRecord (V := V) sum256 f₁).redact = (decisionRecord sum256 f₂).redact :=
    (redact_decisionRecord sum256 f₁).trans ((congrArg (fun f => (decisionRecord sum256 f).redact)
      h).trans (redact_decisionRecord sum256 f₂).symm)
  have hadmits : min.admits (decisionRecord (V := V) sum256 f₁) =
      min.admits (decisionRecord (V := V) sum256 f₂) := rfl
  cases h₂ : min.admits (decisionRecord (V := V) sum256 f₂) with
  | false => simp [hadmits, h₂]
  | true => simp [hadmits, h₂, hredact]

def withBody (req : RouteRequest) (body : GoString) : RouteRequest :=
  { req with trinoQueryProperties := req.trinoQueryProperties.map ({ · with body := body }) }

def Outcome.failed : Outcome V → Bool
  | returned _ err => err.isSome
  | panicked _ => true

def Outcome.Alike (r₁ r₂ : Outcome V) : Prop :=
  (∃ d, r₁ = .returned d none ∧ r₂ = .returned d none) ∨ (r₁.failed = true ∧ r₂.failed = true)

theorem isSome_failure? (a : Answers M V) (c : Call M) :
    (a.failure? c).isSome = (a.evaluate c).failed := by
  unfold Answers.failure?
  cases a.evaluate c with
  | panicked v => rfl
  | returned d err => cases err <;> rfl

theorem Outcome.failed_ended (sprint : V → GoString) (r : Outcome V) :
    (r.ended sprint).failed = r.failed := by
  cases r <;> rfl

theorem Outcome.decision?_of_failed (sprint : V → GoString) {r : Outcome V} (h : r.failed = true) :
    (r.ended sprint).decision? = none := by
  cases r with
  | panicked v => rfl
  | returned d err =>
    cases err with
    | none => cases h
    | some e => rfl

theorem Outcome.Alike.ended {r₁ r₂ : Outcome V} (h : r₁.Alike r₂) (sprint : V → GoString) :
    (r₁.ended sprint).decision? = (r₂.ended sprint).decision? ∧
      (r₁.ended sprint).failed = (r₂.ended sprint).failed := by
  rcases h with ⟨d, rfl, rfl⟩ | ⟨h₁, h₂⟩
  · exact ⟨rfl, rfl⟩
  · rw [decision?_of_failed sprint h₁, decision?_of_failed sprint h₂, failed_ended, failed_ended,
      h₁, h₂]
    exact ⟨rfl, rfl⟩

theorem Outcome.Alike.failed_eq {r₁ r₂ : Outcome V} (h : r₁.Alike r₂) : r₁.failed = r₂.failed := by
  rcases h with ⟨d, rfl, rfl⟩ | ⟨h₁, h₂⟩
  · rfl
  · rw [h₁, h₂]

namespace RouteServer

variable [RoutingMethod M] (srv : RouteServer M V)

/-- The recovered panics of the calls of `ms`, in order, with the type of the method. -/
def panics (a : Answers M V) (input : RouteInput) (ms : List M) :
    List (GoString × V × GoString) :=
  ms.filterMap fun m =>
    match a.failure? ⟨m, input⟩ with
    | some (.panic v stack) => some (typeName m, v, stack)
    | _ => none

/-- What the failures of the methods `ms` show is the same. A logger at level error does not show
errors, and of panics it does not show at which method of a type they were. -/
def SameFailures (a₁ a₂ : Answers M V) (input₁ input₂ : RouteInput) (ms : List M) : Prop :=
  if srv.level = .error then panics a₁ input₁ ms = panics a₂ input₂ ms
  else ∀ m ∈ ms, a₁.failure? ⟨m, input₁⟩ = a₂.failure? ⟨m, input₂⟩

omit [RoutingMethod M] in
theorem failureRecords_append_inj (type : GoString) {x y : Failure V} {l₁ l₂ : List (Record V)} :
    srv.failureRecords type x ++ l₁ = srv.failureRecords type y ++ l₂ ↔ x = y ∧ l₁ = l₂ := by
  constructor
  · intro h
    cases x with
    | error e =>
      cases y with
      | error e' =>
        simp only [failureRecords, panicRecords, failureError, errorRecord, List.nil_append,
          List.cons_append, List.cons.injEq, Record.mk.injEq, Prod.mk.injEq, Value.error.injEq,
          true_and, and_true] at h
        exact ⟨congrArg Failure.error h.1, h.2⟩
      | panic v stack => simp [failureRecords, panicRecords, errorRecord, panicRecord] at h
    | panic v stack =>
      cases y with
      | error e => simp [failureRecords, panicRecords, errorRecord, panicRecord] at h
      | panic v' stack' =>
        simp only [failureRecords, panicRecords, failureError, panicRecord, List.nil_append,
          List.cons_append, List.cons.injEq, Record.mk.injEq, Prod.mk.injEq, Value.any.injEq,
          Value.string.injEq, true_and, and_true] at h
        obtain ⟨⟨rfl, rfl⟩, -, hl⟩ := h
        exact ⟨rfl, hl⟩
  · rintro ⟨rfl, rfl⟩
    rfl

section Failures

variable {srv} {a₁ a₂ : Answers M V} {input₁ input₂ : RouteInput} {ms : List M}

theorem failuresOf_eq_iff
    (hms : ∀ m ∈ ms, (a₁.failure? ⟨m, input₁⟩).isSome = (a₂.failure? ⟨m, input₂⟩).isSome) :
    srv.failuresOf a₁ input₁ ms = srv.failuresOf a₂ input₂ ms ↔
      ∀ m ∈ ms, a₁.failure? ⟨m, input₁⟩ = a₂.failure? ⟨m, input₂⟩ := by
  induction ms with
  | nil => simp [failuresOf]
  | cons m ms ih =>
    obtain ⟨hm, hms⟩ := List.forall_mem_cons.mp hms
    rw [List.forall_mem_cons, ← ih hms, failuresOf_cons, failuresOf_cons]
    cases h₁ : a₁.failure? ⟨m, input₁⟩ with
    | none =>
      have h₂ : a₂.failure? ⟨m, input₂⟩ = none := by
        rw [h₁] at hm
        exact Option.isSome_eq_false_iff.mp hm.symm |> Option.isNone_iff_eq_none.mp
      simp [h₂]
    | some x =>
      obtain ⟨y, h₂⟩ : ∃ y, a₂.failure? ⟨m, input₂⟩ = some y := by
        rw [h₁] at hm
        exact Option.isSome_iff_exists.mp hm.symm
      rw [h₂, Option.some.injEq]
      simp only [Option.toList_some, List.flatMap_cons, List.flatMap_nil, List.append_nil]
      exact srv.failureRecords_append_inj (typeName m)

variable {a : Answers M V} {input : RouteInput}

theorem of_mem_failuresOf {r : Record V} (h : r ∈ srv.failuresOf a input ms) :
    (∃ type v stack, r = panicRecord type v stack) ∨ ∃ type e, r = errorRecord type e := by
  obtain ⟨m, -, h⟩ := List.mem_flatMap.mp h
  obtain ⟨x, -, h⟩ := List.mem_flatMap.mp h
  rcases List.mem_append.mp h with h | h
  · cases x with
    | error e => cases h
    | panic v stack => exact Or.inl ⟨_, v, stack, List.mem_singleton.mp h⟩
  · exact Or.inr ⟨_, _, List.mem_singleton.mp h⟩

theorem map_redact_failuresOf :
    (srv.failuresOf a input ms).map Record.redact = srv.failuresOf a input ms := by
  refine (List.map_congr_left ?_).trans (List.map_id _)
  intro r hr
  rcases of_mem_failuresOf hr with ⟨type, v, stack, rfl⟩ | ⟨type, e, rfl⟩
  · exact redact_panicRecord type v stack
  · exact redact_errorRecord type e

theorem filter_failuresOf (h : srv.level ≠ .error) :
    (srv.failuresOf a input ms).filter srv.level.admits = srv.failuresOf a input ms := by
  refine List.filter_eq_self.mpr ?_
  intro r hr
  rcases of_mem_failuresOf hr with ⟨type, v, stack, rfl⟩ | ⟨type, e, rfl⟩
  · cases srv.level <;> rfl
  · cases hlevel : srv.level with
    | error => exact absurd hlevel h
    | debug => rfl
    | info => rfl
    | warn => rfl

theorem filter_failuresOf_error (h : srv.level = .error) :
    (srv.failuresOf a input ms).filter srv.level.admits =
      (panics a input ms).map fun x => panicRecord x.1 x.2.1 x.2.2 := by
  induction ms with
  | nil => rfl
  | cons m ms ih =>
    rw [failuresOf_cons, List.filter_append, ih, h]
    cases hm : a.failure? ⟨m, input⟩ with
    | none =>
      have hpanics : panics a input (m :: ms) = panics a input ms := by simp [panics, hm]
      rw [hpanics]
      rfl
    | some x =>
      cases x with
      | error e =>
        have hpanics : panics a input (m :: ms) = panics a input ms := by simp [panics, hm]
        rw [hpanics]
        rfl
      | panic v stack =>
        have hpanics : panics a input (m :: ms) =
            (typeName m, v, stack) :: panics a input ms := by simp [panics, hm]
        rw [hpanics]
        rfl

omit [RoutingMethod M] in
theorem panicRecord_injective :
    Function.Injective fun x : GoString × V × GoString => panicRecord x.1 x.2.1 x.2.2 := by
  intro x y h
  simp only [panicRecord, Record.mk.injEq, List.cons.injEq, Prod.mk.injEq, Value.string.injEq,
    Value.any.injEq, true_and, and_true] at h
  exact Prod.ext h.1 (Prod.ext h.2.1 h.2.2)

/-- The log shows of the failures what `SameFailures` compares. -/
theorem failures_shown_eq_iff
    (hms : ∀ m ∈ ms, (a₁.failure? ⟨m, input₁⟩).isSome = (a₂.failure? ⟨m, input₂⟩).isSome) :
    ((srv.failuresOf a₁ input₁ ms).filter srv.level.admits).map Record.redact =
        ((srv.failuresOf a₂ input₂ ms).filter srv.level.admits).map Record.redact ↔
      srv.SameFailures a₁ a₂ input₁ input₂ ms := by
  unfold SameFailures
  split
  next h =>
    rw [filter_failuresOf_error h, filter_failuresOf_error h, List.map_map, List.map_map]
    exact (List.map_injective_iff.mpr panicRecord_injective).eq_iff
  next h =>
    rw [filter_failuresOf h, filter_failuresOf h, map_redact_failuresOf, map_redact_failuresOf]
    exact failuresOf_eq_iff hms

end Failures

/-- For two new submissions that differ in the body, whose methods give the same decisions or fail
in both, with equal SQL summaries and choices of the sampler: the records that serving them logs
are equal up to the body hash and the latency exactly when the failures of the methods before the
first that decides show the same. -/
theorem route_logs_alike_iff {req : RouteRequest} {body : GoString} {a₁ a₂ : Answers M V}
    {qp : Routing.TrinoQueryProperties GoString}
    (hqp : req.trinoQueryProperties = some qp) (hnew : qp.isNewQuerySubmission = true)
    (hmethods : ∀ m ∈ enabled srv.pipeline.methods,
      (a₁.evaluate ⟨m, srv.inputFromProto req⟩).Alike
        (a₂.evaluate ⟨m, srv.inputFromProto (withBody req body)⟩))
    (hsql : summarize (srv.inputFromProto req) =
      summarize (srv.inputFromProto (withBody req body)))
    (hsample : a₁.sample = a₂.sample) :
    (logged a₁ (srv.route req)).map Record.redact =
        (logged a₂ (srv.route (withBody req body))).map Record.redact ↔
      srv.SameFailures a₁ a₂ (srv.inputFromProto req) (srv.inputFromProto (withBody req body))
        (srv.passedOverOf a₁ req) := by
  have hqp' : (withBody req body).trinoQueryProperties = some { qp with body := body } := by
    simp [withBody, hqp]
  have hends : ∀ m ∈ enabled srv.pipeline.methods,
      (a₁.ended srv.sprint ⟨m, srv.inputFromProto req⟩).decision? =
          (a₂.ended srv.sprint ⟨m, srv.inputFromProto (withBody req body)⟩).decision? ∧
        (a₁.ended srv.sprint ⟨m, srv.inputFromProto req⟩).failed =
          (a₂.ended srv.sprint ⟨m, srv.inputFromProto (withBody req body)⟩).failed :=
    fun m hm => (hmethods m hm).ended srv.sprint
  obtain ⟨hreported, hpassed⟩ := Pipeline.reported_congr (p := srv.pipeline) hends false
  have hresult : srv.resultOf a₁ req = srv.resultOf a₂ (withBody req body) :=
    congrArg srv.withDefault hreported
  have hpassed' : srv.passedOverOf a₁ req = srv.passedOverOf a₂ (withBody req body) := hpassed
  have hfails : ∀ m ∈ srv.passedOverOf a₁ req,
      (a₁.failure? ⟨m, srv.inputFromProto req⟩).isSome =
        (a₂.failure? ⟨m, srv.inputFromProto (withBody req body)⟩).isSome := by
    intro m hm
    have hmem : m ∈ enabled srv.pipeline.methods := (List.takeWhile_prefix _).subset hm
    rw [isSome_failure?, isSome_failure?]
    exact (hmethods m hmem).failed_eq
  rw [(route_spec hqp hnew).2, (route_spec hqp' hnew).2, ← hresult, ← hpassed', ← hsample,
    ← failures_shown_eq_iff hfails]
  simp only [List.filter_append, List.map_append, List.append_assoc]
  have hevaluating : (evaluatingRecord (withBody req body) : Record V) = evaluatingRecord req := rfl
  have hfields : { srv.decisionFields req qp.body (srv.inputFromProto req) (srv.resultOf a₁ req)
        (a₁.since a₁.now) with body := [], latency := 0 } =
      { srv.decisionFields (withBody req body) body (srv.inputFromProto (withBody req body))
        (srv.resultOf a₁ req) (a₂.since a₂.now) with body := [], latency := 0 } := by
    simp only [decisionFields, hsql]
    rfl
  have hdecision := map_redact_decisionRecord (V := V) srv.sum256 hfields srv.level
  rw [hevaluating, List.append_cancel_left_eq]
  split
  · rw [hdecision, List.append_cancel_right_eq]
  · rw [List.append_cancel_right_eq]

end RouteServer

def exprServer : RouteServer Numbered GoString where
  pipeline := newPipeline [⟨0, str "expr"⟩] (str "adhoc")
  analyzer := noop
  upperText := id
  defaultRoutingGroup := str "adhoc"
  configVersion := []
  level := .info
  sprint := id
  sum256 := id

def failingWith (message : GoString → GoString) : Answers Numbered GoString where
  evaluate c := .returned {} (some ⟨message c.input.body⟩)
  stack _ := []
  now := 0
  since _ := 0
  sample := true

theorem failingWith_alike (message : GoString → GoString) (req req' : RouteRequest) :
    ∀ m ∈ enabled exprServer.pipeline.methods,
      ((failingWith message).evaluate ⟨m, exprServer.inputFromProto req⟩).Alike
        ((failingWith message).evaluate ⟨m, exprServer.inputFromProto req'⟩) :=
  fun _ _ => Or.inr ⟨rfl, rfl⟩

/-- An error without the body keeps the body out of the log. -/
theorem route_logs_alike_plain :
    (logged (failingWith fun _ => str "timeout") (exprServer.route submission)).map Record.redact =
      (logged (failingWith fun _ => str "timeout")
        (exprServer.route (withBody submission (str "SELECT 2")))).map Record.redact := by
  have hqp : submission.trinoQueryProperties = some _ := rfl
  have hsql : summarize (exprServer.inputFromProto submission) =
    summarize (exprServer.inputFromProto (withBody submission (str "SELECT 2"))) := rfl
  refine (exprServer.route_logs_alike_iff hqp rfl (failingWith_alike _ _ _) hsql rfl).mpr ?_
  intro m _
  rfl

def conversionError (body : GoString) : GoString :=
  str "invalid operation: int(" ++ body ++ str ")"

/-- The error quotes the statement, and the log quotes the error. -/
theorem error_text_logs_body :
    (∀ m ∈ enabled exprServer.pipeline.methods,
      ((failingWith conversionError).evaluate ⟨m, exprServer.inputFromProto submission⟩).Alike
        ((failingWith conversionError).evaluate
          ⟨m, exprServer.inputFromProto (withBody submission (str "SELECT 2"))⟩)) ∧
      summarize (exprServer.inputFromProto submission) =
        summarize (exprServer.inputFromProto (withBody submission (str "SELECT 2"))) ∧
      errorRecord (str "expr") ⟨str "invalid operation: int(SELECT 1)"⟩ ∈
        logged (failingWith conversionError) (exprServer.route submission) ∧
      (logged (failingWith conversionError) (exprServer.route submission)).map Record.redact ≠
        (logged (failingWith conversionError)
          (exprServer.route (withBody submission (str "SELECT 2")))).map Record.redact := by
  refine ⟨failingWith_alike _ _ _, rfl, ?_, ?_⟩
  · exact List.mem_cons_self
  · decide

end TrinoGoway.Service.Logging
