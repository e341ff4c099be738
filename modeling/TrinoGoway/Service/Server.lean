import TrinoGoway.Engine.Adapter
import TrinoGoway.Reload.LastGood

/-! The routing service as `main` puts it together: started from the content of its configuration
file, reloaded from another content, and answering `Route`. -/
namespace TrinoGoway.Service

open Go Engine SqlMeta Prog

/-- What the service does not define: `strings.ToLower` and `strings.ToUpper` beyond ASCII, and the
providers, which accept or refuse a configuration text of their type. -/
structure World (M : Type) where
  lower : GoString → GoString
  upperText : GoString → GoString
  loadConfig : GoString → GoString → Except GoError M

/-- A running service: the configuration it was started with, and what reloads change. -/
structure Server (M : Type) where
  cfg : Config
  state : Reload.State M

variable {M : Type} (w : World M) (env : Reload.Env)

def buildMethods : List MethodConfig → Except GoError (List M)
  | [] => .ok []
  | mc :: mcs => do
    let m ← build (F := Id) w.loadConfig mc
    let ms ← buildMethods mcs
    pure (m :: ms)

def startWith (cfg : Config) (hash : GoString) : Except GoError (Server M) := do
  let live ← buildMethods w cfg.methods
  pure ⟨cfg, { live, configVersion := hash }⟩

/-- `main`, while the configuration file holds `content`. -/
def start (content : GoString) : Except GoError (Server M) := do
  let cfg ← load env.unmarshal env.path (.ok content)
  startWith w cfg (env.hashBytes content)

def analyzerOf (sqlParsing : SQLParsingConfig) : SQLAnalyzer :=
  if sqlParsing.enabled then (newHeuristic sqlParsing.maxBodyBytes).analyze w.lower else noop

theorem ok_of_bind {α β : Type} {x : Except GoError α} {f : α → Except GoError β} {b : β}
    (h : x >>= f = .ok b) : ∃ a, x = .ok a ∧ f a = .ok b := by
  cases x with
  | error e => cases h
  | ok a => exact ⟨a, rfl, h⟩

namespace Server

/-- `Server.Route`. Pipeline, evaluator and server keep what `main` took from the configuration
for them. -/
def route [RoutingMethod M] (srv : Server M) (req : RouteRequest) :
    Exec M Routing.RouteResponse :=
  match req.trinoQueryProperties with
  | none => pure ⟨[], none, []⟩
  | some qp =>
    if !qp.isNewQuerySubmission then pure ⟨[], none, []⟩
    else do
      let p := newPipeline srv.state.live srv.cfg.defaultRoutingGroup
      let res ← p.evaluateResult (inputFromProto w.upperText (analyzerOf w srv.cfg.sqlParsing) req)
      let group := if res.routingGroup = [] then srv.cfg.defaultRoutingGroup else res.routingGroup
      pure ⟨group, none, []⟩

variable {w} in
theorem eval_route [RoutingMethod M] (srv : Server M) {req : RouteRequest}
    {qp : Routing.TrinoQueryProperties GoString} (hqp : req.trinoQueryProperties = some qp)
    (hnew : qp.isNewQuerySubmission = true) (f : Call M → Ended) :
    (srv.route w req).run.eval f =
      .ok ⟨(chosen srv.cfg.defaultRoutingGroup f
        (inputFromProto w.upperText (analyzerOf w srv.cfg.sqlParsing) req)
        srv.state.live).routingGroup, none, []⟩ := by
  let p := newPipeline srv.state.live srv.cfg.defaultRoutingGroup
  have heval := (p.entryPoints_agree
    (inputFromProto w.upperText (analyzerOf w srv.cfg.sqlParsing) req) f).1.2.1
  have hlive : enabled p.methods = srv.state.live := enabled_map_live srv.state.live
  rw [hlive] at heval
  unfold route
  rw [hqp]
  dsimp only
  rw [if_neg (by simp [hnew]), ExceptT.run_bind, eval_bind, heval]
  dsimp only [Pipeline.reported]
  split
  next h =>
    have hdefault : srv.cfg.defaultRoutingGroup = [] := chosen_group_eq_nil h
    have hgroup : (chosen srv.cfg.defaultRoutingGroup f
        (inputFromProto w.upperText (analyzerOf w srv.cfg.sqlParsing) req)
        srv.state.live).routingGroup = srv.cfg.defaultRoutingGroup := h.trans hdefault.symm
    rw [hgroup]
    rfl
  next => rfl

def answers (content : GoString) (s : Reload.State M) : (o : Reload.Op M) → Reload.Ret o
  | .readFile => .ok content
  | .loadConfig type raw => w.loadConfig type raw
  | .loadHash => s.lastHash
  | .loadMethods => s.live
  | .evaluate _ => .returned {} none
  | .swap _ | .storeHash _ | .addSuccess | .addError | .addCount | .audit _
  | .setConfigVersion _ => ()

def reload (srv : Server M) (content : GoString) : Server M :=
  { srv with
    state := ((Reload.reload env).trace (answers w content srv.state)).foldl Reload.State.apply
      srv.state }

variable {w env}

theorem foldl_reload_cfg (srv : Server M) (contents : List GoString) :
    (contents.foldl (reload w env) srv).cfg = srv.cfg := by
  induction contents generalizing srv with
  | nil => rfl
  | cons content contents ih => exact ih _

/-! ### A reload that finds a valid configuration -/

theorem eval_build (content : GoString) (s : Reload.State M) (mc : MethodConfig) :
    (build Reload.Code.loadConfig mc).eval (answers w content s) =
      build (F := Id) w.loadConfig mc := by
  unfold build
  split
  · have hanswer : (Reload.Code.loadConfig mc.type (methodConfigBytes mc)).eval
        (answers w content s) = w.loadConfig mc.type (methodConfigBytes mc) := rfl
    rw [eval_bind, hanswer]
    cases w.loadConfig mc.type (methodConfigBytes mc) <;> rfl
  · rfl

theorem buildMethods_cons_ok {mc : MethodConfig} {mcs : List MethodConfig} {ms : List M}
    (h : buildMethods w (mc :: mcs) = .ok ms) :
    ∃ m ms', build (F := Id) w.loadConfig mc = .ok m ∧ buildMethods w mcs = .ok ms' ∧
      ms = m :: ms' := by
  obtain ⟨m, hm, h⟩ := ok_of_bind h
  obtain ⟨ms', hms, h⟩ := ok_of_bind h
  exact ⟨m, ms', hm, hms, (Except.ok.inj h).symm⟩

theorem eval_buildAll {content : GoString} {s : Reload.State M} {mcs : List MethodConfig}
    {ms : List M} (h : buildMethods w mcs = .ok ms) :
    (Reload.buildAll mcs).eval (answers w content s) = .ok ms := by
  induction mcs generalizing ms with
  | nil =>
    obtain rfl := Except.ok.inj h
    rfl
  | cons mc mcs ih =>
    obtain ⟨m, ms', hm, hms, rfl⟩ := buildMethods_cons_ok h
    have hrest := ih hms
    unfold Reload.buildAll
    rw [eval_bind, eval_build, hm]
    dsimp only
    rw [eval_bind, hrest]
    rfl

theorem eval_prepare {content : GoString} {s : Reload.State M} {cfg : Config} {ms : List M}
    (hload : load env.unmarshal env.path (.ok content) = .ok cfg)
    (hms : buildMethods w cfg.methods = .ok ms) :
    (Reload.prepare env).eval (answers w content s) = .ok (env.hashBytes content, ms) := by
  have hread : Reload.Code.readFile.eval (answers w content s) = .ok content := rfl
  unfold Reload.prepare
  rw [eval_bind, hread]
  dsimp only
  rw [eval_bind, hread, hload]
  dsimp only
  rw [eval_bind, eval_buildAll hms]
  rfl

/-- A valid configuration replaces the methods and the version, whatever was there before. -/
theorem reload_of_valid (srv : Server M) {content : GoString} {cfg : Config} {ms : List M}
    (hload : load env.unmarshal env.path (.ok content) = .ok cfg)
    (hms : buildMethods w cfg.methods = .ok ms) :
    (reload w env srv content).state =
      { srv.state with
        live := ms
        lastHash := some (env.hashBytes content)
        successTotal := srv.state.successTotal + 1
        reloadCount := srv.state.reloadCount + 1
        configVersion := env.hashBytes content } := by
  have hin := (Reload.performs_prepare.path
    (runs_trace (answers w content srv.state) (Reload.prepare env))).1
  unfold reload Reload.reload
  simp only [trace_bind, eval_prepare hload hms, List.foldl_append]
  rw [Reload.foldl_apply_of_input (h := (Reload.prepare env).trace _) hin]
  rfl

end Server

theorem start_ok {w : World M} {env : Reload.Env} {content : GoString} {srv : Server M}
    (h : start w env content = .ok srv) :
    load env.unmarshal env.path (.ok content) = .ok srv.cfg ∧
      buildMethods w srv.cfg.methods = .ok srv.state.live := by
  obtain ⟨cfg, hload, h⟩ := ok_of_bind h
  obtain ⟨ms, hms, h⟩ := ok_of_bind h
  obtain rfl := Except.ok.inj h
  exact ⟨hload, hms⟩

/-- After a reload of a valid `c₁`, with any attempts before it, the service reports the version
of `c₁` and routes every request as one that is freshly started with the methods of `c₁` and with
the default group and the SQL settings it was started with itself. -/
theorem reload_routes_as_restart [RoutingMethod M] {w : World M} {env : Reload.Env}
    {c₀ c₁ : GoString} {srv₀ srv₁ : Server M} (h₀ : start w env c₀ = .ok srv₀)
    (h₁ : start w env c₁ = .ok srv₁) (earlier : List GoString) :
    ((earlier ++ [c₁]).foldl (Server.reload w env) srv₀).state.configVersion = env.hashBytes c₁ ∧
      ∃ cfg₀ cfg₁ fresh, load env.unmarshal env.path (.ok c₀) = .ok cfg₀ ∧
        load env.unmarshal env.path (.ok c₁) = .ok cfg₁ ∧
        startWith w { cfg₁ with
          defaultRoutingGroup := cfg₀.defaultRoutingGroup
          sqlParsing := cfg₀.sqlParsing } (env.hashBytes c₁) = .ok fresh ∧
        ∀ req, ((earlier ++ [c₁]).foldl (Server.reload w env) srv₀).route w req =
          fresh.route w req := by
  obtain ⟨hload₀, -⟩ := start_ok h₀
  obtain ⟨hload₁, hms₁⟩ := start_ok h₁
  rw [List.foldl_append, List.foldl_cons, List.foldl_nil]
  have hcfg : (earlier.foldl (Server.reload w env) srv₀).cfg = srv₀.cfg :=
    Server.foldl_reload_cfg srv₀ earlier
  generalize earlier.foldl (Server.reload w env) srv₀ = srv at hcfg ⊢
  have hstate := srv.reload_of_valid hload₁ hms₁
  constructor
  · rw [hstate]
  · let cfg : Config := { srv₁.cfg with
      defaultRoutingGroup := srv₀.cfg.defaultRoutingGroup
      sqlParsing := srv₀.cfg.sqlParsing }
    let fresh : Server M :=
      ⟨cfg, { live := srv₁.state.live, configVersion := env.hashBytes c₁ }⟩
    have hfresh : startWith w cfg (env.hashBytes c₁) = .ok fresh := by
      change (buildMethods w srv₁.cfg.methods >>= _) = _
      rw [hms₁]
      rfl
    refine ⟨srv₀.cfg, srv₁.cfg, fresh, hload₀, hload₁, hfresh, ?_⟩
    intro req
    have hlive : (Server.reload w env srv c₁).state.live = fresh.state.live := by rw [hstate]
    have hcfg' : (Server.reload w env srv c₁).cfg = srv₀.cfg := hcfg
    unfold Server.route
    rw [hlive, hcfg']

section Samples

def adhocYaml : GoString := str "defaultRoutingGroup: adhoc\n"

def batchYaml : GoString :=
  str "defaultRoutingGroup: batch\nmethods:\n  - type: expr\n    program: request.source\n"

/-- The two documents, decoded, and the first four bytes of their SHA-256 sums. -/
def configFile : Reload.Env where
  path := str "config.yaml"
  unmarshal data cfg :=
    if data = adhocYaml then .ok { cfg with defaultRoutingGroup := str "adhoc" }
    else if data = batchYaml then
      .ok { cfg with
        defaultRoutingGroup := str "batch"
        methods := [{ type := str "expr", program := str "request.source" }] }
    else .error ⟨str "yaml: unmarshal errors"⟩
  hashBytes data :=
    if data = adhocYaml then str "e113ca08" else if data = batchYaml then str "96fe06d1" else []

def accepting : World Numbered := ⟨id, id, fun type _ => .ok ⟨0, type⟩⟩

end Samples

theorem reload_routes_as_restart_batch :
    ∃ srv₀ cfg₀ cfg₁ fresh, start accepting configFile adhocYaml = .ok srv₀ ∧
      load configFile.unmarshal configFile.path (.ok adhocYaml) = .ok cfg₀ ∧
      load configFile.unmarshal configFile.path (.ok batchYaml) = .ok cfg₁ ∧
      startWith accepting { cfg₁ with
        defaultRoutingGroup := cfg₀.defaultRoutingGroup
        sqlParsing := cfg₀.sqlParsing } (configFile.hashBytes batchYaml) = .ok fresh ∧
      (([adhocYaml] ++ [batchYaml]).foldl (Server.reload accepting configFile)
        srv₀).state.configVersion = configFile.hashBytes batchYaml ∧
      ∀ req, (([adhocYaml] ++ [batchYaml]).foldl (Server.reload accepting configFile)
        srv₀).route accepting req = fresh.route accepting req := by
  have h₀ := show start accepting configFile adhocYaml = .ok _ from rfl
  have h₁ := show start accepting configFile batchYaml = .ok _ from rfl
  obtain ⟨hversion, cfg₀, cfg₁, fresh, hload₀, hload₁, hfresh, hroute⟩ :=
    reload_routes_as_restart h₀ h₁ [adhocYaml]
  exact ⟨_, cfg₀, cfg₁, fresh, h₀, hload₀, hload₁, hfresh, hversion, hroute⟩

def submission : RouteRequest where
  trinoQueryProperties := some
    { body := str "SELECT 1", queryType := [], resourceGroupQueryType := [], defaultCatalog := []
      defaultSchema := [], catalogs := [], schemas := [], catalogSchemas := [], tables := []
      isNewQuerySubmission := true, isQueryParsingSuccessful := false, errorMessage := [] }
  trinoRequestUser := none
  method := str "POST"
  requestUri := str "/v1/statement"
  remoteAddr := []
  parameterMap := .empty
  trinoSource := []
  clientTags := []

def groupOf (srv : Server Numbered) : Option GoString :=
  ((srv.route accepting submission).run.eval deferring).toOption.map (·.routingGroup)

/-- Started with default group `adhoc` and reloaded with `batch`, the service still answers
`adhoc`. -/
theorem reload_keeps_default_group :
    ∃ srv₀ srv₁, start accepting configFile adhocYaml = .ok srv₀ ∧
      start accepting configFile batchYaml = .ok srv₁ ∧
      (Server.reload accepting configFile srv₀ batchYaml).state.configVersion =
        srv₁.state.configVersion ∧
      groupOf (Server.reload accepting configFile srv₀ batchYaml) = some (str "adhoc") ∧
      groupOf srv₁ = some (str "batch") := by
  refine ⟨_, _, rfl, rfl, ?_, ?_, ?_⟩ <;> decide +kernel

end TrinoGoway.Service
