import TrinoGoway.Engine.SqlFields
import TrinoGoway.Service.Server

/-! The dry run of `routing-service-validate`: sample requests routed through the pipeline of a
configuration, against the service that is started with it. -/
namespace TrinoGoway.Service.DryRun

open Go Engine SqlMeta Prog

/-- A record of the samples file; a nil list or map is empty. -/
structure Sample where
  id : GoString := []
  source : GoString := []
  user : GoString := []
  clientTags : List GoString := []
  catalog : GoString := []
  schema : GoString := []
  method : GoString := []
  uri : GoString := []
  remoteAddr : GoString := []
  body : GoString := []
  isNew : Bool := false
  paramMap : GoMap GoString := .empty

namespace Sample

variable (s : Sample)

def toRouteInput : RouteInput where
  source := s.source
  user := s.user
  clientTags := s.clientTags
  catalog := s.catalog
  schema := s.schema
  method := s.method
  uri := s.uri
  remoteAddr := s.remoteAddr
  body := s.body
  isNew := s.isNew
  paramMap := s.paramMap

def request : RouteRequest where
  trinoQueryProperties := some
    { body := s.body, queryType := [], resourceGroupQueryType := [], defaultCatalog := s.catalog
      defaultSchema := s.schema, catalogs := [], schemas := [], catalogSchemas := [], tables := []
      isNewQuerySubmission := s.isNew, isQueryParsingSuccessful := false, errorMessage := [] }
  trinoRequestUser := some ⟨s.user, []⟩
  method := s.method
  requestUri := s.uri
  remoteAddr := s.remoteAddr
  parameterMap := s.paramMap
  trinoSource := s.source
  clientTags := s.clientTags

end Sample

def inputSummary (source user : GoString) : GoString :=
  if source ≠ [] ∧ user ≠ [] then str "source=" ++ source ++ str " user=" ++ user
  else if source ≠ [] then str "source=" ++ source
  else if user ≠ [] then str "user=" ++ user
  else str "(empty)"

structure Options where
  configPath : GoString
  samplesPath : GoString := []
  diff : Bool := false
  baselinePath : GoString := []

/-- What the tool reads and does not define: `os.ReadFile` and the YAML decoders. -/
structure Env where
  readFile : GoString → Except GoError GoString
  unmarshal : GoString → Config → Except GoError Config
  unmarshalSamples : GoString → Except GoError (List Sample)

structure Row where
  id : GoString
  summary : GoString
  newGroup : GoString
  oldGroup : GoString := []
  changed : Bool := false

/-- What is written to the standard output; the layout of the table is left out. -/
inductive Output
  | nothing
  | ok
  | table (rows : List Row) (diff : Bool)

structure Ran where
  exitCode : ℕ
  out : Output
  errOut : GoString := []

def Ran.rows (r : Ran) : List Row :=
  match r.out with
  | .table rows _ => rows
  | _ => []

def exitOK : ℕ := 0
def exitInvalid : ℕ := 1
def exitDiff : ℕ := 2

def invalid (message : GoString) : Ran :=
  ⟨exitInvalid, .nothing, str "error: " ++ message ++ str "\n"⟩

def loadSamples (env : Env) (path : GoString) : Except GoError (List Sample) :=
  match env.readFile path with
  | .error e => .error ⟨str "read samples file " ++ quoted path ++ str ": " ++ e.message⟩
  | .ok data =>
    match env.unmarshalSamples data with
    | .error e => .error ⟨str "parse samples YAML " ++ quoted path ++ str ": " ++ e.message⟩
    | .ok samples => .ok samples

section Run

variable {M : Type} (w : World M) (env : Env)

def buildMethodsFrom : ℕ → List MethodConfig → Except GoError (List M)
  | _, [] => .ok []
  | i, mc :: mcs =>
    match build (F := Id) w.loadConfig mc with
    | .error e =>
      .error ⟨str "methods[" ++ str (toString i) ++ str "] (" ++ mc.type ++ str "): " ++ e.message⟩
    | .ok m => (buildMethodsFrom (i + 1) mcs).map (m :: ·)

def buildPipeline (path : GoString) : Except GoError (Pipeline M) := do
  let cfg ← load env.unmarshal path (env.readFile path)
  let methods ← buildMethodsFrom w 0 cfg.methods
  pure (newPipeline methods cfg.defaultRoutingGroup)

variable [RoutingMethod M]

def routeSample (pipeline : Pipeline M) (baseline : Option (Pipeline M)) (s : Sample) :
    Exec M Row := do
  let newGroup ← pipeline.evaluate s.toRouteInput
  let r : Row := { id := s.id, summary := inputSummary s.source s.user, newGroup }
  match baseline with
  | none => pure r
  | some baseline => do
    let oldGroup ← baseline.evaluate s.toRouteInput
    pure { r with oldGroup, changed := oldGroup ≠ newGroup }

def routeSamples (pipeline : Pipeline M) (baseline : Option (Pipeline M)) :
    List Sample → Exec M (List Row)
  | [] => pure []
  | s :: ss => do
    let r ← routeSample pipeline baseline s
    let rs ← routeSamples pipeline baseline ss
    pure (r :: rs)

def report (diff : Bool) (rows : List Row) : Ran :=
  let changed := rows.countP (·.changed)
  if 0 < changed then
    ⟨exitDiff, .table rows diff,
      str "\n" ++ str (toString changed) ++ str " route(s) changed vs baseline\n"⟩
  else ⟨exitOK, .table rows diff, []⟩

def run (opts : Options) : Exec M Ran :=
  if opts.configPath = [] then pure (invalid (str "--config is required"))
  else
    match buildPipeline w env opts.configPath with
    | .error e => pure (invalid e.message)
    | .ok pipeline =>
      if opts.samplesPath = [] then pure ⟨exitOK, .ok, []⟩
      else
        match loadSamples env opts.samplesPath with
        | .error e => pure (invalid e.message)
        | .ok samples =>
          if opts.diff then
            if opts.baselinePath = [] then pure (invalid (str "--diff requires --baseline"))
            else
              match buildPipeline w env opts.baselinePath with
              | .error e => pure (invalid (str "baseline: " ++ e.message))
              | .ok baseline => do
                let rows ← routeSamples pipeline (some baseline) samples
                pure (report true rows)
          else do
            let rows ← routeSamples pipeline none samples
            pure (report false rows)

end Run

/-! ### What the tool reports -/

variable {M : Type} {w : World M} {env : Env}

theorem buildMethodsFrom_of_ok {mcs : List MethodConfig} {ms : List M} (i : ℕ)
    (h : buildMethods w mcs = .ok ms) : buildMethodsFrom w i mcs = .ok ms := by
  induction mcs generalizing i ms with
  | nil => exact h
  | cons mc mcs ih =>
    obtain ⟨m, ms', hm, hms, rfl⟩ := Server.buildMethods_cons_ok h
    unfold buildMethodsFrom
    rw [hm]
    dsimp only
    rw [ih (i + 1) hms]
    rfl

/-- `srv` is the service started while the file at `path` is as the tool reads it. -/
def StartedFrom (w : World M) (env : Env) (hashBytes : GoString → GoString) (path : GoString)
    (srv : Server M) : Prop :=
  ∃ content, env.readFile path = .ok content ∧
    start w ⟨path, env.unmarshal, hashBytes⟩ content = .ok srv

def pipelineOf (srv : Server M) : Pipeline M :=
  newPipeline srv.state.live srv.cfg.defaultRoutingGroup

theorem buildPipeline_of_started {hashBytes : GoString → GoString} {path : GoString}
    {srv : Server M} (h : StartedFrom w env hashBytes path srv) :
    buildPipeline w env path = .ok (pipelineOf srv) := by
  obtain ⟨content, hread, hstart⟩ := h
  obtain ⟨hload, hms⟩ := start_ok hstart
  unfold buildPipeline
  rw [hread, hload]
  change (buildMethodsFrom w 0 srv.cfg.methods >>= _) = _
  rw [buildMethodsFrom_of_ok 0 hms]
  rfl

variable (f : Call M → Ended)

def groupFor (srv : Server M) (input : RouteInput) : GoString :=
  (chosen srv.cfg.defaultRoutingGroup f input srv.state.live).routingGroup

/-- The row of a sample, for a service and in diff mode the one of the baseline. -/
def rowOf (srv : Server M) (base : Option (Server M)) (s : Sample) : Row :=
  let r : Row :=
    { id := s.id
      summary := inputSummary s.source s.user
      newGroup := groupFor f srv s.toRouteInput }
  match base with
  | none => r
  | some base =>
    { r with
      oldGroup := groupFor f base s.toRouteInput
      changed := groupFor f base s.toRouteInput ≠ groupFor f srv s.toRouteInput }

theorem newGroup_rowOf (srv : Server M) (base : Option (Server M)) (s : Sample) :
    (rowOf f srv base s).newGroup = groupFor f srv s.toRouteInput := by
  cases base <;> rfl

theorem id_rowOf (srv : Server M) (base : Option (Server M)) (s : Sample) :
    (rowOf f srv base s).id = s.id := by
  cases base <;> rfl

variable [RoutingMethod M]

theorem eval_evaluate (srv : Server M) (input : RouteInput) :
    ((pipelineOf srv).evaluate input).run.eval f = .ok (groupFor f srv input) := by
  have hlive : enabled (pipelineOf srv).methods = srv.state.live :=
    enabled_map_live srv.state.live
  rw [((pipelineOf srv).entryPoints_agree input f).1.1, hlive]
  rfl

theorem eval_routeSample (srv : Server M) (base : Option (Server M)) (s : Sample) :
    (routeSample (pipelineOf srv) (base.map pipelineOf) s).run.eval f =
      .ok (rowOf f srv base s) := by
  unfold routeSample
  rw [ExceptT.run_bind, eval_bind, eval_evaluate]
  cases base with
  | none => rfl
  | some base =>
    dsimp only [Option.map_some]
    rw [ExceptT.run_bind, eval_bind, eval_evaluate]
    rfl

theorem eval_routeSamples (srv : Server M) (base : Option (Server M)) (samples : List Sample) :
    (routeSamples (pipelineOf srv) (base.map pipelineOf) samples).run.eval f =
      .ok (samples.map (rowOf f srv base)) := by
  induction samples with
  | nil => rfl
  | cons s ss ih =>
    unfold routeSamples
    rw [ExceptT.run_bind, eval_bind, eval_routeSample]
    dsimp only
    rw [ExceptT.run_bind, eval_bind, ih]
    rfl

/-- `opts` names the configuration of `srv` and, in diff mode, that of `base`. -/
structure Compares (w : World M) (env : Env) (hashBytes : GoString → GoString) (opts : Options)
    (srv base : Server M) (samples : List Sample) : Prop where
  configPath : opts.configPath ≠ []
  started : StartedFrom w env hashBytes opts.configPath srv
  samplesPath : opts.samplesPath ≠ []
  samples : loadSamples env opts.samplesPath = .ok samples
  baselinePath : opts.diff = true → opts.baselinePath ≠ []
  baseline : opts.diff = true → StartedFrom w env hashBytes opts.baselinePath base

theorem eval_run {hashBytes : GoString → GoString} {opts : Options} {srv base : Server M}
    {samples : List Sample} (h : Compares w env hashBytes opts srv base samples) :
    (run w env opts).run.eval f =
      .ok (report opts.diff
        (samples.map (rowOf f srv (if opts.diff then some base else none)))) := by
  unfold run
  rw [if_neg h.configPath, buildPipeline_of_started h.started]
  dsimp only
  rw [if_neg h.samplesPath, h.samples]
  dsimp only
  cases hdiff : opts.diff with
  | false =>
    have hrows : (routeSamples (pipelineOf srv) none samples).run.eval f =
      .ok (samples.map (rowOf f srv none)) := eval_routeSamples f srv none samples
    rw [if_neg (by simp), ExceptT.run_bind, eval_bind, hrows]
    rfl
  | true =>
    have hrows : (routeSamples (pipelineOf srv) (some (pipelineOf base)) samples).run.eval f =
      .ok (samples.map (rowOf f srv (some base))) := eval_routeSamples f srv (some base) samples
    rw [if_pos rfl, if_neg (h.baselinePath hdiff), buildPipeline_of_started (h.baseline hdiff)]
    dsimp only
    rw [ExceptT.run_bind, eval_bind, hrows]
    rfl

/-! ### What the service answers -/

theorem inputFromProto_request {s : Sample} (hnew : s.isNew = true)
    (upperText : GoString → GoString) (analyzer : SQLAnalyzer) :
    inputFromProto upperText analyzer s.request =
      if s.body = [] then s.toRouteInput
      else s.toRouteInput.withMeta (analyzer s.body s.catalog s.schema) := by
  have hfrom : fromProto s.request = s.toRouteInput := rfl
  have hparsed : s.toRouteInput.hasParsedSQL = false := rfl
  have hskip : (!s.toRouteInput.isNew || s.toRouteInput.body.isEmpty ||
      s.toRouteInput.hasParsedSQL) = s.body.isEmpty := by
    have hisNew : s.toRouteInput.isNew = true := hnew
    rw [hisNew, hparsed, Bool.not_true, Bool.false_or, Bool.or_false]
    rfl
  unfold inputFromProto fillSQLMeta
  dsimp only
  rw [hfrom, hparsed, Bool.false_and, Bool.false_and, if_neg Bool.false_ne_true]
  simp only [hskip, List.isEmpty_iff]
  rfl

def served (w : World M) (srv : Server M) (s : Sample) : RouteInput :=
  s.toRouteInput.withMeta (analyzerOf w srv.cfg.sqlParsing s.body s.catalog s.schema)

omit [RoutingMethod M] in
theorem served_ne (w : World M) (srv : Server M) (s : Sample) :
    served w srv s ≠ s.toRouteInput := by
  intro h
  have hcategory := congrArg RouteInput.queryCategory h
  cases hcategory

theorem eval_route_request {s : Sample} (hnew : s.isNew = true) (srv : Server M) :
    (srv.route w s.request).run.eval f =
      .ok ⟨groupFor f srv (if s.body = [] then s.toRouteInput else served w srv s), none, []⟩ := by
  rw [srv.eval_route rfl hnew f, inputFromProto_request hnew]
  rfl

theorem eq_of_route_request {s : Sample} (hnew : s.isNew = true) {srv : Server M} {g : GoString}
    (h : (srv.route w s.request).run.eval f = .ok ⟨g, none, []⟩) :
    g = groupFor f srv (if s.body = [] then s.toRouteInput else served w srv s) :=
  congrArg Routing.RouteResponse.routingGroup
    (Except.ok.inj (h.symm.trans (eval_route_request f hnew srv)))

/-! ### Methods that tell inputs apart -/

omit [RoutingMethod M] in
theorem default_ne_nil {hashBytes : GoString → GoString} {path : GoString} {srv : Server M}
    (h : StartedFrom w env hashBytes path srv) : srv.cfg.defaultRoutingGroup ≠ [] := by
  obtain ⟨content, -, hstart⟩ := h
  have hvalid := (load_ok (start_ok hstart).1).1
  intro hnil
  unfold Config.validate at hvalid
  rw [hnil] at hvalid
  by_cases haddr : srv.cfg.addr = []
  · rw [if_pos haddr] at hvalid
    cases hvalid
  · rw [if_neg haddr, if_pos rfl] at hvalid
    cases hvalid

def deciding (g : RouteInput → M → Option GoString) (c : Call M) : Ended :=
  match g c.input c.method with
  | some group => .returned { decided := true, routingGroup := group } none
  | none => .returned {} none

omit [RoutingMethod M] in
theorem groupFor_deciding (srv : Server M) {g : RouteInput → M → Option GoString}
    {input : RouteInput} (hg : ∀ m group, g input m = some group → group ≠ []) :
    groupFor (deciding g) srv input =
      (srv.state.live.findSome? (g input)).getD srv.cfg.defaultRoutingGroup := by
  unfold groupFor
  induction srv.state.live with
  | nil => rfl
  | cons m ms ih =>
    cases hm : g input m with
    | none =>
      have hpasses : (deciding g ⟨m, input⟩).decision? = none := by
        rw [deciding, hm]
        rfl
      rw [chosen_of_passes hpasses, ih, List.findSome?_cons, hm]
    | some group =>
      have hdecides : (deciding g ⟨m, input⟩).decision? =
          some { decided := true, routingGroup := group } := by
        rw [deciding, hm]
        rfl
      rw [chosen_of_decides hdecides, if_neg (hg m group hm), List.findSome?_cons, hm]
      rfl

section Order

variable [DecidableEq M]

def distinct : List M → List M
  | [] => []
  | m :: ms => m :: (distinct ms).filter (· ≠ m)

omit [RoutingMethod M] in
theorem findSome?_filter_ne {β : Type} {g : M → Option β} {m : M} (hm : g m = none)
    (ms : List M) : (ms.filter (· ≠ m)).findSome? g = ms.findSome? g := by
  induction ms with
  | nil => rfl
  | cons m' ms ih =>
    by_cases heq : m' = m
    · subst heq
      rw [List.filter_cons_of_neg (by simp), ih, List.findSome?_cons, hm]
    · rw [List.filter_cons_of_pos (by simpa using heq), List.findSome?_cons, List.findSome?_cons,
        ih]

omit [RoutingMethod M] in
theorem findSome?_distinct {β : Type} (g : M → Option β) (ms : List M) :
    (distinct ms).findSome? g = ms.findSome? g := by
  induction ms with
  | nil => rfl
  | cons m ms ih =>
    rw [distinct, List.findSome?_cons, List.findSome?_cons]
    cases hm : g m with
    | none => rw [findSome?_filter_ne hm, ih]
    | some b => rfl

omit [RoutingMethod M] in
theorem nodup_distinct (ms : List M) : (distinct ms).Nodup := by
  induction ms with
  | nil => exact List.nodup_nil
  | cons m ms ih => exact List.nodup_cons.mpr ⟨by simp, ih.filter _⟩

omit [RoutingMethod M] in
theorem exists_findSome?_ne {ms ms₀ : List M} (hms : ms.Nodup) (hms₀ : ms₀.Nodup)
    (hne : ms ≠ ms₀) : ∃ g : M → Option Bool, ms.findSome? g ≠ ms₀.findSome? g := by
  induction ms generalizing ms₀ with
  | nil =>
    cases ms₀ with
    | nil => exact absurd rfl hne
    | cons m₀ ms₀ => exact ⟨fun _ => some true, by simp⟩
  | cons m ms ih =>
    cases ms₀ with
    | nil => exact ⟨fun _ => some true, by simp⟩
    | cons m₀ ms₀ =>
      by_cases heq : m = m₀
      · subst heq
        obtain ⟨hm, hms⟩ := List.nodup_cons.mp hms
        obtain ⟨hm₀, hms₀⟩ := List.nodup_cons.mp hms₀
        obtain ⟨g, hg⟩ := ih hms hms₀ fun h => hne (by rw [h])
        -- the common first method passes
        have hpass (l : List M) (hl : m ∉ l) :
            l.findSome? (Function.update g m none) = l.findSome? g := by
          induction l with
          | nil => rfl
          | cons x l ih =>
            rw [List.mem_cons, not_or] at hl
            rw [List.findSome?_cons, List.findSome?_cons, ih hl.2,
              Function.update_of_ne (Ne.symm hl.1)]
        refine ⟨Function.update g m none, ?_⟩
        simpa [List.findSome?_cons, hpass _ hm, hpass _ hm₀] using hg
      · refine ⟨fun x => some (decide (x = m)), ?_⟩
        simp [Ne.symm heq]

/-- The two services choose alike: they call the same methods in the same order, fall back to the
same group and fill in the same SQL fields. -/
structure Alike (w : World M) (srv base : Server M) (s : Sample) : Prop where
  methods : distinct srv.state.live = distinct base.state.live
  default : srv.cfg.defaultRoutingGroup = base.cfg.defaultRoutingGroup
  fields : served w srv s = served w base s

omit [RoutingMethod M] in
theorem groupFor_congr {srv base : Server M}
    (hmethods : distinct srv.state.live = distinct base.state.live)
    (hdefault : srv.cfg.defaultRoutingGroup = base.cfg.defaultRoutingGroup) (input : RouteInput) :
    groupFor f srv input = groupFor f base input := by
  unfold groupFor chosen
  rw [← findSome?_distinct, hmethods, findSome?_distinct, hdefault]

omit [RoutingMethod M] [DecidableEq M] in
theorem exists_same {srv base : Server M} (hsrv : srv.cfg.defaultRoutingGroup ≠ [])
    (hbase : base.cfg.defaultRoutingGroup ≠ [])
    (hlive : ¬(srv.state.live = [] ∧ base.state.live = [])) :
    ∃ group : GoString, group ≠ [] ∧
      (srv.state.live.findSome? fun _ => some group).getD srv.cfg.defaultRoutingGroup =
        (base.state.live.findSome? fun _ => some group).getD base.cfg.defaultRoutingGroup := by
  cases hl : srv.state.live with
  | nil =>
    cases hl₀ : base.state.live with
    | nil => exact absurd ⟨hl, hl₀⟩ hlive
    | cons m₀ ms₀ => exact ⟨_, hsrv, rfl⟩
  | cons m ms =>
    cases hl₀ : base.state.live with
    | nil => exact ⟨_, hbase, rfl⟩
    | cons m₀ ms₀ => exact ⟨_, hbase, rfl⟩

/-- Two groups that are neither empty nor one of two given ones. -/
def fresh (d d₀ : GoString) (b : Bool) : GoString := (if b then 1 else 0) :: (d ++ d₀)

theorem fresh_ne (d d₀ : GoString) (b : Bool) : fresh d d₀ b ≠ d ∧ fresh d d₀ b ≠ d₀ := by
  constructor <;> intro heq <;> have hlen := congrArg List.length heq <;>
    simp only [fresh, List.length_cons, List.length_append] at hlen <;> omega

theorem getD_fresh_ne (d d₀ : GoString) {o o₀ : Option Bool} (h : o ≠ o₀) :
    (o.map (fresh d d₀)).getD d ≠ (o₀.map (fresh d d₀)).getD d₀ := by
  cases o with
  | none =>
    cases o₀ with
    | none => exact absurd rfl h
    | some b₀ => exact (fresh_ne d d₀ b₀).1.symm
  | some b =>
    cases o₀ with
    | none => exact (fresh_ne d d₀ b).2
    | some b₀ =>
      intro heq
      have hhead : (if b then 1 else 0 : UInt8) = if b₀ then 1 else 0 := (List.cons.inj heq).1
      cases b <;> cases b₀ <;> simp_all

omit [RoutingMethod M] in
theorem exists_differ {srv base : Server M} {s : Sample}
    (hlive : ¬(srv.state.live = [] ∧ base.state.live = [])) (hnot : ¬Alike w srv base s) :
    ∃ g : RouteInput → M → Option GoString, (∀ i m group, g i m = some group → group ≠ []) ∧
      (srv.state.live.findSome? (g (served w srv s))).getD srv.cfg.defaultRoutingGroup ≠
        (base.state.live.findSome? (g (served w base s))).getD base.cfg.defaultRoutingGroup := by
  classical
  generalize hd : srv.cfg.defaultRoutingGroup = d
  generalize hd₀ : base.cfg.defaultRoutingGroup = d₀
  have hfresh (o : Option Bool) (group : GoString) (h : o.map (fresh d d₀) = some group) :
      group ≠ [] := by
    obtain ⟨b, -, rfl⟩ := Option.map_eq_some_iff.mp h
    exact List.cons_ne_nil _ _
  have hnone (ms : List M) : (ms.findSome? fun _ => (none : Option GoString)) = none := by simp
  by_cases hfields : served w srv s = served w base s
  · by_cases hmethods : distinct srv.state.live = distinct base.state.live
    · refine ⟨fun _ _ => none, by simp, ?_⟩
      rw [hnone, hnone]
      intro hdefault
      exact hnot ⟨hmethods, by rw [hd, hd₀]; exact hdefault, hfields⟩
    · obtain ⟨g, hg⟩ := exists_findSome?_ne (nodup_distinct _) (nodup_distinct _) hmethods
      rw [findSome?_distinct, findSome?_distinct] at hg
      refine ⟨fun _ m => (g m).map (fresh d d₀), fun _ m => hfresh (g m), ?_⟩
      have hmap (ms : List M) : ms.findSome? (fun m => (g m).map (fresh d d₀)) =
          (ms.findSome? g).map (fresh d d₀) := by
        rw [List.map_findSome?]
        rfl
      rw [hmap, hmap]
      exact getD_fresh_ne d d₀ hg
  · -- one service decides, the other falls back
    let only (input : RouteInput) : RouteInput → M → Option GoString :=
      Function.update (fun _ _ => none) input fun _ => some (fresh d d₀ true)
    have hself (input : RouteInput) : only input input = fun _ => some (fresh d d₀ true) :=
      Function.update_self _ _ _
    have hother {i input : RouteInput} (h : i ≠ input) : only input i = fun _ => none :=
      Function.update_of_ne h _ _
    have hgroups (input i : RouteInput) (m : M) (group : GoString)
        (h : only input i m = some group) : group ≠ [] := by
      by_cases hi : i = input
      · rw [hi, hself] at h
        exact hfresh (some true) group h
      · rw [hother hi] at h
        cases h
    by_cases hsrv : srv.state.live = []
    · obtain ⟨m₀, ms₀, hbase⟩ := List.exists_cons_of_ne_nil fun h => hlive ⟨hsrv, h⟩
      refine ⟨only (served w base s), hgroups _, ?_⟩
      rw [hsrv, hbase, hself]
      exact (fresh_ne d d₀ true).1.symm
    · obtain ⟨m, ms, hlist⟩ := List.exists_cons_of_ne_nil hsrv
      refine ⟨only (served w srv s), hgroups _, ?_⟩
      rw [hlist, hself, hother (Ne.symm hfields), hnone]
      exact (fresh_ne d d₀ true).2

end Order

/-! ### When the dry run is right -/

/-- The row of the sample shows the group that the service answers. -/
def Predicts (w : World M) (env : Env) (opts : Options) (srv : Server M) (s : Sample) (i : ℕ)
    (f : Call M → Ended) : Prop :=
  ∃ ran row g, (run w env opts).run.eval f = .ok ran ∧ ran.rows[i]? = some row ∧ row.id = s.id ∧
    (srv.route w s.request).run.eval f = .ok ⟨g, none, []⟩ ∧ row.newGroup = g

/-- The row of the sample is marked as changed exactly if the two services answer differently. -/
def MarksChange (w : World M) (env : Env) (opts : Options) (srv base : Server M) (s : Sample)
    (i : ℕ) (f : Call M → Ended) : Prop :=
  ∃ ran row g g₀, (run w env opts).run.eval f = .ok ran ∧ ran.rows[i]? = some row ∧
    row.id = s.id ∧ (srv.route w s.request).run.eval f = .ok ⟨g, none, []⟩ ∧
    (base.route w s.request).run.eval f = .ok ⟨g₀, none, []⟩ ∧ (row.changed = true ↔ g ≠ g₀)

theorem rows_report (diff : Bool) (rows : List Row) : (report diff rows).rows = rows := by
  unfold report
  dsimp only
  split
  · rfl
  · rfl

section Compared

variable {hashBytes : GoString → GoString} {opts : Options} {srv base : Server M}
  {samples : List Sample} {i : ℕ} {s : Sample}

theorem predicts_iff (h : Compares w env hashBytes opts srv base samples)
    (hi : samples[i]? = some s) (hnew : s.isNew = true) :
    Predicts w env opts srv s i f ↔ groupFor f srv s.toRouteInput =
      groupFor f srv (if s.body = [] then s.toRouteInput else served w srv s) := by
  have hrow : (report opts.diff (samples.map
      (rowOf f srv (if opts.diff then some base else none)))).rows[i]? =
        some (rowOf f srv (if opts.diff then some base else none) s) := by
    rw [rows_report, List.getElem?_map, hi]
    rfl
  constructor
  · rintro ⟨ran, row, g, hran, hat, -, hroute, hg⟩
    obtain rfl := Except.ok.inj ((eval_run f h).symm.trans hran)
    obtain rfl := Option.some.inj (hrow.symm.trans hat)
    rw [newGroup_rowOf] at hg
    rw [hg]
    exact eq_of_route_request f hnew hroute
  · intro hsame
    exact ⟨_, _, _, eval_run f h, hrow, id_rowOf f srv _ s, eval_route_request f hnew srv,
      by rw [newGroup_rowOf, hsame]⟩

theorem marksChange_iff (h : Compares w env hashBytes opts srv base samples)
    (hdiff : opts.diff = true) (hi : samples[i]? = some s) (hnew : s.isNew = true) :
    MarksChange w env opts srv base s i f ↔
      (groupFor f base s.toRouteInput ≠ groupFor f srv s.toRouteInput ↔
        groupFor f srv (if s.body = [] then s.toRouteInput else served w srv s) ≠
          groupFor f base (if s.body = [] then s.toRouteInput else served w base s)) := by
  have hrow : (report opts.diff (samples.map
      (rowOf f srv (if opts.diff then some base else none)))).rows[i]? =
        some (rowOf f srv (some base) s) := by
    rw [rows_report, List.getElem?_map, hi, if_pos hdiff]
    rfl
  have hchanged : (rowOf f srv (some base) s).changed = true ↔
      groupFor f base s.toRouteInput ≠ groupFor f srv s.toRouteInput := decide_eq_true_iff
  constructor
  · rintro ⟨ran, row, g, g₀, hran, hat, -, hroute, hroute₀, hmark⟩
    obtain rfl := Except.ok.inj ((eval_run f h).symm.trans hran)
    obtain rfl := Option.some.inj (hrow.symm.trans hat)
    rw [← hchanged, hmark, ← eq_of_route_request f hnew hroute,
      ← eq_of_route_request f hnew hroute₀]
  · intro hsame
    exact ⟨_, _, _, _, eval_run f h, hrow, id_rowOf f srv _ s, eval_route_request f hnew srv,
      eval_route_request f hnew base, hchanged.trans hsame⟩

/-- Whatever the methods do, the tool reports the group that the service answers exactly if the
sample has no body or the configuration no methods. Its mark is right exactly if besides these
the two services may choose alike. -/
theorem dryRun_predicts_iff [DecidableEq M] (h : Compares w env hashBytes opts srv base samples)
    (hi : samples[i]? = some s) (hnew : s.isNew = true) :
    ((∀ f : Call M → Ended, Predicts w env opts srv s i f) ↔
      s.body = [] ∨ srv.state.live = []) ∧
    (opts.diff = true →
      ((∀ f : Call M → Ended, MarksChange w env opts srv base s i f) ↔
        s.body = [] ∨ (srv.state.live = [] ∧ base.state.live = []) ∨ Alike w srv base s)) := by
  classical
  have hdefault := default_ne_nil h.started
  have hconst (srv : Server M) (hlive : srv.state.live = []) (f : Call M → Ended)
      (input : RouteInput) : groupFor f srv input = srv.cfg.defaultRoutingGroup := by
    rw [groupFor, hlive]
    rfl
  refine ⟨⟨fun hall => ?_, fun hcase f => ?_⟩, fun hdiff => ⟨fun hall => ?_, fun hcase f => ?_⟩⟩
  · -- methods that decide for another group where there are SQL fields
    by_cases hbody : s.body = []
    · exact Or.inl hbody
    · right
      by_contra hlive
      obtain ⟨m, ms, hlist⟩ := List.exists_cons_of_ne_nil hlive
      let d := srv.cfg.defaultRoutingGroup
      let g : RouteInput → M → Option GoString :=
        fun input _ => if input.queryCategory.isSome then some (fresh d d true) else none
      have hg (i : RouteInput) (m : M) (group : GoString) (hat : g i m = some group) :
          group ≠ [] := by
        obtain ⟨-, heq⟩ := Option.ite_none_right_eq_some.mp hat
        obtain rfl := Option.some.inj heq
        exact List.cons_ne_nil _ _
      have hsame := (predicts_iff (deciding g) h hi hnew).mp (hall (deciding g))
      rw [if_neg hbody, groupFor_deciding srv (hg _), groupFor_deciding srv (hg _), hlist] at hsame
      have htool : (m :: ms).findSome? (g s.toRouteInput) = none := by
        simp [g, Sample.toRouteInput]
      rw [htool] at hsame
      exact (fresh_ne d d true).1 hsame.symm
  · rw [predicts_iff f h hi hnew]
    obtain hbody | hlive := hcase
    · rw [if_pos hbody]
    · rw [hconst srv hlive, hconst srv hlive]
  · -- methods for which the services agree without SQL fields and differ with them
    by_contra hcase
    obtain ⟨hbody, hcase⟩ := not_or.mp hcase
    obtain ⟨hlive, hnot⟩ := not_or.mp hcase
    obtain ⟨group, hgroup, hagree⟩ := exists_same hdefault (default_ne_nil (h.baseline hdiff)) hlive
    obtain ⟨g, hg, hdiffer⟩ := exists_differ hlive hnot
    let g' := Function.update g s.toRouteInput fun _ => some group
    have hg' (i : RouteInput) (m : M) (x : GoString) (hat : g' i m = some x) : x ≠ [] := by
      by_cases hi : i = s.toRouteInput
      · rw [hi] at hat
        simp only [g', Function.update_self, Option.some.injEq] at hat
        rwa [← hat]
      · simp only [g', Function.update_of_ne hi] at hat
        exact hg i m x hat
    have hmark := (marksChange_iff (deciding g') h hdiff hi hnew).mp (hall (deciding g'))
    have hself : g' s.toRouteInput = fun _ => some group := Function.update_self _ _ _
    have hserved (srv : Server M) : g' (served w srv s) = g (served w srv s) :=
      Function.update_of_ne (served_ne w srv s) _ _
    rw [if_neg hbody, if_neg hbody, groupFor_deciding _ (hg' _), groupFor_deciding _ (hg' _),
      groupFor_deciding _ (hg' _), groupFor_deciding _ (hg' _), hself, hserved, hserved] at hmark
    exact hmark.mpr hdiffer hagree.symm
  · rw [marksChange_iff f h hdiff hi hnew]
    obtain hbody | ⟨hlive, hlive₀⟩ | halike := hcase
    · rw [if_pos hbody, if_pos hbody]
      exact ne_comm
    · rw [hconst srv hlive, hconst srv hlive, hconst base hlive₀, hconst base hlive₀]
      exact ne_comm
    · have hsame := groupFor_congr f halike.methods halike.default
      split
      · rw [hsame]
      · rw [hsame, hsame, halike.fields]
        simp

end Compared

def selectSample : Sample :=
  { id := str "s1", body := str "SELECT 1", catalog := str "tpch", isNew := true }

def newYaml : GoString :=
  str "defaultRoutingGroup: adhoc\nmethods:\n  - type: expr\n    program: |\n" ++
    str "      request.query_type == \"SELECT\" ? \"interactive\" : \"\"\n"

def samplesYaml : GoString :=
  str "- id: s1\n  body: SELECT 1\n  catalog: tpch\n  is_new: true\n"

def twoConfigs : Env where
  readFile path :=
    if path = str "new.yaml" then .ok newYaml
    else if path = str "old.yaml" then .ok adhocYaml
    else if path = str "samples.yaml" then .ok samplesYaml
    else .error ⟨str "open " ++ path ++ str ": no such file or directory"⟩
  unmarshal data cfg :=
    if data = newYaml then
      .ok { cfg with
        defaultRoutingGroup := str "adhoc"
        methods :=
          [{ type := str "expr"
             program := str "request.query_type == \"SELECT\" ? \"interactive\" : \"\"\n" }] }
    else if data = adhocYaml then .ok { cfg with defaultRoutingGroup := str "adhoc" }
    else .error ⟨str "yaml: unmarshal errors"⟩
  unmarshalSamples data :=
    if data = samplesYaml then .ok [selectSample] else .error ⟨str "yaml: unmarshal errors"⟩

def selectRule (c : Call Numbered) : Ended :=
  if c.input.queryType = str "SELECT" then
    .returned { decided := true, routingGroup := str "interactive" } none
  else .returned {} none

def diffOptions : Options where
  configPath := str "new.yaml"
  samplesPath := str "samples.yaml"
  diff := true
  baselinePath := str "old.yaml"

/-- The baseline has no methods, so for it the tool is right about every sample; the mark, too, when
a configuration is compared with itself. -/
theorem dryRun_predicts_same_configs :
    (∃ srv base : Server Numbered,
      Compares accepting twoConfigs id { diffOptions with configPath := str "old.yaml" } srv base
        [selectSample] ∧
      ∀ f, Predicts accepting twoConfigs { diffOptions with configPath := str "old.yaml" } srv
        selectSample 0 f) ∧
    ∃ srv base : Server Numbered,
      Compares accepting twoConfigs id { diffOptions with baselinePath := str "new.yaml" } srv base
        [selectSample] ∧
      ∀ f, MarksChange accepting twoConfigs { diffOptions with baselinePath := str "new.yaml" } srv
        base selectSample 0 f := by
  constructor
  · have h : Compares accepting twoConfigs id { diffOptions with configPath := str "old.yaml" }
        _ _ [selectSample] := ⟨by decide, ⟨_, rfl, rfl⟩, by decide, rfl, fun _ => by decide,
      fun _ => ⟨_, rfl, rfl⟩⟩
    exact ⟨_, _, h, (dryRun_predicts_iff h (i := 0) rfl rfl).1.mpr (Or.inr rfl)⟩
  · have h : Compares accepting twoConfigs id { diffOptions with baselinePath := str "new.yaml" }
        _ _ [selectSample] := ⟨by decide, ⟨_, rfl, rfl⟩, by decide, rfl, fun _ => by decide,
      fun _ => ⟨_, rfl, rfl⟩⟩
    exact ⟨_, _, h, ((dryRun_predicts_iff h (i := 0) rfl rfl).2 rfl).mpr
      (Or.inr (Or.inr ⟨rfl, rfl, rfl⟩))⟩

/-- The tool finds no change, but the two services answer differently. -/
theorem dryRun_misses_change :
    ∃ (srv base : Server Numbered) (ran : Ran) (row : Row),
      Compares accepting twoConfigs id diffOptions srv base [selectSample] ∧
      (run accepting twoConfigs diffOptions).run.eval selectRule = .ok ran ∧
      ran.exitCode = exitOK ∧ ran.rows = [row] ∧ row.newGroup = str "adhoc" ∧
      row.changed = false ∧
      (srv.route accepting selectSample.request).run.eval selectRule =
        .ok ⟨str "interactive", none, []⟩ ∧
      (base.route accepting selectSample.request).run.eval selectRule =
        .ok ⟨str "adhoc", none, []⟩ := by
  exact ⟨_, _, _, _, ⟨by decide, ⟨_, rfl, rfl⟩, by decide, rfl, fun _ => by decide,
    fun _ => ⟨_, rfl, rfl⟩⟩, rfl, rfl, rfl, rfl, rfl, rfl, rfl⟩

end TrinoGoway.Service.DryRun
