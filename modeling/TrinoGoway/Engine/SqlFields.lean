import TrinoGoway.Engine.Adapter
import TrinoGoway.SqlMeta.Coherence

/-! Where the SQL fields of a method's input come from. The code around the analyzer is a program
that calls it, so that its runs can be counted. -/
namespace TrinoGoway.Engine

open Go SqlMeta

structure SqlFields where
  queryType : GoString := []
  catalogs : List GoString := []
  schemas : List GoString := []
  catalogSchemas : List GoString := []
  tables : List GoString := []
  parseOK : Bool := false
  deriving DecidableEq

def RouteInput.sqlFields (input : RouteInput) : SqlFields :=
  ⟨input.queryType, input.catalogs, input.schemas, input.catalogSchemas, input.tables,
    input.parseOK⟩

def sqlFieldsOf (m : QueryMeta) : SqlFields :=
  ⟨m.queryType, m.catalogs, m.schemas, m.catalogSchemas, m.tables, m.parseOK⟩

namespace RouteRequest

/-- What the gateway has parsed; all empty if the message is missing. -/
def sqlFields (req : RouteRequest) : SqlFields :=
  match req.trinoQueryProperties with
  | none => {}
  | some qp =>
    ⟨qp.queryType, qp.catalogs, qp.schemas, qp.catalogSchemas, qp.tables,
      qp.isQueryParsingSuccessful⟩

def submission (req : RouteRequest) : Option (GoString × GoString × GoString) :=
  match req.trinoQueryProperties with
  | none => none
  | some qp =>
    if qp.isNewQuerySubmission ∧ qp.body ≠ [] then
      some (qp.body, qp.defaultCatalog, qp.defaultSchema)
    else none

end RouteRequest

/-! ### The code with its calls -/

/-- `sqlmeta.SQLAnalyzer` as `fillSQLMeta` sees it: only the heuristic tells about truncation. -/
inductive Analyzer
  | heuristic (h : Heuristic)
  | other (analyze : SQLAnalyzer)

namespace Analyzer

def analyze (lower : GoString → GoString) :
    Analyzer → GoString → GoString → GoString → QueryMeta × Bool
  | heuristic h, sql, catalog, schema => h.analyzeWithTruncation lower sql catalog schema
  | other f, sql, catalog, schema => (f sql catalog schema, false)

end Analyzer

inductive SqlOp
  | analyze (sql catalog schema : GoString)
  /-- the callback `sqlObs`; the time that the analysis took is left out -/
  | observe (result : GoString) (truncated : Bool)
  deriving DecidableEq

def SqlOp.Ret : SqlOp → Type
  | analyze _ _ _ => QueryMeta × Bool
  | observe _ _ => Unit

def sqlResult (m : QueryMeta) : GoString := if m.parseOK then str "ok" else str "empty"

def RouteInput.withMeta (input : RouteInput) (m : QueryMeta) : RouteInput :=
  { input with
    queryType := m.queryType
    queryCategory := some m.category
    catalogs := m.catalogs
    schemas := m.schemas
    catalogSchemas := m.catalogSchemas
    tables := m.tables
    parseOK := m.parseOK }

/-- `fillSQLMeta`; `sqlObs` says whether an observer is registered. -/
def fillSQLMetaCalls (sqlObs : Bool) (input : RouteInput) : Prog SqlOp.Ret RouteInput :=
  if !input.isNew || input.body.isEmpty || input.hasParsedSQL then pure input
  else do
    let r ← (Prog.perform (SqlOp.analyze input.body input.catalog input.schema) :
      Prog SqlOp.Ret (QueryMeta × Bool))
    if sqlObs then
      (Prog.perform (SqlOp.observe (sqlResult r.1) r.2) : Prog SqlOp.Ret Unit)
    pure (input.withMeta r.1)

def withCategory (upperText : GoString → GoString) (input : RouteInput) : RouteInput :=
  if input.hasParsedSQL && !input.queryType.isEmpty && input.queryCategory.isNone then
    { input with queryCategory := some (categoryForType upperText input.queryType) }
  else input

/-- `inputFromProto`, with the calls it makes. -/
def inputFromProtoCalls (upperText : GoString → GoString) (sqlObs : Bool) (req : RouteRequest) :
    Prog SqlOp.Ret RouteInput :=
  fillSQLMetaCalls sqlObs (withCategory upperText (fromProto req))

def analyzed (h : List (Prog.Event SqlOp.Ret)) : List (GoString × GoString × GoString) :=
  h.filterMap fun e =>
    match e.op with
    | .analyze sql catalog schema => some (sql, catalog, schema)
    | .observe _ _ => none

section Calls

variable (lower upperText : GoString → GoString) (analyzer : Analyzer) (sqlObs : Bool)

def Analyzer.answer : (o : SqlOp) → o.Ret
  | .analyze sql catalog schema => analyzer.analyze lower sql catalog schema
  | .observe _ _ => ()

/-- `inputFromProto` with the analyzer: what it was run on, and the input. -/
def PipelineEvaluator.inputFromProto (req : RouteRequest) :
    List (GoString × GoString × GoString) × RouteInput :=
  let r := (inputFromProtoCalls upperText sqlObs req).run (fun _ => analyzer.answer lower) []
  (analyzed r.1, r.2)

theorem run_fillSQLMetaCalls (input : RouteInput) :
    let r := (fillSQLMetaCalls sqlObs input).run (fun _ => analyzer.answer lower) []
    analyzed r.1 = (if !input.isNew || input.body.isEmpty || input.hasParsedSQL then []
      else [(input.body, input.catalog, input.schema)]) ∧
    r.2 = fillSQLMeta (fun sql c s => (analyzer.analyze lower sql c s).1) input := by
  unfold fillSQLMetaCalls fillSQLMeta
  split
  · exact ⟨rfl, rfl⟩
  · cases sqlObs <;> exact ⟨rfl, rfl⟩

/-! ### One source -/

theorem sqlFields_fromProto (req : RouteRequest) :
    (fromProto req).sqlFields = req.sqlFields ∧ (fromProto req).queryCategory = none := by
  unfold fromProto RouteRequest.sqlFields
  cases req.trinoQueryProperties <;> cases req.trinoRequestUser <;> exact ⟨rfl, rfl⟩

theorem hasParsedSQL_iff (input : RouteInput) : input.hasParsedSQL ↔ input.sqlFields ≠ {} := by
  unfold RouteInput.hasParsedSQL RouteInput.sqlFields
  simp only [Bool.or_eq_true, Bool.not_eq_true', List.isEmpty_eq_false_iff, ne_eq,
    SqlFields.mk.injEq, not_and_or, Bool.not_eq_false]
  tauto

/-- The category changes none of what the later steps read. -/
theorem withCategory_eq (input : RouteInput) :
    ∃ c, withCategory upperText input = { input with queryCategory := c } := by
  unfold withCategory
  split
  · exact ⟨_, rfl⟩
  · exact ⟨_, rfl⟩

/-- What the request carries is left as it is, and the analyzer is not run. -/
theorem inputFromProto_of_parsed {req : RouteRequest} (h : req.sqlFields ≠ {}) :
    let r := PipelineEvaluator.inputFromProto lower upperText analyzer sqlObs req
    r.1 = [] ∧ r.2 = withCategory upperText (fromProto req) := by
  obtain ⟨c, hc⟩ := withCategory_eq upperText (fromProto req)
  have hparsed : (withCategory upperText (fromProto req)).hasParsedSQL := by
    rw [hasParsedSQL_iff, hc]
    exact (sqlFields_fromProto req).1 ▸ h
  obtain ⟨hruns, hinput⟩ := run_fillSQLMetaCalls lower analyzer sqlObs
    (withCategory upperText (fromProto req))
  rw [fillSQLMeta, hparsed, Bool.or_true] at hinput
  rw [hparsed, Bool.or_true] at hruns
  exact ⟨hruns, hinput⟩

theorem submission_eq (req : RouteRequest) :
    req.submission =
      if (fromProto req).isNew ∧ (fromProto req).body ≠ [] then
        some ((fromProto req).body, (fromProto req).catalog, (fromProto req).schema)
      else none := by
  unfold RouteRequest.submission fromProto
  cases req.trinoQueryProperties <;> cases req.trinoRequestUser <;> rfl

/-- Without parsed fields the analyzer is run on a submission, and on nothing else. -/
theorem inputFromProto_of_not_parsed {req : RouteRequest} (h : req.sqlFields = {}) :
    let r := PipelineEvaluator.inputFromProto lower upperText analyzer sqlObs req
    r.1 = req.submission.toList ∧
      r.2 = (match req.submission with
        | none => fromProto req
        | some (sql, c, s) => (fromProto req).withMeta (analyzer.analyze lower sql c s).1) := by
  have hparsed : (fromProto req).hasParsedSQL = false := by
    rw [Bool.eq_false_iff, ne_eq, hasParsedSQL_iff, (sqlFields_fromProto req).1, h]
    simp
  have hcategory : withCategory upperText (fromProto req) = fromProto req := by
    unfold withCategory
    rw [hparsed]
    rfl
  obtain ⟨hruns, hinput⟩ := run_fillSQLMetaCalls lower analyzer sqlObs
    (fromProto req)
  unfold PipelineEvaluator.inputFromProto inputFromProtoCalls
  rw [hcategory, submission_eq]
  dsimp only at hruns hinput ⊢
  rw [hruns, hinput, fillSQLMeta, hparsed, Bool.or_false]
  by_cases hsub : (fromProto req).isNew ∧ (fromProto req).body ≠ []
  · have hcond : (!(fromProto req).isNew || (fromProto req).body.isEmpty) = false := by
      simpa using hsub
    rw [hcond, if_pos hsub]
    exact ⟨rfl, rfl⟩
  · have hcond : (!(fromProto req).isNew || (fromProto req).body.isEmpty) = true := by
      rw [not_and_or, not_not] at hsub
      simpa using hsub
    rw [hcond, if_neg hsub]
    exact ⟨rfl, rfl⟩

end Calls

/-! ### Categories -/

def Analyzer.Classifies (lower upperText : GoString → GoString) (a : Analyzer) : Prop :=
  ∀ sql catalog schema, sql ≠ [] → (a.analyze lower sql catalog schema).1.queryType ≠ [] →
    (a.analyze lower sql catalog schema).1.category =
      categoryForType upperText (a.analyze lower sql catalog schema).1.queryType

/-- Keywords are in upper case, with nothing around them. -/
theorem categoryForType_keyword (other : GoString → GoString) {kw : GoString}
    (h : kw ∈ statementKeywords) : categoryForType (toUpper other) kw = categoryFor kw := by
  have hplain : ∀ w ∈ statementKeywords, trimSpace w = w ∧ w.all (· < 128) ∧
      w.map Byte.toUpper = w := List.forall_iff_forall_mem.mp (by decide)
  obtain ⟨htrim, hascii, hupper⟩ := hplain kw h
  unfold categoryForType toUpper
  rw [htrim, if_pos hascii, hupper]

theorem heuristic_classifies (lower other : GoString → GoString) (h : Heuristic) :
    (Analyzer.heuristic h).Classifies lower (toUpper other) := by
  intro sql catalog schema _ htype
  have hcoherent := analyze_coherent lower h sql catalog schema
  change (h.analyze lower sql catalog schema).queryType ≠ [] at htype
  change (h.analyze lower sql catalog schema).category =
    categoryForType (toUpper other) (h.analyze lower sql catalog schema).queryType
  cases hok : (h.analyze lower sql catalog schema).parseOK with
  | false =>
    rw [hcoherent.1 hok] at htype
    exact absurd rfl htype
  | true =>
    have hm := hcoherent.2 hok
    rw [hm.category, categoryForType_keyword other hm.keyword]

theorem noop_classifies (lower upperText : GoString → GoString) :
    (Analyzer.other noop).Classifies lower upperText := by
  intro sql catalog schema _ htype
  exact absurd rfl htype

section Source

variable (lower upperText : GoString → GoString) (analyzer : Analyzer) (sqlObs : Bool)

theorem withCategory_queryCategory {input : RouteInput} (hnone : input.queryCategory = none)
    (htype : (withCategory upperText input).queryType ≠ []) :
    (withCategory upperText input).queryCategory =
      some (categoryForType upperText (withCategory upperText input).queryType) := by
  have htype' : input.queryType ≠ [] := by
    obtain ⟨c, hc⟩ := withCategory_eq upperText input
    rwa [hc] at htype
  have hcond : (input.hasParsedSQL && !input.queryType.isEmpty && input.queryCategory.isNone) =
      true := by
    simp [RouteInput.hasParsedSQL, htype', hnone]
  unfold withCategory
  rw [if_pos hcond]

def submit (sql catalog schema : GoString) : RouteRequest where
  trinoQueryProperties := some
    { body := sql
      queryType := []
      resourceGroupQueryType := []
      defaultCatalog := catalog
      defaultSchema := schema
      catalogs := []
      schemas := []
      catalogSchemas := []
      tables := []
      isNewQuerySubmission := true
      isQueryParsingSuccessful := false
      errorMessage := [] }
  trinoRequestUser := none
  method := str "POST"
  requestUri := str "/v1/statement"
  remoteAddr := []
  parameterMap := .empty
  trinoSource := []
  clientTags := []

theorem submission_submit {sql : GoString} (h : sql ≠ []) (catalog schema : GoString) :
    (submit sql catalog schema).submission = some (sql, catalog, schema) := if_pos ⟨rfl, h⟩

theorem category_iff_classifies :
    (∀ req : RouteRequest,
      (PipelineEvaluator.inputFromProto lower upperText analyzer sqlObs req).2.queryType ≠ [] →
        (PipelineEvaluator.inputFromProto lower upperText analyzer sqlObs req).2.queryCategory =
          some (categoryForType upperText
            (PipelineEvaluator.inputFromProto lower upperText analyzer sqlObs req).2.queryType)) ↔
      analyzer.Classifies lower upperText := by
  constructor
  · intro hall sql catalog schema hsql htype
    have hinput := (inputFromProto_of_not_parsed lower upperText analyzer sqlObs
      (show (submit sql catalog schema).sqlFields = {} from rfl)).2
    rw [submission_submit hsql] at hinput
    have hcategory := hall (submit sql catalog schema)
    rw [hinput] at hcategory
    exact Option.some.inj (hcategory htype)
  · intro hclassifies req htype
    by_cases hparsed : req.sqlFields = {}
    · have hinput := (inputFromProto_of_not_parsed lower upperText analyzer sqlObs hparsed).2
      rw [hinput] at htype ⊢
      have hsub := submission_eq req
      cases hcase : req.submission with
      | none =>
        rw [hcase] at htype
        have hfields := (sqlFields_fromProto req).1.trans hparsed
        exact absurd (congrArg SqlFields.queryType hfields) htype
      | some text =>
        obtain ⟨sql, catalog, schema⟩ := text
        rw [hcase] at htype hsub
        split at hsub
        · rename_i hcond
          obtain ⟨rfl, -⟩ := Prod.mk.inj (Option.some.inj hsub)
          exact congrArg some (hclassifies _ _ _ hcond.2 htype)
        · cases hsub
    · have hinput := (inputFromProto_of_parsed lower upperText analyzer sqlObs hparsed).2
      rw [hinput] at htype ⊢
      exact withCategory_queryCategory upperText (sqlFields_fromProto req).2 htype

end Source

/-- **One source.** The SQL fields are all from the request if it carries any, all from one run of
the analyzer on the text of a new submission otherwise, and else empty. The category is that of the
type exactly if the analyzer classifies its own results so, as those of the service do. -/
theorem sql_fields_one_source (lower other : GoString → GoString) (analyzer : Analyzer)
    (sqlObs : Bool) :
    (∀ req : RouteRequest,
      let r := PipelineEvaluator.inputFromProto lower (toUpper other) analyzer sqlObs req
      (req.sqlFields ≠ {} → r.1 = [] ∧ r.2.sqlFields = req.sqlFields) ∧
      (∀ sql catalog schema, req.sqlFields = {} →
        req.submission = some (sql, catalog, schema) →
          r.1 = [(sql, catalog, schema)] ∧
            r.2.sqlFields = sqlFieldsOf (analyzer.analyze lower sql catalog schema).1) ∧
      (req.sqlFields = {} → req.submission = none → r.1 = [] ∧ r.2.sqlFields = {})) ∧
    ((∀ req : RouteRequest,
      let input := (PipelineEvaluator.inputFromProto lower (toUpper other) analyzer sqlObs req).2
      input.queryType ≠ [] →
        input.queryCategory = some (categoryForType (toUpper other) input.queryType)) ↔
      analyzer.Classifies lower (toUpper other)) ∧
    (∀ h, (Analyzer.heuristic h).Classifies lower (toUpper other)) ∧
    (Analyzer.other noop).Classifies lower (toUpper other) := by
  refine ⟨?_, category_iff_classifies lower _ analyzer sqlObs, heuristic_classifies lower other,
    noop_classifies lower _⟩
  intro req
  refine ⟨?_, ?_, ?_⟩
  · intro hparsed
    obtain ⟨hruns, hinput⟩ := inputFromProto_of_parsed lower (toUpper other) analyzer sqlObs hparsed
    obtain ⟨c, hc⟩ := withCategory_eq (toUpper other) (fromProto req)
    rw [hinput, hc]
    exact ⟨hruns, (sqlFields_fromProto req).1⟩
  · intro sql catalog schema hparsed hsub
    obtain ⟨hruns, hinput⟩ := inputFromProto_of_not_parsed lower (toUpper other) analyzer sqlObs
      hparsed
    rw [hsub] at hruns hinput
    rw [hinput]
    exact ⟨hruns, rfl⟩
  · intro hparsed hsub
    obtain ⟨hruns, hinput⟩ := inputFromProto_of_not_parsed lower (toUpper other) analyzer sqlObs
      hparsed
    rw [hsub] at hruns hinput
    rw [hinput]
    exact ⟨hruns, (sqlFields_fromProto req).1.trans hparsed⟩

/-- An analyzer with categories of its own. -/
theorem own_category_kept :
    let analyzer : Analyzer := .other fun _ _ _ =>
      { queryType := str "CALL", category := .dml, parseOK := true }
    let input := (PipelineEvaluator.inputFromProto id (toUpper id) analyzer false
      (submit (str "CALL p()") [] [])).2
    input.queryType = str "CALL" ∧ input.queryCategory = some .dml ∧
      categoryForType (toUpper id) input.queryType = .other := by
  decide +kernel

end TrinoGoway.Engine
