import Mathlib.Algebra.BigOperators.Group.List.Lemmas
import Mathlib.Algebra.GroupWithZero.Nat
import Mathlib.Data.Multiset.Basic
import TrinoGoway.Go.Marshal
import TrinoGoway.Persistence.Records

/-! The queries of the history DAO over the rows of `query_history`. -/
namespace TrinoGoway.Persistence

open Go Json

def QueryRecord.columns (r : QueryRecord) : QueryRecord :=
  { r with routingGroup := [], queryText := [] }

/-- `ORDER BY created_at DESC`: rows of one instant come in an order of the database's own, which
is the same for equal sets of rows. -/
structure RowOrder where
  sort : List QueryRecord → List QueryRecord
  perm : ∀ rows, (sort rows).Perm rows
  latestFirst : ∀ rows, (sort rows).Pairwise fun a b => b.createdAt ≤ a.createdAt
  sort_congr : ∀ {rows rows' : List QueryRecord}, rows.Perm rows' → sort rows = sort rows'

noncomputable def RowOrder.arbitrary : RowOrder where
  sort rows := (Multiset.ofList rows).toList.mergeSort fun a b => b.createdAt ≤ a.createdAt
  perm rows := by
    have h : (Multiset.ofList rows).toList.Perm rows :=
      Multiset.coe_eq_coe.mp (Multiset.coe_toList _)
    exact (List.mergeSort_perm _ _).trans h
  latestFirst rows := by
    have h : ((Multiset.ofList rows).toList.mergeSort fun a b => b.createdAt ≤ a.createdAt).Pairwise
        fun a b => decide (b.createdAt ≤ a.createdAt) = true := by
      apply List.pairwise_mergeSort
      · intro a b c hab hbc
        simp only [decide_eq_true_eq] at hab hbc ⊢
        exact Int.le_trans hbc hab
      · intro a b
        simp only [Bool.or_eq_true, decide_eq_true_eq]
        exact Int.le_total b.createdAt a.createdAt
    simpa using h
  sort_congr h := by rw [Multiset.coe_eq_coe.mpr h]

inductive Driver
  | postgres
  | mysql

structure HistoryStore where
  order : RowOrder
  rows : List QueryRecord
  countFault : Option GoError := none
  selectFault : Option GoError := none
  driver : Driver

structure HistoryFilter where
  userName : GoString := []
  backendURL : GoString := []
  queryID : GoString := []
  source : GoString := []
  page : ℤ
  pageSize : ℤ

namespace HistoryFilter

def limit (f : HistoryFilter) : ℤ := if f.pageSize ≤ 0 then 10 else f.pageSize

def offset (f : HistoryFilter) : ℤ :=
  let page := if f.page < 1 then 1 else f.page
  ((page - 1) * f.limit).bmod (2 ^ 64)

end HistoryFilter

namespace HistoryStore

/-- `LIMIT limit OFFSET offset` over the ordered rows; a negative offset is refused. -/
def select (s : HistoryStore) (p : QueryRecord → Bool) (limit offset : ℤ) :
    Except GoError (List QueryRecord) :=
  match s.selectFault with
  | some e => .error e
  | none =>
    if offset < 0 then .error ⟨str "OFFSET must not be negative"⟩
    else .ok (((s.order.sort (s.rows.filter p)).drop offset.toNat |>.take limit.toNat).map
      QueryRecord.columns)

def listRecent (s : HistoryStore) (limit : ℤ) : Except GoError (List QueryRecord) :=
  match s.select (fun _ => true) (if limit ≤ 0 then 10 else limit) 0 with
  | .error e => .error (e.wrap "persistence: history: list recent: ")
  | .ok records => .ok records

end HistoryStore

/-! ### The query of a filter -/

inductive FilterColumn
  | userName
  | backendURL
  | queryID
  | source

def FilterColumn.get : FilterColumn → QueryRecord → GoString
  | userName, r => r.userName
  | backendURL, r => r.backendURL
  | queryID, r => r.queryID
  | source, r => r.source

structure Condition where
  column : FilterColumn
  placeholder : GoString

inductive Arg
  | text (s : GoString)
  | int (i : ℤ)
  deriving DecidableEq

/-- The variables of `FindByFilter` while it builds the conditions. -/
structure Where where
  conditions : List Condition := []
  args : List Arg := []
  argIdx : ℕ := 1

def Driver.placeholder (d : Driver) (argIdx : ℕ) : GoString × ℕ :=
  match d with
  | mysql => (str "?", argIdx)
  | postgres => (str "$" ++ formatNat argIdx, argIdx + 1)

def Where.add (d : Driver) (w : Where) (column : FilterColumn) (value : GoString) : Where :=
  if value ≠ [] then
    { conditions := w.conditions ++ [⟨column, (d.placeholder w.argIdx).1⟩]
      args := w.args ++ [.text value]
      argIdx := (d.placeholder w.argIdx).2 }
  else w

def HistoryFilter.build (d : Driver) (f : HistoryFilter) : Where :=
  let w : Where := {}
  let w := w.add d .userName f.userName
  let w := w.add d .backendURL f.backendURL
  let w := w.add d .queryID f.queryID
  w.add d .source f.source

/-- The argument for the placeholder at a position of the query: `?` takes them in their order, and
`$n` is the `n`-th. -/
def Driver.bind (d : Driver) (args : List Arg) (position : ℕ) (placeholder : GoString) :
    Option Arg :=
  match d with
  | mysql => args[position]?
  | postgres => args[parseDigits (placeholder.drop 1) - 1]?

def Driver.meets (d : Driver) (conditions : List Condition) (args : List Arg) (r : QueryRecord) :
    Bool :=
  conditions.zipIdx.all fun c => d.bind args c.2 c.1.placeholder = some (.text (c.1.column.get r))

namespace HistoryStore

def count (s : HistoryStore) (conditions : List Condition) (args : List Arg) : Except GoError ℕ :=
  match s.countFault with
  | some e => .error e
  | none => .ok (s.rows.filter (s.driver.meets conditions args)).length

/-- The data query, with placeholders for the limit and the offset behind the conditions. -/
def selectWhere (s : HistoryStore) (conditions : List Condition) (limitP offsetP : GoString)
    (args : List Arg) : Except GoError (List QueryRecord) :=
  match s.driver.bind args conditions.length limitP,
      s.driver.bind args (conditions.length + 1) offsetP with
  | some (.int limit), some (.int offset) =>
    s.select (s.driver.meets conditions args) limit offset
  | _, _ => .error ⟨str "the arguments do not fit the query"⟩

def findByFilter (s : HistoryStore) (f : HistoryFilter) : Except GoError (List QueryRecord × ℕ) :=
  let w := f.build s.driver
  match s.count w.conditions w.args with
  | .error e => .error (e.wrap "persistence: history: find by filter count: ")
  | .ok total =>
    let (limitP, argIdx) := s.driver.placeholder w.argIdx
    let (offsetP, _) := s.driver.placeholder argIdx
    match s.selectWhere w.conditions limitP offsetP (w.args ++ [.int f.limit, .int f.offset]) with
    | .error e => .error (e.wrap "persistence: history: find by filter: ")
    | .ok records => .ok (records, total)

end HistoryStore

def condition (value column : GoString) : Bool := value = [] || column = value

def HistoryFilter.accepts (f : HistoryFilter) (r : QueryRecord) : Bool :=
  condition f.userName r.userName && condition f.backendURL r.backendURL &&
    condition f.queryID r.queryID && condition f.source r.source

section Placeholders

variable {d : Driver} {w : Where}

/-- Every placeholder has its argument, and the conditions select the rows of `p`; arguments that
are appended do not change that. -/
structure Where.Selects (d : Driver) (w : Where) (p : QueryRecord → Bool) : Prop where
  length_eq : w.args.length = w.conditions.length
  argIdx_eq : d = .postgres → w.argIdx = w.args.length + 1
  meets_eq : ∀ more r, d.meets w.conditions (w.args ++ more) r = p r

/-- The placeholder behind as many arguments as conditions is for the next argument. -/
theorem bind_placeholder {args : List Arg} {position argIdx : ℕ}
    (hposition : position = args.length) (hidx : d = .postgres → argIdx = args.length + 1)
    (arg : Arg) (more : List Arg) :
    d.bind (args ++ arg :: more) position (d.placeholder argIdx).1 = some arg := by
  cases d with
  | mysql => simp [Driver.bind, hposition]
  | postgres =>
    have hindex : parseDigits ((str "$" ++ formatNat argIdx).drop 1) = argIdx :=
      parseDigits_formatNat argIdx
    rw [Driver.bind, Driver.placeholder, hindex, hidx rfl]
    simp

theorem placeholder_idx {n argIdx : ℕ} (h : d = .postgres → argIdx = n + 1) :
    d = .postgres → (d.placeholder argIdx).2 = n + 1 + 1 := by
  rintro rfl
  rw [← h rfl]
  rfl

theorem Where.Selects.add {p : QueryRecord → Bool} (h : w.Selects d p) (column : FilterColumn)
    (value : GoString) :
    (w.add d column value).Selects d fun r => p r && condition value (column.get r) := by
  unfold Where.add
  split
  · next hne =>
    refine ⟨by simp [h.length_eq], ?_, fun more r => ?_⟩
    · intro hd
      rw [placeholder_idx h.argIdx_eq hd]
      simp
    · have hbind := bind_placeholder h.length_eq.symm h.argIdx_eq (.text value) more
      have hrest := h.meets_eq (.text value :: more) r
      simp only [Driver.meets] at hrest ⊢
      rw [List.append_assoc, List.singleton_append, List.zipIdx_append, List.all_append, hrest]
      simp [hbind, condition, hne, eq_comm]
  · next hnil =>
    have hcondition : ∀ c, condition value c = true := by
      intro c
      rw [condition, not_not.mp hnil]
      rfl
    simpa only [hcondition, Bool.and_true] using h

theorem selects_build (d : Driver) (f : HistoryFilter) : (f.build d).Selects d f.accepts := by
  have hnil : Where.Selects d {} fun _ => true := ⟨rfl, fun _ => rfl, fun _ _ => rfl⟩
  have h := (((hnil.add .userName f.userName).add .backendURL f.backendURL).add .queryID
    f.queryID).add .source f.source
  simp only [Bool.true_and] at h
  exact h

/-- The placeholders behind the conditions are for the two arguments behind theirs. -/
theorem Where.Selects.bind_page {p : QueryRecord → Bool} (h : w.Selects d p) (limit offset : Arg) :
    d.bind (w.args ++ [limit, offset]) w.conditions.length (d.placeholder w.argIdx).1 =
        some limit ∧
      d.bind (w.args ++ [limit, offset]) (w.conditions.length + 1)
        (d.placeholder (d.placeholder w.argIdx).2).1 = some offset := by
  have hsplit : w.args ++ [limit, offset] = (w.args ++ [limit]) ++ [offset] := by simp
  constructor
  · exact bind_placeholder h.length_eq.symm h.argIdx_eq limit [offset]
  · rw [hsplit]
    refine bind_placeholder (by simp [h.length_eq]) (fun hd => ?_) offset []
    rw [placeholder_idx h.argIdx_eq hd]
    simp

theorem findByFilter_eq (s : HistoryStore) (f : HistoryFilter) :
    s.findByFilter f =
      match s.countFault with
      | some e => .error (e.wrap "persistence: history: find by filter count: ")
      | none =>
        match s.select f.accepts f.limit f.offset with
        | .error e => .error (e.wrap "persistence: history: find by filter: ")
        | .ok records => .ok (records, (s.rows.filter f.accepts).length) := by
  have hbuild := selects_build s.driver f
  have hmeets : ∀ more, s.driver.meets (f.build s.driver).conditions
      ((f.build s.driver).args ++ more) = f.accepts := fun more => funext (hbuild.meets_eq more)
  have hcount := hmeets []
  rw [List.append_nil] at hcount
  obtain ⟨hlimit, hoffset⟩ := hbuild.bind_page (.int f.limit) (.int f.offset)
  unfold HistoryStore.findByFilter HistoryStore.count
  cases s.countFault with
  | some e => rfl
  | none => simp only [HistoryStore.selectWhere, hlimit, hoffset, hmeets, hcount]

end Placeholders

/-! ### The distribution -/

structure BucketKey where
  minuteStart : Time
  backendURL : GoString
  deriving DecidableEq

structure DistributionBucket extends BucketKey where
  queryCount : ℕ
  deriving DecidableEq

def truncMinute (t : Time) : Time := t - t % 60000000000

/-- The buckets of the rows created at or after `since`, by minute. -/
def HistoryStore.findDistribution (s : HistoryStore) (since : Time) :
    Except GoError (List DistributionBucket) :=
  match s.selectFault with
  | some e => .error (e.wrap "persistence: history: find distribution: ")
  | none =>
    let keys := (s.rows.filter fun r => since ≤ r.createdAt).map fun r =>
      BucketKey.mk (truncMinute r.createdAt) r.backendURL
    .ok ((keys.dedup.mergeSort fun a b => a.minuteStart ≤ b.minuteStart).map fun k =>
      ⟨k, keys.count k⟩)

section Queries

variable {s : HistoryStore} {o : RowOrder} {rows rows' : List QueryRecord} {e e' : Option GoError}
  {d : Driver}

theorem select_congr {p : QueryRecord → Bool} (h : (rows.filter p).Perm (rows'.filter p))
    (limit offset : ℤ) :
    (HistoryStore.mk o rows e e' d).select p limit offset =
      (HistoryStore.mk o rows' e e' d).select p limit offset := by
  unfold HistoryStore.select
  rw [o.sort_congr h]

theorem findByFilter_congr {f : HistoryFilter}
    (h : (rows.filter f.accepts).Perm (rows'.filter f.accepts)) :
    (HistoryStore.mk o rows e e' d).findByFilter f =
      (HistoryStore.mk o rows' e e' d).findByFilter f := by
  rw [findByFilter_eq, findByFilter_eq, select_congr h, h.length_eq]

/-- The buckets together count the rows since the given instant. -/
theorem findDistribution_total {buckets : List DistributionBucket} {since : Time}
    (h : s.findDistribution since = .ok buckets) :
    (buckets.map (·.queryCount)).sum = (s.rows.filter fun r => since ≤ r.createdAt).length := by
  unfold HistoryStore.findDistribution at h
  cases hf : s.selectFault with
  | some e => simp [hf] at h
  | none =>
    simp only [hf, Except.ok.injEq] at h
    subst h
    generalize hk : (s.rows.filter fun r => since ≤ r.createdAt).map
      (fun r => BucketKey.mk (truncMinute r.createdAt) r.backendURL) = keys
    rw [List.map_map]
    have hperm := (List.mergeSort_perm keys.dedup fun a b => a.minuteStart ≤ b.minuteStart).map
      fun k => keys.count k
    calc _ = (keys.dedup.map fun k => keys.count k).sum := hperm.sum_eq
      _ = keys.length := List.sum_map_count_dedup_eq_length keys
      _ = _ := by rw [← hk, List.length_map]

end Queries

end TrinoGoway.Persistence
