import Mathlib.Data.List.Sort
import Mathlib.Data.Multiset.Basic
import TrinoGoway.Go.Http

/-! `diffharness.Diff`: the comparison of a response of the Java gateway with one of the Go
gateway, and the relation that a passing verdict is. -/
namespace TrinoGoway.DiffHarness

open Go Go.Http

/-- The policy of a scenario. Only `Normalize` reads it; the comparison is given it and ignores
it. -/
structure DiffPolicy where
  ignoreHeaders : List GoString := []
  ignoreBodyFields : List GoString := []
  rewriteHostPort : Bool := false

structure Response where
  statusCode : ℤ
  headers : Header
  body : GoString

inductive HeaderReason
  | javaOnly
  | valueDiffers
  | goOnly
  deriving DecidableEq

def HeaderReason.text : HeaderReason → GoString
  | javaOnly => str "java-only"
  | valueDiffers => str "value differs"
  | goOnly => str "go-only"

structure HeaderDiff where
  name : GoString
  java : List GoString
  goValues : List GoString
  reason : HeaderReason
  deriving DecidableEq

inductive Verdict
  | pass
  | fail
  | skip
  | error
  deriving DecidableEq

def Verdict.text : Verdict → GoString
  | pass => str "PASS"
  | fail => str "FAIL"
  | skip => str "SKIP"
  | error => str "ERROR"

structure Result where
  scenario : GoString := []
  statusMatch : Bool := false
  javaStatus : ℤ := 0
  goStatus : ℤ := 0
  headerDiffs : List HeaderDiff := []
  bodyDiff : GoString := []
  verdict : Verdict
  reason : GoString := []
  deriving DecidableEq

/-- `cmp.Diff` for texts and for the documents of `json.Unmarshal`. Nothing is reported exactly
for deeply equal values; deep equality of documents is the relation of the setoid. -/
structure Cmp (δ : Type) [Setoid δ] where
  texts : GoString → GoString → GoString
  docs : δ → δ → GoString
  texts_eq_nil : ∀ s t, texts s t = [] ↔ s = t
  docs_eq_nil : ∀ x y, docs x y = [] ↔ x ≈ y

def sortStrings (ss : List GoString) : List GoString := ss.insertionSort (· ≤ ·)

def slicesEqualUnordered (a b : List GoString) : Bool :=
  if a.length ≠ b.length then false
  else
    let aSorted := sortStrings a
    let bSorted := sortStrings b
    (aSorted.zip bSorted).all fun p => p.1 = p.2

def javaDiff (goH : Header) (e : GoString × List GoString) : Option HeaderDiff :=
  match goH.get? e.1 with
  | none => some ⟨e.1, e.2, [], .javaOnly⟩
  | some gv => if slicesEqualUnordered e.2 gv then none else some ⟨e.1, e.2, gv, .valueDiffers⟩

/-- One round of the loop over the Java headers, with the names seen so far. -/
def javaRound (goH : Header) (acc : List GoString × List HeaderDiff)
    (e : GoString × List GoString) : List GoString × List HeaderDiff :=
  (e.1 :: acc.1, acc.2 ++ (javaDiff goH e).toList)

def goRound (seen : List GoString) (diffs : List HeaderDiff) (e : GoString × List GoString) :
    List HeaderDiff :=
  if e.1 ∈ seen then diffs else diffs ++ [⟨e.1, [], e.2, .goOnly⟩]

def diffHeaders (java goH : Header) : List HeaderDiff :=
  let (seen, diffs) := java.entries.foldl (javaRound goH) ([], [])
  (goH.entries.foldl (goRound seen) diffs).insertionSort fun d d' => d.name ≤ d'.name

def hasMeaningfulHeaderDiff (diffs : List HeaderDiff) : Bool := 0 < diffs.length

section Comparison

variable {δ : Type} [Setoid δ] (unmarshal : GoString → Option δ) (cmp : Cmp δ)

def diffBodies (java goBody : GoString) : GoString :=
  if java = goBody then []
  else
    match unmarshal java, unmarshal goBody with
    | some jDoc, some gDoc => cmp.docs jDoc gDoc
    -- one of them is not JSON: the texts are compared
    | _, _ => cmp.texts java goBody

def diff (java goResp : Response) (_policy : DiffPolicy) : Result :=
  let statusMatch := java.statusCode = goResp.statusCode
  let headerDiffs := diffHeaders java.headers goResp.headers
  let bodyDiff := diffBodies unmarshal cmp java.body goResp.body
  { statusMatch, javaStatus := java.statusCode, goStatus := goResp.statusCode, headerDiffs, bodyDiff
    verdict :=
      if ¬statusMatch ∨ bodyDiff ≠ [] ∨ hasMeaningfulHeaderDiff headerDiffs then .fail else .pass }

end Comparison

/-! ### Headers -/

theorem slicesEqualUnordered_iff {a b : List GoString} :
    slicesEqualUnordered a b = true ↔ a.Perm b := by
  have ha : (sortStrings a).Perm a := List.perm_insertionSort _ a
  have hb : (sortStrings b).Perm b := List.perm_insertionSort _ b
  unfold slicesEqualUnordered
  constructor
  · intro h
    split at h
    · cases h
    · rename_i hlen
      have hlength : (sortStrings a).length = (sortStrings b).length := by
        rw [ha.length_eq, hb.length_eq]
        exact not_not.mp hlen
      have hsorted : sortStrings a = sortStrings b := by
        refine List.ext_getElem hlength ?_
        intro i hi hi'
        have hmem : ((sortStrings a)[i], (sortStrings b)[i]) ∈
            (sortStrings a).zip (sortStrings b) := by
          rw [List.mem_iff_getElem]
          exact ⟨i, by rw [List.length_zip]; omega, List.getElem_zip⟩
        simpa using List.all_eq_true.mp h _ hmem
      rw [hsorted] at ha
      exact ha.symm.trans hb
  · intro h
    have hsorted : sortStrings a = sortStrings b := by
      refine (ha.trans (h.trans hb.symm)).eq_of_pairwise ?_ (List.pairwise_insertionSort _ a)
        (List.pairwise_insertionSort _ b)
      intro s t _ _ hst hts
      exact List.le_antisymm hst hts
    rw [if_neg (not_not.mpr h.length_eq), hsorted, List.all_eq_true]
    intro p hp
    rw [List.zip_eq_zipWith, List.zipWith_self] at hp
    obtain ⟨s, -, rfl⟩ := List.mem_map.mp hp
    exact decide_eq_true rfl

theorem foldl_javaRound (goH : Header) (es : List (GoString × List GoString))
    (acc : List GoString × List HeaderDiff) :
    es.foldl (javaRound goH) acc =
      ((es.map Prod.fst).reverse ++ acc.1, acc.2 ++ es.filterMap (javaDiff goH)) := by
  induction es generalizing acc with
  | nil => simp
  | cons e es ih =>
    rw [List.foldl_cons, ih, javaRound]
    cases hdiff : javaDiff goH e <;> simp [hdiff]

theorem foldl_goRound (seen : List GoString) (es : List (GoString × List GoString))
    (diffs : List HeaderDiff) :
    es.foldl (goRound seen) diffs =
      diffs ++ (es.filter (·.1 ∉ seen)).map fun e => ⟨e.1, [], e.2, .goOnly⟩ := by
  induction es generalizing diffs with
  | nil => simp
  | cons e es ih =>
    rw [List.foldl_cons, ih, goRound]
    by_cases hseen : e.1 ∈ seen <;> simp [hseen]

/-- The same names, each with the same multiset of values. -/
def SameHeaders (h h' : Header) : Prop :=
  ∀ name, (h.get? name).map Multiset.ofList = (h'.get? name).map Multiset.ofList

theorem javaDiff_eq_none {goH : Header} {e : GoString × List GoString} :
    javaDiff goH e = none ↔ ∃ gv, goH.get? e.1 = some gv ∧ e.2.Perm gv := by
  unfold javaDiff
  cases goH.get? e.1 with
  | none => simp
  | some gv => simp [← slicesEqualUnordered_iff]

theorem diffHeaders_eq_nil {java goH : Header} :
    diffHeaders java goH = [] ↔
      (∀ e ∈ java.entries, javaDiff goH e = none) ∧
        ∀ e ∈ goH.entries, java.get? e.1 ≠ none := by
  have hnil : ∀ ds : List HeaderDiff,
      ds.insertionSort (fun d d' => d.name ≤ d'.name) = [] ↔ ds = [] := by
    intro ds
    rw [← List.length_eq_zero_iff, List.length_insertionSort, List.length_eq_zero_iff]
  have hmem : ∀ k, k ∉ (java.entries.map Prod.fst).reverse ++ [] ↔ java.get? k = none := by
    intro k
    rw [← not_iff_not, not_not, ← ne_eq, GoMap.get?_ne_none]
    simp
  unfold diffHeaders
  simp only [foldl_javaRound, foldl_goRound]
  rw [hnil, List.append_eq_nil_iff, List.nil_append, List.filterMap_eq_nil_iff,
    List.map_eq_nil_iff, List.filter_eq_nil_iff]
  simp only [hmem, decide_eq_true_eq, ne_eq]

theorem diffHeaders_eq_nil_iff {java goH : Header} :
    diffHeaders java goH = [] ↔ SameHeaders java goH := by
  rw [diffHeaders_eq_nil]
  constructor
  · rintro ⟨hjava, hgo⟩ name
    cases hj : java.get? name with
    | some jv =>
      obtain ⟨gv, hgv, hperm⟩ := javaDiff_eq_none.mp (hjava (name, jv) (GoMap.get?_eq_some.mp hj))
      rw [hgv, Option.map_some, Option.map_some, Multiset.coe_eq_coe.mpr hperm]
    | none =>
      cases hg : goH.get? name with
      | none => rfl
      | some gv => exact absurd hj (hgo (name, gv) (GoMap.get?_eq_some.mp hg))
  · intro h
    constructor
    · intro e he
      have hname := h e.1
      rw [GoMap.get?_eq_some.mpr he] at hname
      obtain ⟨gv, hgv, hvalues⟩ := Option.map_eq_some_iff.mp hname.symm
      exact javaDiff_eq_none.mpr ⟨gv, hgv, Multiset.coe_eq_coe.mp hvalues.symm⟩
    · intro e he hnone
      have hname := h e.1
      rw [GoMap.get?_eq_some.mpr he, hnone] at hname
      cases hname

/-! ### Bodies and verdicts -/

section Verdicts

variable {δ : Type} [Setoid δ] (unmarshal : GoString → Option δ) (cmp : Cmp δ)

/-- Equal bytes, or two JSON texts of equal values. -/
def SameBody (b b' : GoString) : Prop :=
  b = b' ∨ ∃ x x', unmarshal b = some x ∧ unmarshal b' = some x' ∧ x ≈ x'

theorem diffBodies_eq_nil {java goBody : GoString} :
    diffBodies unmarshal cmp java goBody = [] ↔ SameBody unmarshal java goBody := by
  unfold diffBodies SameBody
  by_cases heq : java = goBody
  · simp [heq]
  · rw [if_neg heq]
    cases unmarshal java with
    | none => simp [cmp.texts_eq_nil]
    | some x =>
      cases unmarshal goBody with
      | none => simp [cmp.texts_eq_nil]
      | some x' => simp [heq, cmp.docs_eq_nil]

theorem SameBody.symm {b b' : GoString} (h : SameBody unmarshal b b') :
    SameBody unmarshal b' b := by
  rcases h with rfl | ⟨x, x', hx, hx', heq⟩
  · exact .inl rfl
  · exact .inr ⟨x', x, hx', hx, Setoid.symm heq⟩

theorem SameBody.trans {b b' b'' : GoString} (h : SameBody unmarshal b b')
    (h' : SameBody unmarshal b' b'') : SameBody unmarshal b b'' := by
  rcases h with rfl | ⟨x, x', hx, hx', heq⟩
  · exact h'
  rcases h' with rfl | ⟨y, y', hy, hy', heq'⟩
  · exact .inr ⟨x, x', hx, hx', heq⟩
  · -- the middle body has one value
    obtain rfl : x' = y := Option.some.inj (hx'.symm.trans hy)
    exact .inr ⟨x, y', hx, hy', Setoid.trans heq heq'⟩

def SameResponse (r r' : Response) : Prop :=
  r.statusCode = r'.statusCode ∧ SameHeaders r.headers r'.headers ∧
    SameBody unmarshal r.body r'.body

theorem verdict_diff_eq_pass {java goResp : Response} {policy : DiffPolicy} :
    (diff unmarshal cmp java goResp policy).verdict = .pass ↔
      SameResponse unmarshal java goResp := by
  unfold SameResponse
  rw [← diffHeaders_eq_nil_iff, ← diffBodies_eq_nil unmarshal cmp]
  simp only [diff, hasMeaningfulHeaderDiff, decide_eq_true_eq, List.length_pos_iff]
  constructor
  · intro h
    split at h
    · cases h
    · rename_i hsame
      rw [not_or, not_or, not_not, not_not, not_not] at hsame
      exact ⟨hsame.1, hsame.2.2, hsame.2.1⟩
  · rintro ⟨hstatus, hheaders, hbody⟩
    rw [if_neg]
    simp [hstatus, hheaders, hbody]

theorem equivalence_sameResponse : Equivalence (SameResponse unmarshal) where
  refl _ := ⟨rfl, fun _ => rfl, .inl rfl⟩
  symm h := ⟨h.1.symm, fun name => (h.2.1 name).symm, h.2.2.symm⟩
  trans h h' := ⟨h.1.trans h'.1, fun name => (h.2.1 name).trans (h'.2.1 name), h.2.2.trans _ h'.2.2⟩

/-- Passing is an equivalence of responses: the same status, the same header names with the same
multisets of values, and bodies that are equal as bytes or as JSON. -/
theorem pass_equivalence (policy : DiffPolicy) :
    (Equivalence fun r r' => (diff unmarshal cmp r r' policy).verdict = .pass) ∧
      ∀ r r', (diff unmarshal cmp r r' policy).verdict = .pass ↔
        r.statusCode = r'.statusCode ∧
          (∀ name, (r.headers.get? name).map Multiset.ofList =
            (r'.headers.get? name).map Multiset.ofList) ∧
          (r.body = r'.body ∨ ∃ x x', unmarshal r.body = some x ∧ unmarshal r'.body = some x' ∧
            x ≈ x') := by
  refine ⟨?_, fun r r' => verdict_diff_eq_pass unmarshal cmp⟩
  have hrel : (fun r r' => (diff unmarshal cmp r r' policy).verdict = .pass) =
      SameResponse unmarshal := by
    funext r r'
    exact propext (verdict_diff_eq_pass unmarshal cmp)
  rw [hrel]
  exact equivalence_sameResponse unmarshal

end Verdicts

end TrinoGoway.DiffHarness
