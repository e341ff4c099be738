import TrinoGoway.SqlMeta.Literals

/-! Two runs of the analysis on tokens that it cannot tell apart, except as parts of names. -/
namespace TrinoGoway.SqlMeta

open Go List

/-! ### Open parentheses -/

/-- The number of open parentheses behind a token, as the source counts: quoted ones count too, and
one that closes nothing is passed over. -/
def depthAt (d : ℕ) (t : Token) : ℕ :=
  if t.text = str "(" then d + 1 else if t.text = str ")" then d - 1 else d

def depthAfter (d : ℕ) (toks : List Token) : ℕ := toks.foldl depthAt d

/-- Behind `d` open parentheses, no statement keyword stands outside of parentheses. -/
def NoneOutside (d : ℕ) (toks : List Token) : Prop :=
  ∀ lead t post, toks = lead ++ t :: post → depthAfter d lead = 0 → t.quoted = false →
    isStatementKeyword (upper t.text) = false

theorem mainAfterWith_cons (d : ℕ) (t : Token) (toks : List Token) :
    mainAfterWith d (t :: toks) =
      if d = 0 ∧ t.quoted = false ∧ isStatementKeyword (upper t.text) then some (upper t.text)
      else mainAfterWith (depthAt d t) toks := by
  have hmark (h : t.text = str "(" ∨ t.text = str ")") :
      isStatementKeyword (upper t.text) = false := by
    rcases h with h | h <;> rw [h] <;> decide
  rw [mainAfterWith, depthAt]
  split
  next hopen => rw [if_neg (by simp [hmark (.inl hopen)])]
  next =>
    split
    next hclose => rw [if_neg (by simp [hmark (.inr hclose)])]
    next => grind

theorem depthAfter_append (d : ℕ) (xs ys : List Token) :
    depthAfter d (xs ++ ys) = depthAfter (depthAfter d xs) ys := List.foldl_append

theorem mainAfterWith_append (d : ℕ) (xs ys : List Token) :
    mainAfterWith d (xs ++ ys) = (mainAfterWith d xs).or (mainAfterWith (depthAfter d xs) ys) := by
  induction xs generalizing d with
  | nil => rfl
  | cons t xs ih =>
    rw [List.cons_append, mainAfterWith_cons, mainAfterWith_cons]
    split
    · rfl
    · exact ih _

theorem mainAfterWith_eq_none_iff {d : ℕ} {toks : List Token} :
    mainAfterWith d toks = none ↔ NoneOutside d toks := by
  induction toks generalizing d with
  | nil =>
    simp only [mainAfterWith, true_iff]
    intro lead t post hsplit
    simp at hsplit
  | cons t toks ih =>
    rw [mainAfterWith_cons]
    constructor
    · intro hnone lead u post hsplit hdepth hquoted
      split at hnone
      · cases hnone
      next hnot =>
        cases lead with
        | nil =>
          obtain ⟨rfl, rfl⟩ := List.cons.inj hsplit
          exact Bool.eq_false_iff.mpr fun hkw => hnot ⟨hdepth, hquoted, hkw⟩
        | cons v lead =>
          obtain ⟨rfl, rfl⟩ := List.cons.inj hsplit
          exact ih.mp hnone lead u post rfl hdepth hquoted
    · intro hnone
      rw [if_neg, ih]
      · intro lead u post hsplit hdepth hquoted
        exact hnone (t :: lead) u post (by rw [hsplit]; rfl) hdepth hquoted
      · rintro ⟨rfl, hquoted, hkw⟩
        rw [hnone [] t toks rfl rfl hquoted] at hkw
        cases hkw

/-! ### Two runs -/

/-- Behind the tokens `toks`, the scan for tables comes to the same place with either token, and
so does the one for the statement behind `WITH`, as long as it goes on. -/
structure Overlooked (toks : List Token) (t t' : Token) : Prop where
  place : ((placeAfter .apart toks).step t').2 = ((placeAfter .apart toks).step t).2
  depth : toks ≠ [] → (∀ u ∈ toks, u.quoted = true) ∨ keywordAt toks = str "WITH" →
    NoneOutside 0 toks.tail →
      depthAt (depthAfter 0 toks.tail) t' = depthAt (depthAfter 0 toks.tail) t

/-- Two tokens behind `toks` have the same part in the analysis; as parts of a name they are
related by `P`. -/
structure Counterpart (P : GoString → GoString → Prop) (toks : List Token) (t t' : Token) : Prop
    extends Overlooked toks t t' where
  quoted : t'.quoted = t.quoted
  upper : t.quoted = false → upper t'.text = upper t.text
  part : P (partText t) (partText t')

/-- `TwoRuns P toks out out'`: behind the tokens `toks` of the first run, the two go on with tokens
that have the same part in the analysis. -/
inductive TwoRuns (P : GoString → GoString → Prop) : List Token → List Token → List Token → Prop
  | nil {toks : List Token} : TwoRuns P toks [] []
  | cons {toks out out' : List Token} {t t' : Token} (ht : Counterpart P toks t t')
      (h : TwoRuns P (toks ++ [t]) out out') : TwoRuns P toks (t :: out) (t' :: out')

section TwoRuns

variable {P : GoString → GoString → Prop} {t t' : Token} {toks out out' : List Token}

theorem takes_iff_named {p : Place} :
    p.Takes t ↔ (p = .expecting ∨ p = .listed) ∧ (p.step t).2 = .named := by
  constructor
  · intro h
    exact ⟨h.1.imp And.left id, by rw [step_of_takes h]⟩
  · rintro ⟨rfl | rfl, hnamed⟩ <;> simp only [Place.step, Place.begin] at hnamed
    · split at hnamed
      · cases hnamed
      · split at hnamed
        · cases hnamed
        · simp_all [Place.Takes]
    · split at hnamed
      · cases hnamed
      · simp_all [Place.Takes]

theorem Overlooked.refl (toks : List Token) (t : Token) : Overlooked toks t t :=
  ⟨rfl, fun _ _ _ => rfl⟩

namespace TwoRuns

theorem length_eq (h : TwoRuns P toks out out') : out.length = out'.length := by
  induction h with
  | nil => rfl
  | cons _ _ ih => simp only [length_cons, ih]

theorem keywordAt_eq (h : TwoRuns P toks out out') : keywordAt out' = keywordAt out := by
  induction h with
  | nil => rfl
  | cons ht _ ih =>
    simp only [keywordAt, ht.quoted, ih]
    split
    · rfl
    · rename_i hq
      exact ht.upper (Bool.eq_false_iff.mpr hq)

/-- As long as no statement has been found behind `WITH`, both runs count the same number of open
parentheses. -/
theorem mainAfterWith_eq (h : TwoRuns P toks out out') (hne : toks ≠ [])
    (hwith : keywordAt (toks ++ out) = str "WITH") (hnone : NoneOutside 0 toks.tail) :
    mainAfterWith (depthAfter 0 toks.tail) out' = mainAfterWith (depthAfter 0 toks.tail) out := by
  induction h with
  | nil => rfl
  | @cons toks out out' t t' ht _ ih =>
    have hfirst : (∀ u ∈ toks, u.quoted = true) ∨ keywordAt toks = str "WITH" := by
      by_cases hall : ∀ u ∈ toks, u.quoted = true
      · exact .inl hall
      · right
        rw [← hwith, keywordAt_append (by simpa using hall)]
    have hkeyword : (t'.quoted = false ∧ isStatementKeyword (SqlMeta.upper t'.text)) ↔
        (t.quoted = false ∧ isStatementKeyword (SqlMeta.upper t.text)) := by
      rw [ht.quoted]
      exact and_congr_right fun hq => by rw [ht.upper hq]
    rw [mainAfterWith_cons, mainAfterWith_cons]
    simp only [hkeyword]
    split
    next hfound => rw [ht.upper hfound.2.1]
    next hpassed =>
      have htail : (toks ++ [t]).tail = toks.tail ++ [t] := tail_append_of_ne_nil hne
      have hdepth : depthAfter 0 (toks ++ [t]).tail = depthAt (depthAfter 0 toks.tail) t := by
        rw [htail, depthAfter_append]
        rfl
      have hstill : NoneOutside 0 (toks ++ [t]).tail := by
        rw [← mainAfterWith_eq_none_iff] at hnone ⊢
        rw [htail, mainAfterWith_append, hnone, mainAfterWith_cons, if_neg hpassed]
        rfl
      rw [ht.depth hne hfirst hnone, ← hdepth]
      exact ih (by simp) (by simpa using hwith) hstill

theorem statementType_eq (h : TwoRuns P [] out out') : statementType out' = statementType out := by
  unfold statementType
  rw [h.keywordAt_eq]
  by_cases hwith : keywordAt out = str "WITH"
  · have hmain : mainAfterWith 0 out'.tail = mainAfterWith 0 out.tail := by
      cases h with
      | nil => rfl
      | cons _ h =>
        refine h.mainAfterWith_eq (by simp) hwith ?_
        rw [← mainAfterWith_eq_none_iff]
        rfl
    rw [hmain]
  · simp only [if_neg hwith]

theorem readFrom_parts (h : TwoRuns P toks out out') :
    Forall₂ P (readFrom (placeAfter .apart toks) out).1 (readFrom (placeAfter .apart toks) out').1 ∧
      Forall₂ (fun r r' => Forall₂ P r.parts r'.parts) (readFrom (placeAfter .apart toks) out).2
        (readFrom (placeAfter .apart toks) out').2 := by
  induction h with
  | nil => exact ⟨.nil, .nil⟩
  | @cons toks out out' t t' ht _ ih =>
    rw [placeAfter_append] at ih
    change Forall₂ P (readFrom (Place.step _ t).2 out).1 (readFrom (Place.step _ t).2 out').1 ∧ _
      at ih
    have hplace := ht.place
    revert ih hplace
    generalize placeAfter .apart toks = p
    intro ⟨hparts, hrefs⟩ hplace
    have htakes : p.Takes t' ↔ p.Takes t := by rw [takes_iff_named, takes_iff_named, hplace]
    by_cases hfirst : p.Takes t
    · have hstep := step_of_takes hfirst
      have hstep' := step_of_takes (htakes.mpr hfirst)
      rw [readFrom_of_first (by rw [hstep]), readFrom_of_first (by rw [hstep']), hplace]
      exact ⟨.nil, .cons (.cons ht.part hparts) hrefs⟩
    · rcases step_of_not_takes hfirst with hnone | ⟨rfl, -⟩
      · rcases step_of_not_takes (mt htakes.mp hfirst) with hnone' | ⟨rfl, -⟩
        · rw [readFrom_of_none hnone, readFrom_of_none hnone', hplace]
          exact ⟨hparts, hrefs⟩
        · cases hnone
      · exact ⟨.cons ht.part hparts, hrefs⟩

theorem extractTableRefs_parts (h : TwoRuns P [] out out') :
    Forall₂ (fun r r' => Forall₂ P r.parts r'.parts) (extractTableRefs out)
      (extractTableRefs out') := by
  rw [extractTableRefs_eq, extractTableRefs_eq]
  exact h.readFrom_parts.2

end TwoRuns

end TwoRuns

/-! ### Tokens that look the same -/

structure Alike (P : GoString → GoString → Prop) (t t' : Token) : Prop where
  quoted : t'.quoted = t.quoted
  upper : t.quoted = false → upper t'.text = upper t.text
  mark : ∀ d, isMark d → (t'.text = [d] ↔ t.text = [d])
  part : P (partText t) (partText t')

section Alike

variable {P : GoString → GoString → Prop} {t t' : Token} {toks toks' : List Token}

namespace Alike

theorem keyword (h : Alike P t t') (Q : GoString → Prop) :
    (¬ t'.quoted ∧ Q (SqlMeta.upper t'.text)) ↔ (¬ t.quoted ∧ Q (SqlMeta.upper t.text)) := by
  rw [h.quoted]
  refine and_congr_right ?_
  intro hq
  rw [h.upper (Bool.eq_false_iff.mpr hq)]

theorem dot (h : Alike P t t') : t'.text = str "." ↔ t.text = str "." := h.mark 46 rfl

theorem opening (h : Alike P t t') : t'.text = str "(" ↔ t.text = str "(" := h.mark 40 rfl

theorem closing (h : Alike P t t') : t'.text = str ")" ↔ t.text = str ")" := h.mark 41 rfl

theorem comma (h : Alike P t t') : t'.text = str "," ↔ t.text = str "," := h.mark 44 rfl

theorem isWord (h : Alike P t t') (words : List GoString) : t'.isWord words = t.isWord words := by
  have hword := h.keyword (· ∈ words)
  rw [Bool.eq_iff_iff]
  simpa [Token.isWord] using hword

theorem isNone (h : Alike P t t') : t'.isNone = t.isNone := by
  simp only [Token.isNone, h.quoted, h.opening, h.comma, h.closing, h.isWord]

theorem place (h : Alike P t t') (p : Place) : (p.step t').2 = (p.step t).2 := by
  have hpass : Place.pass t' = Place.pass t := by
    unfold Place.pass Token.isAnchor
    rw [h.isWord]
  have hbegin : (Place.begin t').2 = (Place.begin t).2 := by
    simp only [Place.begin, h.isNone]
    split <;> rfl
  cases p with
  | apart => exact hpass
  | listed => exact hbegin
  | dotted => rfl
  | renamed => rfl
  | aliased => simp only [Place.step, h.comma, hpass]
  | expecting =>
    simp only [Place.step, h.isWord]
    split
    · rfl
    · exact hbegin
  | named =>
    simp only [Place.step, h.dot, h.comma, h.opening, h.closing, h.isWord, Token.isAnchor, hpass]
    congr

theorem counterpart (h : Alike P t t') (toks : List Token) : Counterpart P toks t t' where
  place := h.place _
  depth _ _ _ := by simp only [depthAt, h.opening, h.closing]
  quoted := h.quoted
  upper := h.upper
  part := h.part

end Alike

theorem TwoRuns.of_alike (h : Forall₂ (Alike P) toks toks') (read : List Token) :
    TwoRuns P read toks toks' := by
  induction h generalizing read with
  | nil => exact .nil
  | cons ht _ ih => exact .cons (ht.counterpart read) (ih _)

theorem analyzeTokens_alike (h : Forall₂ (Alike Eq) toks toks') (lower : GoString → GoString)
    (defaultCatalog defaultSchema : GoString) :
    analyzeTokens lower toks' defaultCatalog defaultSchema =
      analyzeTokens lower toks defaultCatalog defaultSchema := by
  have hruns := TwoRuns.of_alike h []
  have hrefs : extractTableRefs toks = extractTableRefs toks' := by
    have hrel := hruns.extractTableRefs_parts
    simp only [forall₂_eq_eq_eq] at hrel
    rw [← forall₂_eq_eq_eq]
    refine hrel.imp ?_
    rintro ⟨first, more⟩ ⟨first', more'⟩ hparts
    obtain ⟨rfl, rfl⟩ := cons.inj hparts
    rfl
  have hnil : toks' = [] ↔ toks = [] := by
    rw [← length_eq_zero_iff, ← h.length_eq, length_eq_zero_iff]
  unfold analyzeTokens
  simp only [hnil, hruns.statementType_eq, hrefs]

end Alike

end TrinoGoway.SqlMeta
