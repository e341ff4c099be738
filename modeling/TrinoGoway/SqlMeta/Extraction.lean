import TrinoGoway.SqlMeta.Heuristic

/-! The scanning loops of `extractTableRefs` without their fuel: each leaves an end of the tokens it
was given, so the number of tokens is always enough. -/
namespace TrinoGoway.SqlMeta

open Go

theorem readParts_suffix (toks : List Token) : (readParts toks).2 <:+ toks := by
  induction toks using readParts.induct with
  | case1 dot next toks hdot parts rest hread ih =>
    have hrest : (readParts (dot :: next :: toks)).2 = (readParts toks).2 := by
      simp [readParts, hdot]
    rw [hrest]
    exact ih.trans ((List.suffix_cons next toks).trans (List.suffix_cons dot _))
  | case2 dot next toks hdot =>
    simp [readParts, hdot]
  | case3 toks h =>
    have hstop : readParts toks = ([], toks) := by
      rw [readParts]
      exact h
    simp [hstop]

theorem readRef_suffix {toks rest : List Token} {ref : RawRef}
    (h : readRef toks = some (ref, rest)) : ∃ first tail, toks = first :: tail ∧ rest <:+ tail := by
  cases toks with
  | nil => cases h
  | cons first tail =>
    simp only [readRef] at h
    split at h
    · cases h
    · obtain ⟨-, rfl⟩ := Prod.mk.inj (Option.some.inj h)
      exact ⟨first, tail, rfl, readParts_suffix tail⟩

theorem skipAlias_suffix (toks : List Token) : skipAlias toks <:+ toks := by
  cases toks with
  | nil => exact List.suffix_refl _
  | cons t toks =>
    simp only [skipAlias]
    split
    · exact (List.tail_suffix toks).trans (List.suffix_cons t toks)
    · split
      · exact List.suffix_refl _
      · split
        · exact List.suffix_refl _
        · exact List.suffix_cons t toks

theorem collectRefs_suffix (n : ℕ) (toks : List Token) : (collectRefs n toks).2 <:+ toks := by
  induction n generalizing toks with
  | zero => exact List.suffix_refl _
  | succ n ih =>
    unfold collectRefs
    cases hread : readRef toks with
    | none => exact List.suffix_refl _
    | some r =>
      obtain ⟨ref, rest⟩ := r
      obtain ⟨first, tail, rfl, hrest⟩ := readRef_suffix hread
      have halias : skipAlias rest <:+ first :: tail :=
        (skipAlias_suffix rest).trans (hrest.trans (List.suffix_cons first tail))
      have htail := (List.tail_suffix (skipAlias rest)).trans halias
      dsimp only
      split
      · split
        · exact htail
        · exact (ih _).trans htail
      · exact halias

theorem skipOnly_suffix (toks : List Token) : skipOnly toks <:+ toks := List.dropWhile_suffix _

/-! ### Enough fuel -/

theorem collectRefs_fuel {n m : ℕ} {toks : List Token} (hn : toks.length ≤ n)
    (hm : toks.length ≤ m) : collectRefs n toks = collectRefs m toks := by
  induction n generalizing m toks with
  | zero =>
    have hnil : toks = [] := List.length_eq_zero_iff.mp (Nat.le_zero.mp hn)
    subst hnil
    cases m <;> rfl
  | succ n ih =>
    cases m with
    | zero =>
      have hnil : toks = [] := List.length_eq_zero_iff.mp (Nat.le_zero.mp hm)
      subst hnil
      rfl
    | succ m =>
      unfold collectRefs
      cases hread : readRef toks with
      | none => rfl
      | some r =>
        obtain ⟨ref, rest⟩ := r
        obtain ⟨first, tail, rfl, hrest⟩ := readRef_suffix hread
        have hlen := ((List.tail_suffix _).trans ((skipAlias_suffix rest).trans hrest)).length_le
        simp only [List.length_cons] at hn hm
        have hrec : collectRefs n (skipAlias rest).tail = collectRefs m (skipAlias rest).tail :=
          ih (by omega) (by omega)
        simp only [hrec]

theorem extractFrom_fuel {n m : ℕ} {toks : List Token} (hn : toks.length ≤ n)
    (hm : toks.length ≤ m) : extractFrom n toks = extractFrom m toks := by
  induction n generalizing m toks with
  | zero =>
    have hnil : toks = [] := List.length_eq_zero_iff.mp (Nat.le_zero.mp hn)
    subst hnil
    cases m <;> rfl
  | succ n ih =>
    cases toks with
    | nil => cases m <;> rfl
    | cons t toks =>
      cases m with
      | zero => simp at hm
      | succ m =>
        simp only [List.length_cons] at hn hm
        have hnext : extractFrom n toks = extractFrom m toks := ih (by omega) (by omega)
        have hlen := (skipOnly_suffix toks).length_le
        have honly : extractFrom n (skipOnly toks) = extractFrom m (skipOnly toks) :=
          ih (by omega) (by omega)
        have hlen' := (collectRefs_suffix (skipOnly toks).length (skipOnly toks)).length_le
        have hrest : extractFrom n (collectRefs (skipOnly toks).length (skipOnly toks)).2 =
            extractFrom m (collectRefs (skipOnly toks).length (skipOnly toks)).2 :=
          ih (by omega) (by omega)
        simp only [extractFrom, hnext, honly, hrest]

/-- `collectRefs` with enough fuel. -/
def refsAt (toks : List Token) : List RawRef × List Token := collectRefs toks.length toks

theorem refsAt_suffix (toks : List Token) : (refsAt toks).2 <:+ toks := collectRefs_suffix _ _

theorem refsAt_of_some {toks rest : List Token} {ref : RawRef}
    (h : readRef toks = some (ref, rest)) :
    refsAt toks =
      if nextIs (str ",") (skipAlias rest) then
        if nextIs (str "(") (skipAlias rest).tail then ([ref], (skipAlias rest).tail)
        else (ref :: (refsAt (skipAlias rest).tail).1, (refsAt (skipAlias rest).tail).2)
      else ([ref], skipAlias rest) := by
  obtain ⟨first, tail, rfl, hrest⟩ := readRef_suffix h
  have hlen := ((List.tail_suffix _).trans ((skipAlias_suffix rest).trans hrest)).length_le
  unfold refsAt
  rw [List.length_cons, collectRefs, h]
  dsimp only
  rw [collectRefs_fuel hlen (Nat.le_refl _)]

theorem refsAt_of_none {toks : List Token} (h : readRef toks = none) :
    refsAt toks = ([], toks) := by
  cases toks with
  | nil => rfl
  | cons t toks => rw [refsAt, List.length_cons, collectRefs, h]

@[simp] theorem extractTableRefs_nil : extractTableRefs [] = [] := rfl

theorem extractTableRefs_of_not_anchor {t : Token} (h : t.quoted ∨ upper t.text ∉ tableKeywords)
    (toks : List Token) : extractTableRefs (t :: toks) = extractTableRefs toks := by
  unfold extractTableRefs
  rw [List.length_cons, extractFrom, if_pos h]

theorem extractTableRefs_of_anchor {t : Token} (hq : t.quoted = false)
    (h : upper t.text ∈ tableKeywords) (toks : List Token) :
    extractTableRefs (t :: toks) =
      if nextIs (str "(") (skipOnly toks) then extractTableRefs (skipOnly toks)
      else (refsAt (skipOnly toks)).1 ++ extractTableRefs (refsAt (skipOnly toks)).2 := by
  have hlen := (skipOnly_suffix toks).length_le
  have hlen' := (refsAt_suffix (skipOnly toks)).length_le
  have hnot : ¬ (t.quoted = true ∨ upper t.text ∉ tableKeywords) := by simp [hq, h]
  unfold extractTableRefs
  rw [List.length_cons, extractFrom, if_neg hnot]
  change (if _ then extractFrom toks.length (skipOnly toks)
    else (refsAt (skipOnly toks)).1 ++ extractFrom toks.length (refsAt (skipOnly toks)).2) = _
  rw [extractFrom_fuel hlen (Nat.le_refl _), extractFrom_fuel (hlen'.trans hlen) (Nat.le_refl _)]

end TrinoGoway.SqlMeta
