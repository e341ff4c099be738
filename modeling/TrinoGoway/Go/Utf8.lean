import TrinoGoway.Go.Marshal

/-! Texts in UTF-8 as sequences of runes, and `strings.ReplaceAll` on them. -/
namespace Go.Json

open Go

def IsRune (r : GoString) : Prop :=
  ∃ b rest, r = b :: rest ∧ runeTail b (rest.map .byte) = some rest.length

theorem isRune_of_mem_chunksFrom {n : ℕ} {s r : GoString} (h : .rune r ∈ chunksFrom n s) :
    IsRune r := by
  induction n generalizing s with
  | zero => cases h
  | succ n ih =>
    cases s with
    | nil => cases h
    | cons b s =>
      unfold chunksFrom at h
      cases htail : runeTail b (s.map .byte) with
      | none =>
        rw [htail] at h
        rcases List.mem_cons.mp h with h | h
        · cases h
        · exact ih h
      | some k =>
        rw [htail] at h
        rcases List.mem_cons.mp h with h | h
        · cases h
          have hk := (runeTail_eq_some htail).2
          rw [List.length_map] at hk
          have hlen : (s.take k).length = k := by rw [List.length_take, Nat.min_eq_left hk]
          have hagree : ∀ i < k, ((s.take k).map Piece.byte)[i]? = (s.map Piece.byte)[i]? := by
            intro i hi
            rw [List.map_take, List.getElem?_take_of_lt hi]
          refine ⟨b, s.take k, rfl, ?_⟩
          rw [hlen]
          exact (runeTail_of_agree htail hagree).2.1
        · exact ih h

theorem isCont_of_runeTail {b c : UInt8} {rest : GoString}
    (h : runeTail b (rest.map .byte) = some rest.length) (hc : c ∈ rest) :
    0x80 ≤ c ∧ c ≤ 0xBF := by
  obtain ⟨i, hi, rfl⟩ := List.getElem_of_mem hc
  obtain ⟨q, hq, hcont⟩ := (runeTail_of_agree h fun _ _ => rfl).2.2 i hi
  rw [List.getElem?_map, List.getElem?_eq_getElem hi] at hq
  obtain rfl := Option.some.inj hq
  simpa [Piece.isCont] using hcont

theorem not_isCont_of_runeTail {b : UInt8} {rest : List Piece} {n : ℕ}
    (h : runeTail b rest = some n) : ¬(0x80 ≤ b ∧ b ≤ 0xBF) := by
  rintro ⟨hle, hge⟩
  have h₁ : ¬b < 0x80 := UInt8.not_lt.mpr hle
  have h₂ : b < 0xC2 := UInt8.lt_of_le_of_lt hge (by decide)
  unfold runeTail at h
  simp only [if_neg h₁, if_pos h₂] at h
  cases h

/-! ### Concatenation -/

theorem chunksFrom_of_le {n : ℕ} {s : GoString} (h : s.length ≤ n) :
    chunksFrom n s = chunks s := by
  induction hlen : s.length using Nat.strong_induction_on generalizing s n with
  | h l ih =>
    cases s with
    | nil =>
      cases n with
      | zero => rfl
      | succ n => rfl
    | cons b s =>
      rw [List.length_cons] at h hlen
      obtain ⟨n, rfl⟩ := Nat.exists_eq_add_one.mpr (show 0 < n by omega)
      rw [chunks, List.length_cons, chunksFrom, chunksFrom]
      cases runeTail b (s.map .byte) with
      | none =>
        simp only
        rw [ih s.length (by omega) (by omega) rfl, chunks]
      | some k =>
        have hdrop : (s.drop k).length ≤ s.length := by
          rw [List.length_drop]
          omega
        simp only
        rw [ih (s.drop k).length (by omega) (by omega) rfl,
          ih (s.drop k).length (by omega) hdrop rfl]

theorem chunks_append_rune {r : GoString} (hr : IsRune r) (s : GoString) :
    chunks (r ++ s) = .rune r :: chunks s := by
  obtain ⟨b, rest, rfl, htail⟩ := hr
  have htail' : runeTail b ((rest ++ s).map .byte) = some rest.length := by
    refine (runeTail_of_agree htail ?_).2.1
    intro i hi
    rw [List.map_append, List.getElem?_append_left (by rw [List.length_map]; exact hi)]
  rw [chunks, List.cons_append, List.length_cons, chunksFrom, htail']
  simp only
  rw [List.take_left, List.drop_left]
  exact congrArg _ (chunksFrom_of_le (by rw [List.length_append]; omega))

theorem validString_append_rune {r : GoString} (hr : IsRune r) (s : GoString) :
    validString (r ++ s) = validString s := by
  rw [validString, chunks_append_rune hr, List.all_cons]
  rfl

/-- Induction over the runes of a text. -/
theorem validString_induct {motive : ∀ s : GoString, validString s → Prop} (nil : motive [] rfl)
    (rune : ∀ r s (hr : IsRune r) (hs : validString s), motive s hs →
      motive (r ++ s) ((validString_append_rune hr s).trans hs)) {s : GoString}
    (h : validString s) : motive s h := by
  induction hlen : s.length using Nat.strong_induction_on generalizing s with
  | h l ih =>
    cases s with
    | nil => exact nil
    | cons b s =>
      cases htail : runeTail b (s.map .byte) with
      | none =>
        rw [validString, chunks, List.length_cons, chunksFrom, htail] at h
        cases h
      | some k =>
        have hr : IsRune (b :: s.take k) := by
          refine isRune_of_mem_chunksFrom (n := s.length + 1) (s := b :: s) ?_
          rw [chunksFrom, htail]
          exact List.mem_cons_self
        have hsplit : b :: s = (b :: s.take k) ++ s.drop k := by
          rw [List.cons_append, List.take_append_drop]
        have hrest : validString (s.drop k) := by
          rw [← validString_append_rune hr, ← hsplit]
          exact h
        simp only [hsplit]
        refine rune _ _ hr hrest (ih _ ?_ hrest rfl)
        rw [← hlen, List.length_cons, List.length_drop]
        omega

theorem validString_append {s : GoString} (hs : validString s) (t : GoString) :
    validString (s ++ t) = validString t := by
  induction hs using validString_induct with
  | nil => rfl
  | rune r s hr _ ih => rw [List.append_assoc, validString_append_rune hr, ih]

/-! ### Replacement -/

/-- `strings.ReplaceAll` after the bytes that the first argument counts, which belong to an
occurrence of `old`. -/
def replaceFrom (old new : GoString) : ℕ → GoString → GoString
  | _, [] => []
  | n + 1, _ :: s => replaceFrom old new n s
  | 0, c :: s =>
    if old.isPrefixOf (c :: s) then new ++ replaceFrom old new (old.length - 1) s
    else c :: replaceFrom old new 0 s

/-- `strings.ReplaceAll` for a text `old` that is not empty. -/
def replaceAll (s old new : GoString) : GoString := replaceFrom old new 0 s

theorem replaceFrom_eq_drop (old new : GoString) (n : ℕ) (s : GoString) :
    replaceFrom old new n s = replaceFrom old new 0 (s.drop n) := by
  induction s generalizing n with
  | nil => rw [List.drop_nil, replaceFrom, replaceFrom]
  | cons c s ih =>
    cases n with
    | zero => rfl
    | succ n => rw [replaceFrom, ih, List.drop_succ_cons]

section Replacement

variable {old : GoString} (new : GoString) (hold : validString old) (hne : old ≠ [])

include hne in
theorem replaceAll_occurrence (t : GoString) :
    replaceAll (old ++ t) old new = new ++ replaceAll t old new := by
  obtain ⟨c, old', rfl⟩ := List.exists_cons_of_ne_nil hne
  have hocc : (c :: old').isPrefixOf (c :: (old' ++ t)) = true :=
    List.isPrefixOf_iff_prefix.mpr (List.prefix_append (c :: old') t)
  rw [replaceAll, List.cons_append, replaceFrom, if_pos hocc, replaceFrom_eq_drop,
    List.length_cons, Nat.add_sub_cancel, List.drop_left, replaceAll]

include hold hne in
/-- No occurrence begins within a rune. -/
theorem not_isPrefixOf_cont {c : UInt8} (hc : 0x80 ≤ c ∧ c ≤ 0xBF) (s : GoString) :
    old.isPrefixOf (c :: s) = false := by
  induction hold using validString_induct with
  | nil => exact absurd rfl hne
  | rune r old hr _ _ =>
    obtain ⟨b, rest, rfl, htail⟩ := hr
    have hbc : b ≠ c := fun h => not_isCont_of_runeTail htail (h ▸ hc)
    rw [List.cons_append, List.isPrefixOf_cons_cons, beq_eq_false_iff_ne.mpr hbc, Bool.false_and]

include hold hne in
theorem replaceAll_cont {rest : GoString} (hrest : ∀ c ∈ rest, 0x80 ≤ c ∧ c ≤ 0xBF)
    (s : GoString) : replaceAll (rest ++ s) old new = rest ++ replaceAll s old new := by
  induction rest with
  | nil => rfl
  | cons c rest ih =>
    obtain ⟨hc, hrest⟩ := List.forall_mem_cons.mp hrest
    have hno := not_isPrefixOf_cont hold hne hc (rest ++ s)
    rw [replaceAll, List.cons_append, replaceFrom, hno, if_neg Bool.false_ne_true,
      List.cons_append, ← ih hrest, replaceAll]

include hold hne in
theorem replaceAll_rune {r : GoString} (hr : IsRune r) {s : GoString}
    (hno : ¬old.isPrefixOf (r ++ s) = true) :
    replaceAll (r ++ s) old new = r ++ replaceAll s old new := by
  obtain ⟨b, rest, rfl, htail⟩ := hr
  have hrest := replaceAll_cont new hold hne (fun c hc => isCont_of_runeTail htail hc) s
  rw [List.cons_append] at hno
  rw [replaceAll, List.cons_append, replaceFrom, if_neg hno, List.cons_append, ← hrest, replaceAll]

include hold hne in
theorem validString_replaceAll {s : GoString} (hs : validString s) (hnew : validString new) :
    validString (replaceAll s old new) := by
  induction hlen : s.length using Nat.strong_induction_on generalizing s with
  | h l ih =>
    by_cases hocc : old.isPrefixOf s = true
    · obtain ⟨t, rfl⟩ := List.isPrefixOf_iff_prefix.mp hocc
      rw [validString_append hold] at hs
      rw [replaceAll_occurrence new hne, validString_append hnew]
      refine ih t.length ?_ hs rfl
      have hpos := List.length_pos_iff.mpr hne
      rw [← hlen, List.length_append]
      omega
    · cases hs using validString_induct with
      | nil => rfl
      | rune r s hr hs _ =>
        rw [replaceAll_rune new hold hne hr hocc, validString_append_rune hr]
        refine ih s.length ?_ hs rfl
        obtain ⟨b, rest, rfl, -⟩ := hr
        rw [← hlen, List.length_append, List.length_cons]
        omega

end Replacement

end Go.Json
