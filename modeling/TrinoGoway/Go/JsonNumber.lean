import TrinoGoway.Go.Float
import TrinoGoway.Go.JsonExact

/-! The number literals of JSON, as `float64` and exactly. -/
namespace Go.JsonText

open Go Json

/-! ### Every number literal is a decimal number -/

theorem cutSign_digit {c : UInt8} (hc : Byte.isDigit c = true) (s : GoString) :
    cutSign (c :: s) = (false, c :: s) := by
  have hsign : ∀ c : UInt8, Byte.isDigit c = true → c ≠ 45 ∧ c ≠ 43 :=
    Byte.forall_of_ofNat (by decide +kernel)
  obtain ⟨hminus, hplus⟩ := hsign c hc
  unfold cutSign
  split
  · next heq => exact absurd (List.cons.inj heq).1 hminus
  · next heq => exact absurd (List.cons.inj heq).1 hplus
  · rfl

theorem takeWhile_digit_ne_nil {c : UInt8} (hc : Byte.isDigit c = true) (s : GoString) :
    (c :: s).takeWhile Byte.isDigit ≠ [] := by
  rw [List.takeWhile_cons_of_pos hc]
  exact List.cons_ne_nil _ _

theorem isSome_scanExponent {c : UInt8} (hc : c = 101 ∨ c = 69) {s : GoString} {e : NumState}
    (he : e.isComplete = true) (h : s.foldlM NumState.next .exponent = some e) :
    (scanExponent (c :: s)).isSome = true := by
  have hsign : ∀ t : GoString, t.foldlM NumState.next .exponentSign = some e →
      t.takeWhile Byte.isDigit ≠ [] := by
    intro t ht
    cases t with
    | nil =>
      obtain rfl := Option.some.inj ht
      cases he
    | cons d t =>
      obtain ⟨n, hnext, -⟩ := foldlM_cons_eq_some ht
      exact takeWhile_digit_ne_nil (Option.ite_none_right_eq_some.mp hnext).1 t
  have hdigits : (cutSign s).2.takeWhile Byte.isDigit ≠ [] := by
    cases s with
    | nil =>
      obtain rfl := Option.some.inj h
      cases he
    | cons d s =>
      obtain ⟨n, hnext, h⟩ := foldlM_cons_eq_some h
      dsimp only [NumState.next] at hnext
      split_ifs at hnext with hd hdigit
      · obtain rfl := Option.some.inj hnext
        rcases hd with rfl | rfl
        · exact hsign s h
        · exact hsign s h
      · rw [cutSign_digit hdigit]
        exact takeWhile_digit_ne_nil hdigit s
  rw [scanExponent, if_pos hc]
  dsimp only
  rw [if_neg hdigits]
  rfl

/-- What can follow the digits of the whole part. -/
def Rest (r : GoString) : Prop :=
  (∃ s, r = 46 :: s ∧ (scanExponent (s.dropWhile Byte.isDigit)).isSome = true) ∨
    (r.head? ≠ some 46 ∧ (scanExponent r).isSome = true)

theorem isSome_fraction {s : GoString} {e : NumState} (he : e.isComplete = true)
    (h : s.foldlM NumState.next .fraction = some e) :
    (scanExponent (s.dropWhile Byte.isDigit)).isSome = true := by
  induction s with
  | nil => rfl
  | cons c s ih =>
    obtain ⟨n, hnext, h⟩ := foldlM_cons_eq_some h
    dsimp only [NumState.next] at hnext
    split_ifs at hnext with hdigit hexp
    · obtain rfl := Option.some.inj hnext
      rw [List.dropWhile_cons_of_pos hdigit]
      exact ih h
    · obtain rfl := Option.some.inj hnext
      rw [List.dropWhile_cons_of_neg hdigit]
      exact isSome_scanExponent hexp he h

theorem rest_point {s : GoString} {e : NumState} (he : e.isComplete = true)
    (h : s.foldlM NumState.next .point = some e) : Rest (46 :: s) := by
  refine Or.inl ⟨s, rfl, ?_⟩
  cases s with
  | nil => rfl
  | cons c s =>
    obtain ⟨n, hnext, h⟩ := foldlM_cons_eq_some h
    obtain ⟨hdigit, hn⟩ := Option.ite_none_right_eq_some.mp hnext
    obtain rfl := Option.some.inj hn
    rw [List.dropWhile_cons_of_pos hdigit]
    exact isSome_fraction he h

theorem rest_exponent {c : UInt8} (hc : c = 101 ∨ c = 69) {s : GoString} {e : NumState}
    (he : e.isComplete = true) (h : s.foldlM NumState.next .exponent = some e) :
    Rest (c :: s) := by
  refine Or.inr ⟨?_, isSome_scanExponent hc he h⟩
  rcases hc with rfl | rfl <;> exact fun h => absurd (Option.some.inj h) (by decide)

theorem rest_nil : Rest [] := Or.inr ⟨Option.some_ne_none 46 ∘ Eq.symm, rfl⟩

theorem rest_digits {s : GoString} {e : NumState} (he : e.isComplete = true)
    (h : s.foldlM NumState.next .digits = some e) : Rest (s.dropWhile Byte.isDigit) := by
  induction s with
  | nil => exact rest_nil
  | cons c s ih =>
    obtain ⟨n, hnext, h⟩ := foldlM_cons_eq_some h
    dsimp only [NumState.next] at hnext
    split_ifs at hnext with hdigit hpoint hexp
    · obtain rfl := Option.some.inj hnext
      rw [List.dropWhile_cons_of_pos hdigit]
      exact ih h
    · obtain rfl := Option.some.inj hnext
      rw [List.dropWhile_cons_of_neg hdigit, hpoint]
      exact rest_point he h
    · obtain rfl := Option.some.inj hnext
      rw [List.dropWhile_cons_of_neg hdigit]
      exact rest_exponent hexp he h

theorem rest_zero {s : GoString} {e : NumState} (he : e.isComplete = true)
    (h : s.foldlM NumState.next .zero = some e) : Rest (s.dropWhile Byte.isDigit) := by
  cases s with
  | nil => exact rest_nil
  | cons c s =>
    obtain ⟨n, hnext, h⟩ := foldlM_cons_eq_some h
    dsimp only [NumState.next] at hnext
    split_ifs at hnext with hpoint hexp
    · obtain rfl := Option.some.inj hnext
      subst hpoint
      rw [List.dropWhile_cons_of_neg (by decide)]
      exact rest_point he h
    · obtain rfl := Option.some.inj hnext
      have hdigit : ¬Byte.isDigit c = true := by
        rcases hexp with rfl | rfl <;> decide
      rw [List.dropWhile_cons_of_neg hdigit]
      exact rest_exponent hexp he h

theorem sscanFloat_minus {c : UInt8} (hc : Byte.isDigit c = true) (s : GoString) :
    sscanFloat (45 :: c :: s) = (sscanFloat (c :: s)).map Neg.neg := by
  have hcut : cutSign (45 :: c :: s) = (true, c :: s) := rfl
  unfold sscanFloat
  rw [dropWhile_isBlank_cons (Or.inl rfl), dropWhile_isBlank_cons (Or.inr hc), hcut,
    cutSign_digit hc]
  dsimp only
  simp only [takeWhile_digit_ne_nil hc s, false_and, if_false, if_true, Bool.false_eq_true,
    Option.map_map]
  congr 1
  funext e
  rw [Function.comp_apply]
  ring

theorem isSome_sscanFloat {c : UInt8} (hc : Byte.isDigit c = true) {s : GoString}
    (hrest : Rest (s.dropWhile Byte.isDigit)) : (sscanFloat (c :: s)).isSome = true := by
  have hwhole := takeWhile_digit_ne_nil hc s
  unfold sscanFloat
  rw [dropWhile_isBlank_cons (Or.inr hc), cutSign_digit hc]
  dsimp only
  rw [List.dropWhile_cons_of_pos hc, if_neg fun h => hwhole h.1, Option.isSome_map]
  rcases hrest with ⟨r, hr, hexp⟩ | ⟨hpoint, hexp⟩
  · rw [hr]
    exact hexp
  · split
    · next r hr => exact absurd (congrArg List.head? hr) hpoint
    · exact hexp

def IsNumber (raw : GoString) : Prop :=
  raw.head? ≠ some 34 ∧ raw ≠ str "true" ∧ raw ≠ str "false" ∧ raw ≠ str "null"

theorem word_run {s rest : GoString} {e : LitState} (he : e.isComplete = true)
    (h : s.foldlM LitState.next (.word rest) = some e) : s = rest := by
  induction s generalizing rest with
  | nil =>
    obtain rfl := Option.some.inj h
    exact (List.isEmpty_iff.mp he).symm
  | cons c s ih =>
    obtain ⟨st, hnext, h⟩ := foldlM_cons_eq_some h
    cases rest with
    | nil => cases hnext
    | cons x rest =>
      obtain ⟨rfl, hst⟩ := Option.ite_none_right_eq_some.mp hnext
      obtain rfl := Option.some.inj hst
      rw [ih h]

theorem number_run {s : GoString} {n : NumState} {e : LitState} (he : e.isComplete = true)
    (h : s.foldlM LitState.next (.number n) = some e) :
    ∃ n' : NumState, n'.isComplete = true ∧ s.foldlM NumState.next n = some n' := by
  induction s generalizing n with
  | nil =>
    obtain rfl := Option.some.inj h
    exact ⟨n, he, rfl⟩
  | cons c s ih =>
    obtain ⟨st, hnext, h⟩ := foldlM_cons_eq_some h
    obtain ⟨n₁, hn₁, rfl⟩ := Option.map_eq_some_iff.mp hnext
    obtain ⟨n', hn', hrun⟩ := ih h
    refine ⟨n', hn', ?_⟩
    rw [List.foldlM_cons, hn₁]
    exact hrun

theorem isSome_minus {s : GoString} {e : NumState} (he : e.isComplete = true)
    (h : s.foldlM NumState.next .minus = some e) : (sscanFloat (45 :: s)).isSome = true := by
  cases s with
  | nil =>
    obtain rfl := Option.some.inj h
    cases he
  | cons c s =>
    obtain ⟨n, hnext, h⟩ := foldlM_cons_eq_some h
    dsimp only [NumState.next] at hnext
    split_ifs at hnext with hzero hdigit
    · obtain rfl := Option.some.inj hnext
      subst hzero
      rw [sscanFloat_minus (by decide), Option.isSome_map]
      exact isSome_sscanFloat (by decide) (rest_zero he h)
    · obtain rfl := Option.some.inj hnext
      rw [sscanFloat_minus hdigit, Option.isSome_map]
      exact isSome_sscanFloat hdigit (rest_digits he h)

/-- Every number of JSON is read as a decimal number. -/
theorem IsLiteral.isSome_sscanFloat {raw : GoString} (h : IsLiteral raw) (hnum : IsNumber raw) :
    (sscanFloat raw).isSome = true := by
  obtain ⟨c, s, st, e, rfl, hstart, hrun, he⟩ := h
  obtain ⟨hquote, htrue, hfalse, hnull⟩ := hnum
  dsimp only [LitState.start] at hstart
  split_ifs at hstart with h₁ h₂ h₃ h₄ h₅ h₆ h₇
  · exact absurd (congrArg some h₁) hquote
  · obtain rfl := Option.some.inj hstart
    obtain ⟨n, hn, hrun⟩ := number_run he hrun
    subst h₂
    exact isSome_minus hn hrun
  · obtain rfl := Option.some.inj hstart
    obtain ⟨n, hn, hrun⟩ := number_run he hrun
    subst h₃
    exact JsonText.isSome_sscanFloat (by decide) (rest_zero hn hrun)
  · obtain rfl := Option.some.inj hstart
    obtain ⟨n, hn, hrun⟩ := number_run he hrun
    exact JsonText.isSome_sscanFloat h₄ (rest_digits hn hrun)
  · obtain rfl := Option.some.inj hstart
    obtain rfl := word_run he hrun
    subst h₅
    exact absurd (by decide) htrue
  · obtain rfl := Option.some.inj hstart
    obtain rfl := word_run he hrun
    subst h₆
    exact absurd (by decide) hfalse
  · obtain rfl := Option.some.inj hstart
    obtain rfl := word_run he hrun
    subst h₇
    exact absurd (by decide) hnull

/-! ### Documents with other numbers -/

section Map

variable {ν μ κ : Type}

mutual

def Doc.map (f : ν → κ) : Doc ν → Doc κ
  | .null => .null
  | .bool b => .bool b
  | .number x => .number (f x)
  | .string s => .string s
  | .array items => .array (mapItems f items)
  | .object members => .object (mapMembers f members)

def mapItems (f : ν → κ) : List (Doc ν) → List (Doc κ)
  | [] => []
  | x :: xs => x.map f :: mapItems f xs

def mapMembers (f : ν → κ) : List (GoString × Doc ν) → List (GoString × Doc κ)
  | [] => []
  | (name, x) :: ms => (name, x.map f) :: mapMembers f ms

end

theorem mapItems_eq (f : ν → κ) (xs : List (Doc ν)) : mapItems f xs = xs.map (Doc.map f) := by
  induction xs with
  | nil => rw [mapItems, List.map_nil]
  | cons x xs ih => rw [mapItems, ih, List.map_cons]

theorem mapMembers_eq (f : ν → κ) (ms : List (GoString × Doc ν)) :
    mapMembers f ms = ms.map fun m => (m.1, m.2.map f) := by
  induction ms with
  | nil => rw [mapMembers, List.map_nil]
  | cons m ms ih => rw [mapMembers, ih, List.map_cons]

theorem map_containerDoc (f : ν → κ) (kind : Kind) (xs : List (GoString × Doc ν)) :
    (containerDoc kind xs).map f = containerDoc kind (mapMembers f xs) := by
  cases kind with
  | array =>
    rw [containerDoc, containerDoc, Doc.map, mapItems_eq, mapMembers_eq, List.map_map, List.map_map]
    rfl
  | object =>
    rw [containerDoc, containerDoc, Doc.map, mapMembers_eq, mapMembers_eq,
      map_foldl_assign (Doc.map f), List.map_nil]

instance (raw : GoString) : Decidable (IsNumber raw) := by
  unfold IsNumber
  infer_instance

mutual

def JTree.numbers : JTree → List GoString
  | .literal raw => if IsNumber raw then [raw] else []
  | .node _ cs => numbersAll cs

def numbersAll : List (GoString × JTree) → List GoString
  | [] => []
  | (_, s) :: cs => s.numbers ++ numbersAll cs

end

variable (F : Floats ν) (G : Floats μ) (f : ν → κ) (g : μ → κ)

theorem literalDoc_number {raw : GoString} (h : IsNumber raw) :
    literalDoc F raw = (F.parse raw).map .number := by
  obtain ⟨hquote, htrue, hfalse, hnull⟩ := h
  rw [literalDoc, if_neg hquote, if_neg htrue, if_neg hfalse, if_neg hnull]

theorem literalDoc_eq_number {raw : GoString} {x : ν} (h : literalDoc F raw = some (.number x)) :
    IsNumber raw ∧ F.parse raw = some x := by
  have hnum : IsNumber raw := by
    rw [literalDoc] at h
    split_ifs at h with h₁ h₂ h₃ h₄
    any_goals cases h
    exact ⟨h₁, h₂, h₃, h₄⟩
  rw [literalDoc_number F hnum] at h
  obtain ⟨y, hy, heq⟩ := Option.map_eq_some_iff.mp h
  obtain rfl := Doc.number.inj heq
  exact ⟨hnum, hy⟩

/-- What is no number is read without the numbers. -/
theorem literalDoc_word {raw : GoString} (h : ¬IsNumber raw) :
    ∃ x : Doc κ, ∀ {ν : Type} (F : Floats ν) (f : ν → κ),
      (literalDoc F raw).map (Doc.map f) = some x := by
  by_cases hquote : raw.head? = some 34
  · refine ⟨.string (literalString raw), fun F f => ?_⟩
    rw [literalDoc, if_pos hquote, Option.map_some, Doc.map]
  by_cases htrue : raw = str "true"
  · refine ⟨.bool true, fun F f => ?_⟩
    rw [literalDoc, if_neg hquote, if_pos htrue, Option.map_some, Doc.map]
  by_cases hfalse : raw = str "false"
  · refine ⟨.bool false, fun F f => ?_⟩
    rw [literalDoc, if_neg hquote, if_neg htrue, if_pos hfalse, Option.map_some, Doc.map]
  by_cases hnull : raw = str "null"
  · refine ⟨.null, fun F f => ?_⟩
    rw [literalDoc, if_neg hquote, if_neg htrue, if_neg hfalse, if_pos hnull, Option.map_some,
      Doc.map]
  · exact absurd ⟨hquote, htrue, hfalse, hnull⟩ h

theorem map_literalDoc {raw : GoString}
    (h : IsNumber raw → (F.parse raw).map f = (G.parse raw).map g) :
    (literalDoc F raw).map (Doc.map f) = (literalDoc G raw).map (Doc.map g) := by
  by_cases hnum : IsNumber raw
  · have hnumber : ∀ {ν : Type} (f : ν → κ) (p : Option ν),
        (p.map .number).map (Doc.map f) = (p.map f).map .number := by
      intro ν f p
      cases p with
      | none => rfl
      | some x => exact congrArg some (by rw [Doc.map])
    rw [literalDoc_number F hnum, literalDoc_number G hnum, hnumber, hnumber, h hnum]
  · obtain ⟨x, hx⟩ := @literalDoc_word κ raw hnum
    rw [hx, hx]

mutual

/-- Two readers that agree on the numbers of a text agree on its document. -/
theorem JTree.map_doc : ∀ s : JTree,
    (∀ raw ∈ s.numbers, (F.parse raw).map f = (G.parse raw).map g) →
      (s.doc F).map (Doc.map f) = (s.doc G).map (Doc.map g)
  | .literal raw, h => by
    rw [JTree.doc, JTree.doc]
    refine map_literalDoc F G f g fun hnum => h raw ?_
    rw [JTree.numbers, if_pos hnum]
    exact List.mem_singleton_self raw
  | .node kind cs, h => by
    have hcs := map_docAll cs (by rwa [JTree.numbers] at h)
    have hkind : ∀ {ν : Type} (f : ν → κ) (p : Option (List (GoString × Doc ν))),
        (p.map (containerDoc kind)).map (Doc.map f) =
          (p.map (mapMembers f)).map (containerDoc kind) := by
      intro ν f p
      cases p with
      | none => rfl
      | some xs => exact congrArg some (map_containerDoc f kind xs)
    rw [JTree.doc, JTree.doc, hkind, hkind, hcs]

theorem map_docAll : ∀ cs : List (GoString × JTree),
    (∀ raw ∈ numbersAll cs, (F.parse raw).map f = (G.parse raw).map g) →
      (docAll F cs).map (mapMembers f) = (docAll G cs).map (mapMembers g)
  | [], _ => by rw [docAll, docAll, Option.map_some, Option.map_some, mapMembers, mapMembers]
  | (name, s) :: cs, h => by
    rw [numbersAll] at h
    have hs := s.map_doc fun raw hraw => h raw (List.mem_append_left _ hraw)
    have hcs := map_docAll cs fun raw hraw => h raw (List.mem_append_right _ hraw)
    have hcons : ∀ {ν : Type} (F : Floats ν) (f : ν → κ),
        (docAll F ((name, s) :: cs)).map (mapMembers f) =
          ((s.doc F).map (Doc.map f)).bind fun x =>
            ((docAll F cs).map (mapMembers f)).map ((literalString name, x) :: ·) := by
      intro ν F f
      rw [docAll]
      cases s.doc F with
      | none => rfl
      | some x =>
        cases docAll F cs with
        | none => rfl
        | some xs => exact congrArg some (by rw [mapMembers])
    rw [hcons, hcons, hs, hcs]

end

mutual

theorem JTree.isSome_doc : ∀ s : JTree,
    (s.doc F).isSome = true ↔ ∀ raw ∈ s.numbers, (F.parse raw).isSome = true
  | .literal raw => by
    rw [JTree.doc, JTree.numbers]
    by_cases hnum : IsNumber raw
    · rw [literalDoc_number F hnum, Option.isSome_map, if_pos hnum, List.forall_mem_singleton]
    · obtain ⟨x, hx⟩ := @literalDoc_word ν raw hnum
      rw [if_neg hnum, ← Option.isSome_map (f := Doc.map id), hx]
      simp
  | .node kind cs => by
    rw [JTree.doc, Option.isSome_map, JTree.numbers]
    exact isSome_docAll cs

theorem isSome_docAll : ∀ cs : List (GoString × JTree),
    (docAll F cs).isSome = true ↔ ∀ raw ∈ numbersAll cs, (F.parse raw).isSome = true
  | [] => by simp [docAll, numbersAll]
  | (name, s) :: cs => by
    have hs := s.isSome_doc
    rw [docAll, numbersAll, List.forall_mem_append, ← hs, ← isSome_docAll cs]
    cases s.doc F with
    | none => simp
    | some x => rw [Option.isSome_map]; simp

end

theorem JTree.WF.isLiteral_of_mem_numbers {s : JTree} (hs : s.WF) {raw : GoString}
    (h : raw ∈ s.numbers) : IsLiteral raw ∧ IsNumber raw := by
  induction hs with
  | @literal raw' hraw =>
    rw [JTree.numbers] at h
    split_ifs at h with hnum
    · obtain rfl := List.mem_singleton.mp h
      exact ⟨hraw, hnum⟩
    · cases h
  | @node kind cs _ _ ih =>
    rw [JTree.numbers] at h
    have hmem : ∀ cs : List (GoString × JTree), raw ∈ numbersAll cs →
        ∃ c ∈ cs, raw ∈ c.2.numbers := by
      intro cs hraw
      induction cs with
      | nil =>
        rw [numbersAll] at hraw
        cases hraw
      | cons c cs ih =>
        rw [numbersAll] at hraw
        rcases List.mem_append.mp hraw with hraw | hraw
        · exact ⟨c, List.mem_cons_self, hraw⟩
        · obtain ⟨c', hc', hraw⟩ := ih hraw
          exact ⟨c', List.mem_cons_of_mem _ hc', hraw⟩
    obtain ⟨c, hc, hraw⟩ := hmem cs h
    exact ih c hc hraw

end Map

/-! ### Exact numbers -/

/-- A number as it is written, as with `Decoder.UseNumber`. -/
structure Numeral where
  raw : GoString
  isLiteral : readLiteral raw = some (raw, [])
  isNumber : IsNumber raw

namespace Numeral

theorem isSome (n : Numeral) : (sscanFloat n.raw).isSome = true :=
  (isLiteral_of_read n.isLiteral).1.isSome_sscanFloat n.isNumber

def value (n : Numeral) : ℚ := (sscanFloat n.raw).get n.isSome

theorem sscanFloat_raw (n : Numeral) : sscanFloat n.raw = some n.value :=
  (Option.some_get n.isSome).symm

end Numeral

def numerals : Floats Numeral where
  parse raw :=
    if h : readLiteral raw = some (raw, []) ∧ IsNumber raw then some ⟨raw, h.1, h.2⟩ else none
  format n := n.raw
  isLiteral_format n := (isLiteral_of_read n.isLiteral).1

@[simp] theorem numerals_parse_raw (n : Numeral) : numerals.parse n.raw = some n :=
  dif_pos ⟨n.isLiteral, n.isNumber⟩

theorem IsLiteral.exists_numeral {raw : GoString} (h : IsLiteral raw) (hnum : IsNumber raw) :
    ∃ n : Numeral, n.raw = raw := by
  have hread := readLiteral_append h (r := []) (by simp [Stops])
  rw [List.append_nil] at hread
  exact ⟨⟨raw, hread, hnum⟩, rfl⟩

def JTree.InRange (s : JTree) : Prop :=
  ∀ raw ∈ s.numbers, ∃ q, sscanFloat raw = some q ∧ Binary64.InRange q

section Float

variable {s : JTree}

theorem JTree.WF.exists_numeral (hs : s.WF) {raw : GoString} (h : raw ∈ s.numbers) :
    ∃ n : Numeral, n.raw = raw := by
  obtain ⟨hlit, hnum⟩ := hs.isLiteral_of_mem_numbers h
  exact hlit.exists_numeral hnum

theorem JTree.WF.exists_numerals (hs : s.WF) : ∃ x, s.doc numerals = some x := by
  refine Option.isSome_iff_exists.mp ((s.isSome_doc numerals).mpr fun raw hraw => ?_)
  obtain ⟨n, rfl⟩ := hs.exists_numeral hraw
  rw [numerals_parse_raw]
  rfl

variable {F : Floats Float64}

theorem JTree.isSome_doc_iff_inRange (hF : F.parse = parseFloat) (s : JTree) :
    (s.doc F).isSome = true ↔ s.InRange := by
  rw [JTree.isSome_doc, JTree.InRange]
  refine forall₂_congr fun raw _ => ?_
  rw [hF, parseFloat]
  cases sscanFloat raw with
  | none => simp
  | some q =>
    by_cases hq : Binary64.InRange q
    · simp [hq]
    · simp [hq]

/-- The `float64` of a document are its numbers, rounded. -/
theorem JTree.WF.map_value (hs : s.WF) (hF : F.parse = parseFloat) {x : Doc Numeral}
    {y : Doc Float64} (hx : s.doc numerals = some x) (hy : s.doc F = some y) :
    y.map Float64.value = x.map (Binary64.round ∘ Numeral.value) := by
  have hrange : s.InRange := (s.isSome_doc_iff_inRange hF).mp (by rw [hy]; rfl)
  have hmap := s.map_doc F numerals Float64.value (Binary64.round ∘ Numeral.value) ?_
  · rw [hx, hy] at hmap
    exact Option.some.inj hmap
  · intro raw hraw
    obtain ⟨q, hq, hqrange⟩ := hrange raw hraw
    obtain ⟨n, rfl⟩ := hs.exists_numeral hraw
    obtain rfl := Option.some.inj (n.sscanFloat_raw.symm.trans hq)
    rw [numerals_parse_raw, hF, parseFloat, hq, Option.bind_some, if_pos hqrange, Option.map_some,
      Option.map_some, Function.comp_apply]

end Float

end Go.JsonText
