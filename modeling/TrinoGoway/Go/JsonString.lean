import TrinoGoway.Go.JsonText
import TrinoGoway.Go.Utf8

/-! What string literals stand for, and two ways to write them that keep it: the strings of
`json.Marshal`, and the HTML escaping of a text that is already JSON. -/
namespace Go.JsonText

open Go Json

def hexValue (h₁ h₂ h₃ h₄ : UInt8) : ℕ :=
  [h₁, h₂, h₃, h₄].foldl (fun u h => u * 16 + (Json.hexDigit h).getD 0) 0

def pieces : GoString → List Piece
  | [] => []
  | c :: s =>
    if c = 34 then []
    else if c = 92 then
      match s with
      | [] => []
      | e :: s =>
        if e = 117 then
          match s with
          | h₁ :: h₂ :: h₃ :: h₄ :: s => .escape (hexValue h₁ h₂ h₃ h₄) :: pieces s
          | _ => []
        else .byte ((unescape e).getD e) :: pieces s
    else .byte c :: pieces s

def IsPlain (c : UInt8) : Prop := c ≠ 34 ∧ c ≠ 92 ∧ ¬c < 32

def IsHex (c : UInt8) : Prop := (Json.hexDigit c).isSome = true

/-- The text of a string literal after its opening quote, piece by piece. -/
inductive Spells : GoString → List Piece → Prop
  | close : Spells [34] []
  | plain {c : UInt8} {s : GoString} {ps : List Piece} :
      IsPlain c → Spells s ps → Spells (c :: s) (.byte c :: ps)
  | short {e b : UInt8} {s : GoString} {ps : List Piece} :
      unescape e = some b → Spells s ps → Spells (92 :: e :: s) (.byte b :: ps)
  | unicode {h₁ h₂ h₃ h₄ : UInt8} {s : GoString} {ps : List Piece} :
      IsHex h₁ → IsHex h₂ → IsHex h₃ → IsHex h₄ → Spells s ps →
      Spells (92 :: 117 :: h₁ :: h₂ :: h₃ :: h₄ :: s) (.escape (hexValue h₁ h₂ h₃ h₄) :: ps)

theorem unescape_ne_u {e b : UInt8} (h : unescape e = some b) : e ≠ 117 := by
  rintro rfl
  cases h

namespace Spells

variable {s : GoString} {ps : List Piece}

theorem run (h : Spells s ps) : s.foldlM StrState.next .plain = some .closed := by
  induction h with
  | close => rfl
  | plain hc _ ih =>
    obtain ⟨h34, h92, h32⟩ := hc
    rw [List.foldlM_cons, StrState.next, if_neg h34, if_neg h92, if_neg h32]
    exact ih
  | short he _ ih =>
    rw [List.foldlM_cons, StrState.next, if_neg (by decide), if_pos rfl]
    change List.foldlM _ StrState.escaped _ = _
    rw [List.foldlM_cons, StrState.next, if_neg (unescape_ne_u he), he]
    exact ih
  | unicode h₁ h₂ h₃ h₄ _ ih =>
    have hhex : ∀ {c : UInt8} {left : ℕ}, IsHex c →
        (StrState.hex left).next c = some (if left = 0 then .plain else .hex (left - 1)) :=
      fun hc => if_pos hc
    rw [List.foldlM_cons, StrState.next, if_neg (by decide), if_pos rfl]
    change List.foldlM _ StrState.escaped _ = _
    rw [List.foldlM_cons, StrState.next, if_pos rfl]
    change List.foldlM _ (StrState.hex 3) _ = _
    rw [List.foldlM_cons, hhex h₁]
    change List.foldlM _ (StrState.hex 2) _ = _
    rw [List.foldlM_cons, hhex h₂]
    change List.foldlM _ (StrState.hex 1) _ = _
    rw [List.foldlM_cons, hhex h₃]
    change List.foldlM _ (StrState.hex 0) _ = _
    rw [List.foldlM_cons, hhex h₄]
    exact ih

theorem pieces_eq (h : Spells s ps) : pieces s = ps := by
  induction h with
  | close => rfl
  | plain hc _ ih =>
    obtain ⟨h34, h92, -⟩ := hc
    rw [pieces.eq_def]
    dsimp only
    rw [if_neg h34, if_neg h92, ih]
  | short he _ ih =>
    rw [pieces.eq_def]
    dsimp only
    rw [if_neg (by decide), if_pos rfl, if_neg (unescape_ne_u he), he, ih]
    rfl
  | unicode _ _ _ _ _ ih =>
    rw [pieces.eq_def]
    dsimp only
    rw [if_neg (by decide), if_pos rfl, if_pos rfl, ih]

theorem of_plain {c : UInt8} (hc : IsPlain c) (h : Spells (c :: s) ps) :
    ∃ qs, ps = .byte c :: qs ∧ Spells s qs := by
  generalize htext : c :: s = t at h
  cases h with
  | close => exact absurd (List.cons.inj htext).1 hc.1
  | plain _ h =>
    obtain ⟨rfl, rfl⟩ := List.cons.inj htext
    exact ⟨_, rfl, h⟩
  | short _ _ => exact absurd (List.cons.inj htext).1 hc.2.1
  | unicode _ _ _ _ _ => exact absurd (List.cons.inj htext).1 hc.2.1

end Spells

theorem StrState.foldlM_closed {s : GoString} {q : StrState}
    (h : s.foldlM StrState.next .closed = some q) : s = [] := by
  cases s with
  | nil => rfl
  | cons c s => cases h

theorem StrState.exists_next {s : GoString} {q : StrState} (hq : q ≠ .closed)
    (h : s.foldlM StrState.next q = some .closed) :
    ∃ c s' q', s = c :: s' ∧ q.next c = some q' ∧ s'.foldlM StrState.next q' = some .closed := by
  cases s with
  | nil => exact absurd (Option.some.inj h) hq
  | cons c s =>
    obtain ⟨q', hq', h⟩ := foldlM_cons_eq_some h
    exact ⟨c, s, q', rfl, hq', h⟩

theorem StrState.next_hex {left : ℕ} {c : UInt8} {q : StrState}
    (h : (StrState.hex left).next c = some q) :
    IsHex c ∧ q = if left = 0 then .plain else .hex (left - 1) := by
  obtain ⟨hc, hq⟩ := Option.ite_none_right_eq_some.mp h
  exact ⟨hc, (Option.some.inj hq).symm⟩

/-- What the scanner accepts as the rest of a string is spelled in pieces. -/
theorem exists_spells {s : GoString} (h : s.foldlM StrState.next .plain = some .closed) :
    ∃ ps, Spells s ps := by
  generalize hn : s.length = n
  induction n using Nat.strong_induction_on generalizing s with
  | h n ih =>
    obtain ⟨c, s₁, q, rfl, hnext, h⟩ := StrState.exists_next (by simp) h
    rw [List.length_cons] at hn
    dsimp only [StrState.next] at hnext
    split at hnext
    next h34 =>
      obtain rfl := Option.some.inj hnext
      rw [StrState.foldlM_closed h, h34]
      exact ⟨[], .close⟩
    next h34 =>
      split at hnext
      next h92 =>
        obtain rfl := Option.some.inj hnext
        obtain ⟨e, s₂, q, rfl, hnext, h⟩ := StrState.exists_next (by simp) h
        rw [List.length_cons] at hn
        dsimp only [StrState.next] at hnext
        split at hnext
        next h117 =>
          -- four digits
          obtain rfl := Option.some.inj hnext
          obtain ⟨d₁, s₃, q, rfl, hnext, h⟩ := StrState.exists_next (by simp) h
          obtain ⟨h₁, rfl⟩ := StrState.next_hex hnext
          obtain ⟨d₂, s₄, q, rfl, hnext, h⟩ := StrState.exists_next (by simp) h
          obtain ⟨h₂, rfl⟩ := StrState.next_hex hnext
          obtain ⟨d₃, s₅, q, rfl, hnext, h⟩ := StrState.exists_next (by simp) h
          obtain ⟨h₃, rfl⟩ := StrState.next_hex hnext
          obtain ⟨d₄, s₆, q, rfl, hnext, h⟩ := StrState.exists_next (by simp) h
          obtain ⟨h₄, rfl⟩ := StrState.next_hex hnext
          simp only [List.length_cons] at hn
          obtain ⟨ps, hps⟩ := ih s₆.length (by omega) h rfl
          rw [h92, h117]
          exact ⟨_, .unicode h₁ h₂ h₃ h₄ hps⟩
        next =>
          obtain ⟨he, hq⟩ := Option.ite_none_right_eq_some.mp hnext
          obtain rfl := Option.some.inj hq
          obtain ⟨b, hb⟩ := Option.isSome_iff_exists.mp he
          obtain ⟨ps, hps⟩ := ih s₂.length (by omega) h rfl
          rw [h92]
          exact ⟨_, .short hb hps⟩
      next h92 =>
        split at hnext
        next => cases hnext
        next h32 =>
          obtain rfl := Option.some.inj hnext
          obtain ⟨ps, hps⟩ := ih s₁.length (by omega) h rfl
          exact ⟨_, .plain ⟨h34, h92, h32⟩ hps⟩

theorem LitState.foldlM_string (q : StrState) (s : GoString) :
    s.foldlM LitState.next (.string q) = (s.foldlM StrState.next q).map LitState.string := by
  induction s generalizing q with
  | nil => rfl
  | cons c s ih =>
    rw [List.foldlM_cons, List.foldlM_cons, LitState.next]
    cases q.next c with
    | none => rfl
    | some q' => exact ih q'

theorem isString_iff {raw : GoString} :
    IsString raw ↔ ∃ s ps, raw = 34 :: s ∧ Spells s ps := by
  constructor
  · rintro ⟨⟨c, s, st, e, rfl, hstart, hrun, he⟩, hhead⟩
    obtain rfl : c = 34 := Option.some.inj hhead
    obtain rfl : LitState.string .plain = st := Option.some.inj hstart
    rw [LitState.foldlM_string] at hrun
    obtain ⟨q, hq, rfl⟩ := Option.map_eq_some_iff.mp hrun
    have hclosed : q = .closed := by
      cases q with
      | closed => rfl
      | plain => cases he
      | escaped => cases he
      | hex left => cases he
    rw [hclosed] at hq
    obtain ⟨ps, hps⟩ := exists_spells hq
    exact ⟨s, ps, rfl, hps⟩
  · rintro ⟨s, ps, rfl, h⟩
    refine ⟨⟨34, s, .string .plain, .string .closed, rfl, rfl, ?_, rfl⟩, rfl⟩
    rw [LitState.foldlM_string, h.run]
    rfl

/-! ### HTML escaping -/

def IsHTML (c : UInt8) : Prop := c = 60 ∨ c = 62 ∨ c = 38

instance (c : UInt8) : Decidable (IsHTML c) := by
  unfold IsHTML
  infer_instance

/-- The bytes of U+2028 and U+2029 after their first. -/
def IsLineTail (t : GoString) : Prop := t = [0x80, 0xA8] ∨ t = [0x80, 0xA9]

instance (t : GoString) : Decidable (IsLineTail t) := by
  unfold IsLineTail
  infer_instance

/-- The escaping of `json.Compact` inside `json.Marshal`. The first argument counts the bytes that
belong to an escape already written. -/
def escapeHTML : ℕ → GoString → GoString
  | _, [] => []
  | n + 1, _ :: s => escapeHTML n s
  | 0, c :: s =>
    if IsHTML c then
      [92, 117, 48, 48, hexChar (c.toNat / 16), hexChar (c.toNat % 16)] ++ escapeHTML 0 s
    else if c = 0xE2 ∧ IsLineTail (s.take 2) then
      [92, 117, 50, 48, 50, hexChar ((s[1]?.getD 0).toNat % 16)] ++ escapeHTML 2 s
    else c :: escapeHTML 0 s

theorem escapeHTML_cons {c : UInt8} (hc : ¬IsHTML c) (he : c ≠ 0xE2) (s : GoString) :
    escapeHTML 0 (c :: s) = c :: escapeHTML 0 s := by
  rw [escapeHTML, if_neg hc, if_neg fun h => he h.1]

theorem escapeHTML_eq_self {t : GoString} (h : ∀ c ∈ t, ¬IsHTML c ∧ c ≠ 0xE2) :
    escapeHTML 0 t = t := by
  induction t with
  | nil => rfl
  | cons c s ih =>
    obtain ⟨⟨hc, he⟩, hs⟩ := List.forall_mem_cons.mp h
    rw [escapeHTML_cons hc he, ih hs]

/-- Pieces of which some bytes have become escapes. -/
inductive Escaped : List Piece → List Piece → Prop
  | nil : Escaped [] []
  | same (p : Piece) {ps ps' : List Piece} : Escaped ps ps' → Escaped (p :: ps) (p :: ps')
  | html {c : UInt8} {ps ps' : List Piece} :
      IsHTML c → Escaped ps ps' → Escaped (.byte c :: ps) (.escape c.toNat :: ps')
  | line {c : UInt8} {ps ps' : List Piece} :
      c = 0xA8 ∨ c = 0xA9 → Escaped ps ps' →
      Escaped (.byte 0xE2 :: .byte 0x80 :: .byte c :: ps) (.escape (0x1F80 + c.toNat) :: ps')

theorem not_special_of_unescape {e b : UInt8} (h : unescape e = some b) :
    ¬IsHTML e ∧ e ≠ 0xE2 := by
  have hall : ∀ e : UInt8, (unescape e).isSome = true → ¬IsHTML e ∧ e ≠ 0xE2 :=
    Byte.forall_of_ofNat (by decide +kernel)
  exact hall e (by rw [h]; rfl)

theorem not_special_of_hex {c : UInt8} (h : IsHex c) : ¬IsHTML c ∧ c ≠ 0xE2 := by
  have hall : ∀ c : UInt8, (Json.hexDigit c).isSome = true → ¬IsHTML c ∧ c ≠ 0xE2 :=
    Byte.forall_of_ofNat (by decide +kernel)
  exact hall c h

theorem isHex_hexChar {n : ℕ} (h : n < 16) : IsHex (hexChar n) := by
  rw [IsHex, hexDigit_hexChar h]
  rfl

theorem hexValue_byte (c : UInt8) :
    hexValue 48 48 (hexChar (c.toNat / 16)) (hexChar (c.toNat % 16)) = c.toNat := by
  have hc := c.toNat_lt
  have hhi := hexDigit_hexChar (show c.toNat / 16 < 16 by omega)
  have hlo := hexDigit_hexChar (show c.toNat % 16 < 16 by omega)
  have hzero : Json.hexDigit 48 = some 0 := by decide
  simp only [hexValue, List.foldl_cons, List.foldl_nil, hhi, hlo, hzero, Option.getD_some]
  omega

theorem exists_of_isLineTail {s : GoString} (h : IsLineTail (s.take 2)) :
    ∃ x s', s = 0x80 :: x :: s' ∧ (x = 0xA8 ∨ x = 0xA9) := by
  have hsplit : s = s.take 2 ++ s.drop 2 := (List.take_append_drop 2 s).symm
  rcases h with h | h
  · rw [h] at hsplit
    exact ⟨_, _, hsplit, Or.inl rfl⟩
  · rw [h] at hsplit
    exact ⟨_, _, hsplit, Or.inr rfl⟩

theorem isPlain_of_line {x : UInt8} (h : x = 0xA8 ∨ x = 0xA9) : IsPlain x := by
  rcases h with rfl | rfl <;> exact ⟨by decide, by decide, by decide⟩

theorem spells_line {x : UInt8} (h : x = 0xA8 ∨ x = 0xA9) {s : GoString} {ps : List Piece}
    (hs : Spells (escapeHTML 0 s) ps) :
    Spells ([92, 117, 50, 48, 50, hexChar (((0x80 :: x :: s)[1]?.getD 0).toNat % 16)] ++
        escapeHTML 2 (0x80 :: x :: s))
      (.escape (0x1F80 + x.toNat) :: ps) := by
  have hskip : escapeHTML 2 (0x80 :: x :: s) = escapeHTML 0 s := by rw [escapeHTML, escapeHTML]
  have hx : (0x80 :: x :: s)[1]?.getD 0 = x := rfl
  rw [hskip, hx]
  rcases h with rfl | rfl
  · have hvalue : hexValue 50 48 50 56 = 0x1F80 + UInt8.toNat 0xA8 := by decide
    have hdigit : hexChar (UInt8.toNat 0xA8 % 16) = 56 := by decide
    have hspells := @Spells.unicode 50 48 50 56 _ _ rfl rfl rfl rfl hs
    rw [hvalue] at hspells
    rw [hdigit]
    exact hspells
  · have hvalue : hexValue 50 48 50 57 = 0x1F80 + UInt8.toNat 0xA9 := by decide
    have hdigit : hexChar (UInt8.toNat 0xA9 % 16) = 57 := by decide
    have hspells := @Spells.unicode 50 48 50 57 _ _ rfl rfl rfl rfl hs
    rw [hvalue] at hspells
    rw [hdigit]
    exact hspells

theorem Spells.escapeHTML {s : GoString} {ps : List Piece} (h : Spells s ps) :
    ∃ ps', Spells (escapeHTML 0 s) ps' ∧ Escaped ps ps' := by
  generalize hn : s.length = n
  induction n using Nat.strong_induction_on generalizing s ps with
  | h n ih =>
    cases h with
    | close => exact ⟨[], .close, .nil⟩
    | @short e b s ps he h =>
      obtain ⟨ps', hps', hesc⟩ := ih s.length (by simp at hn; omega) h rfl
      obtain ⟨hhtml, hline⟩ := not_special_of_unescape he
      rw [escapeHTML_cons (by decide) (by decide), escapeHTML_cons hhtml hline]
      exact ⟨_, .short he hps', .same _ hesc⟩
    | @unicode d₁ d₂ d₃ d₄ s ps h₁ h₂ h₃ h₄ h =>
      obtain ⟨ps', hps', hesc⟩ := ih s.length (by simp at hn; omega) h rfl
      rw [escapeHTML_cons (by decide) (by decide), escapeHTML_cons (by decide) (by decide),
        escapeHTML_cons (not_special_of_hex h₁).1 (not_special_of_hex h₁).2,
        escapeHTML_cons (not_special_of_hex h₂).1 (not_special_of_hex h₂).2,
        escapeHTML_cons (not_special_of_hex h₃).1 (not_special_of_hex h₃).2,
        escapeHTML_cons (not_special_of_hex h₄).1 (not_special_of_hex h₄).2]
      exact ⟨_, .unicode h₁ h₂ h₃ h₄ hps', .same _ hesc⟩
    | @plain c s ps hc h =>
      rw [JsonText.escapeHTML]
      split
      next hhtml =>
        obtain ⟨ps', hps', hesc⟩ := ih s.length (by simp at hn; omega) h rfl
        have hb := c.toNat_lt
        have hspells := @Spells.unicode 48 48 _ _ _ _ rfl rfl
          (isHex_hexChar (show c.toNat / 16 < 16 by omega))
          (isHex_hexChar (show c.toNat % 16 < 16 by omega)) hps'
        rw [hexValue_byte] at hspells
        exact ⟨_, hspells, .html hhtml hesc⟩
      next =>
        split
        next hline =>
          obtain ⟨rfl, htail⟩ := hline
          obtain ⟨x, s', rfl, hx⟩ := exists_of_isLineTail htail
          obtain ⟨qs, rfl, hqs⟩ := h.of_plain ⟨by decide, by decide, by decide⟩
          obtain ⟨rs, rfl, hrs⟩ := hqs.of_plain (isPlain_of_line hx)
          obtain ⟨ps', hps', hesc⟩ := ih s'.length (by simp at hn; omega) hrs rfl
          exact ⟨_, spells_line hx hps', .line hx hesc⟩
        next =>
          obtain ⟨ps', hps', hesc⟩ := ih s.length (by simp at hn; omega) h rfl
          exact ⟨_, .plain hc hps', .same _ hesc⟩

/-! ### Escaped pieces stand for the same string -/

theorem unquote_append_bytes (bs : GoString) (ps : List Piece) :
    unquote bs.length (bs.map .byte ++ ps) = bs ++ unquote 0 ps := by
  induction bs with
  | nil => rfl
  | cons b bs ih =>
    rw [List.length_cons, List.map_cons, List.cons_append, unquote, ih, List.cons_append]

theorem unquote_rune {b : UInt8} {bs : GoString}
    (h : runeTail b (bs.map .byte) = some bs.length) (ps : List Piece) :
    unquote 0 (.byte b :: (bs.map .byte ++ ps)) = b :: bs ++ unquote 0 ps := by
  have hagree : ∀ i < bs.length, (bs.map Piece.byte ++ ps)[i]? = (bs.map Piece.byte)[i]? := by
    intro i hi
    exact List.getElem?_append_left (by rw [List.length_map]; exact hi)
  rw [unquote, (runeTail_of_agree h hagree).2.1]
  dsimp only
  rw [unquote_append_bytes, List.cons_append]

theorem surrogatePair_of_lt {u v : ℕ} (h : u < 0xD800 ∨ v < 0xDC00) :
    surrogatePair u v = none := by
  unfold surrogatePair
  rw [if_neg]
  omega

theorem unquote_escape_byte (u : ℕ) (b : UInt8) (ps : List Piece) :
    unquote 0 (.escape u :: .byte b :: ps) = encodeRune u ++ unquote 0 (.byte b :: ps) := rfl

/-- A pair of surrogates stands for one rune. -/
theorem unquote_escape_escape (u v : ℕ) (ps : List Piece) :
    unquote 0 (.escape u :: .escape v :: ps) =
      (surrogatePair u v).elim (encodeRune u ++ unquote 0 (.escape v :: ps))
        fun r => encodeRune r ++ unquote 0 ps := by
  rw [unquote]
  dsimp only [List.head?_cons]
  cases surrogatePair u v with
  | none => rfl
  | some r => rfl

theorem unquote_escape_of_lt {u v : ℕ} (h : v < 0xDC00) (ps : List Piece) :
    unquote 0 (.escape u :: .escape v :: ps) = encodeRune u ++ unquote 0 (.escape v :: ps) := by
  rw [unquote_escape_escape, surrogatePair_of_lt (Or.inr h)]
  rfl

theorem unquote_escape {u : ℕ} (h : u < 0xD800) (ps : List Piece) :
    unquote 0 (.escape u :: ps) = encodeRune u ++ unquote 0 ps := by
  cases ps with
  | nil => rfl
  | cons p ps =>
    cases p with
    | byte b => rfl
    | escape v =>
      rw [unquote_escape_escape, surrogatePair_of_lt (Or.inl h)]
      rfl

theorem encodeRune_ascii {c : UInt8} (h : c < 0x80) : encodeRune c.toNat = [c] := by
  have hc : c.toNat < 0x80 := UInt8.lt_iff_toNat_lt.mp h
  rw [encodeRune, if_pos hc]
  simp

theorem IsHTML.lt {c : UInt8} (h : IsHTML c) : c < 0x80 := by
  rcases h with rfl | rfl | rfl <;> decide

namespace Escaped

variable {ps ps' : List Piece}

theorem front (h : Escaped ps ps') {n : ℕ}
    (hcont : ∀ i < n, (∃ q, ps[i]? = some q ∧ q.isCont = true) ∨
      ∃ q, ps'[i]? = some q ∧ q.isCont = true) :
    (∀ i < n, ps'[i]? = ps[i]?) ∧ Escaped (ps.drop n) (ps'.drop n) := by
  induction n generalizing ps ps' with
  | zero => exact ⟨fun i hi => absurd hi (Nat.not_lt_zero i), h⟩
  | succ n ih =>
    have hfirst := hcont 0 (Nat.succ_pos n)
    cases h with
    | nil =>
      rcases hfirst with ⟨q, hq, -⟩ | ⟨q, hq, -⟩ <;> cases hq
    | @same p ps ps' h =>
      obtain ⟨hagree, hdrop⟩ := ih h fun i hi => hcont (i + 1) (Nat.succ_lt_succ hi)
      refine ⟨fun i hi => ?_, hdrop⟩
      cases i with
      | zero => rfl
      | succ i => exact hagree i (Nat.lt_of_succ_lt_succ hi)
    | @html c _ _ hc h =>
      rcases hfirst with ⟨q, hq, hcont⟩ | ⟨q, hq, hcont⟩
      · obtain rfl := Option.some.inj hq
        rcases hc with rfl | rfl | rfl <;> cases hcont
      · obtain rfl := Option.some.inj hq
        cases hcont
    | line _ _ =>
      rcases hfirst with ⟨q, hq, hcont⟩ | ⟨q, hq, hcont⟩
      · obtain rfl := Option.some.inj hq
        cases hcont
      · obtain rfl := Option.some.inj hq
        cases hcont

theorem runeTail_eq (h : Escaped ps ps') (b : UInt8) : runeTail b ps' = runeTail b ps := by
  cases hps : runeTail b ps with
  | some n =>
    have hcont := (runeTail_of_agree hps fun _ _ => rfl).2.2
    exact (runeTail_of_agree hps (h.front fun i hi => Or.inl (hcont i hi)).1).2.1
  | none =>
    cases hps' : runeTail b ps' with
    | none => rfl
    | some n =>
      have hcont := (runeTail_of_agree hps' fun _ _ => rfl).2.2
      have hagree := (h.front fun i hi => Or.inr (hcont i hi)).1
      have hsome := (runeTail_of_agree hps' fun i hi => (hagree i hi).symm).2.1
      rw [hps] at hsome
      cases hsome

theorem unquote_of_cont {n : ℕ} (hcont : ∀ i < n, ∃ q, ps[i]? = some q ∧ q.isCont = true) :
    ∃ bs : GoString, ∀ qs, (∀ i < n, qs[i]? = ps[i]?) →
      unquote n qs = bs ++ unquote 0 (qs.drop n) := by
  induction n generalizing ps with
  | zero => exact ⟨[], fun qs _ => rfl⟩
  | succ n ih =>
    obtain ⟨q, hq, hfirst⟩ := hcont 0 (Nat.succ_pos n)
    cases ps with
    | nil => cases hq
    | cons p ps =>
      obtain rfl := Option.some.inj hq
      cases p with
      | escape u => cases hfirst
      | byte b =>
        obtain ⟨bs, hbs⟩ := ih fun i hi => hcont (i + 1) (Nat.succ_lt_succ hi)
        refine ⟨b :: bs, fun qs hqs => ?_⟩
        have hhead := hqs 0 (Nat.succ_pos n)
        cases qs with
        | nil => cases hhead
        | cons p' qs =>
          obtain rfl := Option.some.inj hhead
          rw [unquote, hbs qs fun i hi => hqs (i + 1) (Nat.succ_lt_succ hi), List.cons_append,
            List.drop_succ_cons]

theorem unquote_eq (h : Escaped ps ps') : unquote 0 ps' = unquote 0 ps := by
  generalize hlen : ps.length = n
  induction n using Nat.strong_induction_on generalizing ps ps' with
  | h n ih =>
    cases h with
    | nil => rfl
    | @html c ps ps' hc h =>
      have htail : runeTail c (([] : GoString).map .byte) = some 0 := if_pos hc.lt
      have hrune := unquote_rune htail ps
      have hsmall : c.toNat < 0xD800 := by
        have hb := c.toNat_lt
        omega
      rw [List.map_nil, List.nil_append] at hrune
      rw [hrune, unquote_escape hsmall, encodeRune_ascii hc.lt,
        ih ps.length (by simp at hlen; omega) h rfl]
    | @line c ps ps' hc h =>
      have hsmall : 0x1F80 + c.toNat < 0xD800 := by
        have hb := c.toNat_lt
        omega
      have hrest := ih ps.length (by simp at hlen; omega) h rfl
      rw [unquote_escape hsmall, hrest]
      rcases hc with rfl | rfl
      · exact (@unquote_rune 0xE2 [0x80, 0xA8] (by decide) ps).symm
      · exact (@unquote_rune 0xE2 [0x80, 0xA9] (by decide) ps).symm
    | @same p ps ps' h =>
      rw [List.length_cons] at hlen
      have hrest := ih ps.length (by omega) h rfl
      cases p with
      | byte b =>
        rw [unquote, unquote, h.runeTail_eq]
        cases htail : runeTail b ps with
        | none =>
          dsimp only
          rw [hrest]
        | some k =>
          have hcont := (runeTail_of_agree htail fun _ _ => rfl).2.2
          obtain ⟨hagree, hdrop⟩ := h.front fun i hi => Or.inl (hcont i hi)
          obtain ⟨bs, hbs⟩ := unquote_of_cont hcont
          have htails := ih (ps.drop k).length (by rw [List.length_drop]; omega) hdrop rfl
          dsimp only
          rw [hbs ps fun _ _ => rfl, hbs ps' hagree, htails]
      | escape u =>
        cases h with
        | nil => rfl
        | @html c _ _ _ _ =>
          have hb := c.toNat_lt
          rw [unquote_escape_of_lt (by omega), hrest, unquote_escape_byte]
        | @line c _ _ _ _ =>
          have hb := c.toNat_lt
          rw [unquote_escape_of_lt (by omega), hrest, unquote_escape_byte]
        | @same p qs qs' h =>
          cases p with
          | byte b => rw [unquote_escape_byte, unquote_escape_byte, hrest]
          | escape v =>
            rw [unquote_escape_escape, unquote_escape_escape, hrest,
              ih qs.length (by rw [List.length_cons] at hlen; omega) h rfl]

end Escaped

/-! ### The strings of `json.Marshal` -/

theorem isPlain_of_le {c : UInt8} (h : 0x80 ≤ c) : IsPlain c := by
  have hall : ∀ c : UInt8, 0x80 ≤ c → c ≠ 34 ∧ c ≠ 92 ∧ ¬c < 32 :=
    Byte.forall_of_ofNat (by decide +kernel)
  exact hall c h

theorem spells_plain_append {bs : GoString} (h : ∀ c ∈ bs, IsPlain c) {s : GoString}
    {ps : List Piece} (hs : Spells s ps) : Spells (bs ++ s) (bs.map .byte ++ ps) := by
  induction bs with
  | nil => exact hs
  | cons b bs ih =>
    obtain ⟨hb, hbs⟩ := List.forall_mem_cons.mp h
    exact .plain hb (ih hbs)

/-- Pieces that text `t` spells, and that stand for the bytes `bs`, whatever follows. -/
def SpellsBytes (t bs : GoString) : Prop :=
  ∃ qs, (∀ s ps, Spells s ps → Spells (t ++ s) (qs ++ ps)) ∧
    ∀ ps, unquote 0 (qs ++ ps) = bs ++ unquote 0 ps

theorem unquote_ascii {b : UInt8} (h : b < 0x80) (ps : List Piece) :
    unquote 0 (.byte b :: ps) = b :: unquote 0 ps := by
  have htail : runeTail b (([] : GoString).map .byte) = some 0 := if_pos h
  exact unquote_rune htail ps

theorem spellsBytes_short {e b : UInt8} (he : unescape e = some b) (hb : b < 0x80) :
    SpellsBytes [92, e] [b] :=
  ⟨[.byte b], fun _ _ h => .short he h, fun ps => unquote_ascii hb ps⟩

theorem spellsBytes_escapeByte {b : UInt8} (hb : b < 0x80) :
    SpellsBytes (Json.escapeByte b) [b] := by
  unfold Json.escapeByte
  split
  next hsafe =>
    have hplain : ∀ c : UInt8, isHTMLSafe c = true → c ≠ 34 ∧ c ≠ 92 ∧ ¬c < 32 :=
      Byte.forall_of_ofNat (by decide +kernel)
    exact ⟨[.byte b], fun _ _ h => .plain (hplain b hsafe) h, fun ps => unquote_ascii hb ps⟩
  split
  next heq =>
    rcases heq with rfl | rfl
    · exact spellsBytes_short rfl (by decide)
    · exact spellsBytes_short rfl (by decide)
  iterate 5
    split
    next heq =>
      subst heq
      exact spellsBytes_short rfl (by decide)
  have hlt := b.toNat_lt
  refine ⟨[.escape b.toNat], fun s ps h => ?_, fun ps => ?_⟩
  · have hspells := @Spells.unicode 48 48 _ _ _ _ rfl rfl
      (isHex_hexChar (show b.toNat / 16 < 16 by omega))
      (isHex_hexChar (show b.toNat % 16 < 16 by omega)) h
    rw [hexValue_byte] at hspells
    exact hspells
  · have hsmall : b.toNat < 0xD800 := by omega
    rw [List.cons_append, List.nil_append, unquote_escape hsmall, encodeRune_ascii hb]

theorem lead_of_runeTail {b c : UInt8} {rest : GoString}
    (h : runeTail b ((c :: rest).map .byte) = some (rest.length + 1)) : 0x80 ≤ b := by
  by_contra hb
  have hlt : b < 0x80 := UInt8.not_le.mp hb
  have hzero : runeTail b ((c :: rest).map .byte) = some 0 := if_pos hlt
  rw [hzero] at h
  cases h

theorem spellsBytes_escapeChunk {r : GoString} (h : IsRune r) :
    SpellsBytes (escapeChunk (.rune r)) r := by
  obtain ⟨b, rest, rfl, htail⟩ := h
  cases rest with
  | nil =>
    have hb : b < 0x80 := by
      have hlen := (runeTail_eq_some htail).1
      unfold tailLength at hlen
      split at hlen
      next hb => exact hb
      next =>
        split at hlen
        · cases hlen
        · split at hlen <;> cases hlen
    exact spellsBytes_escapeByte hb
  | cons c rest =>
    have hescape : escapeChunk (.rune (b :: c :: rest)) =
        if b :: c :: rest = [0xE2, 0x80, 0xA8] then str "\\u2028"
        else if b :: c :: rest = [0xE2, 0x80, 0xA9] then str "\\u2029"
        else b :: c :: rest := rfl
    rw [hescape]
    split
    next heq =>
      rw [heq]
      exact ⟨[.escape 0x2028], fun _ _ h => @Spells.unicode 50 48 50 56 _ _ rfl rfl rfl rfl h,
        fun ps => unquote_escape (by decide) ps⟩
    next =>
      split
      next heq =>
        rw [heq]
        exact ⟨[.escape 0x2029], fun _ _ h => @Spells.unicode 50 48 50 57 _ _ rfl rfl rfl rfl h,
          fun ps => unquote_escape (by decide) ps⟩
      next =>
        have hplain : ∀ x ∈ b :: c :: rest, IsPlain x := by
          refine List.forall_mem_cons.mpr ⟨isPlain_of_le (lead_of_runeTail htail), ?_⟩
          intro x hx
          exact isPlain_of_le (isCont_of_runeTail htail hx).1
        exact ⟨(b :: c :: rest).map .byte, fun _ _ => spells_plain_append hplain,
          fun ps => unquote_rune htail ps⟩

/-- `json.Marshal` writes string literals, and a valid string can be read off them. -/
theorem spells_chunks {cs : List Chunk} (h : ∀ r, .rune r ∈ cs → IsRune r) :
    ∃ ps, Spells (cs.flatMap escapeChunk ++ [34]) ps ∧
      ((∀ c ∈ cs, c.isRune = true) → unquote 0 ps = cs.flatMap Chunk.bytes) := by
  induction cs with
  | nil => exact ⟨[], .close, fun _ => rfl⟩
  | cons c cs ih =>
    obtain ⟨ps, hps, hvalue⟩ := ih fun r hr => h r (List.mem_cons_of_mem _ hr)
    rw [List.flatMap_cons, List.flatMap_cons, List.append_assoc]
    cases c with
    | bad b =>
      refine ⟨.escape 0xFFFD :: ps, ?_, ?_⟩
      · exact @Spells.unicode 102 102 102 100 _ _ rfl rfl rfl rfl hps
      · intro hrunes
        exact absurd (hrunes _ List.mem_cons_self) (by simp [Chunk.isRune])
    | rune r =>
      obtain ⟨qs, hspells, hunquote⟩ := spellsBytes_escapeChunk (h r List.mem_cons_self)
      refine ⟨qs ++ ps, hspells _ _ hps, ?_⟩
      intro hrunes
      rw [hunquote, hvalue fun c hc => hrunes c (List.mem_cons_of_mem _ hc)]
      rfl

theorem spells_marshalString (s : GoString) :
    ∃ t ps, marshalString s = 34 :: t ∧ Spells t ps ∧ (validString s → unquote 0 ps = s) := by
  obtain ⟨ps, hps, hvalue⟩ := spells_chunks fun r (hr : .rune r ∈ chunks s) =>
    isRune_of_mem_chunksFrom hr
  refine ⟨_, ps, rfl, hps, fun hvalid => ?_⟩
  rw [hvalue fun c hc => List.all_eq_true.mp hvalid c hc]
  exact flatMap_chunksFrom (Nat.le_refl _)

theorem isString_marshalString (s : GoString) : IsString (marshalString s) := by
  obtain ⟨t, ps, htext, hps, -⟩ := spells_marshalString s
  exact isString_iff.mpr ⟨t, ps, htext, hps⟩

end Go.JsonText
