import Mathlib.Data.Nat.Digits.Lemmas
import TrinoGoway.Go.Json

/-! `json.Marshal` for strings and integers. -/
namespace Go.Json

open Go

/-! ### Strings -/

/-- A rune with its bytes, or a byte that belongs to none. -/
inductive Chunk
  | rune (bytes : GoString)
  | bad (b : UInt8)
  deriving DecidableEq

/-- The runes of a text, as `utf8.DecodeRuneInString` finds them one after the other. Each takes a
byte, so the length of the text is enough for the first argument. -/
def chunksFrom : ℕ → GoString → List Chunk
  | 0, _ => []
  | _ + 1, [] => []
  | n + 1, b :: s =>
    match runeTail b (s.map .byte) with
    | some k => .rune (b :: s.take k) :: chunksFrom n (s.drop k)
    | none => .bad b :: chunksFrom n s

def chunks (s : GoString) : List Chunk := chunksFrom s.length s

def Chunk.isRune : Chunk → Bool
  | rune _ => true
  | bad _ => false

def validString (s : GoString) : Bool := (chunks s).all Chunk.isRune

def hexChar (n : ℕ) : UInt8 := if n < 10 then .ofNat (48 + n) else .ofNat (87 + n)

def isHTMLSafe (b : UInt8) : Bool :=
  32 ≤ b && b != 34 && b != 38 && b != 60 && b != 62 && b != 92

def escapeByte (b : UInt8) : GoString :=
  if isHTMLSafe b then [b]
  else if b = 92 ∨ b = 34 then [92, b]
  else if b = 8 then [92, 98]
  else if b = 12 then [92, 102]
  else if b = 10 then [92, 110]
  else if b = 13 then [92, 114]
  else if b = 9 then [92, 116]
  else [92, 117, 48, 48, hexChar (b.toNat / 16), hexChar (b.toNat % 16)]

def escapeChunk : Chunk → GoString
  | .bad _ => str "\\ufffd"
  | .rune [b] => escapeByte b
  | .rune bytes =>
    -- U+2028 and U+2029
    if bytes = [0xE2, 0x80, 0xA8] then str "\\u2028"
    else if bytes = [0xE2, 0x80, 0xA9] then str "\\u2029"
    else bytes

def marshalString (s : GoString) : GoString := 34 :: ((chunks s).flatMap escapeChunk ++ [34])

def Chunk.bytes : Chunk → GoString
  | rune bytes => bytes
  | bad b => [b]

theorem flatMap_chunksFrom {n : ℕ} {s : GoString} (h : s.length ≤ n) :
    (chunksFrom n s).flatMap Chunk.bytes = s := by
  induction n generalizing s with
  | zero =>
    rw [List.length_eq_zero_iff.mp (Nat.le_zero.mp h)]
    rfl
  | succ n ih =>
    cases s with
    | nil => rfl
    | cons b s =>
      rw [List.length_cons] at h
      unfold chunksFrom
      cases runeTail b (s.map .byte) with
      | none =>
        rw [List.flatMap_cons, ih (by omega)]
        rfl
      | some k =>
        have hlen : (s.drop k).length ≤ n := by
          rw [List.length_drop]
          omega
        rw [List.flatMap_cons, ih hlen]
        simp [Chunk.bytes]

theorem validString_of_ascii {s : GoString} (h : ∀ c ∈ s, c < 0x80) : validString s := by
  have hall : ∀ (n : ℕ) (s : GoString), (∀ c ∈ s, c < 0x80) → ∀ c ∈ chunksFrom n s, c.isRune := by
    intro n
    induction n with
    | zero => exact fun _ _ _ hc => absurd hc List.not_mem_nil
    | succ n ih =>
      intro s hs c hc
      cases s with
      | nil => cases hc
      | cons b s =>
        obtain ⟨hb, hs⟩ := List.forall_mem_cons.mp hs
        have htail : runeTail b (s.map .byte) = some 0 := if_pos hb
        unfold chunksFrom at hc
        rw [htail] at hc
        rcases List.mem_cons.mp hc with rfl | hc
        · rfl
        · exact ih s hs c hc
  exact List.all_eq_true.mpr (hall s.length s h)

/-! ### Integers -/

def formatNat (n : ℕ) : GoString :=
  if n = 0 then [48] else (Nat.digits 10 n).reverse.map fun d => .ofNat (48 + d)

def formatInt (i : ℤ) : GoString :=
  if i < 0 then 45 :: formatNat i.natAbs else formatNat i.natAbs

theorem isDigit_ofNat {d : ℕ} (h : d < 10) : Byte.isDigit (.ofNat (48 + d)) := by
  have hall : ∀ m < 10, Byte.isDigit (.ofNat (48 + m)) := by decide
  exact hall d h

theorem isDigit_of_mem_formatNat {n : ℕ} {c : UInt8} (h : c ∈ formatNat n) : Byte.isDigit c := by
  unfold formatNat at h
  split at h
  · rw [List.mem_singleton.mp h]
    decide
  · obtain ⟨d, hd, rfl⟩ := List.mem_map.mp h
    exact isDigit_ofNat (Nat.digits_lt_base (by decide) (List.mem_reverse.mp hd))

def parseDigits (s : GoString) : ℕ := Nat.ofDigits 10 (s.reverse.map fun c => c.toNat - 48)

theorem parseDigits_formatNat (n : ℕ) : parseDigits (formatNat n) = n := by
  unfold parseDigits formatNat
  split
  · rename_i h
    rw [h]
    rfl
  · rw [← List.map_reverse, List.reverse_reverse, List.map_map]
    have hdigits : (Nat.digits 10 n).map
        ((fun c : UInt8 => c.toNat - 48) ∘ fun d => .ofNat (48 + d)) = Nat.digits 10 n := by
      refine (List.map_congr_left ?_).trans (List.map_id _)
      intro d hd
      have hall : ∀ m < 10, (UInt8.ofNat (48 + m)).toNat - 48 = m := by decide
      exact hall d (Nat.digits_lt_base (by decide) hd)
    rw [hdigits, Nat.ofDigits_digits]

def NoDigit (r : GoString) : Prop := ∀ c ∈ r.head?, Byte.isDigit c = false

/-- The digits of a number end where the text does not go on with one. -/
theorem span_formatNat (n : ℕ) {t : GoString} (ht : NoDigit t) :
    (formatNat n ++ t).takeWhile Byte.isDigit = formatNat n ∧
      (formatNat n ++ t).dropWhile Byte.isDigit = t := by
  have hall : ∀ c ∈ formatNat n, Byte.isDigit c = true := fun c => isDigit_of_mem_formatNat
  rw [List.takeWhile_append_of_pos hall, List.dropWhile_append_of_pos hall]
  cases t with
  | nil => simp
  | cons c t =>
    have hc : Byte.isDigit c = false := ht c rfl
    simp [hc]

theorem formatNat_cons (n : ℕ) : ∃ c t, formatNat n = c :: t ∧ Byte.isDigit c = true := by
  cases hn : formatNat n with
  | nil =>
    have hzero := parseDigits_formatNat n
    rw [hn] at hzero
    obtain rfl : n = 0 := hzero.symm
    cases hn
  | cons c t =>
    have hmem : c ∈ formatNat n := by
      rw [hn]
      exact List.mem_cons_self
    exact ⟨c, t, rfl, isDigit_of_mem_formatNat hmem⟩

theorem ascii_formatInt (i : ℤ) : ∀ c ∈ formatInt i, c < 0x80 := by
  have hdigit : ∀ c ∈ formatNat i.natAbs, c < 0x80 := by
    intro c hc
    have hc' := isDigit_of_mem_formatNat hc
    simp only [Byte.isDigit, Bool.and_eq_true, decide_eq_true_eq] at hc'
    exact UInt8.lt_of_le_of_lt hc'.2 (by decide)
  unfold formatInt
  split
  · exact List.forall_mem_cons.mpr ⟨by decide, hdigit⟩
  · exact hdigit

/-! ### Hexadecimal -/

def hexEncode (s : GoString) : GoString :=
  s.flatMap fun b => [hexChar (b.toNat / 16), hexChar (b.toNat % 16)]

theorem hexDigit_hexChar {n : ℕ} (h : n < 16) : hexDigit (hexChar n) = some n := by
  have hall : ∀ m < 16, hexDigit (hexChar m) = some m := by decide
  exact hall n h

theorem hexChar_injective {n m : ℕ} (hn : n < 16) (hm : m < 16) (h : hexChar n = hexChar m) :
    n = m := by
  have hdigit := hexDigit_hexChar hn
  rw [h, hexDigit_hexChar hm] at hdigit
  exact (Option.some.inj hdigit).symm

theorem hexEncode_injective {s s' : GoString} (h : hexEncode s = hexEncode s') : s = s' := by
  induction s generalizing s' with
  | nil =>
    cases s' with
    | nil => rfl
    | cons b' s' => cases h
  | cons b s ih =>
    cases s' with
    | nil => cases h
    | cons b' s' =>
      obtain ⟨hhi, h⟩ := List.cons.inj h
      obtain ⟨hlo, h⟩ := List.cons.inj h
      have hb := b.toNat_lt
      have hb' := b'.toNat_lt
      have hdiv := hexChar_injective (by omega) (by omega) hhi
      have hmod := hexChar_injective (by omega) (by omega) hlo
      have hbyte : b = b' := UInt8.toNat_inj.mp (by omega)
      rw [hbyte, ih h]

end Go.Json
