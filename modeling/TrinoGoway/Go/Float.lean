import TrinoGoway.Go.Duration
import TrinoGoway.Lib.Binary64

/-! `float64`: the finite numbers, read from decimal texts. -/
namespace Go

open Json

/-- A finite `float64`: the number it stands for, and whether it is the negative zero. -/
structure Float64 where
  value : ℚ
  negativeZero : Bool := false
  deriving DecidableEq

/-- `strconv.ParseFloat` for a decimal number: the nearest `float64`, or an error if that is an
infinity. -/
def parseFloat (s : GoString) : Option Float64 :=
  (sscanFloat s).bind fun q =>
    if Binary64.InRange q then
      some ⟨Binary64.round q, Binary64.round q = 0 ∧ s.head? = some Byte.minus⟩
    else none

/-- The conversion of a `float64` to an `int64`, as on amd64 for numbers out of range. -/
def toInt64 (q : ℚ) : ℤ :=
  if -2 ^ 63 ≤ truncate q ∧ truncate q < 2 ^ 63 then truncate q else -2 ^ 63

theorem sscanFloat_formatNat_append (n : ℕ) {t : GoString} (ht : NoDigit t)
    (hpoint : t.head? ≠ some Byte.period) :
    sscanFloat (formatNat n ++ t) = (scanExponent t).map fun e => (n : ℚ) * 10 ^ e := by
  obtain ⟨c, s, hcons, -⟩ := formatNat_cons n
  have hne : formatNat n ≠ [] := by simp [hcons]
  obtain ⟨htake, hdrop⟩ := span_formatNat n ht
  unfold sscanFloat
  rw [dropWhile_isBlank_digits, cutSign_digits]
  simp only [htake, hdrop, hne, false_and, if_false, Bool.false_eq_true]
  split
  · exact absurd rfl hpoint
  · simp only [List.append_nil, parseDigits_formatNat, List.length_nil, pow_zero, div_one, one_mul]

theorem sscanFloat_formatNat (n : ℕ) : sscanFloat (formatNat n) = some (n : ℚ) := by
  have h := sscanFloat_formatNat_append n (t := []) (by simp [NoDigit]) (by simp)
  rw [List.append_nil] at h
  rw [h, scanExponent, Option.map_some, zpow_zero, mul_one]

theorem parseFloat_formatNat {n : ℕ} (hn : n ≤ 2 ^ 53) :
    parseFloat (formatNat n) = some ⟨n, false⟩ := by
  have habs : |(n : ℤ)| ≤ 2 ^ 53 := by
    rw [abs_of_nonneg (Int.natCast_nonneg n)]
    exact_mod_cast hn
  have hround : Binary64.round (n : ℚ) = n := by
    exact_mod_cast Binary64.round_intCast habs
  have hrange : Binary64.InRange (n : ℚ) := by
    rw [Binary64.InRange, hround, abs_of_nonneg (Nat.cast_nonneg n)]
    calc (n : ℚ) ≤ 2 ^ 53 := by exact_mod_cast hn
      _ < 2 ^ 1024 := pow_lt_pow_right₀ (by norm_num) (by norm_num)
  have hsign : (formatNat n).head? ≠ some Byte.minus := by
    obtain ⟨c, t, hcons, hdigit⟩ := formatNat_cons n
    rw [hcons]
    rintro ⟨⟩
    cases hdigit
  rw [parseFloat, sscanFloat_formatNat, Option.bind_some, if_pos hrange, hround]
  simp [hsign]

end Go
