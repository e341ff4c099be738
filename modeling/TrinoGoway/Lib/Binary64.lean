import Mathlib.Algebra.Order.Field.Power
import Mathlib.Data.Int.Log
import Mathlib.Data.Rat.Floor
import Mathlib.Tactic.FieldSimp
import Mathlib.Tactic.Linarith
import Mathlib.Tactic.NormNum
import Mathlib.Tactic.Positivity

/-! Rounding to binary64, to nearest with ties to even, on the rational numbers. The exponent has no
upper bound here; whether a number is too large is decided on the rounded value. -/
namespace Binary64

/-- The nearest integer, the even one at a midpoint. -/
def roundEven (x : ℚ) : ℤ :=
  let k := ⌊x⌋
  if x - k < 1 / 2 then k
  else if 1 / 2 < x - k then k + 1
  else k + k % 2

def exponent (x : ℚ) : ℤ := max (Int.log 2 |x|) (-1022) - 52

/-- The distance of the numbers of the format around `x`. -/
def quantum (x : ℚ) : ℚ := 2 ^ exponent x

def round (x : ℚ) : ℚ := roundEven (x / quantum x) * quantum x

def InRange (x : ℚ) : Prop := |round x| < 2 ^ 1024

instance (x : ℚ) : Decidable (InRange x) := by
  unfold InRange
  infer_instance

def Representable (x : ℚ) : Prop := ∃ m e : ℤ, |m| ≤ 2 ^ 53 ∧ -1074 ≤ e ∧ x = m * 2 ^ e

/-! ### Integers -/

theorem roundEven_error (x : ℚ) : |(roundEven x : ℚ) - x| ≤ 1 / 2 := by
  have hlo := Int.floor_le x
  have hhi := Int.lt_floor_add_one x
  have hm0 : (0 : ℚ) ≤ (⌊x⌋ % 2 : ℤ) := by
    exact_mod_cast Int.emod_nonneg ⌊x⌋ (by norm_num : (2 : ℤ) ≠ 0)
  have hm1 : ((⌊x⌋ % 2 : ℤ) : ℚ) ≤ 1 := by
    exact_mod_cast (show ⌊x⌋ % 2 ≤ 1 by omega)
  unfold roundEven
  dsimp only
  split_ifs <;> push_cast <;> rw [abs_le] <;> constructor <;> linarith

@[simp] theorem roundEven_intCast (k : ℤ) : roundEven (k : ℚ) = k := by
  simp [roundEven]

/-! ### The quantum -/

theorem quantum_pos (x : ℚ) : 0 < quantum x := by
  unfold quantum
  positivity

theorem quantum_le {x : ℚ} (h : 2 ^ (-1022 : ℤ) ≤ |x|) : quantum x * 2 ^ 52 ≤ |x| := by
  have hpos : 0 < |x| := lt_of_lt_of_le (by positivity) h
  have hlog : -1022 ≤ Int.log 2 |x| := (Int.zpow_le_iff_le_log (by decide) hpos).mp h
  have hexp : exponent x = Int.log 2 |x| - 52 := by
    rw [exponent, max_eq_left hlog]
  calc quantum x * 2 ^ 52 = 2 ^ (exponent x + 52) := by
        rw [zpow_add₀ (by norm_num), quantum]
        norm_num
    _ = 2 ^ Int.log 2 |x| := by rw [hexp, sub_add_cancel]
    _ ≤ |x| := Int.zpow_log_le_self (by decide) hpos

/-! ### Rounding -/

/-- The error is at most half a unit in the last place. -/
theorem round_error (x : ℚ) : |round x - x| ≤ quantum x / 2 := by
  have hpos := quantum_pos x
  have herror := mul_le_mul_of_nonneg_right (roundEven_error (x / quantum x)) hpos.le
  calc |round x - x| = |(roundEven (x / quantum x) : ℚ) - x / quantum x| * quantum x := by
        rw [← abs_of_pos hpos, ← abs_mul, abs_of_pos hpos, sub_mul,
          div_mul_cancel₀ x hpos.ne', round]
    _ ≤ quantum x / 2 := by linarith

theorem round_of_multiple {x : ℚ} {k : ℤ} (h : x = k * quantum x) : round x = x := by
  have hdiv : x / quantum x = k := by
    rw [div_eq_iff (quantum_pos x).ne']
    exact h
  rw [round, hdiv, roundEven_intCast]
  exact h.symm

theorem round_of_significand_lt {m e : ℤ} (hm : |m| < 2 ^ 53) (he : -1074 ≤ e) :
    round (m * 2 ^ e) = m * 2 ^ e := by
  rcases eq_or_ne m 0 with rfl | hne
  · exact round_of_multiple (k := 0) (by simp)
  -- the last place of the number is no higher than `e`
  have habs : |(m : ℚ) * 2 ^ e| = |m| * 2 ^ e := by
    rw [abs_mul, abs_of_pos (by positivity : (0 : ℚ) < 2 ^ e), Int.cast_abs]
  have hpos : 0 < |(m : ℚ) * 2 ^ e| := abs_pos.mpr (by positivity)
  have hlt : |(m : ℚ) * 2 ^ e| < 2 ^ (53 + e) := by
    have hm' : (|m| : ℚ) < 2 ^ (53 : ℤ) := by exact_mod_cast hm
    rw [habs, zpow_add₀ (by norm_num)]
    exact mul_lt_mul_of_pos_right (by exact_mod_cast hm') (by positivity)
  have hlog : Int.log 2 |(m : ℚ) * 2 ^ e| < 53 + e :=
    (Int.lt_zpow_iff_log_lt (by decide) hpos).mp hlt
  have hexp : exponent (m * 2 ^ e) ≤ e := by
    unfold exponent
    omega
  obtain ⟨n, hn⟩ := Int.le.dest hexp
  refine round_of_multiple (k := m * 2 ^ n) ?_
  rw [quantum]
  generalize exponent (m * 2 ^ e) = d at hn
  subst hn
  rw [zpow_add₀ (by norm_num), zpow_natCast]
  push_cast
  ring

theorem round_of_representable {x : ℚ} (h : Representable x) : round x = x := by
  obtain ⟨m, e, hm, he, rfl⟩ := h
  rcases hm.lt_or_eq with hlt | heq
  · exact round_of_significand_lt hlt he
  · -- the significand 2 ^ 53 is 2 ^ 52 at the next exponent
    obtain ⟨s, hs, hm⟩ : ∃ s : ℤ, |s| < 2 ^ 53 ∧ m = s * 2 := by
      rcases abs_eq (by norm_num) |>.mp heq with rfl | rfl
      · exact ⟨2 ^ 52, by norm_num, by norm_num⟩
      · exact ⟨-2 ^ 52, by norm_num, by norm_num⟩
    have hnext : (m : ℚ) * 2 ^ e = s * 2 ^ (e + 1) := by
      rw [hm, zpow_add₀ (by norm_num)]
      push_cast
      ring
    rw [hnext]
    exact round_of_significand_lt hs (by omega)

theorem representable_intCast {k : ℤ} (h : |k| ≤ 2 ^ 53) : Representable k :=
  ⟨k, 0, h, by norm_num, by simp⟩

theorem round_intCast {k : ℤ} (h : |k| ≤ 2 ^ 53) : round k = k :=
  round_of_representable (representable_intCast h)

theorem div_eq_ediv_add {t b : ℤ} (hb : 0 < b) :
    (t : ℚ) / b = (t / b : ℤ) + (t % b : ℤ) / b := by
  have hbq : (b : ℚ) ≠ 0 := by exact_mod_cast hb.ne'
  have hdiv : (b : ℚ) * (t / b : ℤ) + (t % b : ℤ) = t := by
    exact_mod_cast Int.mul_ediv_add_emod t b
  rw [eq_comm, ← sub_eq_zero]
  field_simp
  linarith

/-- A quotient of integers of the format is a normal number. -/
theorem le_abs_div {t b : ℤ} (hb : 0 < b) (hb' : b ≤ 2 ^ 53) (ht : t ≠ 0) :
    2 ^ (-1022 : ℤ) ≤ |(t : ℚ) / b| := by
  have hbq : (0 : ℚ) < b := by exact_mod_cast hb
  have hle : (b : ℚ) ≤ 2 ^ (53 : ℤ) := by exact_mod_cast hb'
  have hone : (1 : ℚ) ≤ |(t : ℚ)| := by exact_mod_cast Int.one_le_abs ht
  rw [abs_div, abs_of_pos hbq, le_div_iff₀ hbq]
  calc (2 : ℚ) ^ (-1022 : ℤ) * b ≤ 2 ^ (-1022 : ℤ) * 2 ^ (53 : ℤ) := by gcongr
    _ ≤ 1 := by
      rw [← zpow_add₀ (by norm_num)]
      exact zpow_le_one_of_nonpos₀ (by norm_num) (by norm_num)
    _ ≤ |(t : ℚ)| := hone

theorem round_div_error {t b : ℤ} (hb : 0 < b) (hb' : b ≤ 2 ^ 53) (ht : |t| < 2 ^ 53)
    (hne : t ≠ 0) : |round (t / b) - t / b| < 1 / b := by
  have hbq : (0 : ℚ) < b := by exact_mod_cast hb
  have hquantum := quantum_le (le_abs_div hb hb' hne)
  have ht' : |(t : ℚ)| < 2 ^ 53 := by exact_mod_cast ht
  have hless : |(t : ℚ) / b| < 2 ^ 53 * (1 / b) := by
    rw [abs_div, abs_of_pos hbq, mul_one_div]
    gcongr
  have hround := round_error (t / b)
  linarith

/-- The floor of a rounded quotient of integers of up to 53 bits is the floor of the quotient. -/
theorem floor_round_div {t b : ℤ} (hb : 0 < b) (hb' : b ≤ 2 ^ 53) (ht : |t| < 2 ^ 53) :
    ⌊round (t / b)⌋ = t / b := by
  have hbq : (0 : ℚ) < b := by exact_mod_cast hb
  have hsplit := div_eq_ediv_add (t := t) hb
  rcases (Int.emod_nonneg t hb.ne').eq_or_lt with hzero | hpos
  · -- an integer is a number of the format
    have hle : |t / b| ≤ 2 ^ 53 := (Int.abs_ediv_le_abs t b).trans ht.le
    rw [hsplit, ← hzero, Int.cast_zero, zero_div, add_zero, round_intCast hle, Int.floor_intCast]
  · -- otherwise the quotient is `1 / b` or more away from both integers, and the error is less
    have hlt : t % b < b := Int.emod_lt_of_pos t hb
    have hlow : (1 : ℚ) / b ≤ (t % b : ℤ) / b := by
      gcongr
      exact_mod_cast hpos
    have hhigh : ((t % b : ℤ) : ℚ) / b ≤ 1 - 1 / b := by
      rw [div_le_iff₀ hbq, sub_mul, div_mul_cancel₀ _ hbq.ne']
      have hle : t % b ≤ b - 1 := by omega
      have hle' : ((t % b : ℤ) : ℚ) ≤ b - 1 := by exact_mod_cast hle
      linarith
    have hne : t ≠ 0 := by
      rintro rfl
      simp at hpos
    obtain ⟨h₁, h₂⟩ := abs_lt.mp (round_div_error hb hb' ht hne)
    rw [Int.floor_eq_iff]
    constructor <;> linarith

end Binary64
