import Mathlib.Algebra.BigOperators.Group.Finset.Piecewise
import TrinoGoway.Go.Basic
import TrinoGoway.Lib.Binary64
import TrinoGoway.Lib.Loop

/-! `buildLineChartModel` of the dashboard. A number is a finite one of JavaScript, taken as the
rational number it stands for, and every operation on numbers rounds. -/
namespace TrinoGoway.Webapp

open Go

abbrev Number := ℚ

namespace Number

def add (x y : Number) : Number := Binary64.round (x + y)

def mul (x y : Number) : Number := Binary64.round (x * y)

def div (x y : Number) : Number := Binary64.round (x / y)

end Number

structure LineChartData where
  epochMillis : Number
  queryCount : Number

structure Series where
  name : GoString
  data : List Number

inductive Failure
  | hung
  /-- a `RangeError` is thrown -/
  | rangeError

def minute : Number := 60000

def maxLength : ℕ := 2 ^ 32 - 1

/-- An object with an array of points for each name, in the order of `Object.keys`; an array may be
missing. -/
abbrev LineChart := GoMap (Option (List LineChartData))

def backends (lineChart : LineChart) : List GoString := lineChart.entries.map Prod.fst

def slot (t : Number) : Number := Number.mul ⌊Number.div t minute⌋ minute

/-- `xs.push(x)`: an array cannot grow beyond its largest length. -/
def push (xs : List Number) (x : Number) : Except Loop.Fault (List Number) :=
  if xs.length < maxLength then .ok (xs ++ [x]) else .error (.outOfRange xs.length maxLength)

/-- The stepping loop, with the buckets so far. -/
def bucketTurn (endBucket : Number) (s : Number × List Number) :
    Except Loop.Fault (Loop.Turn (Number × List Number)) :=
  if s.1 ≤ endBucket then do
    let buckets ← push s.2 s.1
    return .again (Number.add s.1 minute, buckets)
  else .ok (.leave s)

section Build

-- `Intl.DateTimeFormat`: the labels of times in a time zone; an unknown zone has none
variable (intl : GoString → Option (Number → GoString))

end Build

/-! ### Exact arithmetic -/

/-- The time is an integer of the exact range, and the count is an integer. -/
structure IsExact (p : LineChartData) : Prop where
  time : ∃ t : ℤ, p.epochMillis = t ∧ |t| < 2 ^ 53
  count : ∃ q : ℤ, p.queryCount = q

def minuteOf (p : LineChartData) : ℤ := ⌊p.epochMillis / 60000⌋

def minutes (first last : ℤ) : List ℤ :=
  (List.range (last + 1 - first).toNat).map fun k : ℕ => first + k

def millis (m : ℤ) : Number := m * 60000

/-- Minutes are multiples of 32 milliseconds, so they are exact far beyond the timestamps. -/
theorem round_millis {m : ℤ} (h : |m| ≤ 2 ^ 40) : Binary64.round (millis m) = millis m := by
  refine Binary64.round_of_representable ⟨m * 1875, 5, ?_, by norm_num, ?_⟩
  · rw [abs_mul]
    norm_num at h ⊢
    omega
  · rw [millis]
    push_cast
    ring

theorem minuteOf_eq {p : LineChartData} {t : ℤ} (h : p.epochMillis = t) :
    minuteOf p = t / 60000 := by
  rw [minuteOf, h]
  exact_mod_cast Rat.floor_intCast_div_natCast t 60000

theorem minuteOf_bounds {p : LineChartData} (h : IsExact p) : |minuteOf p| ≤ 2 ^ 39 := by
  obtain ⟨t, ht, hlt⟩ := h.time
  rw [minuteOf_eq ht, abs_le]
  rw [abs_lt] at hlt
  omega

theorem slot_eq {p : LineChartData} (h : IsExact p) : slot p.epochMillis = millis (minuteOf p) := by
  have hbound := minuteOf_bounds h
  obtain ⟨t, ht, hlt⟩ := h.time
  have hfloor : ⌊Number.div p.epochMillis minute⌋ = minuteOf p := by
    rw [minuteOf_eq ht, ht]
    exact Binary64.floor_round_div (t := t) (b := 60000) (by norm_num) (by norm_num) hlt
  rw [slot, hfloor]
  exact round_millis (by omega)

/-! ### The buckets -/

/-- The buckets of the first `k` minutes from one on, with the time at which the next one begins. -/
def stepped (first : ℤ) (k : ℕ) : Number × List Number :=
  (millis (first + k), (List.range k).map fun i : ℕ => millis (first + i))

theorem millis_le_iff (m last : ℤ) : millis m ≤ millis last ↔ m ≤ last := by
  rw [millis, millis, mul_le_mul_iff_left₀ (by norm_num), Int.cast_le]

/-- A step of the loop is exact; behind the last bucket that an array can hold it throws. -/
theorem bucketTurn_stepped {first last : ℤ} (hfirst : |first| ≤ 2 ^ 39) (hlast : |last| ≤ 2 ^ 39)
    {k : ℕ} (hle : first + (k : ℤ) ≤ last) :
    bucketTurn (millis last) (stepped first k) =
      if k < maxLength then .ok (.again (stepped first (k + 1)))
      else .error (.outOfRange k maxLength) := by
  have hnext : millis (first + k) + minute = millis (first + (k + 1 : ℕ)) := by
    rw [millis, millis, minute]
    push_cast
    ring
  have hstep : Number.add (millis (first + k)) minute = millis (first + (k + 1 : ℕ)) := by
    rw [Number.add, hnext]
    rw [abs_le] at hfirst hlast
    refine round_millis ?_
    rw [abs_le]
    omega
  rw [bucketTurn, stepped, if_pos ((millis_le_iff _ _).mpr hle), push, List.length_map,
    List.length_range]
  by_cases hk : k < maxLength
  · rw [if_pos hk, if_pos hk, Loop.ok_bind, hstep, stepped, List.range_succ, List.map_append]
    rfl
  · rw [if_neg hk, if_neg hk]
    rfl

/-- The stepping loop passes through all minutes, as long as an array can hold them. -/
theorem run_bucketTurn {first last : ℤ} (hfirst : |first| ≤ 2 ^ 39) (hlast : |last| ≤ 2 ^ 39)
    (hroom : (last + 1 - first).toNat ≤ maxLength) {fuel : ℕ}
    (hfuel : (last + 1 - first).toNat < fuel) :
    ∃ ts, Loop.run (bucketTurn (millis last)) fuel (millis first, []) =
      .ok (ts, (minutes first last).map millis) := by
  obtain ⟨⟨ts, bs⟩, hrun, hbs⟩ : ∃ s : Number × List Number,
      Loop.run (bucketTurn (millis last)) fuel (millis first, []) = .ok s ∧
        s.2 = (minutes first last).map millis := by
    refine Loop.total (fun s => ∃ k ≤ (last + 1 - first).toNat, s = stepped first k)
      _ (fun s => (last + 1 - first).toNat - s.2.length) ?_ ⟨0, Nat.zero_le _, by simp [stepped]⟩
      (by simpa using hfuel)
    rintro s ⟨k, hk, rfl⟩
    by_cases hle : first + (k : ℤ) ≤ last
    · refine .inl ⟨stepped first (k + 1), ?_, ⟨k + 1, by omega, rfl⟩, ?_⟩
      · rw [bucketTurn_stepped hfirst hlast hle, if_pos (by omega)]
      · simp only [stepped, List.length_map, List.length_range]
        omega
    · refine .inr ⟨stepped first k, ?_, ?_⟩
      · rw [bucketTurn]
        exact if_neg (mt (millis_le_iff _ _).mp hle)
      · have hall : k = (last + 1 - first).toNat := by omega
        rw [stepped, minutes, List.map_map, hall]
        rfl
  dsimp only at hbs
  subst hbs
  exact ⟨ts, hrun⟩

structure Extent (points : List LineChartData) (e l : LineChartData) : Prop where
  earliest : e ∈ points
  latest : l ∈ points
  bounds : ∀ p ∈ points, e.epochMillis ≤ p.epochMillis ∧ p.epochMillis ≤ l.epochMillis

theorem Extent.run {points : List LineChartData} {e l : LineChartData} (h : Extent points e l)
    (hexact : ∀ p ∈ points, IsExact p) (hroom : (minuteOf l + 1 - minuteOf e).toNat ≤ maxLength)
    {fuel : ℕ} (hfuel : (minuteOf l + 1 - minuteOf e).toNat < fuel) :
    ∃ ts, Loop.run (bucketTurn (slot l.epochMillis)) fuel (slot e.epochMillis, []) =
      .ok (ts, (minutes (minuteOf e) (minuteOf l)).map millis) := by
  have he := hexact e h.earliest
  have hl := hexact l h.latest
  rw [slot_eq he, slot_eq hl]
  exact run_bucketTurn (minuteOf_bounds he) (minuteOf_bounds hl) hroom hfuel

section Chart

variable {intl : GoString → Option (Number → GoString)} {lineChart : LineChart}
  {timezone : GoString}

end Chart

/-! ### One query -/

end TrinoGoway.Webapp
