import TrinoGoway.Go.Marshal
import Mathlib.Data.List.TakeWhile
import Mathlib.Data.Rat.Floor
import Mathlib.Tactic.NormNum

/-! Numbers and durations as text: `fmt` with the verbs `%d`, `%f` and `%.2f`, and
`time.ParseDuration`. Floating-point numbers are taken as the rational numbers they stand for. -/
namespace Go

open Json

/-! ### Printing -/

/-- The integer nearest to `x / y`, the even one at a midpoint. -/
def roundDiv (x y : ℤ) : ℤ :=
  if 2 * (x % y) < y then x / y
  else if y < 2 * (x % y) then x / y + 1
  else x / y + x / y % 2

def digit (n : ℕ) : UInt8 := .ofNat (48 + n % 10)

def formatHundredths (h : ℕ) : GoString :=
  formatNat (h / 100) ++ [Byte.period, digit (h / 10), digit h]

/-- `fmt.Sprintf("%.2f", x/y)` -/
def formatFixed (x y : ℤ) : GoString :=
  (if x < 0 then [45] else []) ++ formatHundredths (roundDiv (100 * x) y).natAbs

/-! ### Scanning -/

private def isBlank (c : UInt8) : Bool :=
  c == Byte.space || c == Byte.tab || c == Byte.carriageReturn || c == 11 || c == Byte.formFeed

def cutSign : GoString → Bool × GoString
  | 45 :: s => (true, s)
  | 43 :: s => (false, s)
  | s => (false, s)

def maxInt64 : ℕ := 2 ^ 63 - 1

/-- `fmt.Sscanf` with `%d`: what follows the number is ignored. -/
def sscanInt (s : GoString) : Option ℤ :=
  match cutSign (s.dropWhile isBlank) with
  | (neg, t) =>
    let ds := t.takeWhile Byte.isDigit
    if ds = [] then none
    else if neg then if parseDigits ds ≤ 2 ^ 63 then some (-parseDigits ds) else none
    else if parseDigits ds ≤ maxInt64 then some (parseDigits ds) else none

def scanExponent : GoString → Option ℤ
  | [] => some 0
  | c :: s =>
    if c = 101 ∨ c = 69 then
      match cutSign s with
      | (neg, t) =>
        let ds := t.takeWhile Byte.isDigit
        if ds = [] then none else some (if neg then -parseDigits ds else parseDigits ds)
    else some 0

/-- `fmt.Sscanf` with `%f`, for decimal numbers: hexadecimal ones, those with a binary exponent,
infinities and `NaN` are not read. -/
def sscanFloat (s : GoString) : Option ℚ :=
  match cutSign (s.dropWhile isBlank) with
  | (neg, t) =>
    let whole := t.takeWhile Byte.isDigit
    let (frac, rest) :=
      match t.dropWhile Byte.isDigit with
      | 46 :: r => (r.takeWhile Byte.isDigit, r.dropWhile Byte.isDigit)
      | r => ([], r)
    if whole = [] ∧ frac = [] then none
    else
      (scanExponent rest).map fun e =>
        (if neg then -1 else 1) * parseDigits (whole ++ frac) / 10 ^ frac.length * 10 ^ e

def truncate (q : ℚ) : ℤ := q.num.tdiv q.den

theorem truncate_intCast (i : ℤ) : truncate i = i := by
  simp [truncate]

/-! ### Durations -/

def leadingInt (s : GoString) : Option (ℕ × GoString) :=
  if parseDigits (s.takeWhile Byte.isDigit) ≤ 2 ^ 63 then
    some (parseDigits (s.takeWhile Byte.isDigit), s.dropWhile Byte.isDigit)
  else none

/-- One digit of `leadingFraction`; digits that would overflow are dropped, with all behind them. -/
def addFractionDigit (st : ℕ × ℕ × Bool) (c : UInt8) : ℕ × ℕ × Bool :=
  match st with
  | (x, scale, overflow) =>
    if overflow ∨ maxInt64 / 10 < x then (x, scale, true)
    else if 2 ^ 63 < x * 10 + (c.toNat - 48) then (x, scale, true)
    else (x * 10 + (c.toNat - 48), scale * 10, false)

/-- `leadingFraction`: the fraction is the first number over the second. -/
def leadingFraction (ds : GoString) : ℕ × ℕ :=
  match ds.foldl addFractionDigit (0, 1, false) with
  | (x, scale, _) => (x, scale)

/-- `unitMap`, in nanoseconds; the micro sign and the letter mu are both accepted. -/
def durationUnits : List (GoString × ℕ) :=
  [(str "ns", 1), (str "us", 1000), (str "µs", 1000), (str "μs", 1000), (str "ms", 1000000),
    (str "s", 1000000000), (str "m", 60000000000), (str "h", 3600000000000)]

/-- One number with its unit, in nanoseconds, and what follows it. -/
def parseComponent (s : GoString) : Option (ℕ × GoString) := do
  let (v, s₁) ← leadingInt s
  let (ds, s₂) :=
    match s₁ with
    | 46 :: r => (r.takeWhile Byte.isDigit, r.dropWhile Byte.isDigit)
    | r => ([], r)
  let name := s₂.takeWhile fun c => !(c == Byte.period || Byte.isDigit c)
  if s.takeWhile Byte.isDigit = [] ∧ ds = [] then none
  let (_, unit) ← durationUnits.find? (·.1 = name)
  let (f, scale) := leadingFraction ds
  if 2 ^ 63 / unit < v then none
  let total := v * unit + f * unit / scale
  if 2 ^ 63 < total then none
  return (total, s₂.drop name.length)

/-- The components of a duration; the length of the text is enough fuel. -/
def parseComponents : ℕ → ℕ → GoString → Option ℕ
  | 0, d, _ => some d
  | n + 1, d, s =>
    if s = [] then some d
    else do
      let (v, rest) ← parseComponent s
      if 2 ^ 63 < d + v then none
      parseComponents n (d + v) rest

/-- `time.ParseDuration`, without the texts of its errors. -/
def parseDuration (s : GoString) : Option Duration :=
  match cutSign s with
  | (neg, t) =>
    if t = str "0" then some 0
    else if t = [] then none
    else
      match parseComponents t.length 0 t with
      | none => none
      | some d =>
        if neg then some (-d) else if d ≤ maxInt64 then some d else none

/-! ### What is printed is read -/

theorem roundDiv_error {x y : ℤ} (hy : 0 < y) :
    -y ≤ 2 * (roundDiv x y * y - x) ∧ 2 * (roundDiv x y * y - x) ≤ y := by
  have hx : x / y * y + x % y = x := Int.ediv_mul_add_emod x y
  have hlo := Int.emod_nonneg x hy.ne'
  have hhi := Int.emod_lt_of_pos x hy
  unfold roundDiv
  split
  · constructor <;> omega
  · split
    · rw [add_mul, one_mul]
      constructor <;> omega
    · rcases Int.emod_two_eq_zero_or_one (x / y) with h | h
      · rw [h, add_zero]
        constructor <;> omega
      · rw [h, add_mul, one_mul]
        constructor <;> omega

theorem digit_spec (n : ℕ) : (digit n).toNat - 48 = n % 10 ∧ Byte.isDigit (digit n) = true := by
  have hall : ∀ m < 10, (UInt8.ofNat (48 + m)).toNat - 48 = m ∧
      Byte.isDigit (.ofNat (48 + m)) = true := by decide
  exact hall (n % 10) (Nat.mod_lt n (by decide))

theorem ascii_formatFixed (x y : ℤ) : ∀ c ∈ formatFixed x y, c < 0x80 := by
  have hdigit : ∀ c : UInt8, Byte.isDigit c = true → c < 0x80 :=
    Byte.forall_of_ofNat (by decide +kernel)
  intro c hc
  unfold formatFixed formatHundredths at hc
  rcases List.mem_append.mp hc with hc | hc
  · split at hc
    · obtain rfl := List.mem_singleton.mp hc
      decide
    · cases hc
  · rcases List.mem_append.mp hc with hc | hc
    · exact hdigit c (isDigit_of_mem_formatNat hc)
    · simp only [List.mem_cons, List.not_mem_nil, or_false] at hc
      rcases hc with rfl | rfl | rfl
      · decide
      · exact hdigit _ (digit_spec _).2
      · exact hdigit _ (digit_spec _).2

theorem leadingFraction_digits (h : ℕ) :
    leadingFraction [digit (h / 10), digit h] = (h % 100, 100) := by
  have hall : ∀ a < 10, ∀ b < 10, leadingFraction [.ofNat (48 + a), .ofNat (48 + b)] =
      (10 * a + b, 100) := by decide +kernel
  have hmod : 10 * (h / 10 % 10) + h % 10 = h % 100 := by omega
  rw [← hmod]
  exact hall (h / 10 % 10) (Nat.mod_lt _ (by decide)) (h % 10) (Nat.mod_lt _ (by decide))

theorem noDigit_period (t : GoString) : NoDigit (Byte.period :: t) := by
  intro c hc
  obtain rfl := Option.some.inj hc
  rfl

theorem span_twoDigits (h : ℕ) {t : GoString} (ht : NoDigit t) :
    (digit (h / 10) :: digit h :: t).takeWhile Byte.isDigit = [digit (h / 10), digit h] ∧
      (digit (h / 10) :: digit h :: t).dropWhile Byte.isDigit = t := by
  have hten := (digit_spec (h / 10)).2
  have hone := (digit_spec h).2
  cases t with
  | nil => simp [hten, hone]
  | cons c t =>
    have hc : Byte.isDigit c = false := ht c rfl
    simp [hten, hone, hc]

structure IsUnitName (name : GoString) : Prop where
  ne_nil : name ≠ []
  letters : ∀ c ∈ name, (c == Byte.period || Byte.isDigit c) = false

theorem IsUnitName.of_all {name : GoString} (hne : name ≠ [])
    (h : name.all (fun c => !(c == Byte.period || Byte.isDigit c)) = true) : IsUnitName name := by
  refine ⟨hne, ?_⟩
  intro c hc
  exact (Bool.not_eq_true' _).mp (List.all_eq_true.mp h c hc)

theorem IsUnitName.noDigit {name : GoString} (h : IsUnitName name) : NoDigit name := by
  intro c hc
  have hmem : c ∈ name := List.mem_of_mem_head? hc
  have hletter := h.letters c hmem
  simp only [Bool.or_eq_false_iff] at hletter
  exact hletter.2

theorem formatHundredths_append (h : ℕ) (t : GoString) :
    formatHundredths h ++ t =
      formatNat (h / 100) ++ (Byte.period :: digit (h / 10) :: digit h :: t) := by
  simp [formatHundredths]

/-- The parts that `parseComponent` reads of a number of hundredths. -/
theorem parseComponent_hundredths (h : ℕ) {name : GoString} (hname : IsUnitName name)
    (hle : h / 100 ≤ 2 ^ 63) :
    parseComponent (formatHundredths h ++ name) = (do
      let (_, unit) ← durationUnits.find? (·.1 = name)
      if 2 ^ 63 / unit < h / 100 then none
      if 2 ^ 63 < h / 100 * unit + h % 100 * unit / 100 then none
      return (h / 100 * unit + h % 100 * unit / 100, [])) := by
  have hspan := span_formatNat (h / 100) (noDigit_period (digit (h / 10) :: digit h :: name))
  have hspan' := span_twoDigits h hname.noDigit
  have hall : ∀ c ∈ name, (!(c == Byte.period || Byte.isDigit c)) = true := by
    intro c hc
    rw [hname.letters c hc]
    rfl
  have htake : name.takeWhile (fun c => !(c == Byte.period || Byte.isDigit c)) = name := by
    exact List.takeWhile_eq_self_iff.mpr hall
  obtain ⟨c, t, hcons, -⟩ := formatNat_cons (h / 100)
  have hne : formatNat (h / 100) ≠ [] := by simp [hcons]
  unfold parseComponent leadingInt
  rw [formatHundredths_append, hspan.1, hspan.2, parseDigits_formatNat, if_pos hle]
  simp only [Option.bind_eq_bind, Option.bind_some, hspan'.1, hspan'.2, htake,
    leadingFraction_digits, hne, false_and, if_false, List.drop_length]

theorem cutSign_digits (n : ℕ) (t : GoString) :
    cutSign (formatNat n ++ t) = (false, formatNat n ++ t) := by
  obtain ⟨c, s, hn, hdigit⟩ := formatNat_cons n
  have hminus : c ≠ 45 := by
    rintro rfl
    cases hdigit
  have hplus : c ≠ 43 := by
    rintro rfl
    cases hdigit
  rw [hn, List.cons_append]
  unfold cutSign
  split
  · rename_i heq
    exact absurd (List.cons.inj heq).1 hminus
  · rename_i heq
    exact absurd (List.cons.inj heq).1 hplus
  · rfl

theorem parseDuration_digits (n : ℕ) {u : GoString} {c : UInt8} (hc : c ∈ formatNat n ++ u)
    (hne : c ≠ 48) :
    parseDuration (formatNat n ++ u) =
      match parseComponents (formatNat n ++ u).length 0 (formatNat n ++ u) with
      | none => none
      | some d => if d ≤ maxInt64 then some (d : ℤ) else none := by
  have hzero : formatNat n ++ u ≠ str "0" := by
    intro heq
    rw [heq] at hc
    exact hne (List.mem_singleton.mp hc)
  unfold parseDuration
  rw [cutSign_digits]
  simp only [hzero, List.ne_nil_of_mem hc, if_false]
  rfl

theorem parseDuration_hundredths_eq (h : ℕ) (name : GoString) :
    parseDuration (formatHundredths h ++ name) =
      match (do
        let (v, rest) ← parseComponent (formatHundredths h ++ name)
        if 2 ^ 63 < v then none
        parseComponents ((formatHundredths h ++ name).length - 1) v rest) with
      | none => none
      | some d => if d ≤ maxInt64 then some (d : ℤ) else none := by
  obtain ⟨c, t, hn, -⟩ := formatNat_cons (h / 100)
  rw [formatHundredths_append, parseDuration_digits _ (c := Byte.period) (by simp) (by decide), hn]
  simp [parseComponents]

theorem parseComponents_nil (n d : ℕ) : parseComponents n d [] = some d := by
  cases n with
  | zero => rfl
  | succ n => simp [parseComponents]

theorem parseDuration_hundredths {h unit : ℕ} {name : GoString} (hname : IsUnitName name)
    (hfind : durationUnits.find? (·.1 = name) = some (name, unit)) (hpos : 0 < unit)
    (hunit : 100 ∣ unit) (hle : h * (unit / 100) ≤ maxInt64) :
    parseDuration (formatHundredths h ++ name) = some ((h * (unit / 100) : ℕ) : ℤ) := by
  obtain ⟨k, rfl⟩ := hunit
  have hk : 100 * k / 100 = k := by omega
  rw [hk] at hle ⊢
  have hmax : maxInt64 = 2 ^ 63 - 1 := rfl
  have htotal : h / 100 * (100 * k) + h % 100 * (100 * k) / 100 = h * k := by
    have hfrac : h % 100 * (100 * k) / 100 = h % 100 * k := by
      rw [show h % 100 * (100 * k) = h % 100 * k * 100 by ring]
      exact Nat.mul_div_cancel _ (by decide)
    rw [hfrac]
    calc h / 100 * (100 * k) + h % 100 * k = (100 * (h / 100) + h % 100) * k := by ring
      _ = h * k := by rw [Nat.div_add_mod]
  have hwhole : h / 100 * (100 * k) ≤ h * k := by
    rw [← htotal]
    exact Nat.le_add_right _ _
  have hquot : h / 100 ≤ 2 ^ 63 / (100 * k) :=
    (Nat.le_div_iff_mul_le hpos).mpr (by omega)
  have hle' : h / 100 ≤ 2 ^ 63 := hquot.trans (Nat.div_le_self _ _)
  have hcomponent : parseComponent (formatHundredths h ++ name) = some (h * k, []) := by
    rw [parseComponent_hundredths h hname hle', hfind]
    simp only [Option.bind_eq_bind, Option.bind_some, htotal]
    rw [if_neg (by omega), if_neg (by omega)]
    rfl
  rw [parseDuration_hundredths_eq, hcomponent]
  simp only [Option.bind_eq_bind, Option.bind_some, parseComponents_nil]
  rw [if_neg (by omega)]
  simp only [if_pos hle]

example : parseDuration (str "1.50h") = some 5400000000000 := by decide +kernel

theorem parseDuration_unknown_unit {h : ℕ} {name : GoString} (hname : IsUnitName name)
    (hfind : durationUnits.find? (·.1 = name) = none) (hle : h / 100 ≤ 2 ^ 63) :
    parseDuration (formatHundredths h ++ name) = none := by
  rw [parseDuration_hundredths_eq, parseComponent_hundredths h hname hle, hfind]
  rfl

theorem parseDigits_concat (s : GoString) (c : UInt8) :
    parseDigits (s ++ [c]) = parseDigits s * 10 + (c.toNat - 48) := by
  unfold parseDigits
  rw [List.reverse_append, List.reverse_singleton, List.singleton_append, List.map_cons,
    Nat.ofDigits_cons]
  ring

theorem dropWhile_isBlank_cons {c : UInt8} (hc : c = 45 ∨ Byte.isDigit c = true) (s : GoString) :
    (c :: s).dropWhile isBlank = c :: s := by
  have hall : ∀ c : UInt8, c = 45 ∨ Byte.isDigit c = true → ¬isBlank c = true :=
    Byte.forall_of_ofNat (by decide +kernel)
  exact List.dropWhile_cons_of_neg (hall c hc)

theorem dropWhile_isBlank_digits (n : ℕ) (t : GoString) :
    (formatNat n ++ t).dropWhile isBlank = formatNat n ++ t := by
  obtain ⟨c, s, hn, hdigit⟩ := formatNat_cons n
  rw [hn, List.cons_append, dropWhile_isBlank_cons (Or.inr hdigit)]

theorem sscanInt_formatNat {n : ℕ} (hn : n ≤ maxInt64) : sscanInt (formatNat n) = some (n : ℤ) := by
  obtain ⟨c, t, hcons, -⟩ := formatNat_cons n
  have hne : formatNat n ≠ [] := by simp [hcons]
  have hspan := (span_formatNat n (t := []) (by simp [NoDigit])).1
  have hblank := dropWhile_isBlank_digits n []
  have hsign := cutSign_digits n []
  rw [List.append_nil] at hspan hblank hsign
  unfold sscanInt
  rw [hblank, hsign]
  simp only [hspan, hne, if_false, parseDigits_formatNat, if_pos hn, Bool.false_eq_true]

theorem sscanFloat_hundredths (h : ℕ) : sscanFloat (formatHundredths h) = some ((h : ℚ) / 100) := by
  have hspan := span_formatNat (h / 100) (noDigit_period [digit (h / 10), digit h])
  have hspan' := span_twoDigits h (t := []) (by simp [NoDigit])
  obtain ⟨c, t, hcons, -⟩ := formatNat_cons (h / 100)
  have hne : formatNat (h / 100) ≠ [] := by simp [hcons]
  have hvalue : parseDigits (formatNat (h / 100) ++ [digit (h / 10), digit h]) = h := by
    rw [show [digit (h / 10), digit h] = [digit (h / 10)] ++ [digit h] from rfl,
      ← List.append_assoc, parseDigits_concat, parseDigits_concat, parseDigits_formatNat,
      (digit_spec _).1, (digit_spec _).1]
    omega
  unfold sscanFloat formatHundredths
  rw [dropWhile_isBlank_digits, cutSign_digits]
  simp only [hspan.1, hspan.2, hspan'.1, hspan'.2, hne, false_and, if_false, hvalue, scanExponent]
  norm_num

/-! ### Durations -/

theorem formatNat_of_ten_le {n : ℕ} (h : 10 ≤ n) :
    formatNat n = formatNat (n / 10) ++ [.ofNat (48 + n % 10)] := by
  have hpos : ¬n / 10 = 0 := by omega
  rw [formatNat, if_neg (by omega), formatNat, if_neg hpos, Nat.digits_def' (by decide) (by omega),
    List.reverse_cons, List.map_append]
  rfl

theorem str_toString (n : ℕ) : str (toString n) = formatNat n := by
  have hbytes (n : ℕ) : str (toString n) = (Nat.toDigits 10 n).flatMap String.utf8EncodeChar := by
    change (String.ofList (Nat.toDigits 10 n)).toByteArray.data.toList = _
    rw [String.toByteArray_ofList]
    simp [List.utf8Encode]
  have hdigit : ∀ d < 10, String.utf8EncodeChar d.digitChar = [.ofNat (48 + d)] := by decide
  induction n using Nat.strong_induction_on with
  | _ n ih =>
    by_cases h : n < 10
    · have hall : ∀ n < 10, str (toString n) = formatNat n := by decide
      exact hall n h
    · have hten : 10 ≤ n := Nat.le_of_not_lt h
      rw [hbytes, Nat.toDigits_of_base_le (by decide) hten, List.flatMap_append, ← hbytes,
        ih _ (by omega), formatNat_of_ten_le hten, List.flatMap_singleton,
        hdigit _ (Nat.mod_lt n (by decide))]

/-- The digits of `n` after a decimal point, where `unit` is one and has `places` zeros; without
trailing zeros, and without the point if nothing is left. -/
private def fraction (n unit places : ℕ) : GoString :=
  let digits := str (toString (n % unit))
  let padded := List.replicate (places - digits.length) 48 ++ digits
  match (padded.reverse.dropWhile (· = 48)).reverse with
  | [] => []
  | ds => str "." ++ ds

def nanosecondsString (u : ℕ) : GoString :=
  if u = 0 then str "0s"
  else if u < 1000 then str (toString u) ++ str "ns"
  else if u < 1000000 then str (toString (u / 1000)) ++ fraction u 1000 3 ++ str "µs"
  else if u < 1000000000 then str (toString (u / 1000000)) ++ fraction u 1000000 6 ++ str "ms"
  else
    let secs := u / 1000000000
    let mins := secs / 60
    let hours := mins / 60
    (if hours = 0 then [] else str (toString hours) ++ str "h") ++
      (if mins = 0 then [] else str (toString (mins % 60)) ++ str "m") ++
      str (toString (secs % 60)) ++ fraction u 1000000000 9 ++ str "s"

def durationString (d : Duration) : GoString :=
  (if d < 0 then [45] else []) ++ nanosecondsString d.natAbs

theorem durationString_seconds {secs : ℕ} (hpos : 0 < secs) :
    durationString ((secs * 1000000000 : ℕ) : ℤ) =
      (if secs / 60 / 60 = 0 then [] else str (toString (secs / 60 / 60)) ++ str "h") ++
        ((if secs / 60 = 0 then [] else str (toString (secs / 60 % 60)) ++ str "m") ++
          (str (toString (secs % 60)) ++ str "s")) := by
  have hfraction : fraction (secs * 1000000000) 1000000000 9 = [] := by
    rw [fraction, Nat.mul_mod_left]
    decide
  have hsecs : secs * 1000000000 / 1000000000 = secs := Nat.mul_div_cancel secs (by decide)
  have hsign : ¬((secs * 1000000000 : ℕ) : ℤ) < 0 := by omega
  unfold durationString nanosecondsString
  rw [if_neg hsign, Int.natAbs_natCast]
  dsimp only
  rw [if_neg (by omega), if_neg (by omega), if_neg (by omega), if_neg (by omega), hfraction, hsecs]
  simp only [List.append_assoc, List.nil_append]

example : durationString 5400000000000 = str "1h30m0s" := by decide

theorem not_mem_toString (n : ℕ) : Byte.newline ∉ str (toString n) := by
  rw [str_toString]
  exact fun h => absurd (isDigit_of_mem_formatNat h) (by decide)

private theorem not_mem_fraction (n unit places : ℕ) :
    Byte.newline ∉ fraction n unit places := by
  have hpadded : Byte.newline ∉ List.replicate (places - (str (toString (n % unit))).length) 48 ++
      str (toString (n % unit)) := by
    intro h
    rcases List.mem_append.mp h with h | h
    · exact absurd (List.eq_of_mem_replicate h) (by decide)
    · exact not_mem_toString _ h
  unfold fraction
  dsimp only
  split
  · simp
  · rename_i hds
    intro h
    rcases List.mem_append.mp h with h | h
    · exact absurd h (by decide)
    · have hmem := (List.dropWhile_sublist _).subset (List.mem_reverse.mp h)
      exact hpadded (List.mem_reverse.mp hmem)

private theorem not_mem_nanosecondsString (u : ℕ) : Byte.newline ∉ nanosecondsString u := by
  have hns : Byte.newline ∉ str "ns" := by decide
  have hus : Byte.newline ∉ str "µs" := by decide
  have hms : Byte.newline ∉ str "ms" := by decide
  have hs : Byte.newline ∉ str "s" := by decide
  have hm : Byte.newline ∉ str "m" := by decide
  have hh : Byte.newline ∉ str "h" := by decide
  unfold nanosecondsString
  dsimp only
  split
  · decide
  · split
    · simp only [List.mem_append, not_mem_toString, hns, or_self, not_false_eq_true]
    · split
      · simp only [List.mem_append, not_mem_toString, not_mem_fraction, hus, or_self,
          not_false_eq_true]
      · split
        · simp only [List.mem_append, not_mem_toString, not_mem_fraction, hms, or_self,
            not_false_eq_true]
        · split <;> split <;>
            simp only [List.mem_append, List.not_mem_nil, not_mem_toString, not_mem_fraction, hs,
              hm, hh, or_self, not_false_eq_true]

theorem not_mem_durationString (d : Duration) : Byte.newline ∉ durationString d := by
  unfold durationString
  split <;> simp [not_mem_nanosecondsString, Byte.newline]

def AtNumber (rest : GoString) : Prop := ∀ c ∈ rest.head?, Byte.isDigit c = true

theorem parseComponent_whole {n unit : ℕ} {name rest : GoString} (hname : IsUnitName name)
    (hfind : durationUnits.find? (·.1 = name) = some (name, unit)) (hunit : 0 < unit)
    (hle : n * unit ≤ 2 ^ 63) (hrest : AtNumber rest) :
    parseComponent (formatNat n ++ (name ++ rest)) = some (n * unit, rest) := by
  obtain ⟨c, t, rfl⟩ := List.exists_cons_of_ne_nil hname.ne_nil
  have hletter := hname.letters c List.mem_cons_self
  rw [Bool.or_eq_false_iff] at hletter
  have hdigit : NoDigit ((c :: t) ++ rest) := by
    rintro c ⟨⟩
    exact hletter.2
  have hpoint : c ≠ 46 := by
    rintro rfl
    exact absurd hletter.1 (by decide)
  have hspan := span_formatNat n hdigit
  obtain ⟨d, u, hcons, -⟩ := formatNat_cons n
  have hne : formatNat n ≠ [] := by simp [hcons]
  have hquot : n ≤ 2 ^ 63 / unit := (Nat.le_div_iff_mul_le hunit).mpr hle
  have htake : ((c :: t) ++ rest).takeWhile (fun c => !(c == Byte.period || Byte.isDigit c)) =
      c :: t := by
    rw [List.takeWhile_append_of_pos fun b hb => by rw [hname.letters b hb]; rfl]
    cases rest with
    | nil => simp
    | cons b rest => simp [hrest b rfl]
  unfold parseComponent leadingInt
  rw [hspan.1, hspan.2, parseDigits_formatNat,
    if_pos (hquot.trans (Nat.div_le_self _ _))]
  have hnot : ∀ r, c :: (t ++ rest) = 46 :: r → False := fun r heq => hpoint (List.cons.inj heq).1
  have hfraction : leadingFraction [] = (0, 1) := rfl
  have hdrop : (c :: (t ++ rest)).drop (c :: t).length = rest := by simp
  rw [List.cons_append] at htake ⊢
  simp only [Option.bind_eq_bind, Option.bind_some, htake, hfind, hne, hfraction, hdrop, false_and,
    if_false, Nat.zero_mul, Nat.zero_div, Nat.add_zero, Nat.not_lt.mpr hquot, Nat.not_lt.mpr hle]
  rfl

section Seconds

variable {secs : ℕ}

theorem atNumber_formatNat (n : ℕ) (t : GoString) : AtNumber (formatNat n ++ t) := by
  obtain ⟨c, s, hn, hdigit⟩ := formatNat_cons n
  rw [hn]
  rintro b ⟨⟩
  exact hdigit

theorem parseComponents_part {n unit d r : ℕ} {name rest : GoString} (hname : IsUnitName name)
    (hfind : durationUnits.find? (·.1 = name) = some (name, unit)) (hunit : 0 < unit)
    (hle : d + n * unit ≤ 2 ^ 63) (hrest : AtNumber rest)
    (hmore : ∀ k, rest.length ≤ k → parseComponents k (d + n * unit) rest = some r) {p : Prop}
    [Decidable p] (hp : p → n = 0) (k : ℕ)
    (hk : ((if p then [] else formatNat n ++ name) ++ rest).length ≤ k) :
    parseComponents k d ((if p then [] else formatNat n ++ name) ++ rest) = some r := by
  by_cases h : p
  · rw [if_pos h] at hk ⊢
    have hmore' := hmore k hk
    rwa [hp h, Nat.zero_mul, Nat.add_zero] at hmore'
  · rw [if_neg h] at hk ⊢
    obtain ⟨c, s, hn, -⟩ := formatNat_cons n
    have hne : formatNat n ++ (name ++ rest) ≠ [] := by simp [hn]
    have hcomponent : parseComponent (formatNat n ++ (name ++ rest)) = some (n * unit, rest) :=
      parseComponent_whole hname hfind hunit (by omega) hrest
    simp only [List.append_assoc, List.length_append, hn, List.length_cons] at hk
    obtain ⟨j, rfl⟩ : ∃ j, k = j + 1 := ⟨k - 1, by omega⟩
    rw [List.append_assoc, parseComponents, if_neg hne, hcomponent]
    simp only [Option.bind_eq_bind, Option.bind_some, Nat.not_lt.mpr hle, if_false]
    exact hmore j (by omega)

theorem parseDuration_seconds (hpos : 0 < secs) (hlt : secs * 1000000000 < 2 ^ 63) :
    parseDuration (durationString ((secs * 1000000000 : ℕ) : ℤ)) =
      some ((secs * 1000000000 : ℕ) : ℤ) := by
  have hunit (c : UInt8) (h : (c == Byte.period || Byte.isDigit c) = false) : IsUnitName [c] :=
    ⟨List.cons_ne_nil c [], fun b hb => by rw [List.mem_singleton.mp hb, h]⟩
  rw [durationString_seconds hpos]
  simp only [str_toString]
  have hseconds : AtNumber (formatNat (secs % 60) ++ str "s") := atNumber_formatNat _ _
  have hminutes : AtNumber ((if secs / 60 = 0 then [] else formatNat (secs / 60 % 60) ++ str "m") ++
      (formatNat (secs % 60) ++ str "s")) := by
    split
    · exact hseconds
    · rw [List.append_assoc]
      exact atNumber_formatNat _ _
  generalize ht : (if secs / 60 / 60 = 0 then [] else formatNat (secs / 60 / 60) ++ str "h") ++
    ((if secs / 60 = 0 then [] else formatNat (secs / 60 % 60) ++ str "m") ++
      (formatNat (secs % 60) ++ str "s")) = t
  have hread : parseComponents t.length 0 t = some (secs * 1000000000) := by
    rw [← ht]
    refine parseComponents_part (hunit 104 rfl) rfl (by decide) (by omega) hminutes ?_ id _ le_rfl
    refine parseComponents_part (hunit 109 rfl) rfl (by decide) (by omega) hseconds ?_ (by omega)
    intro k hk
    generalize hd : 0 + secs / 60 / 60 * 3600000000000 + secs / 60 % 60 * 60000000000 = d
    have htotal : d + secs % 60 * 1000000000 = secs * 1000000000 := by omega
    have hlast := parseComponents_part (p := False) (n := secs % 60) (d := d) (hunit 115 rfl) rfl
      (by decide) (by omega) (fun c hc => by cases hc) (fun k _ => parseComponents_nil k _)
      False.elim k (by rwa [if_neg not_false, List.append_nil])
    rwa [if_neg not_false, List.append_nil, htotal] at hlast
  have hdigits : ∃ n u, t = formatNat n ++ u := by
    rw [← ht]
    split
    · split
      · exact ⟨_, _, rfl⟩
      · exact ⟨_, _, List.append_assoc _ _ _⟩
    · exact ⟨_, _, List.append_assoc _ _ _⟩
  have hmem : 115 ∈ t := by
    rw [← ht]
    exact List.mem_append_right _ (List.mem_append_right _ (List.mem_append_right _ (by decide)))
  have hmax : secs * 1000000000 ≤ maxInt64 := Nat.le_pred_of_lt hlt
  obtain ⟨n, u, rfl⟩ := hdigits
  rw [parseDuration_digits n hmem (by decide), hread]
  simp only [if_pos hmax]

end Seconds

end Go
