import TrinoGoway.Go.Duration
import TrinoGoway.Proxy.Authenticity

/-! How long a cookie lives: the TTL is printed into the cookie and read from it again. -/
namespace TrinoGoway.Proxy

open Go Go.Json

def ttlSuffixes : List (GoString × ℤ) :=
  [(str "d", 86400000000000), (str "h", 3600000000000), (str "ms", 1000000), (str "us", 1000),
    (str "ns", 1), (str "m", 60000000000), (str "s", 1000000000)]

/-- The last attempt of `parseTTL`: a number in front of the suffix of a unit. -/
def parseSuffixed (s : GoString) : Option Duration :=
  ttlSuffixes.findSome? fun u =>
    if u.1.isSuffixOf s then
      (sscanFloat (s.take (s.length - u.1.length))).map fun f => truncate (f * u.2)
    else none

def parseWithUnit (s : GoString) : Duration :=
  match parseDuration s with
  | some d => d
  | none => (parseSuffixed s).getD 0

def parseTTL (s : GoString) : Duration :=
  match sscanInt s with
  | some ns => if s.any (str "dhms").contains then parseWithUnit s else ns
  | none => parseWithUnit s

theorem parseTTL_formatInt {d : Duration} (hpos : 0 ≤ d) (hle : d ≤ maxInt64) :
    parseTTL (formatInt d) = d := by
  obtain ⟨n, rfl⟩ := Int.eq_ofNat_of_zero_le hpos
  have hn : n ≤ maxInt64 := by exact_mod_cast hle
  have hformat : formatInt (n : ℤ) = formatNat n := by simp [formatInt]
  have hdigits : (formatNat n).any (str "dhms").contains = false := by
    rw [List.any_eq_false]
    intro c hc
    have hall : ∀ c : UInt8, Byte.isDigit c = true → ¬(str "dhms").contains c = true :=
      Byte.forall_of_ofNat (by decide +kernel)
    exact hall c (isDigit_of_mem_formatNat hc)
  unfold parseTTL
  rw [hformat, sscanInt_formatNat hn]
  simp only [hdigits, Bool.false_eq_true, if_false]

theorem parseTTL_of_unit {s : GoString} (h : s.any (str "dhms").contains = true) :
    parseTTL s = parseWithUnit s := by
  unfold parseTTL
  split
  · rw [if_pos h]
  · rfl

section Units

def airliftUnit (d : ℤ) : ℤ := ((airliftUnits.find? fun u => u.1 ≤ d).map Prod.fst).getD 1

/-- The lifetime that a cookie of TTL `d` is read with, in the wire-compatible format. -/
def wireTTL (d : ℤ) : ℤ := roundDiv (100 * d) (airliftUnit d) * (airliftUnit d / 100)

variable {h : ℕ}

theorem parseTTL_duration {unit : ℕ} {name : GoString} (hname : IsUnitName name)
    (hletter : name.any (str "dhms").contains = true)
    (hfind : durationUnits.find? (·.1 = name) = some (name, unit)) (hpos : 0 < unit)
    (hunit : 100 ∣ unit) (hle : h * (unit / 100) ≤ maxInt64) :
    parseTTL (formatHundredths h ++ name) = ((h * (unit / 100) : ℕ) : ℤ) := by
  have hany : (formatHundredths h ++ name).any (str "dhms").contains = true := by
    rw [List.any_append, hletter, Bool.or_true]
  rw [parseTTL_of_unit hany]
  unfold parseWithUnit
  rw [parseDuration_hundredths hname hfind hpos hunit hle]

theorem parseTTL_days (hle : h / 100 ≤ 2 ^ 63) :
    parseTTL (formatHundredths h ++ str "d") = h * 864000000000 := by
  have hany : (formatHundredths h ++ str "d").any (str "dhms").contains = true := by
    rw [List.any_append]
    simp only [Bool.or_eq_true]
    right
    decide
  have hname : IsUnitName (str "d") := .of_all (by decide) (by decide)
  have htake : (formatHundredths h ++ str "d").take
      ((formatHundredths h ++ str "d").length - (str "d").length) = formatHundredths h := by
    simp
  have hvalue : truncate ((h : ℚ) / 100 * (86400000000000 : ℤ)) = h * 864000000000 := by
    have hint : (h : ℚ) / 100 * (86400000000000 : ℤ) = ((h * 864000000000 : ℤ) : ℚ) := by
      push_cast
      ring
    rw [hint, truncate_intCast]
  rw [parseTTL_of_unit hany]
  unfold parseWithUnit
  rw [parseDuration_unknown_unit hname (by decide) hle]
  unfold parseSuffixed ttlSuffixes
  rw [List.findSome?_cons, if_pos (by simp [List.isSuffixOf_iff_suffix]), htake,
    sscanFloat_hundredths]
  simp only [Option.map_some, hvalue, Option.getD_some]

def longUnits : List (ℤ × GoString) := airliftUnits.take 5

theorem find?_airliftUnits {d : ℤ} (hd : 1000000 ≤ d) :
    ∃ u ∈ longUnits, airliftUnits.find? (fun u => u.1 ≤ d) = some u ∧ u.1 ≤ d := by
  obtain ⟨u, hu⟩ : ∃ u, longUnits.find? (fun u => u.1 ≤ d) = some u := by
    rw [← Option.isSome_iff_exists, List.find?_isSome]
    exact ⟨(1000000, str "ms"), by decide, by simpa using hd⟩
  refine ⟨u, List.mem_of_find?_eq_some hu, ?_, by simpa using List.find?_some hu⟩
  have hsplit : airliftUnits = longUnits ++ airliftUnits.drop 5 :=
    (List.take_append_drop 5 airliftUnits).symm
  rw [hsplit, List.find?_append, hu]
  rfl

theorem airliftUnit_eq {d : ℤ} {u : ℤ × GoString}
    (h : airliftUnits.find? (fun u => u.1 ≤ d) = some u) : airliftUnit d = u.1 := by
  unfold airliftUnit
  rw [h]
  rfl

theorem airliftUnit_spec {d : ℤ} (hd : 1000000 ≤ d) :
    100 ∣ airliftUnit d ∧ 0 < airliftUnit d ∧ airliftUnit d ≤ d := by
  obtain ⟨u, hmem, hfind, hle⟩ := find?_airliftUnits hd
  have hall : ∀ u ∈ longUnits, 100 ∣ u.1 ∧ 0 < u.1 := by decide
  rw [airliftUnit_eq hfind]
  exact ⟨(hall u hmem).1, (hall u hmem).2, hle⟩

/-- The lifetime read back is off by at most half a hundredth of the unit. -/
theorem wireTTL_error {d : ℤ} (hd : 1000000 ≤ d) :
    -airliftUnit d ≤ 200 * (wireTTL d - d) ∧ 200 * (wireTTL d - d) ≤ airliftUnit d := by
  obtain ⟨hdvd, hpos, -⟩ := airliftUnit_spec hd
  obtain ⟨k, hk⟩ := hdvd
  have herror := roundDiv_error (x := 100 * d) hpos
  have hquot : airliftUnit d / 100 = k := by omega
  have hscale : 200 * (wireTTL d - d) =
      2 * (roundDiv (100 * d) (airliftUnit d) * airliftUnit d - 100 * d) := by
    unfold wireTTL
    rw [hquot]
    nth_rewrite 3 [hk]
    ring
  rw [hscale]
  exact herror

theorem wireTTL_pos {d : ℤ} (hd : 1000000 ≤ d) : 0 < wireTTL d := by
  have herror := wireTTL_error hd
  have hunit := airliftUnit_spec hd
  omega

theorem formatFixed_eq {d : ℤ} (hd : 1000000 ≤ d) :
    ∃ h : ℕ, formatFixed d (airliftUnit d) = formatHundredths h ∧
      wireTTL d = h * (airliftUnit d / 100) := by
  obtain ⟨hdvd, hpos, hle⟩ := airliftUnit_spec hd
  have hround : 0 ≤ roundDiv (100 * d) (airliftUnit d) := by
    by_contra hneg
    have hmul : roundDiv (100 * d) (airliftUnit d) * (airliftUnit d / 100) ≤ 0 :=
      mul_nonpos_of_nonpos_of_nonneg (by omega) (by omega)
    have hwire : 0 < roundDiv (100 * d) (airliftUnit d) * (airliftUnit d / 100) := wireTTL_pos hd
    omega
  refine ⟨(roundDiv (100 * d) (airliftUnit d)).natAbs, ?_, ?_⟩
  · unfold formatFixed
    rw [if_neg (by omega), List.nil_append]
  · unfold wireTTL
    rw [Int.natAbs_of_nonneg hround]

theorem parseTTL_airliftDurationString {d : ℤ} (hd : 1000000 ≤ d) (hlt : d < 2 ^ 53) :
    parseTTL (airliftDurationString formatFixed d) = wireTTL d := by
  obtain ⟨u, hmem, hfind, hle⟩ := find?_airliftUnits hd
  obtain ⟨h, hformat, hwire⟩ := formatFixed_eq hd
  have herror := wireTTL_error hd
  have hunit := airliftUnit_eq hfind
  have hspec := airliftUnit_spec hd
  have htext : airliftDurationString formatFixed d = formatHundredths h ++ u.2 := by
    unfold airliftDurationString
    rw [hfind]
    simp only
    rw [← hunit, hformat]
  have hmax : (h * (airliftUnit d / 100) : ℤ) ≤ maxInt64 := by
    rw [← hwire]
    have hmaxInt : ((maxInt64 : ℕ) : ℤ) = 2 ^ 63 - 1 := rfl
    omega
  rw [htext, hwire, hunit]
  rw [hunit] at hmax
  simp only [longUnits, airliftUnits, List.take_succ_cons, List.take_zero, List.mem_cons,
    List.not_mem_nil, or_false] at hmem
  have hread : ∀ {name : GoString} {unit : ℕ}, IsUnitName name →
      name.any (str "dhms").contains = true →
      durationUnits.find? (·.1 = name) = some (name, unit) → 0 < unit → 100 ∣ unit →
      (h * ((unit : ℤ) / 100) : ℤ) ≤ maxInt64 →
      parseTTL (formatHundredths h ++ name) = h * ((unit : ℤ) / 100) := by
    intro name unit hname hletter hfind hpos hdvd hle
    rw [parseTTL_duration hname hletter hfind hpos hdvd (by exact_mod_cast hle)]
    push_cast
    rfl
  rcases hmem with rfl | rfl | rfl | rfl | rfl
  · have hle : h / 100 ≤ 2 ^ 63 := by
      have hmaxInt : ((maxInt64 : ℕ) : ℤ) = 2 ^ 63 - 1 := rfl
      have hday : (h * 864000000000 : ℤ) ≤ maxInt64 := hmax
      omega
    rw [parseTTL_days hle]
    rfl
  all_goals
    exact hread (.of_all (by decide) (by decide)) (by decide) (by decide) (by decide) (by decide)
      hmax

end Units

/-! ### Lifetimes -/

/-- Numbers are printed and read as exact rationals. -/
structure Primitives.Exact (p : Primitives) : Prop where
  fixed : p.fixed = formatFixed
  parseTTL : p.parseTTL = Proxy.parseTTL

def Primitives.RoundTrips (p : Primitives) (wireCompat : Bool) : Prop :=
  ∀ gc : GatewayCookie, gc.toUnsignedGatewayCookie.Valid → validString gc.signature →
    p.codec.decode wireCompat (p.codec.encode wireCompat gc) = some gc

def issuedValue (p : Primitives) (cfg : CookieConfig) (backendURL : GoString) (issuedAt : Time) :
    GoString :=
  p.codec.encode cfg.wireCompat (newCookie p.codec cfg backendURL issuedAt)

def lifetime (cfg : CookieConfig) : Duration := if cfg.wireCompat then wireTTL cfg.ttl else cfg.ttl

theorem validString_hexEncode (s : GoString) : validString (hexEncode s) := by
  apply validString_of_ascii
  intro c hc
  obtain ⟨b, -, hb⟩ := List.mem_flatMap.mp hc
  have hall : ∀ n < 16, hexChar n < 0x80 := by decide
  have hlt := b.toNat_lt
  simp only [List.mem_cons, List.not_mem_nil, or_false] at hb
  rcases hb with rfl | rfl
  · exact hall _ (by omega)
  · exact hall _ (by omega)

section Lifetime

variable {p : Primitives} {cfg : CookieConfig}

/-- The check of an issued cookie comes down to the time. -/
theorem validateCookie_issued (hcodec : p.RoundTrips cfg.wireCompat) {backendURL : GoString}
    (hvalid : validString backendURL) (issuedAt checkedAt : Time) :
    let ttl := p.parseTTL (p.codec.formatTTL cfg.wireCompat cfg.ttl)
    validateCookie p.codec cfg (issuedValue p cfg backendURL issuedAt) checkedAt =
      if 0 < ttl ∧ ttl < checkedAt - Time.ofUnixMilli issuedAt.unixMilli then .expired
      else .valid [str "/logout", str "/oauth2/logout"] := by
  have hpayload : (newCookie p.codec cfg backendURL issuedAt).toUnsignedGatewayCookie.Valid :=
    valid_cookie p cfg.secret (i := ⟨cfg.ttl, cfg.wireCompat, backendURL, issuedAt⟩) hvalid
  have hdecode := hcodec _ hpayload (validString_hexEncode _)
  have hsign : p.codec.sign cfg.secret
      (newCookie p.codec cfg backendURL issuedAt).toUnsignedGatewayCookie =
      (newCookie p.codec cfg backendURL issuedAt).signature := rfl
  unfold validateCookie issuedValue
  rw [hdecode]
  simp only
  rw [if_neg (not_not.mpr hsign)]
  rfl

theorem parseTTL_formatTTL (hexact : p.Exact) (hmilli : 1000000 ≤ cfg.ttl)
    (hlt : cfg.ttl < 2 ^ 53) :
    p.parseTTL (p.codec.formatTTL cfg.wireCompat cfg.ttl) = lifetime cfg := by
  unfold lifetime Primitives.codec
  simp only [hexact.fixed, hexact.parseTTL]
  split
  · exact parseTTL_airliftDurationString hmilli hlt
  · have hmax : (2 : ℤ) ^ 53 ≤ maxInt64 := by decide
    exact parseTTL_formatInt (le_trans (by decide) hmilli) (hlt.le.trans hmax)

/-- An issued cookie is never taken for a tampered one, and lives for the configured time, up to
half a hundredth of the unit it is printed in. Its age counts from the millisecond of its issue. -/
theorem cookie_lifetime (p : Primitives) (cfg : CookieConfig) (hexact : p.Exact)
    (hcodec : p.RoundTrips cfg.wireCompat)
    (hpos : 0 < cfg.ttl) (hmilli : 1000000 ∣ cfg.ttl) (hlt : cfg.ttl < 2 ^ 53) :
    ∃ e : Duration, (cfg.wireCompat = false → e = cfg.ttl) ∧
      (cfg.wireCompat = true → 0 < e ∧ 200 * |e - cfg.ttl| ≤ airliftUnit cfg.ttl + 200) ∧
      ∀ backendURL, validString backendURL → ∀ issuedAt checkedAt,
        let check := validateCookie p.codec cfg (issuedValue p cfg backendURL issuedAt) checkedAt
        check ≠ .tampered ∧
          (check = .expired ↔ e < checkedAt - Time.ofUnixMilli issuedAt.unixMilli) := by
  have hle : 1000000 ≤ cfg.ttl := Int.le_of_dvd hpos hmilli
  have hlife : 0 < lifetime cfg := by
    unfold lifetime
    split
    · exact wireTTL_pos hle
    · exact hpos
  refine ⟨lifetime cfg, ?_, ?_, ?_⟩
  · intro hwire
    simp [lifetime, hwire]
  · intro hwire
    refine ⟨hlife, ?_⟩
    have herror := wireTTL_error hle
    have habs : |200 * (wireTTL cfg.ttl - cfg.ttl)| ≤ airliftUnit cfg.ttl := abs_le.mpr herror
    rw [abs_mul] at habs
    simp only [lifetime, hwire, if_true]
    exact (le_add_of_nonneg_right (by decide)).trans' habs
  · intro backendURL hvalid issuedAt checkedAt
    have hcheck := validateCookie_issued hcodec hvalid issuedAt checkedAt
    rw [parseTTL_formatTTL hexact hle hlt] at hcheck
    simp only at hcheck ⊢
    rw [hcheck]
    simp only [hlife, true_and]
    split
    · rename_i hage
      exact ⟨nofun, iff_of_true rfl hage⟩
    · rename_i hage
      exact ⟨nofun, iff_of_false nofun hage⟩

end Lifetime

section Samples

private def Denotes (raw : GoString) (gc : GatewayCookie) : Prop :=
  gc.toUnsignedGatewayCookie.Valid ∧ validString gc.signature ∧ gc.marshal = raw

open Classical in
private noncomputable def exactPrimitives : Primitives where
  hmac secret message := secret ++ message
  encodeBase64 _ s := s
  decodeBase64 _ s := some s
  unmarshal raw := if h : ∃ gc, Denotes raw gc then some h.choose else none
  unmarshal_valid raw gc h := by
    split at h
    · rename_i hex
      obtain rfl := Option.some.inj h
      exact hex.choose_spec.1
    · cases h
  fixed := formatFixed
  fixed_ascii := ascii_formatFixed
  parseTTL := parseTTL

private theorem exactPrimitives_roundTrips (wireCompat : Bool) :
    exactPrimitives.RoundTrips wireCompat := by
  intro gc hgc hsig
  have hex : ∃ gc', Denotes gc.marshal gc' := ⟨gc, hgc, hsig, rfl⟩
  have hchoose : hex.choose = gc := signed_marshal_injective hex.choose_spec.1 hgc
    hex.choose_spec.2.1 hsig hex.choose_spec.2.2
  exact (dif_pos hex).trans (congrArg some hchoose)

end Samples

theorem cookie_lifetime_ten_minutes :
    ∃ e : Duration, 0 < e ∧ 200 * |e - 600000000000| ≤ airliftUnit 600000000000 + 200 ∧
      ∀ issuedAt checkedAt,
        let cfg : CookieConfig := ⟨str "secret", 600000000000, true⟩
        let check := validateCookie exactPrimitives.codec cfg
          (issuedValue exactPrimitives cfg (str "http://etl") issuedAt) checkedAt
        check ≠ .tampered ∧
          (check = .expired ↔ e < checkedAt - Time.ofUnixMilli issuedAt.unixMilli) := by
  obtain ⟨e, -, hwire, hcheck⟩ := cookie_lifetime exactPrimitives
    ⟨str "secret", 600000000000, true⟩ ⟨rfl, rfl⟩ (exactPrimitives_roundTrips true)
    (by decide) (by decide) (by decide)
  exact ⟨e, (hwire rfl).1, (hwire rfl).2, hcheck (str "http://etl") (by decide)⟩

/-- Issued 0.9 ms into a millisecond and checked 0.6 ms later, a cookie with a TTL of one
millisecond has expired. -/
theorem expired_before_ttl :
    let cfg : CookieConfig := ⟨str "secret", 1000000, false⟩
    let issuedAt := Time.ofUnixMilli 0 + 900000
    let checkedAt := Time.ofUnixMilli 0 + 1500000
    checkedAt - issuedAt < cfg.ttl ∧
      validateCookie exactPrimitives.codec cfg
        (issuedValue exactPrimitives cfg (str "http://etl") issuedAt) checkedAt = .expired := by
  refine ⟨by decide, ?_⟩
  rw [validateCookie_issued (exactPrimitives_roundTrips _) (by decide),
    parseTTL_formatTTL ⟨rfl, rfl⟩ (by decide) (by decide)]
  exact if_pos (by decide)

end TrinoGoway.Proxy
