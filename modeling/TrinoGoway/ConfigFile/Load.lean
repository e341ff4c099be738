import TrinoGoway.ConfigFile.Schema
import TrinoGoway.Go.Float
import TrinoGoway.Lib.Lens

/-! `config.Load`: a YAML document is merged into the defaults, then what is still zero gets its
default, then the result is validated. The merging is that of `yaml.v3`; the types of the
repository bring their own methods to it. -/
namespace TrinoGoway.ConfigFile

open Go Json

inductive Value
  | str
  | int (i : ℤ)
  | float (q : ℚ)
  | bool (b : Bool)

inductive Node
  | null
  | scalar (text : GoString) (value : Value)
  | sequence (items : List Node)
  | mapping (members : List (GoString × Node))

inductive DecodeError
  /-- an error of the library -/
  | yaml (e : GoError)
  | duration (s : GoString)
  | sizeFormat (s : GoString)
  | sizeNumber (s : GoString)
  | sizeUnit (unit : GoString)

/-- A node is merged into the value that is there. -/
abbrev Decoder (α : Type) := Node → α → Except DecodeError α

/-- How `yaml.v3` merges nodes into the types of a configuration. -/
structure Library where
  text : Decoder GoString
  int : Decoder ℤ
  bool : Decoder Bool
  texts : Decoder (List GoString)
  textMap : Decoder (List (GoString × GoString))
  /-- a map that is nil unless there is one in the document -/
  floatMap : Decoder (Option (List (GoString × ℚ)))
  /-- a type with a method `UnmarshalYAML` -/
  method {α : Type} (unmarshalYAML : Node → Except DecodeError α) : Decoder α
  /-- a structure with decoders for the fields, by their keys -/
  struct {σ : Type} (keys : List (GoString × Decoder σ)) : Decoder σ

/-- The members of a mapping, one after the other; a key that no field has is passed over. -/
def decodeMembers {σ : Type} (keys : List (GoString × Decoder σ))
    (members : List (GoString × Node)) (s : σ) : Except DecodeError σ :=
  members.foldlM (fun s m =>
    match keys.lookup m.1 with
    | none => .ok s
    | some d => d m.2 s) s

/-- The library merges scalars and mappings. -/
structure Library.Merges (lib : Library) : Prop where
  text : ∀ s value old, lib.text (.scalar s value) old = .ok s
  int : ∀ s i old, -2 ^ 63 ≤ i ∧ i < 2 ^ 63 → lib.int (.scalar s (.int i)) old = .ok i
  method : ∀ {α : Type} (unmarshalYAML : Node → Except DecodeError α) (s : GoString)
    (value : Value) (old : α),
    lib.method unmarshalYAML (.scalar s value) old = unmarshalYAML (.scalar s value)
  struct : ∀ {σ : Type} (keys : List (GoString × Decoder σ)) (members : List (GoString × Node))
    (s : σ), (members.map Prod.fst).Nodup →
    lib.struct keys (.mapping members) s = decodeMembers keys members s

/-- `Duration.UnmarshalYAML` -/
def Library.duration (lib : Library) : Decoder Duration :=
  lib.method fun node => do
    let s ← lib.text node []
    match parseDuration s with
    | none => .error (.duration s)
    | some parsed => .ok parsed

/-! ### Sizes -/

def isRegexpSpace (c : UInt8) : Bool := c == 9 || c == 10 || c == 12 || c == 13 || c == 32

/-- `dataSizePattern`: the number and the unit. -/
def matchDataSize (s : GoString) : Option (GoString × GoString) :=
  let whole := s.takeWhile Byte.isDigit
  let rest := s.dropWhile Byte.isDigit
  -- the optional fraction: a point and at least one digit
  let fraction :=
    if rest.head? = some Byte.period then
      let digits := rest.tail.takeWhile Byte.isDigit
      if digits = [] then [] else Byte.period :: digits
    else []
  let unit := (rest.drop fraction.length).dropWhile isRegexpSpace
  if whole ≠ [] ∧ unit.all Byte.isAlpha then some (whole ++ fraction, unit) else none

def multiplier (unit : GoString) : Option ℤ :=
  if unit = [] ∨ unit = str "B" then some 1
  else if unit = str "KB" then some 1000
  else if unit = str "KiB" then some 1024
  else if unit = str "MB" then some 1000000
  else if unit = str "MiB" then some 1048576
  else if unit = str "GB" then some 1000000000
  else if unit = str "GiB" then some 1073741824
  else none

/-- `DataSize.UnmarshalYAML`, of the text. -/
def parseDataSize (s : GoString) : Except DecodeError ℤ :=
  match matchDataSize (trimSpace s) with
  | none => .error (.sizeFormat s)
  | some (number, unit) =>
    match parseFloat number with
    | none => .error (.sizeNumber number)
    | some num =>
      match multiplier unit with
      | none => .error (.sizeUnit unit)
      | some m => .ok (toInt64 (Binary64.round (num.value * m)))

def Library.dataSize (lib : Library) : Decoder ℤ :=
  lib.method fun node => do
    let s ← lib.text node []
    parseDataSize s

structure IsUnit (unit : GoString) : Prop where
  ne_nil : unit ≠ []
  letters : unit.all Byte.isAlpha = true

theorem matchDataSize_formatNat (n : ℕ) {unit : GoString} (hunit : IsUnit unit) :
    matchDataSize (formatNat n ++ unit) = some (formatNat n, unit) := by
  obtain ⟨u, us, rfl⟩ := List.exists_cons_of_ne_nil hunit.ne_nil
  have halpha : Byte.isAlpha u = true :=
    List.all_eq_true.mp hunit.letters u List.mem_cons_self
  have hbyte : ∀ c : UInt8, Byte.isAlpha c = true →
      Byte.isDigit c = false ∧ c ≠ Byte.period ∧ isRegexpSpace c = false :=
    Byte.forall_of_ofNat (by decide +kernel)
  obtain ⟨hdigit, hperiod, hspace⟩ := hbyte u halpha
  have hno : NoDigit (u :: us) := by
    intro c hc
    rw [← Option.some.inj hc]
    exact hdigit
  obtain ⟨htake, hdrop⟩ := span_formatNat n hno
  obtain ⟨c, s, hcons, -⟩ := formatNat_cons n
  have hne : formatNat n ≠ [] := by simp [hcons]
  have hhead : (u :: us).head? ≠ some Byte.period := by simpa using hperiod
  have hunits : (u :: us).dropWhile isRegexpSpace = u :: us := by
    rw [List.dropWhile_cons_of_neg (by simp [hspace])]
  unfold matchDataSize
  simp only [htake, hdrop, if_neg hhead, List.length_nil, List.drop_zero, hunits, List.append_nil]
  rw [if_pos ⟨hne, hunit.letters⟩]

theorem trimSpace_size (n : ℕ) {unit : GoString} (hunit : IsUnit unit) :
    trimSpace (formatNat n ++ unit) = formatNat n ++ unit := by
  have hfirst : ∀ c : UInt8, Byte.isDigit c = true → ∀ r ∈ spaceRunes, r.head? ≠ some c :=
    Byte.forall_of_ofNat (by decide +kernel)
  have hlast : ∀ d : UInt8, Byte.isAlpha d = true → ∀ r ∈ spaceRunes, r.getLast? ≠ some d :=
    Byte.forall_of_ofNat (by decide +kernel)
  obtain ⟨c, s, hcons, hdigit⟩ := formatNat_cons n
  have hend := List.all_eq_true.mp hunit.letters _ (List.getLast_mem hunit.ne_nil)
  refine trimSpace_of_ends (c := c) (d := unit.getLast hunit.ne_nil) ?_ ?_ (hfirst c hdigit)
    (hlast _ hend)
  · rw [hcons]
    rfl
  · rw [List.getLast?_append_of_ne_nil _ hunit.ne_nil, List.getLast?_eq_some_getLast]

/-- A number of units within the exact range is read as the bytes it stands for. -/
theorem parseDataSize_formatNat {n m : ℕ} {unit : GoString} (hunit : IsUnit unit)
    (hmultiplier : multiplier unit = some (m : ℤ)) (hm : 0 < m) (hle : n * m ≤ 2 ^ 53) :
    parseDataSize (formatNat n ++ unit) = .ok ((n * m : ℕ) : ℤ) := by
  have hn : n ≤ 2 ^ 53 := (Nat.le_mul_of_pos_right n hm).trans hle
  have hparse := parseFloat_formatNat hn
  have hround : Binary64.round ((n : ℚ) * (m : ℤ)) = (((n * m : ℕ) : ℤ) : ℚ) := by
    have habs : |((n * m : ℕ) : ℤ)| ≤ 2 ^ 53 := by
      rw [abs_of_nonneg (Int.natCast_nonneg _)]
      exact_mod_cast hle
    rw [← Binary64.round_intCast habs]
    congr 1
    push_cast
    rfl
  have hint : toInt64 (((n * m : ℕ) : ℤ) : ℚ) = ((n * m : ℕ) : ℤ) := by
    rw [toInt64, truncate_intCast, if_pos]
    constructor <;> omega
  rw [parseDataSize, trimSpace_size n hunit, matchDataSize_formatNat n hunit]
  simp only [hparse, hmultiplier, hround, hint]

/-! ### Structures -/

def field {σ α : Type} (L : Lens σ α) (d : Decoder α) : Decoder σ :=
  fun node s => (d node (L.get s)).map (L.set s)

section Members

variable {σ α : Type} {keys : List (GoString × Decoder σ)}

theorem decodeMembers_append {first second : List (GoString × Node)} {s s' : σ}
    (h : decodeMembers keys first s = .ok s') :
    decodeMembers keys (first ++ second) s = decodeMembers keys second s' := by
  have happend : decodeMembers keys (first ++ second) s =
      (decodeMembers keys first s).bind (decodeMembers keys second) := List.foldlM_append
  rw [happend, h]
  rfl

/-- A member that may be left out: the field keeps its value then. -/
theorem decodeMembers_optional {key : GoString} {L : Lens σ α} {d : Decoder α}
    (hkey : keys.lookup key = some (field L d)) (p : Prop) [Decidable p] (node : Node) (s : σ)
    (a : α) (hd : ¬p → d node (L.get s) = .ok a) :
    decodeMembers keys (if p then [] else [(key, node)]) s =
      .ok (L.set s (if p then L.get s else a)) := by
  rw [← Lens.ite_set]
  by_cases hp : p
  · rw [if_pos hp, if_pos hp]
    rfl
  · have hfield : field L d node s = .ok (L.set s a) := by
      rw [field, hd hp]
      rfl
    rw [if_neg hp, if_neg hp, decodeMembers, List.foldlM_cons]
    simp only [hkey, hfield, List.foldlM_nil]
    rfl

end Members

section Keys

variable (lib : Library)

def proxyKeys : List (GoString × Decoder ProxyConfig) :=
  [(str "port", field ⟨(·.port), fun s v => { s with port := v }, fun _ => rfl⟩ lib.int),
    (str "responseSize",
      field ⟨(·.responseSize), fun s v => { s with responseSize := v }, fun _ => rfl⟩ lib.dataSize),
    (str "requestTimeout",
      field ⟨(·.requestTimeout),
          fun s v => { s with requestTimeout := v }, fun _ => rfl⟩ lib.duration),
    (str "propagateErrors",
      field ⟨(·.propagateErrors), fun s v => { s with propagateErrors := v }, fun _ => rfl⟩
        lib.bool)]

def adminKeys : List (GoString × Decoder AdminConfig) :=
  [(str "port", field ⟨(·.port), fun s v => { s with port := v }, fun _ => rfl⟩ lib.int)]

def monitorKeys : List (GoString × Decoder MonitorConfig) :=
  [(str "interval",
      field ⟨(·.interval), fun s v => { s with interval := v }, fun _ => rfl⟩ lib.duration),
    (str "checkTimeout",
      field
        ⟨(·.checkTimeout), fun s v => { s with checkTimeout := v }, fun _ => rfl⟩ lib.duration),
    (str "refreshInterval",
      field ⟨(·.refreshInterval),
          fun s v => { s with refreshInterval := v }, fun _ => rfl⟩ lib.duration),
    (str "statsTimeout",
      field
        ⟨(·.statsTimeout), fun s v => { s with statsTimeout := v }, fun _ => rfl⟩ lib.duration),
    (str "retries", field ⟨(·.retries), fun s v => { s with retries := v }, fun _ => rfl⟩ lib.int),
    (str "metricsEndpoint",
      field ⟨(·.metricsEndpoint), fun s v => { s with metricsEndpoint := v }, fun _ => rfl⟩
        lib.text),
    (str "runningQueriesMetricName",
      field ⟨(·.runningQueriesMetricName),
          fun s v => { s with runningQueriesMetricName := v }, fun _ => rfl⟩ lib.text),
    (str "queuedQueriesMetricName",
      field ⟨(·.queuedQueriesMetricName),
          fun s v => { s with queuedQueriesMetricName := v }, fun _ => rfl⟩ lib.text),
    (str "metricMinimumValues",
      field ⟨(·.metricMinimumValues),
          fun s v => { s with metricMinimumValues := v }, fun _ => rfl⟩ lib.floatMap),
    (str "metricMaximumValues",
      field ⟨(·.metricMaximumValues),
          fun s v => { s with metricMaximumValues := v }, fun _ => rfl⟩ lib.floatMap)]

def dbKeys : List (GoString × Decoder DBConfig) :=
  [(str "driver", field ⟨(·.driver), fun s v => { s with driver := v }, fun _ => rfl⟩ lib.text),
    (str "dsn", field ⟨(·.dsn), fun s v => { s with dsn := v }, fun _ => rfl⟩ lib.text),
    (str "autoMigrate",
      field ⟨(·.autoMigrate), fun s v => { s with autoMigrate := v }, fun _ => rfl⟩ lib.bool)]

def externalKeys : List (GoString × Decoder ExternalConfig) :=
  [(str "url", field ⟨(·.url), fun s v => { s with url := v }, fun _ => rfl⟩ lib.text),
    (str "grpcAddr",
      field ⟨(·.grpcAddr), fun s v => { s with grpcAddr := v }, fun _ => rfl⟩ lib.text),
    (str "timeout",
      field ⟨(·.timeout), fun s v => { s with timeout := v }, fun _ => rfl⟩ lib.duration),
    (str "excludeHeaders",
      field ⟨(·.excludeHeaders), fun s v => { s with excludeHeaders := v }, fun _ => rfl⟩
        lib.texts)]

def routingKeys : List (GoString × Decoder RoutingConfig) :=
  [(str "defaultGroup",
      field ⟨(·.defaultGroup), fun s v => { s with defaultGroup := v }, fun _ => rfl⟩ lib.text),
    (str "type", field ⟨(·.type), fun s v => { s with type := v }, fun _ => rfl⟩ lib.text),
    (str "external",
      field ⟨(·.external),
          fun s v => { s with external := v }, fun _ => rfl⟩ (lib.struct (externalKeys lib)))]

def oidcKeys : List (GoString × Decoder OIDCConfig) :=
  [(str "issuerUrl",
      field ⟨(·.issuerUrl), fun s v => { s with issuerUrl := v }, fun _ => rfl⟩ lib.text),
    (str "clientId",
      field ⟨(·.clientId), fun s v => { s with clientId := v }, fun _ => rfl⟩ lib.text),
    (str "clientSecret",
      field ⟨(·.clientSecret), fun s v => { s with clientSecret := v }, fun _ => rfl⟩ lib.text),
    (str "jwksUrl", field ⟨(·.jwksUrl), fun s v => { s with jwksUrl := v }, fun _ => rfl⟩ lib.text),
    (str "jwksTtlSecs",
      field ⟨(·.jwksTtlSecs), fun s v => { s with jwksTtlSecs := v }, fun _ => rfl⟩ lib.int),
    (str "scopes", field ⟨(·.scopes), fun s v => { s with scopes := v }, fun _ => rfl⟩ lib.texts),
    (str "redirectUrl",
      field ⟨(·.redirectUrl), fun s v => { s with redirectUrl := v }, fun _ => rfl⟩ lib.text),
    (str "authorizationEndpoint",
      field ⟨(·.authorizationEndpoint),
          fun s v => { s with authorizationEndpoint := v }, fun _ => rfl⟩ lib.text),
    (str "tokenEndpoint",
      field ⟨(·.tokenEndpoint), fun s v => { s with tokenEndpoint := v }, fun _ => rfl⟩ lib.text)]

def ldapKeys : List (GoString × Decoder LDAPConfig) :=
  [(str "url", field ⟨(·.url), fun s v => { s with url := v }, fun _ => rfl⟩ lib.text),
    (str "bindDn", field ⟨(·.bindDn), fun s v => { s with bindDn := v }, fun _ => rfl⟩ lib.text),
    (str "bindPassword",
      field ⟨(·.bindPassword), fun s v => { s with bindPassword := v }, fun _ => rfl⟩ lib.text),
    (str "userBase",
      field ⟨(·.userBase), fun s v => { s with userBase := v }, fun _ => rfl⟩ lib.text),
    (str "userAttr",
      field ⟨(·.userAttr), fun s v => { s with userAttr := v }, fun _ => rfl⟩ lib.text)]

def authorizationKeys : List (GoString × Decoder AuthorizationConfig) :=
  [(str "admin", field ⟨(·.admin), fun s v => { s with admin := v }, fun _ => rfl⟩ lib.text),
    (str "user", field ⟨(·.user), fun s v => { s with user := v }, fun _ => rfl⟩ lib.text),
    (str "api", field ⟨(·.api), fun s v => { s with api := v }, fun _ => rfl⟩ lib.text),
    (str "pagePermissions",
      field
        ⟨(·.pagePermissions), fun s v => { s with pagePermissions := v }, fun _ => rfl⟩
          lib.textMap)]

def authKeys : List (GoString × Decoder AuthConfig) :=
  [(str "type", field ⟨(·.type), fun s v => { s with type := v }, fun _ => rfl⟩ lib.text),
    (str "oidc",
      field ⟨(·.oidc), fun s v => { s with oidc := v }, fun _ => rfl⟩ (lib.struct (oidcKeys lib))),
    (str "ldap",
      field ⟨(·.ldap), fun s v => { s with ldap := v }, fun _ => rfl⟩ (lib.struct (ldapKeys lib))),
    (str "authorization",
      field ⟨(·.authorization),
          fun s v => { s with authorization := v }, fun _ => rfl⟩
            (lib.struct (authorizationKeys lib)))]

def cookieKeys : List (GoString × Decoder CookieConfig) :=
  [(str "secret", field ⟨(·.secret), fun s v => { s with secret := v }, fun _ => rfl⟩ lib.text),
    (str "ttl", field ⟨(·.ttl), fun s v => { s with ttl := v }, fun _ => rfl⟩ lib.duration),
    (str "wireCompat",
      field ⟨(·.wireCompat), fun s v => { s with wireCompat := v }, fun _ => rfl⟩ lib.bool)]

def metricsKeys : List (GoString × Decoder MetricsConfig) :=
  [(str "enabled", field ⟨(·.enabled), fun s v => { s with enabled := v }, fun _ => rfl⟩ lib.bool),
    (str "path", field ⟨(·.path), fun s v => { s with path := v }, fun _ => rfl⟩ lib.text)]

def uiKeys : List (GoString × Decoder UIConfig) :=
  [(str "disablePages",
      field ⟨(·.disablePages), fun s v => { s with disablePages := v }, fun _ => rfl⟩ lib.texts)]

def clusterStatsKeys : List (GoString × Decoder ClusterStatsConfig) :=
  [(str "monitorType",
      field ⟨(·.monitorType), fun s v => { s with monitorType := v }, fun _ => rfl⟩ lib.text)]

def backendStateKeys : List (GoString × Decoder BackendStateConfig) :=
  [(str "username",
      field ⟨(·.username), fun s v => { s with username := v }, fun _ => rfl⟩ lib.text),
    (str "password",
      field ⟨(·.password), fun s v => { s with password := v }, fun _ => rfl⟩ lib.text),
    (str "ssl", field ⟨(·.ssl), fun s v => { s with ssl := v }, fun _ => rfl⟩ lib.bool),
    (str "xForwardedProtoHeader",
      field ⟨(·.xForwardedProtoHeader),
          fun s v => { s with xForwardedProtoHeader := v }, fun _ => rfl⟩ lib.bool)]

def configKeys : List (GoString × Decoder Config) :=
  [(str "proxy",
      field ⟨(·.proxy), fun s v => { s with proxy := v }, fun _ => rfl⟩
        (lib.struct (proxyKeys lib))),
    (str "admin",
      field ⟨(·.admin), fun s v => { s with admin := v }, fun _ => rfl⟩
        (lib.struct (adminKeys lib))),
    (str "monitor",
      field
        ⟨(·.monitor), fun s v => { s with monitor := v }, fun _ => rfl⟩
          (lib.struct (monitorKeys lib))),
    (str "db",
      field ⟨(·.db), fun s v => { s with db := v }, fun _ => rfl⟩ (lib.struct (dbKeys lib))),
    (str "routing",
      field
        ⟨(·.routing), fun s v => { s with routing := v }, fun _ => rfl⟩
          (lib.struct (routingKeys lib))),
    (str "auth",
      field ⟨(·.auth), fun s v => { s with auth := v }, fun _ => rfl⟩ (lib.struct (authKeys lib))),
    (str "cookie",
      field ⟨(·.cookie), fun s v => { s with cookie := v }, fun _ => rfl⟩
        (lib.struct (cookieKeys lib))),
    (str "metrics",
      field ⟨(·.metrics), fun s v => { s with metrics := v }, fun _ => rfl⟩
        (lib.struct (metricsKeys lib))),
    (str "ui",
      field ⟨(·.ui), fun s v => { s with ui := v }, fun _ => rfl⟩ (lib.struct (uiKeys lib))),
    (str "clusterStats",
      field ⟨(·.clusterStats),
          fun s v => { s with clusterStats := v }, fun _ => rfl⟩
            (lib.struct (clusterStatsKeys lib))),
    (str "backendState",
      field ⟨(·.backendState),
          fun s v => { s with backendState := v }, fun _ => rfl⟩
            (lib.struct (backendStateKeys lib)))]

end Keys

/-! ### Loading -/

inductive LoadError
  | malformed
  | unmarshal (e : DecodeError)
  | invalid (text : GoString)

/-- `Load`, from the bytes of the file. -/
def load (lib : Library) (unmarshal : GoString → Option Node) (quote : GoString → GoString)
    (data : GoString) : Except LoadError Config :=
  match unmarshal data with
  | none => .error .malformed
  | some doc =>
    match lib.struct (configKeys lib) doc defaultConfig with
    | .error e => .error (.unmarshal e)
    | .ok cfg =>
      match validate quote durationString (applyDefaults cfg) with
      | .error text => .error (.invalid text)
      | .ok () => .ok (applyDefaults cfg)

section Load

variable {lib : Library} {unmarshal : GoString → Option Node} {quote : GoString → GoString}
  {data : GoString} {cfg : Config}

theorem load_eq_ok (h : load lib unmarshal quote data = .ok cfg) :
    ∃ doc cfg₀, unmarshal data = some doc ∧
      lib.struct (configKeys lib) doc defaultConfig = .ok cfg₀ ∧
      validate quote durationString (applyDefaults cfg₀) = .ok () ∧ cfg = applyDefaults cfg₀ := by
  unfold load at h
  split at h
  · cases h
  · next doc hdoc =>
    split at h
    · cases h
    · next cfg₀ hcfg₀ =>
      split at h
      · cases h
      · next hvalid =>
        cases h
        exact ⟨doc, cfg₀, hdoc, hcfg₀, hvalid, rfl⟩

theorem load_valid (h : load lib unmarshal quote data = .ok cfg) :
    validate quote durationString cfg = .ok () ∧ applyDefaults cfg = cfg := by
  obtain ⟨doc, cfg₀, -, -, hvalid, rfl⟩ := load_eq_ok h
  exact ⟨hvalid, applyDefaults_idem cfg₀⟩

end Load

end TrinoGoway.ConfigFile
