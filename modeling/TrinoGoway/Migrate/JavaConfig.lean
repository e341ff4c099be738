import TrinoGoway.ConfigFile.Load
import Mathlib.Tactic.NormNum

/-! `MigrateConfig`: a configuration of the Java gateway becomes one of this gateway, with a warning
for what has no counterpart. Which fields of the Java configuration can be left out without a
trace? -/
namespace TrinoGoway.Migrate

open Go Json
open ConfigFile (Config Node orDefault)

abbrev GoInt := {i : ℤ // -2 ^ 63 ≤ i ∧ i < 2 ^ 63}

instance : Zero GoInt := ⟨⟨0, by norm_num⟩⟩

@[simp] theorem coe_zero : ((0 : GoInt) : ℤ) = 0 := rfl

@[simp] theorem coe_eq_zero {i : GoInt} : (i : ℤ) = 0 ↔ i = 0 := by
  rw [← coe_zero, Subtype.ext_iff]

structure JavaRequestRouter where
  port : GoInt := 0
  name : GoString := []
  historySize : GoInt := 0
  requestBufferSize : GoInt := 0

structure JavaDataStore where
  localPort : GoInt := 0
  jdbcUrl : GoString := []
  user : GoString := []
  password : GoString := []
  driver : GoString := []

structure JavaBackendState where
  healthCheckPath : GoString := []
  concurrency : GoInt := 0
  /-- in milliseconds -/
  healthCheckInterval : GoInt := 0

structure JavaRouting where
  defaultRoutingGroup : GoString := []
  rulesType : GoString := []
  externalUrl : GoString := []

structure JavaClusterStatsConfig where
  useApi : Bool := false

structure JavaOAuth2 where
  issuer : GoString := []
  clientId : GoString := []
  clientSecret : GoString := []
  redirectUrl : GoString := []
  jwkUrl : GoString := []

structure JavaAuthentication where
  defaultType : GoString := []
  oauth2 : JavaOAuth2 := {}

structure JavaAuthorization where
  admin : GoString := []
  user : GoString := []
  api : GoString := []

/-- A list is `none` when it is nil. -/
structure JavaConfig where
  requestRouter : JavaRequestRouter := {}
  dataStore : JavaDataStore := {}
  backendState : JavaBackendState := {}
  routing : JavaRouting := {}
  clusterStatsConfig : JavaClusterStatsConfig := {}
  authentication : JavaAuthentication := {}
  authorization : JavaAuthorization := {}
  modules : Option (List Node) := none
  managedApps : Option (List Node) := none

/-! ### The migration -/

/-- The configuration so far and the warnings so far. -/
structure Migration where
  cfg : Config
  warnings : List GoString

namespace Migration

def warn (m : Migration) (msg : GoString) : Migration := { m with warnings := m.warnings ++ [msg] }

def put {α : Type} (m : Migration) (L : Lens Config α) (a : α) : Migration :=
  { m with cfg := L.set m.cfg a }

/-- A value if there is one, and a warning otherwise. -/
def putOrWarn {α : Type} (m : Migration) (L : Lens Config α) (msg : GoString) :
    Option α → Migration
  | some a => m.put L a
  | none => m.warn msg

end Migration

def stripJDBCPrefix (url : GoString) : GoString :=
  if hasPrefix url (str "jdbc:") then url.drop 5 else url

def contains (s substr : GoString) : Bool := s.tails.any fun t => hasPrefix t substr

/-- The interval in whole seconds, and at least one. -/
def healthCheckSeconds (millis : ℤ) : ℤ :=
  let secs := millis.tdiv 1000
  if secs < 1 then 1 else secs

theorem healthCheckSeconds_pos (millis : ℤ) : 1 ≤ healthCheckSeconds millis := by
  unfold healthCheckSeconds
  dsimp only
  split <;> omega

theorem healthCheckSeconds_lt (i : GoInt) : healthCheckSeconds i < 2 ^ 55 := by
  obtain ⟨i, hlo, hhi⟩ := i
  have hdiv : i.tdiv 1000 < 2 ^ 55 := by
    have hsign : (1000 : ℤ).sign = 1 := rfl
    rw [Int.tdiv_eq_ediv]
    split <;> omega
  unfold healthCheckSeconds
  dsimp only
  split <;> omega

/-- `time.Duration(secs) * time.Second`, with the overflow of `int64`. -/
def monitorInterval (millis : ℤ) : Duration :=
  (healthCheckSeconds millis * ConfigFile.second).bmod (2 ^ 64)

section Migrate

-- `strings.ToLower`, and the verb `%q`
variable (toLower quote : GoString → GoString)

def detectDriver (driver : GoString) : Option GoString :=
  let lower := toLower driver
  if contains lower (str "postgresql") || contains lower (str "postgres") then some (str "postgres")
  else if contains lower (str "mysql") then some (str "mysql")
  else none

def migrateRequestRouter (src : JavaRequestRouter) (m : Migration) : Migration :=
  let m :=
    if (src.port : ℤ) ≠ 0 then
      m.put ⟨(·.proxy.port), fun c v => { c with proxy := { c.proxy with port := v } },
        fun _ => rfl⟩ (src.port : ℤ)
    else m
  let m :=
    if (src.requestBufferSize : ℤ) ≠ 0 then
      m.put ⟨(·.proxy.responseSize),
        fun c v => { c with proxy := { c.proxy with responseSize := v } },
        fun _ => rfl⟩ (src.requestBufferSize : ℤ)
    else m
  let m :=
    if (src.historySize : ℤ) ≠ 0 then
      m.warn (str "requestRouter.historySize=" ++ formatInt src.historySize ++
        str " has no Go equivalent, ignored")
    else m
  if src.name ≠ [] then
    m.warn (str "requestRouter.name=" ++ quote src.name ++ str " has no Go equivalent, ignored")
  else m

def migrateDataStore (src : JavaDataStore) (m : Migration) : Migration :=
  let m :=
    if src.jdbcUrl ≠ [] then
      m.put ⟨(·.db.dsn), fun c v => { c with db := { c.db with dsn := v } }, fun _ => rfl⟩
        (stripJDBCPrefix src.jdbcUrl)
    else m
  let m :=
    if src.driver ≠ [] then
      m.putOrWarn
        ⟨(·.db.driver), fun c v => { c with db := { c.db with driver := v } }, fun _ => rfl⟩
        (str "dataStore.driver=" ++ quote src.driver ++
          str ": unrecognised driver, db.driver not set")
        (detectDriver toLower src.driver)
    else m
  let m :=
    if (src.localPort : ℤ) ≠ 0 then
      m.put ⟨(·.admin.port), fun c v => { c with admin := { c.admin with port := v } },
        fun _ => rfl⟩ (src.localPort : ℤ)
    else m
  let m :=
    if src.user ≠ [] then
      m.warn (str "dataStore.user=" ++ quote src.user ++
        str ": embed credentials in db.dsn instead, ignored")
    else m
  if src.password ≠ [] then
    m.warn (str "dataStore.password: embed credentials in db.dsn instead, ignored")
  else m

def migrateBackendState (src : JavaBackendState) (m : Migration) : Migration :=
  let m :=
    if (src.healthCheckInterval : ℤ) ≠ 0 then
      m.put ⟨(·.monitor.interval),
        fun c v => { c with monitor := { c.monitor with interval := v } },
        fun _ => rfl⟩ (monitorInterval src.healthCheckInterval)
    else m
  let m :=
    if (src.concurrency : ℤ) ≠ 0 then
      m.warn (str "backendState.concurrency is handled automatically, ignored")
    else m
  if src.healthCheckPath ≠ [] then
    m.warn (str "backendState.healthCheckPath=" ++ quote src.healthCheckPath ++
      str " has no Go equivalent, ignored")
  else m

def routingType : Lens Config GoString :=
  ⟨(·.routing.type), fun c v => { c with routing := { c.routing with type := v } }, fun _ => rfl⟩

def migrateRouting (src : JavaRouting) (m : Migration) : Migration :=
  let m :=
    if src.defaultRoutingGroup ≠ [] then
      m.put ⟨(·.routing.defaultGroup),
        fun c v => { c with routing := { c.routing with defaultGroup := v } },
        fun _ => rfl⟩ src.defaultRoutingGroup
    else m
  let m :=
    if src.rulesType ≠ [] then
      if src.rulesType = str "EXTERNAL" then m.put routingType (str "EXTERNAL")
      else
        (m.warn (str "routing.rulesType=" ++ quote src.rulesType ++
          str ": only EXTERNAL routing supported, setting routing.type=EXTERNAL")).put
            routingType (str "EXTERNAL")
    else m
  if src.externalUrl ≠ [] then
    m.put ⟨(·.routing.external.url), fun c v =>
      { c with routing := { c.routing with external := { c.routing.external with url := v } } },
      fun _ => rfl⟩ src.externalUrl
  else m

def migrateAuthentication (src : JavaAuthentication) (m : Migration) : Migration :=
  if src.oauth2.jwkUrl ≠ [] then
    let m :=
      { m with
        cfg :=
          { m.cfg with
            auth :=
              { m.cfg.auth with
                type := str "OIDC"
                oidc :=
                  { m.cfg.auth.oidc with
                    jwksUrl := src.oauth2.jwkUrl
                    issuerUrl := src.oauth2.issuer
                    clientId := src.oauth2.clientId
                    clientSecret := src.oauth2.clientSecret } } } }
    if src.oauth2.redirectUrl ≠ [] then
      m.warn (str "authentication.oauth2.redirectUrl=" ++ quote src.oauth2.redirectUrl ++
        str " has no Go equivalent, ignored")
    else m
  else if src.defaultType ≠ [] then
    m.warn (str "authentication.defaultType=" ++ quote src.defaultType ++
      str ": no OIDC jwkUrl found, auth not configured")
  else m

def migrateAuthorization (src : JavaAuthorization) (m : Migration) : Migration :=
  if src.admin ≠ [] ∨ src.user ≠ [] ∨ src.api ≠ [] then
    m.warn (str "authorization block has no Go equivalent, ignored")
  else m

def migrateLists (modules managedApps : Option (List Node)) (m : Migration) : Migration :=
  let m :=
    if (modules.getD []).length > 0 then m.warn (str "modules not supported, ignored") else m
  if (managedApps.getD []).length > 0 then m.warn (str "managedApps not supported, ignored") else m

def migrate (src : JavaConfig) : Migration :=
  let m : Migration := ⟨{}, []⟩
  let m := migrateRequestRouter quote src.requestRouter m
  let m := migrateDataStore toLower quote src.dataStore m
  let m := migrateBackendState quote src.backendState m
  let m := migrateRouting quote src.routing m
  let m := migrateAuthentication quote src.authentication m
  let m := migrateAuthorization src.authorization m
  migrateLists src.modules src.managedApps m

/-- `MigrateConfig`; `unmarshal` is `yaml.Unmarshal` into a `javaConfig`. -/
def migrateConfig (unmarshal : GoString → Except GoString JavaConfig) (javaYAML : GoString) :
    Except GoString Migration :=
  match unmarshal javaYAML with
  | .error e => .error (str "migrate: unmarshal java config: " ++ e)
  | .ok src => .ok (migrate toLower quote src)

end Migrate

/-! ### What the migration makes -/

def note (p : Prop) [Decidable p] (msg : GoString) : List GoString := if p then [msg] else []

@[simp] theorem note_true [Decidable True] (msg : GoString) : note True msg = [msg] :=
  if_pos trivial

@[simp] theorem note_false [Decidable False] (msg : GoString) : note False msg = [] := if_neg id

@[simp] theorem note_eq_nil {p : Prop} [Decidable p] {msg : GoString} : note p msg = [] ↔ ¬p := by
  by_cases hp : p <;> simp [note, hp]

theorem note_eq_singleton {p : Prop} [Decidable p] {msg : GoString} : note p msg = [msg] ↔ p := by
  by_cases hp : p <;> simp [note, hp]

theorem ite_warn (m : Migration) (p : Prop) [Decidable p] (msg : GoString) :
    (if p then m.warn msg else m) = ⟨m.cfg, m.warnings ++ note p msg⟩ := by
  rw [note]
  split
  · rfl
  · rw [List.append_nil]

theorem ite_put {α : Type} (m : Migration) (p : Prop) [Decidable p] (L : Lens Config α) (a : α) :
    (if p then m.put L a else m) = m.put L (if p then a else L.get m.cfg) := by
  split
  · rfl
  · rw [Migration.put, L.set_get]

theorem ite_putOrWarn {α : Type} (m : Migration) (p : Prop) [Decidable p] (L : Lens Config α)
    (msg : GoString) (o : Option α) [Decidable (o = none)] :
    (if p then m.putOrWarn L msg o else m) =
      ⟨L.set m.cfg (if p then o.getD (L.get m.cfg) else L.get m.cfg),
        m.warnings ++ note (p ∧ o = none) msg⟩ := by
  by_cases hp : p
  · cases o with
    | none => simp [hp, note, Migration.putOrWarn, Migration.warn, L.set_get]
    | some a => simp [hp, note, Migration.putOrWarn, Migration.put]
  · simp [hp, note, L.set_get]

theorem ite_put_warn {α : Type} (m : Migration) (p q : Prop) [Decidable p] [Decidable q]
    (L : Lens Config α) (a : α) (msg : GoString) :
    (if p then if q then m.put L a else (m.warn msg).put L a else m) =
      ⟨L.set m.cfg (if p then a else L.get m.cfg), m.warnings ++ note (p ∧ ¬q) msg⟩ := by
  by_cases hp : p
  · by_cases hq : q <;> simp [hp, hq, note, Migration.put, Migration.warn]
  · simp [hp, note, L.set_get]

theorem ite_ne_self {α : Type} [DecidableEq α] (a zero : α) :
    (if a ≠ zero then a else zero) = a := by
  split
  · rfl
  · next h => exact (not_not.mp h).symm

section Notes

variable (toLower quote : GoString → GoString)

def requestRouterNotes (src : JavaRequestRouter) : List GoString :=
  note ((src.historySize : ℤ) ≠ 0) (str "requestRouter.historySize=" ++
      formatInt src.historySize ++ str " has no Go equivalent, ignored") ++
    note (src.name ≠ []) (str "requestRouter.name=" ++ quote src.name ++
      str " has no Go equivalent, ignored")

def dataStoreNotes (src : JavaDataStore) : List GoString :=
  note (src.driver ≠ [] ∧ detectDriver toLower src.driver = none) (str "dataStore.driver=" ++
      quote src.driver ++ str ": unrecognised driver, db.driver not set") ++
    note (src.user ≠ []) (str "dataStore.user=" ++ quote src.user ++
      str ": embed credentials in db.dsn instead, ignored") ++
    note (src.password ≠ [])
      (str "dataStore.password: embed credentials in db.dsn instead, ignored")

def backendStateNotes (src : JavaBackendState) : List GoString :=
  note ((src.concurrency : ℤ) ≠ 0)
      (str "backendState.concurrency is handled automatically, ignored") ++
    note (src.healthCheckPath ≠ []) (str "backendState.healthCheckPath=" ++
      quote src.healthCheckPath ++ str " has no Go equivalent, ignored")

def routingNotes (src : JavaRouting) : List GoString :=
  note (src.rulesType ≠ [] ∧ src.rulesType ≠ str "EXTERNAL") (str "routing.rulesType=" ++
    quote src.rulesType ++ str ": only EXTERNAL routing supported, setting routing.type=EXTERNAL")

def authenticationNotes (src : JavaAuthentication) : List GoString :=
  note (src.oauth2.jwkUrl ≠ [] ∧ src.oauth2.redirectUrl ≠ [])
      (str "authentication.oauth2.redirectUrl=" ++ quote src.oauth2.redirectUrl ++
        str " has no Go equivalent, ignored") ++
    note (src.oauth2.jwkUrl = [] ∧ src.defaultType ≠ []) (str "authentication.defaultType=" ++
      quote src.defaultType ++ str ": no OIDC jwkUrl found, auth not configured")

def authorizationNotes (src : JavaAuthorization) : List GoString :=
  note (src.admin ≠ [] ∨ src.user ≠ [] ∨ src.api ≠ [])
    (str "authorization block has no Go equivalent, ignored")

def listNotes (modules managedApps : Option (List Node)) : List GoString :=
  note ((modules.getD []).length > 0) (str "modules not supported, ignored") ++
    note ((managedApps.getD []).length > 0) (str "managedApps not supported, ignored")

def notes (src : JavaConfig) : List GoString :=
  requestRouterNotes quote src.requestRouter ++ dataStoreNotes toLower quote src.dataStore ++
    backendStateNotes quote src.backendState ++ routingNotes quote src.routing ++
    authenticationNotes quote src.authentication ++ authorizationNotes src.authorization ++
    listNotes src.modules src.managedApps

theorem stripJDBCPrefix_nil : stripJDBCPrefix [] = [] := rfl

def migratedDriver (driver : GoString) : GoString :=
  if driver ≠ [] then (detectDriver toLower driver).getD [] else []

def migratedInterval (millis : ℤ) : Duration :=
  if millis ≠ 0 then monitorInterval millis else 0

def migratedRouting (src : JavaRouting) : ConfigFile.RoutingConfig where
  defaultGroup := src.defaultRoutingGroup
  type := if src.rulesType ≠ [] then str "EXTERNAL" else []
  external := { url := src.externalUrl }

def migratedAuth (src : JavaAuthentication) : ConfigFile.AuthConfig :=
  if src.oauth2.jwkUrl ≠ [] then
    { type := str "OIDC"
      oidc :=
        { jwksUrl := src.oauth2.jwkUrl
          issuerUrl := src.oauth2.issuer
          clientId := src.oauth2.clientId
          clientSecret := src.oauth2.clientSecret } }
  else {}

/-- The migrated configuration, field by field. -/
def migrated (src : JavaConfig) : Config where
  proxy :=
    { port := src.requestRouter.port, responseSize := src.requestRouter.requestBufferSize }
  admin := { port := src.dataStore.localPort }
  monitor := { interval := migratedInterval src.backendState.healthCheckInterval }
  db :=
    { dsn := stripJDBCPrefix src.dataStore.jdbcUrl
      driver := migratedDriver toLower src.dataStore.driver }
  routing := migratedRouting src.routing
  auth := migratedAuth src.authentication

variable {toLower quote}

theorem migrateRequestRouter_eq (src : JavaRequestRouter) {m : Migration} (h : m.cfg.proxy = {}) :
    migrateRequestRouter quote src m =
      ⟨{ m.cfg with proxy := { port := src.port, responseSize := src.requestBufferSize } },
        m.warnings ++ requestRouterNotes quote src⟩ := by
  simp only [migrateRequestRouter, ite_put, ite_warn]
  simp only [Migration.put, h, ite_ne_self, requestRouterNotes, List.append_assoc]

theorem migrateDataStore_eq (src : JavaDataStore) {m : Migration} (hdb : m.cfg.db = {})
    (hadmin : m.cfg.admin = {}) :
    migrateDataStore toLower quote src m =
      ⟨{ m.cfg with
          admin := { port := src.localPort }
          db :=
            { dsn := stripJDBCPrefix src.jdbcUrl, driver := migratedDriver toLower src.driver } },
        m.warnings ++ dataStoreNotes toLower quote src⟩ := by
  have hdsn : (if src.jdbcUrl ≠ [] then stripJDBCPrefix src.jdbcUrl else []) =
      stripJDBCPrefix src.jdbcUrl := by
    split
    · rfl
    · next hnil => rw [not_not.mp hnil, stripJDBCPrefix_nil]
  simp only [migrateDataStore, ite_put, ite_warn, ite_putOrWarn]
  simp only [Migration.put, hdb, hadmin, hdsn, ite_ne_self, migratedDriver, dataStoreNotes,
    List.append_assoc]

theorem migrateBackendState_eq (src : JavaBackendState) {m : Migration}
    (h : m.cfg.monitor = {}) :
    migrateBackendState quote src m =
      ⟨{ m.cfg with monitor := { interval := migratedInterval src.healthCheckInterval } },
        m.warnings ++ backendStateNotes quote src⟩ := by
  simp only [migrateBackendState, ite_put, ite_warn]
  simp only [Migration.put, h, migratedInterval, backendStateNotes, List.append_assoc]

theorem migrateRouting_eq (src : JavaRouting) {m : Migration} (h : m.cfg.routing = {}) :
    migrateRouting quote src m =
      ⟨{ m.cfg with routing := migratedRouting src },
        m.warnings ++ routingNotes quote src⟩ := by
  simp only [migrateRouting, ite_put, ite_put_warn]
  simp only [Migration.put, routingType, h, ite_ne_self, migratedRouting, routingNotes]

theorem migrateAuthentication_eq (src : JavaAuthentication) {m : Migration}
    (h : m.cfg.auth = {}) :
    migrateAuthentication quote src m =
      ⟨{ m.cfg with auth := migratedAuth src },
        m.warnings ++ authenticationNotes quote src⟩ := by
  simp only [migrateAuthentication, ite_warn]
  by_cases hjwk : src.oauth2.jwkUrl = []
  · have hcfg : m.cfg = { m.cfg with auth := {} } := by rw [← h]
    simp only [hjwk, migratedAuth, authenticationNotes, note, ne_eq, not_true_eq_false, false_and,
      if_false, true_and, List.nil_append]
    rw [← hcfg]
  · simp only [hjwk, h, migratedAuth, authenticationNotes, note, ne_eq, not_false_eq_true, true_and,
      false_and, if_true, if_false, List.append_nil]

theorem migrate_eq (src : JavaConfig) :
    migrate toLower quote src = ⟨migrated toLower src, notes toLower quote src⟩ := by
  simp only [migrate]
  rw [migrateRequestRouter_eq _ rfl, migrateDataStore_eq _ rfl rfl, migrateBackendState_eq _ rfl,
    migrateRouting_eq _ rfl, migrateAuthentication_eq _ rfl]
  simp only [migrateAuthorization, migrateLists, ite_warn, List.nil_append, List.append_assoc,
    notes, listNotes, authorizationNotes]
  rfl

end Notes

end TrinoGoway.Migrate
