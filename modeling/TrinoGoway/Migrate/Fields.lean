import TrinoGoway.Migrate.JavaConfig
import Mathlib.Tactic.Linarith
import Mathlib.Tactic.NormNum.GCD

/-! The fields of the Java configuration, and which of them the migration takes notice of. -/
namespace TrinoGoway.Migrate

open Go Json
open ConfigFile (Config Node)

inductive Field
  | requestRouter | port | name | historySize | requestBufferSize
  | dataStore | localPort | jdbcUrl | dataStoreUser | password | driver
  | backendState | healthCheckPath | concurrency | healthCheckInterval
  | routing | defaultRoutingGroup | rulesType | externalUrl
  | clusterStatsConfig | useApi
  | authentication | defaultType | oauth2 | issuer | clientId | clientSecret | redirectUrl | jwkUrl
  | authorization | admin | user | api
  | modules | managedApps

structure Place where
  {type : Type}
  lens : Lens JavaConfig type
  zero : type

namespace Place

@[simp] def requestRouter : Lens JavaConfig JavaRequestRouter :=
  ⟨(·.requestRouter), fun c v => { c with requestRouter := v }, fun _ => rfl⟩

@[simp] def dataStore : Lens JavaConfig JavaDataStore :=
  ⟨(·.dataStore), fun c v => { c with dataStore := v }, fun _ => rfl⟩

@[simp] def backendState : Lens JavaConfig JavaBackendState :=
  ⟨(·.backendState), fun c v => { c with backendState := v }, fun _ => rfl⟩

@[simp] def routing : Lens JavaConfig JavaRouting :=
  ⟨(·.routing), fun c v => { c with routing := v }, fun _ => rfl⟩

@[simp] def clusterStatsConfig : Lens JavaConfig JavaClusterStatsConfig :=
  ⟨(·.clusterStatsConfig), fun c v => { c with clusterStatsConfig := v }, fun _ => rfl⟩

@[simp] def authentication : Lens JavaConfig JavaAuthentication :=
  ⟨(·.authentication), fun c v => { c with authentication := v }, fun _ => rfl⟩

@[simp] def oauth2 : Lens JavaConfig JavaOAuth2 :=
  authentication.comp ⟨(·.oauth2), fun c v => { c with oauth2 := v }, fun _ => rfl⟩

@[simp] def authorization : Lens JavaConfig JavaAuthorization :=
  ⟨(·.authorization), fun c v => { c with authorization := v }, fun _ => rfl⟩

end Place

open Place in
@[simp] def place : Field → Place
  | .requestRouter => ⟨requestRouter, {}⟩
  | .port => ⟨requestRouter.comp ⟨(·.port), fun c v => { c with port := v }, fun _ => rfl⟩, 0⟩
  | .name => ⟨requestRouter.comp ⟨(·.name), fun c v => { c with name := v }, fun _ => rfl⟩, []⟩
  | .historySize =>
    ⟨requestRouter.comp ⟨(·.historySize), fun c v => { c with historySize := v }, fun _ => rfl⟩, 0⟩
  | .requestBufferSize =>
    ⟨requestRouter.comp
      ⟨(·.requestBufferSize), fun c v => { c with requestBufferSize := v }, fun _ => rfl⟩, 0⟩
  | .dataStore => ⟨dataStore, {}⟩
  | .localPort =>
    ⟨dataStore.comp ⟨(·.localPort), fun c v => { c with localPort := v }, fun _ => rfl⟩, 0⟩
  | .jdbcUrl => ⟨dataStore.comp ⟨(·.jdbcUrl), fun c v => { c with jdbcUrl := v }, fun _ => rfl⟩, []⟩
  | .dataStoreUser => ⟨dataStore.comp ⟨(·.user), fun c v => { c with user := v }, fun _ => rfl⟩, []⟩
  | .password =>
    ⟨dataStore.comp ⟨(·.password), fun c v => { c with password := v }, fun _ => rfl⟩, []⟩
  | .driver => ⟨dataStore.comp ⟨(·.driver), fun c v => { c with driver := v }, fun _ => rfl⟩, []⟩
  | .backendState => ⟨backendState, {}⟩
  | .healthCheckPath =>
    ⟨backendState.comp
      ⟨(·.healthCheckPath), fun c v => { c with healthCheckPath := v }, fun _ => rfl⟩, []⟩
  | .concurrency =>
    ⟨backendState.comp ⟨(·.concurrency), fun c v => { c with concurrency := v }, fun _ => rfl⟩, 0⟩
  | .healthCheckInterval =>
    ⟨backendState.comp
      ⟨(·.healthCheckInterval), fun c v => { c with healthCheckInterval := v }, fun _ => rfl⟩, 0⟩
  | .routing => ⟨routing, {}⟩
  | .defaultRoutingGroup =>
    ⟨routing.comp
      ⟨(·.defaultRoutingGroup), fun c v => { c with defaultRoutingGroup := v }, fun _ => rfl⟩, []⟩
  | .rulesType =>
    ⟨routing.comp ⟨(·.rulesType), fun c v => { c with rulesType := v }, fun _ => rfl⟩, []⟩
  | .externalUrl =>
    ⟨routing.comp ⟨(·.externalUrl), fun c v => { c with externalUrl := v }, fun _ => rfl⟩, []⟩
  | .clusterStatsConfig => ⟨clusterStatsConfig, {}⟩
  | .useApi =>
    ⟨clusterStatsConfig.comp ⟨(·.useApi), fun c v => { c with useApi := v }, fun _ => rfl⟩, false⟩
  | .authentication => ⟨authentication, {}⟩
  | .defaultType =>
    ⟨authentication.comp
      ⟨(·.defaultType), fun c v => { c with defaultType := v }, fun _ => rfl⟩, []⟩
  | .oauth2 => ⟨oauth2, {}⟩
  | .issuer => ⟨oauth2.comp ⟨(·.issuer), fun c v => { c with issuer := v }, fun _ => rfl⟩, []⟩
  | .clientId => ⟨oauth2.comp ⟨(·.clientId), fun c v => { c with clientId := v }, fun _ => rfl⟩, []⟩
  | .clientSecret =>
    ⟨oauth2.comp ⟨(·.clientSecret), fun c v => { c with clientSecret := v }, fun _ => rfl⟩, []⟩
  | .redirectUrl =>
    ⟨oauth2.comp ⟨(·.redirectUrl), fun c v => { c with redirectUrl := v }, fun _ => rfl⟩, []⟩
  | .jwkUrl => ⟨oauth2.comp ⟨(·.jwkUrl), fun c v => { c with jwkUrl := v }, fun _ => rfl⟩, []⟩
  | .authorization => ⟨authorization, {}⟩
  | .admin => ⟨authorization.comp ⟨(·.admin), fun c v => { c with admin := v }, fun _ => rfl⟩, []⟩
  | .user => ⟨authorization.comp ⟨(·.user), fun c v => { c with user := v }, fun _ => rfl⟩, []⟩
  | .api => ⟨authorization.comp ⟨(·.api), fun c v => { c with api := v }, fun _ => rfl⟩, []⟩
  | .modules => ⟨⟨(·.modules), fun c v => { c with modules := v }, fun _ => rfl⟩, none⟩
  | .managedApps => ⟨⟨(·.managedApps), fun c v => { c with managedApps := v }, fun _ => rfl⟩, none⟩

namespace JavaConfig

@[simp] def IsSet (f : Field) (src : JavaConfig) : Prop := (place f).lens.get src ≠ (place f).zero

@[simp] def clear (f : Field) (src : JavaConfig) : JavaConfig :=
  (place f).lens.set src (place f).zero

end JavaConfig

/-- What the migration looks at: some fields only beside others, and `useApi` never. A block is
taken notice of when one of its fields is. -/
def Noticed (src : JavaConfig) : Field → Prop
  | .clusterStatsConfig | .useApi => False
  | .oauth2 | .issuer | .clientId | .clientSecret | .redirectUrl =>
    src.authentication.oauth2.jwkUrl ≠ []
  | .defaultType => src.authentication.oauth2.jwkUrl = []
  | .authentication =>
    src.authentication.oauth2.jwkUrl ≠ [] ∨ src.authentication.defaultType ≠ []
  -- there is one warning for the three patterns together
  | .admin => src.authorization.user = [] ∧ src.authorization.api = []
  | .user => src.authorization.admin = [] ∧ src.authorization.api = []
  | .api => src.authorization.admin = [] ∧ src.authorization.user = []
  -- nothing is left of an URL that is only the prefix
  | .jdbcUrl => src.dataStore.jdbcUrl ≠ str "jdbc:"
  | .dataStore => src.dataStore ≠ { jdbcUrl := str "jdbc:" }
  | .modules => src.modules.getD [] ≠ []
  | .managedApps => src.managedApps.getD [] ≠ []
  | _ => True

section Sections

variable {toLower quote : GoString → GoString} {src : JavaConfig}

theorem migrate_requestRouter_iff (r : JavaRequestRouter) :
    migrate toLower quote { src with requestRouter := r } = migrate toLower quote src ↔
      r.port = src.requestRouter.port ∧
        r.requestBufferSize = src.requestRouter.requestBufferSize ∧
        requestRouterNotes quote r = requestRouterNotes quote src.requestRouter := by
  simp [migrate_eq, migrated, notes, Subtype.ext_iff, and_assoc]

theorem migrate_dataStore_iff (d : JavaDataStore) :
    migrate toLower quote { src with dataStore := d } = migrate toLower quote src ↔
      d.localPort = src.dataStore.localPort ∧
        migratedDriver toLower d.driver = migratedDriver toLower src.dataStore.driver ∧
        stripJDBCPrefix d.jdbcUrl = stripJDBCPrefix src.dataStore.jdbcUrl ∧
        dataStoreNotes toLower quote d = dataStoreNotes toLower quote src.dataStore := by
  simp [migrate_eq, migrated, notes, Subtype.ext_iff, and_assoc]

theorem migrate_backendState_iff (b : JavaBackendState) :
    migrate toLower quote { src with backendState := b } = migrate toLower quote src ↔
      migratedInterval b.healthCheckInterval =
          migratedInterval src.backendState.healthCheckInterval ∧
        backendStateNotes quote b = backendStateNotes quote src.backendState := by
  simp [migrate_eq, migrated, notes]

theorem migrate_routing_iff (r : JavaRouting) :
    migrate toLower quote { src with routing := r } = migrate toLower quote src ↔
      migratedRouting r = migratedRouting src.routing ∧
        routingNotes quote r = routingNotes quote src.routing := by
  simp [migrate_eq, migrated, notes]

theorem migrate_authentication_iff (a : JavaAuthentication) :
    migrate toLower quote { src with authentication := a } = migrate toLower quote src ↔
      migratedAuth a = migratedAuth src.authentication ∧
        authenticationNotes quote a = authenticationNotes quote src.authentication := by
  simp [migrate_eq, migrated, notes]

theorem migrate_authorization_iff (a : JavaAuthorization) :
    migrate toLower quote { src with authorization := a } = migrate toLower quote src ↔
      authorizationNotes a = authorizationNotes src.authorization := by
  simp [migrate_eq, migrated, notes]

theorem migrate_lists_iff (modules managedApps : Option (List Node)) :
    migrate toLower quote { src with modules := modules, managedApps := managedApps } =
        migrate toLower quote src ↔
      listNotes modules managedApps = listNotes src.modules src.managedApps := by
  simp [migrate_eq, migrated, notes]

/-- Seconds do not overflow to zero: `2 ^ 64` would divide `10 ^ 9` times their number, and so
`2 ^ 55` the number. -/
theorem bmod_second_ne_zero {secs : ℤ} (hlo : 1 ≤ secs) (hhi : secs < 2 ^ 55) :
    (secs * ConfigFile.second).bmod (2 ^ 64) ≠ 0 := by
  intro hzero
  obtain ⟨k, hk⟩ := Int.dvd_of_bmod_eq_zero hzero
  rw [ConfigFile.second, Nat.cast_pow, Nat.cast_ofNat] at hk
  have hdvd : (2 : ℤ) ^ 55 ∣ secs * 5 ^ 9 := ⟨k, by linarith⟩
  have hsecs : (2 : ℤ) ^ 55 ∣ secs := Int.dvd_of_dvd_mul_left_of_gcd_one hdvd (by norm_num)
  have hle := Int.le_of_dvd (lt_of_lt_of_le one_pos hlo) hsecs
  exact absurd hhi (not_lt.mpr hle)

theorem monitorInterval_ne_zero (i : GoInt) : monitorInterval i ≠ 0 :=
  bmod_second_ne_zero (healthCheckSeconds_pos i) (healthCheckSeconds_lt i)

theorem migratedInterval_eq_zero {i : GoInt} : migratedInterval i = 0 ↔ i = 0 := by
  rw [migratedInterval, ← coe_eq_zero]
  split
  · next h => exact iff_of_false (monitorInterval_ne_zero _) h
  · next h => exact iff_of_true rfl (not_not.mp h)

theorem stripJDBCPrefix_eq_nil {url : GoString} :
    stripJDBCPrefix url = [] ↔ url = [] ∨ url = str "jdbc:" := by
  rw [stripJDBCPrefix]
  split
  · next h =>
    rw [hasPrefix, List.isPrefixOf_iff_prefix] at h
    obtain ⟨rest, rfl⟩ := h
    have hdrop : (str "jdbc:" ++ rest).drop 5 = rest := rfl
    rw [hdrop]
    constructor
    · intro hrest
      rw [hrest, List.append_nil]
      exact Or.inr rfl
    · rintro (hnil | hjdbc)
      · exact absurd (List.append_eq_nil_iff.mp hnil).1 (by decide)
      · simpa using hjdbc
  · next h =>
    constructor
    · exact Or.inl
    · rintro (hnil | rfl)
      · exact hnil
      · exact absurd (by decide) h

theorem driver_noticed {driver : GoString} (hdriver : driver ≠ [])
    (hdetect : detectDriver toLower driver ≠ none) : migratedDriver toLower driver ≠ [] := by
  rw [migratedDriver, if_pos hdriver]
  unfold detectDriver at hdetect ⊢
  dsimp only at hdetect ⊢
  split
  · decide
  · next h =>
    rw [if_neg h] at hdetect
    split at hdetect
    · next hmysql =>
      rw [if_pos hmysql]
      decide
    · exact absurd rfl hdetect

/-! ### Blocks without a trace -/

theorem requestRouter_eq_empty {r : JavaRequestRouter} (hport : r.port = 0)
    (hsize : r.requestBufferSize = 0) (hnotes : requestRouterNotes quote r = []) : r = {} := by
  simp only [requestRouterNotes, List.append_eq_nil_iff, note_eq_nil, not_not, coe_eq_zero]
    at hnotes
  cases r
  simp_all

theorem dataStore_eq_jdbc {d : JavaDataStore} (hport : d.localPort = 0)
    (hdriver : migratedDriver toLower d.driver = []) (hdsn : stripJDBCPrefix d.jdbcUrl = [])
    (hnotes : dataStoreNotes toLower quote d = []) : d = {} ∨ d = { jdbcUrl := str "jdbc:" } := by
  simp only [dataStoreNotes, List.append_eq_nil_iff, note_eq_nil, not_not, not_and] at hnotes
  have hnone : d.driver = [] := by
    by_contra hne
    exact driver_noticed hne (hnotes.1.1 hne) hdriver
  cases d
  simp_all [stripJDBCPrefix_eq_nil]

theorem backendState_eq_empty {b : JavaBackendState}
    (hinterval : migratedInterval b.healthCheckInterval = 0)
    (hnotes : backendStateNotes quote b = []) : b = {} := by
  rw [migratedInterval_eq_zero] at hinterval
  simp only [backendStateNotes, List.append_eq_nil_iff, note_eq_nil, not_not, coe_eq_zero] at hnotes
  cases b
  simp_all

theorem routing_eq_empty {r : JavaRouting} (h : migratedRouting r = {}) : r = {} := by
  simp only [migratedRouting, ConfigFile.RoutingConfig.mk.injEq] at h
  obtain ⟨hgroup, htype, hexternal⟩ := h
  have hrules : r.rulesType = [] := by
    by_contra hne
    rw [if_pos hne] at htype
    exact absurd htype (by decide)
  cases r
  simp_all

theorem authorization_eq_empty {a : JavaAuthorization} (hnotes : authorizationNotes a = []) :
    a = {} := by
  simp only [authorizationNotes, note_eq_nil, not_or, not_not] at hnotes
  cases a
  simp_all

end Sections

section DataStore

variable {toLower quote : GoString → GoString} {src : JavaConfig}

theorem migrate_clear_user (hset : src.dataStore.user ≠ []) :
    migrate toLower quote (src.clear .dataStoreUser) ≠ migrate toLower quote src := by
  intro h
  obtain ⟨-, -, -, hnotes⟩ := (migrate_dataStore_iff _).mp h
  simp [dataStoreNotes, hset] at hnotes
  exact List.cons_ne_self _ _ hnotes.symm

theorem migrate_clear_driver (hset : src.dataStore.driver ≠ []) :
    migrate toLower quote (src.clear .driver) ≠ migrate toLower quote src := by
  intro h
  obtain ⟨-, hdriver, -, hnotes⟩ := (migrate_dataStore_iff _).mp h
  have hnone : detectDriver toLower src.dataStore.driver = none := by
    by_contra hdetect
    exact driver_noticed hset hdetect hdriver.symm
  simp [dataStoreNotes, hset, hnone] at hnotes
  exact List.cons_ne_self _ _ hnotes.symm

theorem migrate_clear_jdbcUrl_iff (hset : src.dataStore.jdbcUrl ≠ []) :
    migrate toLower quote (src.clear .jdbcUrl) = migrate toLower quote src ↔
      src.dataStore.jdbcUrl = str "jdbc:" := by
  have hnil : stripJDBCPrefix [] = stripJDBCPrefix src.dataStore.jdbcUrl ↔
      src.dataStore.jdbcUrl = str "jdbc:" := by
    rw [stripJDBCPrefix_nil, eq_comm, stripJDBCPrefix_eq_nil, or_iff_right hset]
  refine (migrate_dataStore_iff _).trans ⟨fun h => hnil.mp h.2.2.1, fun h => ?_⟩
  exact ⟨rfl, rfl, hnil.mpr h, rfl⟩

theorem migrate_clear_dataStore_iff (hset : src.dataStore ≠ {}) :
    migrate toLower quote (src.clear .dataStore) = migrate toLower quote src ↔
      src.dataStore = { jdbcUrl := str "jdbc:" } := by
  refine (migrate_dataStore_iff _).trans ⟨?_, fun h => ?_⟩
  · rintro ⟨hport, hdriver, hdsn, hnotes⟩
    exact (dataStore_eq_jdbc hport.symm hdriver.symm hdsn.symm hnotes.symm).resolve_left hset
  · rw [h]
    exact ⟨rfl, rfl, rfl, rfl⟩

end DataStore

section Noticed

variable {toLower quote : GoString → GoString} {src : JavaConfig}

/-- The configuration without a field that is set migrates to the same, unless the migration takes
notice of the field. -/
theorem migrate_clear_iff {f : Field} (hset : src.IsSet f) :
    migrate toLower quote (src.clear f) = migrate toLower quote src ↔ ¬Noticed src f := by
  cases f with
  | port | name | historySize | requestBufferSize =>
    refine (migrate_requestRouter_iff _).trans ?_
    have hset' := hset.symm
    simp at hset hset'
    simp [Noticed, requestRouterNotes, hset, hset']
  | requestRouter =>
    refine (migrate_requestRouter_iff _).trans (iff_of_false ?_ (not_not.mpr trivial))
    rintro ⟨hport, hsize, hnotes⟩
    exact hset (requestRouter_eq_empty hport.symm hsize.symm hnotes.symm)
  | localPort | password =>
    refine (migrate_dataStore_iff _).trans ?_
    have hset' := hset.symm
    simp at hset hset'
    simp [Noticed, dataStoreNotes, hset, hset']
  | dataStoreUser => exact iff_of_false (migrate_clear_user hset) (not_not.mpr trivial)
  | driver => exact iff_of_false (migrate_clear_driver hset) (not_not.mpr trivial)
  | jdbcUrl => exact (migrate_clear_jdbcUrl_iff hset).trans not_not.symm
  | dataStore => exact (migrate_clear_dataStore_iff hset).trans not_not.symm
  | healthCheckPath | concurrency =>
    refine (migrate_backendState_iff _).trans ?_
    simp at hset
    simp [Noticed, backendStateNotes, hset]
  | healthCheckInterval =>
    refine (migrate_backendState_iff _).trans (iff_of_false ?_ (not_not.mpr trivial))
    rintro ⟨hinterval, -⟩
    exact hset (migratedInterval_eq_zero.mp hinterval.symm)
  | backendState =>
    refine (migrate_backendState_iff _).trans (iff_of_false ?_ (not_not.mpr trivial))
    rintro ⟨hinterval, hnotes⟩
    exact hset (backendState_eq_empty hinterval.symm hnotes.symm)
  | defaultRoutingGroup | rulesType | externalUrl =>
    refine (migrate_routing_iff _).trans ?_
    have hexternal : str "EXTERNAL" ≠ [] := by decide
    simp at hset
    simp [Noticed, routingNotes, migratedRouting, hset, hexternal]
  | routing =>
    refine (migrate_routing_iff _).trans (iff_of_false ?_ (not_not.mpr trivial))
    rintro ⟨hrouting, -⟩
    exact hset (routing_eq_empty hrouting.symm)
  | useApi | clusterStatsConfig => exact iff_of_true rfl id
  | defaultType | issuer | clientId | clientSecret | redirectUrl | oauth2 | authentication =>
    refine (migrate_authentication_iff _).trans ?_
    simp at hset
    by_cases h : src.authentication.oauth2.jwkUrl = [] <;>
      simp [Noticed, authenticationNotes, migratedAuth, hset, h]
  | jwkUrl =>
    refine (migrate_authentication_iff _).trans ?_
    simp at hset
    simp [Noticed, authenticationNotes, migratedAuth, hset]
  | admin | user | api =>
    refine (migrate_authorization_iff _).trans ?_
    simp at hset
    simp [Noticed, authorizationNotes, hset, note_eq_singleton, imp_iff_not_or]
  | authorization =>
    refine (migrate_authorization_iff _).trans (iff_of_false ?_ (not_not.mpr trivial))
    intro hnotes
    exact hset (authorization_eq_empty hnotes.symm)
  | modules | managedApps =>
    refine (migrate_lists_iff _ _).trans ?_
    simp [Noticed, listNotes]

/-- Without one field that is set, the migrated configuration or the warnings are different for the
fields that are taken notice of, and the same for the others. -/
theorem migrateConfig_ne_iff (toLower quote : GoString → GoString)
    (unmarshal : GoString → Except GoString JavaConfig) (javaYAML without : GoString)
    (src : JavaConfig) (f : Field) (hsrc : unmarshal javaYAML = .ok src)
    (hwithout : unmarshal without = .ok (src.clear f)) (hset : src.IsSet f) :
    migrateConfig toLower quote unmarshal without ≠ migrateConfig toLower quote unmarshal javaYAML ↔
      Noticed src f := by
  rw [migrateConfig, migrateConfig, hsrc, hwithout]
  have hiff : migrate toLower quote (src.clear f) = migrate toLower quote src ↔ ¬Noticed src f :=
    migrate_clear_iff hset
  simp only [ne_eq, Except.ok.injEq, hiff, not_not]

def oidcConfig : JavaConfig where
  authentication :=
    { oauth2 := { issuer := str "https://idp", jwkUrl := str "https://idp/jwks" } }

def apiConfig : JavaConfig where
  clusterStatsConfig := { useApi := true }

def issuerYaml : GoString :=
  str "authentication:\n  oauth2:\n    issuer: https://idp\n    jwkUrl: https://idp/jwks\n"

def noIssuerYaml : GoString :=
  str "authentication:\n  oauth2:\n    jwkUrl: https://idp/jwks\n"

def apiYaml : GoString := str "clusterStatsConfiguration:\n  useApi: true\n"

/-- These documents, decoded; an empty one sets nothing. -/
def documents (javaYAML : GoString) : Except GoString JavaConfig :=
  if javaYAML = issuerYaml then .ok oidcConfig
  else if javaYAML = noIssuerYaml then .ok (oidcConfig.clear .issuer)
  else if javaYAML = apiYaml then .ok apiConfig
  else if javaYAML = [] then .ok {}
  else .error (str "yaml: unmarshal errors")

theorem migrateConfig_issuer :
    oidcConfig.IsSet .issuer ∧ ∀ toLower quote : GoString → GoString,
      migrateConfig toLower quote documents noIssuerYaml ≠
        migrateConfig toLower quote documents issuerYaml := by
  have hset : oidcConfig.IsSet .issuer := by
    change str "https://idp" ≠ []
    decide
  have hjwk : Noticed oidcConfig .issuer := by
    change str "https://idp/jwks" ≠ []
    decide
  refine ⟨hset, fun toLower quote => ?_⟩
  exact (migrateConfig_ne_iff toLower quote _ _ _ _ .issuer rfl rfl hset).mpr hjwk

/-- The migration of `useApi: true` is that of an empty configuration, without a warning. -/
theorem useApi_dropped :
    apiConfig.IsSet .useApi ∧ ∀ toLower quote : GoString → GoString,
      migrateConfig toLower quote documents [] = .ok ⟨{}, []⟩ ∧
        migrateConfig toLower quote documents apiYaml = .ok ⟨{}, []⟩ := by
  constructor
  · exact Bool.noConfusion
  · intro toLower quote
    exact ⟨rfl, rfl⟩

end Noticed

end TrinoGoway.Migrate
