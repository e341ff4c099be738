import TrinoGoway.Migrate.Output
import Mathlib.Tactic.DeriveCountable
import Mathlib.Logic.Equiv.List

/-! The file of a migrated configuration, with its warnings, as `config.Load` reads it: every field
that the migration has set comes back. -/
namespace TrinoGoway.Migrate

open Go Json
open ConfigFile

/-! ### The file -/

/-- The bytes of printable ASCII. -/
def isPrintable (c : UInt8) : Bool := 32 ≤ c && c < 127

/-- The YAML library: what it writes of an output is read as the document of the output, also behind
comments and empty lines. -/
structure Yaml where
  library : Library
  merges : library.Merges
  marshal : OutputConfig → GoString
  unmarshal : GoString → Option Node
  /-- the text can stand in a comment -/
  Comment : GoString → Prop
  comment_of_printable : ∀ s, s.all isPrintable = true → Comment s
  comment_append : ∀ s t, Comment s → Comment t → Comment (s ++ t)
  unmarshal_marshal : ∀ (lines : List GoString) (out : OutputConfig),
    (∀ l ∈ lines, l = [] ∨ ∃ c, Comment c ∧ l = Byte.hash :: c) →
    unmarshal ((lines.map (· ++ [Byte.newline])).flatten ++ marshal out) = some out.document

def marshalWithWarnings (yaml : Yaml) (cfg : OutputConfig) (warnings : List GoString) : GoString :=
  let header := (warnings.map fun w => str "# WARNING: " ++ w ++ str "\n").flatten
  let header := if header.length > 0 then header ++ [Byte.newline] else header
  header ++ yaml.marshal cfg

/-- The warnings are comments, so that the document is that of the configuration. -/
theorem unmarshal_marshalWithWarnings (yaml : Yaml) (out : OutputConfig) {warnings : List GoString}
    (hw : ∀ w ∈ warnings, yaml.Comment w) :
    yaml.unmarshal (marshalWithWarnings yaml out warnings) = some out.document := by
  have hline : ∀ w ∈ warnings, yaml.Comment (str " WARNING: " ++ w) := fun w hmem =>
    yaml.comment_append _ _ (yaml.comment_of_printable _ (by decide)) (hw w hmem)
  cases warnings with
  | nil => exact yaml.unmarshal_marshal [] out (by simp)
  | cons w ws =>
    have hlines := yaml.unmarshal_marshal
      ((w :: ws).map (fun w => Byte.hash :: (str " WARNING: " ++ w)) ++ [[]]) out (by
        intro l hl
        rcases List.mem_append.mp hl with hl | hl
        · obtain ⟨w, hmem, rfl⟩ := List.mem_map.mp hl
          exact Or.inr ⟨_, hline w hmem, rfl⟩
        · exact Or.inl (List.mem_singleton.mp hl))
    rw [List.map_append, List.flatten_append, List.map_map] at hlines
    exact hlines

section Comments

variable {yaml : Yaml} {toLower quote : GoString → GoString}

theorem printable_formatInt (i : ℤ) : (formatInt i).all isPrintable = true := by
  have hdigit : ∀ c : UInt8, Byte.isDigit c = true → isPrintable c = true :=
    Byte.forall_of_ofNat (by decide +kernel)
  have hnat : ∀ n, (formatNat n).all isPrintable = true := fun n =>
    List.all_eq_true.mpr fun c hc => hdigit c (isDigit_of_mem_formatNat hc)
  rw [formatInt]
  split
  · rw [List.all_cons, hnat]
    rfl
  · exact hnat _

theorem comment_quoted (hquote : ∀ s, yaml.Comment (quote s)) {before after : GoString}
    (hbefore : before.all isPrintable = true) (hafter : after.all isPrintable = true)
    (s : GoString) : yaml.Comment (before ++ quote s ++ after) :=
  yaml.comment_append _ _
    (yaml.comment_append _ _ (yaml.comment_of_printable _ hbefore) (hquote s))
    (yaml.comment_of_printable _ hafter)

theorem comment_note {p : Prop} [Decidable p] {msg : GoString} (h : yaml.Comment msg) :
    ∀ w ∈ note p msg, yaml.Comment w := by
  intro w hw
  rw [note] at hw
  split at hw
  · rw [List.mem_singleton.mp hw]
    exact h
  · exact absurd hw List.not_mem_nil

/-- Every warning can stand in a comment. -/
theorem comment_notes (hquote : ∀ s, yaml.Comment (quote s)) (src : JavaConfig) :
    ∀ w ∈ notes toLower quote src, yaml.Comment w := by
  have hsize : yaml.Comment (str "requestRouter.historySize=" ++
      formatInt src.requestRouter.historySize ++ str " has no Go equivalent, ignored") := by
    refine yaml.comment_of_printable _ ?_
    rw [List.all_append, List.all_append, printable_formatInt]
    decide
  have hplain : ∀ s : GoString, s.all isPrintable = true → yaml.Comment s :=
    yaml.comment_of_printable
  simp only [notes, requestRouterNotes, dataStoreNotes, backendStateNotes, routingNotes,
    authenticationNotes, authorizationNotes, listNotes, List.forall_mem_append]
  refine ⟨⟨⟨⟨⟨⟨⟨?_, ?_⟩, ⟨⟨?_, ?_⟩, ?_⟩⟩, ⟨?_, ?_⟩⟩, ?_⟩, ⟨?_, ?_⟩⟩, ?_⟩, ⟨?_, ?_⟩⟩
  all_goals apply comment_note
  all_goals first
    | exact hsize
    | exact comment_quoted hquote (by decide) (by decide) _
    | exact hplain _ (by decide)

end Comments

/-! ### Fields that are set -/

/-- A field of the configuration, with its zero value. -/
structure ConfigField where
  {type : Type}
  get : Config → type
  zero : type

def configFields : List ConfigField :=
  [⟨(·.proxy.port), 0⟩, ⟨(·.proxy.responseSize), 0⟩, ⟨(·.proxy.requestTimeout), 0⟩,
    ⟨(·.proxy.propagateErrors), false⟩, ⟨(·.admin.port), 0⟩, ⟨(·.monitor.interval), 0⟩,
    ⟨(·.monitor.checkTimeout), 0⟩, ⟨(·.monitor.refreshInterval), 0⟩,
    ⟨(·.monitor.statsTimeout), 0⟩, ⟨(·.monitor.retries), 0⟩, ⟨(·.monitor.metricsEndpoint), []⟩,
    ⟨(·.monitor.runningQueriesMetricName), []⟩, ⟨(·.monitor.queuedQueriesMetricName), []⟩,
    ⟨(·.monitor.metricMinimumValues), none⟩, ⟨(·.monitor.metricMaximumValues), none⟩,
    ⟨(·.db.driver), []⟩, ⟨(·.db.dsn), []⟩, ⟨(·.db.autoMigrate), false⟩,
    ⟨(·.routing.defaultGroup), []⟩, ⟨(·.routing.type), []⟩, ⟨(·.routing.external.url), []⟩,
    ⟨(·.routing.external.grpcAddr), []⟩, ⟨(·.routing.external.timeout), 0⟩,
    ⟨(·.routing.external.excludeHeaders), []⟩, ⟨(·.auth.type), []⟩,
    ⟨(·.auth.oidc.issuerUrl), []⟩, ⟨(·.auth.oidc.clientId), []⟩,
    ⟨(·.auth.oidc.clientSecret), []⟩, ⟨(·.auth.oidc.jwksUrl), []⟩,
    ⟨(·.auth.oidc.jwksTtlSecs), 0⟩, ⟨(·.auth.oidc.scopes), []⟩, ⟨(·.auth.oidc.redirectUrl), []⟩,
    ⟨(·.auth.oidc.authorizationEndpoint), []⟩, ⟨(·.auth.oidc.tokenEndpoint), []⟩,
    ⟨(·.auth.ldap.url), []⟩, ⟨(·.auth.ldap.bindDn), []⟩, ⟨(·.auth.ldap.bindPassword), []⟩,
    ⟨(·.auth.ldap.userBase), []⟩, ⟨(·.auth.ldap.userAttr), []⟩,
    ⟨(·.auth.authorization.admin), []⟩, ⟨(·.auth.authorization.user), []⟩,
    ⟨(·.auth.authorization.api), []⟩, ⟨(·.auth.authorization.pagePermissions), []⟩,
    ⟨(·.cookie.secret), []⟩, ⟨(·.cookie.ttl), 0⟩, ⟨(·.cookie.wireCompat), false⟩,
    ⟨(·.metrics.enabled), false⟩, ⟨(·.metrics.path), []⟩, ⟨(·.ui.disablePages), []⟩,
    ⟨(·.clusterStats.monitorType), []⟩, ⟨(·.backendState.username), []⟩,
    ⟨(·.backendState.password), []⟩, ⟨(·.backendState.ssl), false⟩,
    ⟨(·.backendState.xForwardedProtoHeader), false⟩]

/-- A value other than zero is the same after loading. -/
def Kept {α : Type} (zero value loaded : α) : Prop := value ≠ zero → loaded = value

theorem kept_of_eq {α : Type} {zero value : α} (h : value = zero) (loaded : α) :
    Kept zero value loaded := fun hne => absurd h hne

theorem kept_orDefault {α : Type} [DecidableEq α] (zero value default : α) :
    Kept zero value (orDefault zero value default) := fun h => orDefault_of_ne h _

theorem kept_orDefault_twice {α : Type} [DecidableEq α] (zero value default final : α) :
    Kept zero value (orDefault zero (orDefault zero value default) final) := by
  intro h
  rw [orDefault_of_ne h, orDefault_of_ne h]

theorem kept_orPositive {value : ℤ} (h : 0 ≤ value) (default final : ℤ) :
    Kept 0 value (orDefault 0 (orPositive value default) final) := by
  intro hne
  have hpos : 0 < value := lt_of_le_of_ne h hne.symm
  rw [orPositive_of_pos hpos, orDefault_of_ne hne]

/-- The configuration that is loaded, if one is. -/
theorem load_eq {yaml : Yaml} {quote : GoString → GoString} {cfg loaded : Config}
    {warnings : List GoString} (hcfg : Writable cfg) (hw : ∀ w ∈ warnings, yaml.Comment w)
    (hload : load yaml.library yaml.unmarshal quote
      (marshalWithWarnings yaml (toOutput cfg) warnings) = .ok loaded) :
    loaded = applyDefaults (overlay cfg defaultConfig) := by
  obtain ⟨doc, cfg₀, hdoc, hread, -, rfl⟩ := load_eq_ok hload
  rw [unmarshal_marshalWithWarnings yaml _ hw] at hdoc
  obtain rfl := Option.some.inj hdoc
  rw [decode_document yaml.merges defaultConfig hcfg] at hread
  rw [Except.ok.inj hread]

section Load

variable {toLower : GoString → GoString} {src : JavaConfig}

/-- The seconds of the interval do not overflow as nanoseconds. -/
def IntervalInRange (src : JavaConfig) : Prop :=
  (src.backendState.healthCheckInterval : ℤ) = 0 ∨
    healthCheckSeconds src.backendState.healthCheckInterval * second < 2 ^ 63

theorem bmod_second {secs : ℤ} (hlo : 1 ≤ secs) (hlt : secs * second < 2 ^ 63) :
    (secs * second).bmod (2 ^ 64) = secs * second := by
  have hpos : 0 ≤ secs * second := mul_nonneg (by omega) (by decide)
  apply Int.bmod_eq_of_le <;> omega

theorem wholeSeconds_zero : WholeSeconds 0 := ⟨dvd_zero _, by norm_num⟩

theorem migratedInterval_bounds (h : IntervalInRange src) :
    0 ≤ migratedInterval src.backendState.healthCheckInterval ∧
      WholeSeconds (migratedInterval src.backendState.healthCheckInterval) := by
  rw [migratedInterval]
  split
  · next hne =>
    have hlt := h.resolve_left hne
    have hlo := healthCheckSeconds_pos src.backendState.healthCheckInterval
    rw [monitorInterval, bmod_second hlo hlt]
    exact ⟨mul_nonneg (zero_le_one.trans hlo) (by decide), Dvd.intro_left _ rfl, hlt⟩
  · exact ⟨le_rfl, wholeSeconds_zero⟩

theorem writable_migrated (hsize : (migrated toLower src).proxy.responseSize ≤ 2 ^ 53)
    (h : IntervalInRange src) : Writable (migrated toLower src) where
  proxyPort := src.requestRouter.port.2
  adminPort := src.dataStore.localPort.2
  responseSize := hsize
  requestTimeout := wholeSeconds_zero
  interval := (migratedInterval_bounds h).2
  checkTimeout := wholeSeconds_zero
  timeout := wholeSeconds_zero
  ttl := wholeSeconds_zero

theorem kept_migrated (hsize : 0 ≤ (migrated toLower src).proxy.responseSize)
    (h : IntervalInRange src) :
    ∀ f ∈ configFields, Kept f.zero (f.get (migrated toLower src))
      (f.get (applyDefaults (overlay (migrated toLower src) defaultConfig))) := by
  simp only [configFields, List.forall_mem_cons]
  and_intros
  -- a field is not migrated, has a default, has none, or is written if it is positive; the last
  -- are the fields of the authentication that are not migrated
  all_goals first
    | exact kept_of_eq rfl _
    | exact kept_orDefault_twice _ _ _ _
    | exact kept_orDefault _ _ _
    | exact kept_orPositive hsize _ _
    | exact kept_orPositive (migratedInterval_bounds h).1 _ _
    | exact fun f hf => absurd hf List.not_mem_nil
    | exact kept_of_eq (by simp only [migrated, migratedAuth]; split <;> rfl) _

/-- Every field that the migration has set to a value other than zero has that value in the
configuration that is loaded from the written file. -/
theorem load_migrated (yaml : Yaml) (toLower quote : GoString → GoString)
    (hquote : ∀ s, yaml.Comment (quote s)) (unmarshal : GoString → Except GoString JavaConfig)
    (javaYAML : GoString) (src : JavaConfig) (hsrc : unmarshal javaYAML = .ok src) (m : Migration)
    (hm : migrateConfig toLower quote unmarshal javaYAML = .ok m)
    (hsize : m.cfg.proxy.responseSize = 0 ∨
      1 ≤ m.cfg.proxy.responseSize ∧ m.cfg.proxy.responseSize ≤ 2 ^ 53)
    (hinterval : IntervalInRange src) (loaded : Config)
    (hload : load yaml.library yaml.unmarshal quote
      (marshalWithWarnings yaml (toOutput m.cfg) m.warnings) = .ok loaded) :
    ∀ f ∈ configFields, f.get m.cfg ≠ f.zero → f.get loaded = f.get m.cfg := by
  have hmigrate : m = ⟨migrated toLower src, notes toLower quote src⟩ := by
    simp only [migrateConfig, hsrc, migrate_eq, Except.ok.injEq] at hm
    exact hm.symm
  subst hmigrate
  dsimp only at hsize hload
  have hwritable : Writable (migrated toLower src) :=
    writable_migrated (by rcases hsize with h | h <;> omega) hinterval
  rw [load_eq hwritable (comment_notes hquote src) hload]
  exact kept_migrated (by rcases hsize with h | h <;> omega) hinterval

section Samples

/-- A buffer of one and a half kilobytes, an interval that is cut to seconds, and a warning. -/
def smallBuffer : JavaConfig where
  requestRouter :=
    { port := ⟨9090, by norm_num⟩, name := str "router", requestBufferSize := ⟨1536, by norm_num⟩ }
  backendState := { healthCheckInterval := ⟨2500, by norm_num⟩ }

def smallYaml : GoString :=
  str "requestRouter:\n  port: 9090\n  name: router\n  requestBufferSize: 1536\n" ++
    str "backendState:\n  healthCheckInterval: 2500\n"

def decodeSmall (javaYAML : GoString) : Except GoString JavaConfig :=
  if javaYAML = smallYaml then .ok smallBuffer else .error (str "yaml: unmarshal errors")

def lowerAscii (s : GoString) : GoString := s.map Byte.toLower

def smallMigration : Migration := migrate lowerAscii quoted smallBuffer

/-- What is written of it. -/
def smallOutput : GoString :=
  str "proxy:\n    port: 9090\n    responseSize: 1536B\nmonitor:\n    interval: 2s\n"

example : smallMigration.warnings =
    [str "requestRouter.name=\"router\" has no Go equivalent, ignored"] := by decide +kernel

instance countableByte : Countable UInt8 :=
  Function.Injective.countable (f := UInt8.toNat) fun _ _ h => UInt8.toNat_inj.mp h

deriving instance Countable for OutputProxy, OutputAdmin, OutputMonitor, OutputDB, OutputExternal,
  OutputRouting, OutputOIDC, OutputLDAP, OutputAuth, OutputCookie, OutputConfig

def otherKind : DecodeError := .yaml ⟨str "yaml: unmarshal errors"⟩

def itemText : Node → Except DecodeError GoString
  | .null => .ok []
  | .scalar s _ => .ok s
  | _ => .error otherKind

def itemFloat : Node → Except DecodeError ℚ
  | .null => .ok 0
  | .scalar _ (.int i) => .ok (Binary64.round i)
  | .scalar _ (.float q) => .ok q
  | _ => .error otherKind

/-- The members of a map, each put in the place of the member with its key. -/
def mergeEntries {α : Type} (value : Node → Except DecodeError α)
    (members : List (GoString × Node)) (old : List (GoString × α)) :
    Except DecodeError (List (GoString × α)) :=
  members.foldlM (fun m e => (value e.2).map fun v =>
    m.filter (fun o => o.1 ≠ e.1) ++ [(e.1, v)]) old

/-- `yaml.v3` on the nodes of a configuration: a null leaves a scalar as it is, a string is the text
of any scalar, and the words of YAML 1.1 for truth values are accepted. -/
def mergingLibrary : Library where
  text
    | .null, s => .ok s
    | .scalar s _, _ => .ok s
    | _, _ => .error otherKind
  int
    | .null, i => .ok i
    | .scalar _ (.int i), _ => if -2 ^ 63 ≤ i ∧ i < 2 ^ 63 then .ok i else .error otherKind
    | _, _ => .error otherKind
  bool
    | .null, b => .ok b
    | .scalar _ (.bool b), _ => .ok b
    | .scalar s .str, _ =>
      if s ∈ [str "y", str "Y", str "yes", str "on"] then .ok true
      else if s ∈ [str "n", str "N", str "no", str "off"] then .ok false
      else .error otherKind
    | _, _ => .error otherKind
  texts
    | .null, _ => .ok []
    | .sequence items, _ => items.mapM itemText
    | _, _ => .error otherKind
  textMap
    | .null, _ => .ok []
    | .mapping members, old => mergeEntries itemText members old
    | _, _ => .error otherKind
  floatMap
    | .null, _ => .ok none
    | .mapping members, old => (mergeEntries itemFloat members (old.getD [])).map some
    | _, _ => .error otherKind
  method unmarshalYAML
    | .null, old => .ok old
    | node, _ => unmarshalYAML node
  struct keys
    | .null, s => .ok s
    | .mapping members, s =>
      if (members.map Prod.fst).Nodup then decodeMembers keys members s else .error otherKind
    | _, _ => .error otherKind

theorem merges_mergingLibrary : mergingLibrary.Merges where
  text _ _ _ := rfl
  int _ _ _ hi := if_pos hi
  method _ _ _ _ := rfl
  struct _ _ _ hnodup := if_pos hnodup

def isCommentLine (l : GoString) : Bool := l.isEmpty || l.head? == some Byte.hash

/-- The lines of a text behind comments and empty lines. -/
def contentLines (text : GoString) : List GoString :=
  (split Byte.newline text).dropWhile isCommentLine

theorem contentLines_append {lines : List GoString} {t : GoString}
    (hlines : ∀ l ∈ lines, l = [] ∨ ∃ c, Byte.newline ∉ c ∧ l = Byte.hash :: c) :
    contentLines ((lines.map (· ++ [Byte.newline])).flatten ++ t) = contentLines t := by
  induction lines with
  | nil => rfl
  | cons l lines ih =>
    rw [List.forall_mem_cons] at hlines
    have hline : Byte.newline ∉ l ∧ isCommentLine l = true := by
      rcases hlines.1 with rfl | ⟨c, hc, rfl⟩
      · exact ⟨List.not_mem_nil, rfl⟩
      · refine ⟨?_, rfl⟩
        rw [List.mem_cons, not_or]
        exact ⟨by decide, hc⟩
    have hsplit : ((l :: lines).map (· ++ [Byte.newline])).flatten ++ t =
        l ++ Byte.newline :: ((lines.map (· ++ [Byte.newline])).flatten ++ t) := by simp
    rw [hsplit, contentLines, split_append, split_of_not_mem hline.1, List.singleton_append,
      List.dropWhile_cons_of_pos hline.2]
    exact ih hlines.2

open Classical in
/-- The library, as far as this output goes; another one is written as its number. -/
noncomputable def yamlLibrary {e : OutputConfig → ℕ} (he : Function.Injective e) : Yaml where
  library := mergingLibrary
  merges := merges_mergingLibrary
  marshal out := if out = toOutput smallMigration.cfg then smallOutput else formatNat (e out)
  unmarshal text :=
    if contentLines text = contentLines smallOutput then
      some (toOutput smallMigration.cfg).document
    else
      (Function.partialInv e (parseDigits (contentLines text).flatten)).map OutputConfig.document
  Comment c := Byte.newline ∉ c
  comment_of_printable s hs hmem := by
    exact absurd (List.all_eq_true.mp hs _ hmem) (by decide)
  comment_append s t hs ht := by simp [hs, ht]
  unmarshal_marshal lines out hlines := by
    rw [contentLines_append hlines]
    by_cases hout : out = toOutput smallMigration.cfg
    · rw [if_pos hout, if_pos rfl, hout]
    · have hdigits : Byte.newline ∉ formatNat (e out) := fun hmem =>
        absurd (isDigit_of_mem_formatNat hmem) (by decide)
      obtain ⟨c, t, hcons, hdigit⟩ := formatNat_cons (e out)
      have hcomment : isCommentLine (formatNat (e out)) = false := by
        rw [hcons, isCommentLine]
        have hhash : c ≠ Byte.hash := by
          rintro rfl
          cases hdigit
        simp [hhash]
      have hcontent : contentLines (formatNat (e out)) = [formatNat (e out)] := by
        rw [contentLines, split_of_not_mem hdigits, List.dropWhile_cons_of_neg (by simp [hcomment])]
      have hother : contentLines (formatNat (e out)) ≠ contentLines smallOutput := by
        have hlen : (contentLines smallOutput).length = 6 := by decide +kernel
        rw [hcontent]
        intro heq
        rw [← heq] at hlen
        cases hlen
      rw [if_neg hout, if_neg hother, hcontent, List.flatten_singleton, parseDigits_formatNat,
        Function.partialInv_left he, Option.map_some]

end Samples

theorem load_smallBuffer : ∃ (yaml : Yaml) (loaded : Config),
    yaml.marshal (toOutput smallMigration.cfg) = smallOutput ∧
    load yaml.library yaml.unmarshal quoted
      (marshalWithWarnings yaml (toOutput smallMigration.cfg) smallMigration.warnings) =
        .ok loaded ∧
      loaded.proxy.responseSize = 1536 := by
  obtain ⟨e, he⟩ := exists_injective_nat OutputConfig
  have hinterval : IntervalInRange smallBuffer := Or.inr (by decide)
  have hwritable : Writable smallMigration.cfg := by
    rw [smallMigration, migrate_eq]
    exact writable_migrated (by decide) hinterval
  have hwarnings : ∀ w ∈ smallMigration.warnings, Byte.newline ∉ w := by decide +kernel
  have hload : load mergingLibrary (yamlLibrary he).unmarshal quoted
      (marshalWithWarnings (yamlLibrary he) (toOutput smallMigration.cfg)
        smallMigration.warnings) =
      .ok (applyDefaults (overlay smallMigration.cfg defaultConfig)) := by
    rw [load, unmarshal_marshalWithWarnings _ _ hwarnings]
    simp only [decode_document merges_mergingLibrary defaultConfig hwritable]
    rfl
  refine ⟨yamlLibrary he, _, if_pos rfl, hload, ?_⟩
  exact load_migrated (yamlLibrary he) lowerAscii quoted not_mem_quoted decodeSmall smallYaml
    smallBuffer rfl _ rfl (Or.inr (by decide)) hinterval _ hload
    ⟨(·.proxy.responseSize), 0⟩ (List.mem_cons_of_mem _ List.mem_cons_self) (by decide)

end Load

end TrinoGoway.Migrate
