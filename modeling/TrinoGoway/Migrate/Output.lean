import TrinoGoway.Migrate.JavaConfig
import TrinoGoway.Go.Marshal

/-! The YAML document of a configuration, and what the decoder of `config.Load` makes of it: the
configuration laid over the one that is there. -/
namespace TrinoGoway.Migrate

open Go Json
open ConfigFile

/-! ### The output -/

structure OutputProxy where
  port : ℤ := 0
  responseSize : GoString := []
  requestTimeout : GoString := []

structure OutputAdmin where
  port : ℤ := 0

structure OutputMonitor where
  interval : GoString := []
  checkTimeout : GoString := []

structure OutputDB where
  driver : GoString := []
  dsn : GoString := []

structure OutputExternal where
  url : GoString := []
  grpcAddr : GoString := []
  timeout : GoString := []

structure OutputRouting where
  defaultGroup : GoString := []
  type : GoString := []
  external : OutputExternal := {}

structure OutputOIDC where
  issuerUrl : GoString := []
  clientId : GoString := []
  clientSecret : GoString := []
  jwksUrl : GoString := []

structure OutputLDAP where
  url : GoString := []
  bindDn : GoString := []
  bindPassword : GoString := []
  userBase : GoString := []
  userAttr : GoString := []

structure OutputAuth where
  type : GoString := []
  oidc : OutputOIDC := {}
  ldap : OutputLDAP := {}

structure OutputCookie where
  secret : GoString := []
  ttl : GoString := []
  wireCompat : Option Bool := none

structure OutputConfig where
  proxy : OutputProxy := {}
  admin : OutputAdmin := {}
  monitor : OutputMonitor := {}
  db : OutputDB := {}
  routing : OutputRouting := {}
  auth : OutputAuth := {}
  cookie : OutputCookie := {}

def formatBytes (b : ℤ) : GoString :=
  if b ≥ 1073741824 ∧ b.tmod 1073741824 = 0 then
    formatInt (b.tdiv 1073741824) ++ str "GiB"
  else if b ≥ 1048576 ∧ b.tmod 1048576 = 0 then
    formatInt (b.tdiv 1048576) ++ str "MiB"
  else if b ≥ 1024 ∧ b.tmod 1024 = 0 then
    formatInt (b.tdiv 1024) ++ str "KiB"
  else formatInt b ++ str "B"

def durationText (d : Duration) : GoString := if d > 0 then durationString d else []

def toOutput (cfg : Config) : OutputConfig where
  proxy :=
    { port := cfg.proxy.port
      responseSize := if cfg.proxy.responseSize > 0 then formatBytes cfg.proxy.responseSize else []
      requestTimeout := durationText cfg.proxy.requestTimeout }
  admin := { port := cfg.admin.port }
  monitor :=
    { interval := durationText cfg.monitor.interval
      checkTimeout := durationText cfg.monitor.checkTimeout }
  db := { driver := cfg.db.driver, dsn := cfg.db.dsn }
  routing :=
    { defaultGroup := cfg.routing.defaultGroup
      type := cfg.routing.type
      external :=
        { url := cfg.routing.external.url
          grpcAddr := cfg.routing.external.grpcAddr
          timeout := durationText cfg.routing.external.timeout } }
  auth :=
    { type := cfg.auth.type
      oidc :=
        { issuerUrl := cfg.auth.oidc.issuerUrl
          clientId := cfg.auth.oidc.clientId
          clientSecret := cfg.auth.oidc.clientSecret
          jwksUrl := cfg.auth.oidc.jwksUrl }
      ldap :=
        { url := cfg.auth.ldap.url
          bindDn := cfg.auth.ldap.bindDn
          bindPassword := cfg.auth.ldap.bindPassword
          userBase := cfg.auth.ldap.userBase
          userAttr := cfg.auth.ldap.userAttr } }
  cookie := { secret := cfg.cookie.secret, ttl := durationText cfg.cookie.ttl }

/-! ### The document -/

/-- A member of a mapping that is left out when it is empty. -/
def intMember (key : GoString) (i : ℤ) : List (GoString × Node) :=
  if i = 0 then [] else [(key, .scalar (formatInt i) (.int i))]

def textMember (key s : GoString) : List (GoString × Node) :=
  if s = [] then [] else [(key, .scalar s .str)]

def structMember (key : GoString) (members : List (GoString × Node)) : List (GoString × Node) :=
  if members = [] then [] else [(key, .mapping members)]

def boolMember (key : GoString) : Option Bool → List (GoString × Node)
  | none => []
  | some b => [(key, .scalar (if b then str "true" else str "false") (.bool b))]

def OutputProxy.members (out : OutputProxy) : List (GoString × Node) :=
  intMember (str "port") out.port ++ textMember (str "responseSize") out.responseSize ++
    textMember (str "requestTimeout") out.requestTimeout

def OutputAdmin.members (out : OutputAdmin) : List (GoString × Node) :=
  intMember (str "port") out.port

def OutputMonitor.members (out : OutputMonitor) : List (GoString × Node) :=
  textMember (str "interval") out.interval ++ textMember (str "checkTimeout") out.checkTimeout

def OutputDB.members (out : OutputDB) : List (GoString × Node) :=
  textMember (str "driver") out.driver ++ textMember (str "dsn") out.dsn

def OutputExternal.members (out : OutputExternal) : List (GoString × Node) :=
  textMember (str "url") out.url ++ textMember (str "grpcAddr") out.grpcAddr ++
    textMember (str "timeout") out.timeout

def OutputRouting.members (out : OutputRouting) : List (GoString × Node) :=
  textMember (str "defaultGroup") out.defaultGroup ++ textMember (str "type") out.type ++
    structMember (str "external") out.external.members

def OutputOIDC.members (out : OutputOIDC) : List (GoString × Node) :=
  textMember (str "issuerUrl") out.issuerUrl ++ textMember (str "clientId") out.clientId ++
    textMember (str "clientSecret") out.clientSecret ++ textMember (str "jwksUrl") out.jwksUrl

def OutputLDAP.members (out : OutputLDAP) : List (GoString × Node) :=
  textMember (str "url") out.url ++ textMember (str "bindDn") out.bindDn ++
    textMember (str "bindPassword") out.bindPassword ++
    textMember (str "userBase") out.userBase ++ textMember (str "userAttr") out.userAttr

def OutputAuth.members (out : OutputAuth) : List (GoString × Node) :=
  textMember (str "type") out.type ++ structMember (str "oidc") out.oidc.members ++
    structMember (str "ldap") out.ldap.members

def OutputCookie.members (out : OutputCookie) : List (GoString × Node) :=
  textMember (str "secret") out.secret ++ textMember (str "ttl") out.ttl ++
    boolMember (str "wireCompat") out.wireCompat

def OutputConfig.members (out : OutputConfig) : List (GoString × Node) :=
  structMember (str "proxy") out.proxy.members ++ structMember (str "admin") out.admin.members ++
    structMember (str "monitor") out.monitor.members ++ structMember (str "db") out.db.members ++
    structMember (str "routing") out.routing.members ++
    structMember (str "auth") out.auth.members ++ structMember (str "cookie") out.cookie.members

/-- The document of an output, as `yaml.Marshal` writes it. -/
def OutputConfig.document (out : OutputConfig) : Node := .mapping out.members

/-! ### Reading the document -/

section Members

variable {lib : Library} {σ τ : Type} (keys : List (GoString × Decoder σ)) (key : GoString)

theorem decode_intMember (hlib : lib.Merges) {L : Lens σ ℤ}
    (hkey : keys.lookup key = some (field L lib.int)) {i : ℤ} (hi : -2 ^ 63 ≤ i ∧ i < 2 ^ 63)
    (s : σ) :
    decodeMembers keys (intMember key i) s = .ok (L.set s (orDefault 0 i (L.get s))) :=
  decodeMembers_optional hkey _ _ s i fun _ => hlib.int _ i _ hi

theorem decode_textMember (hlib : lib.Merges) {L : Lens σ GoString}
    (hkey : keys.lookup key = some (field L lib.text)) (t : GoString) (s : σ) :
    decodeMembers keys (textMember key t) s = .ok (L.set s (orDefault [] t (L.get s))) :=
  decodeMembers_optional hkey _ _ s t fun _ => hlib.text t _ _

def orPositive (value default : ℤ) : ℤ := if value > 0 then value else default

theorem orPositive_of_pos {value : ℤ} (h : 0 < value) (default : ℤ) :
    orPositive value default = value := if_pos h

theorem decode_positive {L : Lens σ ℤ} {d : Decoder ℤ} (hkey : keys.lookup key = some (field L d))
    {value : ℤ} {t : GoString} (hne : 0 < value → t ≠ [])
    (hread : 0 < value → ∀ old, d (.scalar t .str) old = .ok value) (s : σ) :
    decodeMembers keys (textMember key (if value > 0 then t else [])) s =
      .ok (L.set s (orPositive value (L.get s))) := by
  rw [orPositive]
  by_cases hpos : value > 0
  · rw [if_pos hpos, if_pos hpos]
    have hmember := decodeMembers_optional hkey (t = []) (.scalar t .str) s value
      fun _ => hread hpos _
    rw [if_neg (hne hpos), if_neg (hne hpos)] at hmember
    rw [textMember, if_neg (hne hpos)]
    exact hmember
  · rw [if_neg hpos, if_neg hpos, L.set_get]
    rfl

/-- The texts of these are read back. -/
def WholeSeconds (d : Duration) : Prop := 1000000000 ∣ d ∧ d < 2 ^ 63

theorem WholeSeconds.parseDuration {d : Duration} (h : WholeSeconds d) (hpos : 0 < d) :
    parseDuration (durationString d) = some d := by
  obtain ⟨⟨secs, rfl⟩, hlt⟩ := h
  have hpos' : (0 : ℤ) < 1000000000 * secs := hpos
  have hlt' : (1000000000 * secs : ℤ) < 2 ^ 63 := hlt
  obtain ⟨n, rfl⟩ := Int.eq_ofNat_of_zero_le (by omega : 0 ≤ secs)
  have hcast : 1000000000 * (n : ℤ) = ((n * 1000000000 : ℕ) : ℤ) := by omega
  rw [hcast]
  exact parseDuration_seconds (by omega) (by omega)

theorem decode_durationMember (hlib : lib.Merges) {L : Lens σ Duration}
    (hkey : keys.lookup key = some (field L lib.duration)) {d : Duration} (hd : WholeSeconds d)
    (s : σ) :
    decodeMembers keys (textMember key (durationText d)) s =
      .ok (L.set s (orPositive d (L.get s))) := by
  refine decode_positive keys key hkey (fun hpos hnil => ?_) (fun hpos old => ?_) s
  · have hparse := hd.parseDuration hpos
    rw [hnil] at hparse
    cases hparse
  · rw [Library.duration, hlib.method, hlib.text]
    simp only [bind, Except.bind, hd.parseDuration hpos]

theorem decode_structMember (hlib : lib.Merges) {L : Lens σ τ}
    {inner : List (GoString × Decoder τ)}
    (hkey : keys.lookup key = some (field L (lib.struct inner)))
    {members : List (GoString × Node)} (hnodup : (members.map Prod.fst).Nodup) {s : σ} {t : τ}
    (hmembers : decodeMembers inner members (L.get s) = .ok t) :
    decodeMembers keys (structMember key members) s = .ok (L.set s t) := by
  have hopt := decodeMembers_optional hkey (members = []) (.mapping members) s t fun _ => by
    rw [hlib.struct _ _ _ hnodup, hmembers]
  rw [structMember, hopt]
  split
  · next hnil =>
    rw [hnil] at hmembers
    have ht : L.get s = t := Except.ok.inj hmembers
    rw [ht]
  · rfl

/-- The members have different keys, which are among those of the list in their order. -/
def Keyed (ks : List GoString) (members : List (GoString × Node)) : Prop :=
  (members.map Prod.fst).Sublist ks

theorem keyed_intMember (i : ℤ) : Keyed [key] (intMember key i) := by
  unfold Keyed intMember
  split <;> simp

theorem keyed_textMember (t : GoString) : Keyed [key] (textMember key t) := by
  unfold Keyed textMember
  split <;> simp

theorem keyed_structMember (members : List (GoString × Node)) :
    Keyed [key] (structMember key members) := by
  unfold Keyed structMember
  split <;> simp

theorem keyed_boolMember (b : Option Bool) : Keyed [key] (boolMember key b) := by
  cases b <;> simp [Keyed, boolMember]

theorem Keyed.append {ks ks' : List GoString} {ms ms' : List (GoString × Node)} (h : Keyed ks ms)
    (h' : Keyed ks' ms') : Keyed (ks ++ ks') (ms ++ ms') := by
  unfold Keyed
  rw [List.map_append]
  exact List.Sublist.append h h'

theorem Keyed.nodup {ks : List GoString} {ms : List (GoString × Node)} (h : Keyed ks ms)
    (hks : ks.Nodup) : (ms.map Prod.fst).Nodup := hks.sublist h

end Members

theorem OutputProxy.nodup (out : OutputProxy) : (out.members.map Prod.fst).Nodup :=
  Keyed.nodup ((keyed_intMember (str "port") _)
    |>.append (keyed_textMember (str "responseSize") _)
    |>.append (keyed_textMember (str "requestTimeout") _)) (by decide)

theorem OutputAdmin.nodup (out : OutputAdmin) : (out.members.map Prod.fst).Nodup :=
  Keyed.nodup (keyed_intMember (str "port") _) (by decide)

theorem OutputMonitor.nodup (out : OutputMonitor) : (out.members.map Prod.fst).Nodup :=
  Keyed.nodup ((keyed_textMember (str "interval") _)
    |>.append (keyed_textMember (str "checkTimeout") _)) (by decide)

theorem OutputDB.nodup (out : OutputDB) : (out.members.map Prod.fst).Nodup :=
  Keyed.nodup ((keyed_textMember (str "driver") _)
    |>.append (keyed_textMember (str "dsn") _)) (by decide)

theorem OutputExternal.nodup (out : OutputExternal) : (out.members.map Prod.fst).Nodup :=
  Keyed.nodup ((keyed_textMember (str "url") _).append (keyed_textMember (str "grpcAddr") _)
    |>.append (keyed_textMember (str "timeout") _)) (by decide)

theorem OutputRouting.nodup (out : OutputRouting) : (out.members.map Prod.fst).Nodup :=
  Keyed.nodup ((keyed_textMember (str "defaultGroup") _)
    |>.append (keyed_textMember (str "type") _)
    |>.append (keyed_structMember (str "external") _)) (by decide)

theorem OutputOIDC.nodup (out : OutputOIDC) : (out.members.map Prod.fst).Nodup :=
  Keyed.nodup ((keyed_textMember (str "issuerUrl") _)
    |>.append (keyed_textMember (str "clientId") _)
    |>.append (keyed_textMember (str "clientSecret") _)
    |>.append (keyed_textMember (str "jwksUrl") _)) (by decide)

theorem OutputLDAP.nodup (out : OutputLDAP) : (out.members.map Prod.fst).Nodup :=
  Keyed.nodup ((keyed_textMember (str "url") _).append (keyed_textMember (str "bindDn") _)
    |>.append (keyed_textMember (str "bindPassword") _)
    |>.append (keyed_textMember (str "userBase") _)
    |>.append (keyed_textMember (str "userAttr") _)) (by decide)

theorem OutputAuth.nodup (out : OutputAuth) : (out.members.map Prod.fst).Nodup :=
  Keyed.nodup ((keyed_textMember (str "type") _).append (keyed_structMember (str "oidc") _)
    |>.append (keyed_structMember (str "ldap") _)) (by decide)

theorem OutputCookie.nodup (out : OutputCookie) : (out.members.map Prod.fst).Nodup :=
  Keyed.nodup ((keyed_textMember (str "secret") _).append (keyed_textMember (str "ttl") _)
    |>.append (keyed_boolMember (str "wireCompat") _)) (by decide)

theorem OutputConfig.nodup (out : OutputConfig) : (out.members.map Prod.fst).Nodup :=
  Keyed.nodup ((keyed_structMember (str "proxy") _)
    |>.append (keyed_structMember (str "admin") _)
    |>.append (keyed_structMember (str "monitor") _)
    |>.append (keyed_structMember (str "db") _)
    |>.append (keyed_structMember (str "routing") _)
    |>.append (keyed_structMember (str "auth") _)
    |>.append (keyed_structMember (str "cookie") _)) (by decide)

/-! ### A configuration that is written and read -/

/-- A configuration whose numbers fit their texts: ports are of the type `int`, sizes are exact and
durations do not overflow. -/
structure Writable (cfg : Config) : Prop where
  proxyPort : -2 ^ 63 ≤ cfg.proxy.port ∧ cfg.proxy.port < 2 ^ 63
  adminPort : -2 ^ 63 ≤ cfg.admin.port ∧ cfg.admin.port < 2 ^ 63
  responseSize : cfg.proxy.responseSize ≤ 2 ^ 53
  requestTimeout : WholeSeconds cfg.proxy.requestTimeout
  interval : WholeSeconds cfg.monitor.interval
  checkTimeout : WholeSeconds cfg.monitor.checkTimeout
  timeout : WholeSeconds cfg.routing.external.timeout
  ttl : WholeSeconds cfg.cookie.ttl

/-- The configuration `s` with what is set in `cfg` and has a place in the output. -/
def overlay (cfg s : Config) : Config :=
  { s with
    proxy :=
      { s.proxy with
        port := orDefault 0 cfg.proxy.port s.proxy.port
        responseSize := orPositive cfg.proxy.responseSize s.proxy.responseSize
        requestTimeout := orPositive cfg.proxy.requestTimeout s.proxy.requestTimeout }
    admin := { s.admin with port := orDefault 0 cfg.admin.port s.admin.port }
    monitor :=
      { s.monitor with
        interval := orPositive cfg.monitor.interval s.monitor.interval
        checkTimeout := orPositive cfg.monitor.checkTimeout s.monitor.checkTimeout }
    db :=
      { s.db with
        driver := orDefault [] cfg.db.driver s.db.driver
        dsn := orDefault [] cfg.db.dsn s.db.dsn }
    routing :=
      { s.routing with
        defaultGroup := orDefault [] cfg.routing.defaultGroup s.routing.defaultGroup
        type := orDefault [] cfg.routing.type s.routing.type
        external :=
          { s.routing.external with
            url := orDefault [] cfg.routing.external.url s.routing.external.url
            grpcAddr := orDefault [] cfg.routing.external.grpcAddr s.routing.external.grpcAddr
            timeout := orPositive cfg.routing.external.timeout s.routing.external.timeout } }
    auth :=
      { s.auth with
        type := orDefault [] cfg.auth.type s.auth.type
        oidc :=
          { s.auth.oidc with
            issuerUrl := orDefault [] cfg.auth.oidc.issuerUrl s.auth.oidc.issuerUrl
            clientId := orDefault [] cfg.auth.oidc.clientId s.auth.oidc.clientId
            clientSecret := orDefault [] cfg.auth.oidc.clientSecret s.auth.oidc.clientSecret
            jwksUrl := orDefault [] cfg.auth.oidc.jwksUrl s.auth.oidc.jwksUrl }
        ldap :=
          { s.auth.ldap with
            url := orDefault [] cfg.auth.ldap.url s.auth.ldap.url
            bindDn := orDefault [] cfg.auth.ldap.bindDn s.auth.ldap.bindDn
            bindPassword := orDefault [] cfg.auth.ldap.bindPassword s.auth.ldap.bindPassword
            userBase := orDefault [] cfg.auth.ldap.userBase s.auth.ldap.userBase
            userAttr := orDefault [] cfg.auth.ldap.userAttr s.auth.ldap.userAttr } }
    cookie :=
      { s.cookie with
        secret := orDefault [] cfg.cookie.secret s.cookie.secret
        ttl := orPositive cfg.cookie.ttl s.cookie.ttl } }

theorem natAbs_tdiv_mul {b : ℤ} {m : ℕ} (hb : 0 < b) (hmod : b.tmod m = 0) :
    formatInt (b.tdiv m) = formatNat (b.tdiv m).natAbs ∧
      (((b.tdiv m).natAbs * m : ℕ) : ℤ) = b := by
  have hnonneg : 0 ≤ b.tdiv m := Int.tdiv_nonneg hb.le (Int.natCast_nonneg m)
  constructor
  · rw [formatInt, if_neg (not_lt.mpr hnonneg)]
  · have hsum := Int.mul_tdiv_add_tmod b m
    rw [hmod, add_zero, mul_comm] at hsum
    rw [Nat.cast_mul, Int.natAbs_of_nonneg hnonneg]
    exact hsum

theorem formatBytes_eq {b : ℤ} (hb : 0 < b) : ∃ (n m : ℕ) (unit : GoString),
    formatBytes b = formatNat n ++ unit ∧ IsUnit unit ∧ multiplier unit = some (m : ℤ) ∧ 0 < m ∧
      ((n * m : ℕ) : ℤ) = b := by
  unfold formatBytes
  split
  · next h =>
    obtain ⟨htext, hmul⟩ := natAbs_tdiv_mul (m := 1073741824) hb h.2
    exact ⟨_, 1073741824, str "GiB", congrArg (· ++ _) htext, ⟨by decide, by decide⟩, by decide,
      by decide, hmul⟩
  split
  · next h =>
    obtain ⟨htext, hmul⟩ := natAbs_tdiv_mul (m := 1048576) hb h.2
    exact ⟨_, 1048576, str "MiB", congrArg (· ++ _) htext, ⟨by decide, by decide⟩, by decide,
      by decide, hmul⟩
  split
  · next h =>
    obtain ⟨htext, hmul⟩ := natAbs_tdiv_mul (m := 1024) hb h.2
    exact ⟨_, 1024, str "KiB", congrArg (· ++ _) htext, ⟨by decide, by decide⟩, by decide,
      by decide, hmul⟩
  · refine ⟨b.natAbs, 1, str "B", ?_, ⟨by decide, by decide⟩, by decide, by decide, ?_⟩
    · rw [formatInt, if_neg (not_lt.mpr hb.le)]
    · rw [mul_one, Int.natAbs_of_nonneg hb.le]

theorem parseDataSize_formatBytes {b : ℤ} (hb : 0 < b) (hle : b ≤ 2 ^ 53) :
    parseDataSize (formatBytes b) = .ok b := by
  obtain ⟨n, m, unit, htext, hunit, hmultiplier, hm, rfl⟩ := formatBytes_eq hb
  rw [htext]
  exact parseDataSize_formatNat hunit hmultiplier hm (by exact_mod_cast hle)

theorem formatBytes_ne_nil (b : ℤ) : formatBytes b ≠ [] := by
  unfold formatBytes
  repeat' split
  all_goals exact List.append_ne_nil_of_right_ne_nil _ (by decide)

section Decode

variable {lib : Library} (hlib : lib.Merges) {cfg : Config} (s : Config)

include hlib

theorem decode_proxy (h : Writable cfg) :
    decodeMembers (proxyKeys lib) (toOutput cfg).proxy.members s.proxy =
      .ok (overlay cfg s).proxy := by
  have hsize : 0 < cfg.proxy.responseSize → ∀ old, lib.dataSize
      (.scalar (formatBytes cfg.proxy.responseSize) .str) old = .ok cfg.proxy.responseSize := by
    intro hpos old
    rw [Library.dataSize, hlib.method, hlib.text]
    exact parseDataSize_formatBytes hpos h.responseSize
  rw [OutputProxy.members, List.append_assoc]
  refine (decodeMembers_append
    (decode_intMember (proxyKeys lib) (str "port") hlib rfl h.proxyPort _)).trans ?_
  refine (decodeMembers_append (decode_positive (proxyKeys lib) (str "responseSize") rfl
    (fun _ => formatBytes_ne_nil _) hsize _)).trans ?_
  exact decode_durationMember (proxyKeys lib) (str "requestTimeout") hlib rfl h.requestTimeout _

theorem decode_admin (h : Writable cfg) :
    decodeMembers (adminKeys lib) (toOutput cfg).admin.members s.admin =
      .ok (overlay cfg s).admin :=
  decode_intMember (adminKeys lib) (str "port") hlib rfl h.adminPort _

theorem decode_monitor (h : Writable cfg) :
    decodeMembers (monitorKeys lib) (toOutput cfg).monitor.members s.monitor =
      .ok (overlay cfg s).monitor := by
  refine (decodeMembers_append
    (decode_durationMember (monitorKeys lib) (str "interval") hlib rfl h.interval _)).trans ?_
  exact decode_durationMember (monitorKeys lib) (str "checkTimeout") hlib rfl h.checkTimeout _

theorem decode_db :
    decodeMembers (dbKeys lib) (toOutput cfg).db.members s.db = .ok (overlay cfg s).db := by
  refine (decodeMembers_append
    (decode_textMember (dbKeys lib) (str "driver") hlib rfl _ _)).trans ?_
  exact decode_textMember (dbKeys lib) (str "dsn") hlib rfl _ _

theorem decode_external (h : Writable cfg) :
    decodeMembers (externalKeys lib) (toOutput cfg).routing.external.members s.routing.external =
      .ok (overlay cfg s).routing.external := by
  rw [OutputExternal.members, List.append_assoc]
  refine (decodeMembers_append
    (decode_textMember (externalKeys lib) (str "url") hlib rfl _ _)).trans ?_
  refine (decodeMembers_append
    (decode_textMember (externalKeys lib) (str "grpcAddr") hlib rfl _ _)).trans ?_
  exact decode_durationMember (externalKeys lib) (str "timeout") hlib rfl h.timeout _

theorem decode_routing (h : Writable cfg) :
    decodeMembers (routingKeys lib) (toOutput cfg).routing.members s.routing =
      .ok (overlay cfg s).routing := by
  rw [OutputRouting.members, List.append_assoc]
  refine (decodeMembers_append
    (decode_textMember (routingKeys lib) (str "defaultGroup") hlib rfl _ _)).trans ?_
  refine (decodeMembers_append
    (decode_textMember (routingKeys lib) (str "type") hlib rfl _ _)).trans ?_
  exact decode_structMember (routingKeys lib) (str "external") hlib rfl (OutputExternal.nodup _)
    (decode_external hlib s h)

theorem decode_oidc :
    decodeMembers (oidcKeys lib) (toOutput cfg).auth.oidc.members s.auth.oidc =
      .ok (overlay cfg s).auth.oidc := by
  rw [OutputOIDC.members, List.append_assoc, List.append_assoc]
  refine (decodeMembers_append
    (decode_textMember (oidcKeys lib) (str "issuerUrl") hlib rfl _ _)).trans ?_
  refine (decodeMembers_append
    (decode_textMember (oidcKeys lib) (str "clientId") hlib rfl _ _)).trans ?_
  refine (decodeMembers_append
    (decode_textMember (oidcKeys lib) (str "clientSecret") hlib rfl _ _)).trans ?_
  exact decode_textMember (oidcKeys lib) (str "jwksUrl") hlib rfl _ _

theorem decode_ldap :
    decodeMembers (ldapKeys lib) (toOutput cfg).auth.ldap.members s.auth.ldap =
      .ok (overlay cfg s).auth.ldap := by
  rw [OutputLDAP.members, List.append_assoc, List.append_assoc, List.append_assoc]
  refine (decodeMembers_append (decode_textMember (ldapKeys lib) (str "url") hlib rfl _ _)).trans ?_
  refine (decodeMembers_append
    (decode_textMember (ldapKeys lib) (str "bindDn") hlib rfl _ _)).trans ?_
  refine (decodeMembers_append
    (decode_textMember (ldapKeys lib) (str "bindPassword") hlib rfl _ _)).trans ?_
  refine (decodeMembers_append
    (decode_textMember (ldapKeys lib) (str "userBase") hlib rfl _ _)).trans ?_
  exact decode_textMember (ldapKeys lib) (str "userAttr") hlib rfl _ _

theorem decode_auth :
    decodeMembers (authKeys lib) (toOutput cfg).auth.members s.auth = .ok (overlay cfg s).auth := by
  rw [OutputAuth.members, List.append_assoc]
  refine (decodeMembers_append
    (decode_textMember (authKeys lib) (str "type") hlib rfl _ _)).trans ?_
  refine (decodeMembers_append (decode_structMember (authKeys lib) (str "oidc") hlib rfl
    (OutputOIDC.nodup _) (by exact decode_oidc hlib s))).trans ?_
  exact decode_structMember (authKeys lib) (str "ldap") hlib rfl (OutputLDAP.nodup _)
    (by exact decode_ldap hlib s)

theorem decode_cookie (h : Writable cfg) :
    decodeMembers (cookieKeys lib) (toOutput cfg).cookie.members s.cookie =
      .ok (overlay cfg s).cookie := by
  have hnone : (toOutput cfg).cookie.members =
      textMember (str "secret") cfg.cookie.secret ++
        textMember (str "ttl") (durationText cfg.cookie.ttl) := List.append_nil _
  rw [hnone]
  refine (decodeMembers_append
    (decode_textMember (cookieKeys lib) (str "secret") hlib rfl _ _)).trans ?_
  exact decode_durationMember (cookieKeys lib) (str "ttl") hlib rfl h.ttl _

/-- What is written of a configuration and read into `s` is laid over `s`. -/
theorem decode_document (h : Writable cfg) :
    lib.struct (configKeys lib) (toOutput cfg).document s = .ok (overlay cfg s) := by
  rw [OutputConfig.document, hlib.struct _ _ _ (OutputConfig.nodup _), OutputConfig.members]
  simp only [List.append_assoc]
  refine (decodeMembers_append (decode_structMember (configKeys lib) (str "proxy") hlib rfl
    (OutputProxy.nodup _) (by exact decode_proxy hlib s h))).trans ?_
  refine (decodeMembers_append (decode_structMember (configKeys lib) (str "admin") hlib rfl
    (OutputAdmin.nodup _) (by exact decode_admin hlib s h))).trans ?_
  refine (decodeMembers_append (decode_structMember (configKeys lib) (str "monitor") hlib rfl
    (OutputMonitor.nodup _) (by exact decode_monitor hlib s h))).trans ?_
  refine (decodeMembers_append (decode_structMember (configKeys lib) (str "db") hlib rfl
    (OutputDB.nodup _) (by exact decode_db hlib s))).trans ?_
  refine (decodeMembers_append (decode_structMember (configKeys lib) (str "routing") hlib rfl
    (OutputRouting.nodup _) (by exact decode_routing hlib s h))).trans ?_
  refine (decodeMembers_append (decode_structMember (configKeys lib) (str "auth") hlib rfl
    (OutputAuth.nodup _) (by exact decode_auth hlib s))).trans ?_
  exact decode_structMember (configKeys lib) (str "cookie") hlib rfl (OutputCookie.nodup _)
    (by exact decode_cookie hlib s h)

end Decode

end TrinoGoway.Migrate
