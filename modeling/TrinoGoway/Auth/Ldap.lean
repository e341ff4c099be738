import TrinoGoway.Auth.Roles
import TrinoGoway.Go.Marshal

/-! LDAP authentication: the calls to the directory, and the roles of the user they identify. -/
namespace TrinoGoway.Auth

open Go Go.Http

structure LdapConfig where
  url : GoString
  bindDN : GoString
  bindPass : GoString
  userBase : GoString
  /-- `uid` when empty -/
  userAttr : GoString

inductive SearchScope
  | baseObject
  | singleLevel
  | wholeSubtree
  deriving DecidableEq

structure SearchRequest where
  baseDN : GoString
  scope : SearchScope
  sizeLimit : ℕ
  timeLimit : ℕ
  typesOnly : Bool
  filter : GoString
  attributes : List GoString
  deriving DecidableEq

structure EntryAttribute where
  name : GoString
  values : List GoString
  deriving DecidableEq

structure Entry where
  dn : GoString
  attributes : List EntryAttribute
  deriving DecidableEq

structure Directory where
  dialURL : GoString → Except GoError Unit
  bind : GoString → GoString → Except GoError Unit
  search : SearchRequest → Except GoError (List Entry)

/-- The functions of `go-ldap` that ask no server. -/
structure LdapLibrary where
  /-- `ldap.EscapeFilter` -/
  escapeFilter : GoString → GoString
  /-- `entry.GetAttributeValue` -/
  getAttributeValue : Entry → GoString → GoString

/-- The value of an attribute is the first one of the first attribute with that name. -/
def LdapLibrary.FirstValue (lib : LdapLibrary) : Prop :=
  ∀ (dn name : GoString) (before after : List EntryAttribute) (values : List GoString),
    (∀ a ∈ before, a.name ≠ name) →
    lib.getAttributeValue ⟨dn, before ++ ⟨name, values⟩ :: after⟩ name = values.headD []

def LdapConfig.searchRequest (lib : LdapLibrary) (cfg : LdapConfig) (username : GoString) :
    SearchRequest :=
  let attr := if cfg.userAttr = [] then str "uid" else cfg.userAttr
  { baseDN := cfg.userBase
    scope := .wholeSubtree
    sizeLimit := 1
    timeLimit := 0
    typesOnly := false
    filter := str "(" ++ attr ++ str "=" ++ lib.escapeFilter username ++ str ")"
    attributes := [str "dn", str "memberOf"] }

def LdapConfig.serviceBind (cfg : LdapConfig) (dir : Directory) : Except GoError Unit :=
  if cfg.bindDN ≠ [] then
    (dir.bind cfg.bindDN cfg.bindPass).mapError (·.wrap "auth: ldap: service bind: ")
  else .ok ()

/-- `authenticate`: the groups of the user. -/
def LdapConfig.authenticate (lib : LdapLibrary) (cfg : LdapConfig) (dir : Directory)
    (username password : GoString) : Except GoError GoString := do
  (dir.dialURL cfg.url).mapError fun e =>
    ⟨str "auth: ldap: dial " ++ quoted cfg.url ++ str ": " ++ e.message⟩
  cfg.serviceBind dir
  let entries ← (dir.search (cfg.searchRequest lib username)).mapError
    (·.wrap "auth: ldap: search: ")
  match entries with
  | [] => .error ⟨str "auth: ldap: user " ++ quoted username ++ str " not found"⟩
  | e :: _ =>
    (dir.bind e.dn password).mapError (·.wrap "auth: ldap: user bind: ")
    return lib.getAttributeValue e (str "memberOf")

/-- The directory lets the user in, whose entry is `e`. -/
structure Accepts (lib : LdapLibrary) (cfg : LdapConfig) (dir : Directory)
    (username password : GoString) (e : Entry) : Prop where
  dial : dir.dialURL cfg.url = .ok ()
  service : cfg.bindDN ≠ [] → dir.bind cfg.bindDN cfg.bindPass = .ok ()
  search : ∃ more, dir.search (cfg.searchRequest lib username) = .ok (e :: more)
  user : dir.bind e.dn password = .ok ()

theorem Accepts.authenticate {lib : LdapLibrary} {cfg : LdapConfig} {dir : Directory}
    {username password : GoString} {e : Entry} (h : Accepts lib cfg dir username password e) :
    cfg.authenticate lib dir username password =
      .ok (lib.getAttributeValue e (str "memberOf")) := by
  obtain ⟨more, hsearch⟩ := h.search
  have hservice : cfg.serviceBind dir = .ok () := by
    unfold LdapConfig.serviceBind
    split
    · rename_i hdn
      rw [h.service hdn]
      rfl
    · rfl
  simp only [LdapConfig.authenticate, h.dial, hservice, hsearch, h.user, Except.mapError, bind,
    Except.bind]
  rfl

/-! ### Roles -/

def Role.Matches (matchString : MatchString) (cfg : AuthorizationConfig) (role : Role)
    (text : GoString) : Prop :=
  role.pattern cfg ≠ [] ∧ matchString (role.pattern cfg) text = some true

theorem hasRole_some {matchString : MatchString} {p : Principal} {role : Role}
    {cfg : AuthorizationConfig} :
    hasRole matchString (some p) role cfg = true ↔ role.Matches matchString cfg p.memberOf := by
  unfold hasRole Role.Matches
  dsimp only
  split
  · simp [*]
  · cases matchString (role.pattern cfg) p.memberOf <;> simp [*]

section Login

variable (matchString : MatchString) (authorization : AuthorizationConfig) (lib : LdapLibrary)
  (cfg : LdapConfig) (basicAuth : GoString → Option (GoString × GoString))

def HoldsRole (dir : Directory) (r : Request) (role : Role) : Prop :=
  ∃ p, (Authenticator.ldap basicAuth (cfg.authenticate lib dir)).authenticate r = .ok p ∧
    hasRole matchString (some p) role authorization = true

def userEntry (dn : GoString) (before after : List EntryAttribute) (values : List GoString) :
    Entry :=
  ⟨dn, before ++ ⟨str "memberOf", values⟩ :: after⟩

variable {matchString authorization lib cfg basicAuth}

/-- Only the first value counts. -/
theorem holdsRole_iff {dir : Directory} {r : Request} {username password dn : GoString}
    {before after : List EntryAttribute} {values : List GoString}
    (hlib : lib.FirstValue)
    (hcreds : basicAuth (r.header.get (str "Authorization")) = some (username, password))
    (hname : username ≠ []) (hpass : password ≠ [])
    (hbefore : ∀ a ∈ before, a.name ≠ str "memberOf")
    (h : Accepts lib cfg dir username password (userEntry dn before after values)) (role : Role) :
    HoldsRole matchString authorization lib cfg basicAuth dir r role ↔
      role.Matches matchString authorization (values.headD []) := by
  have hauth : (Authenticator.ldap basicAuth (cfg.authenticate lib dir)).authenticate r =
      .ok ⟨username, values.headD []⟩ := by
    unfold Authenticator.authenticate
    simp only [hcreds, hname, hpass, or_self, if_false, h.authenticate, userEntry,
      hlib _ _ _ _ _ hbefore]
  unfold HoldsRole
  rw [hauth]
  constructor
  · rintro ⟨p, hp, hrole⟩
    obtain rfl := Except.ok.inj hp
    exact hasRole_some.mp hrole
  · intro hmatch
    exact ⟨_, rfl, hasRole_some.mpr hmatch⟩

/-- The roles do not depend on the order of the values, and every value counts, exactly if each
role is matched by all of the values or by none. -/
theorem roles_order_free_iff {dir : List GoString → Directory} {r : Request}
    {username password dn : GoString} {before after : List EntryAttribute}
    {values : List GoString}
    (hlib : lib.FirstValue)
    (hcreds : basicAuth (r.header.get (str "Authorization")) = some (username, password))
    (hname : username ≠ []) (hpass : password ≠ [])
    (hbefore : ∀ a ∈ before, a.name ≠ str "memberOf")
    (hdir : ∀ vs, vs.Perm values →
      Accepts lib cfg (dir vs) username password (userEntry dn before after vs)) :
    ((∀ vs, vs.Perm values → ∀ role,
        HoldsRole matchString authorization lib cfg basicAuth (dir vs) r role ↔
          HoldsRole matchString authorization lib cfg basicAuth (dir values) r role) ∧
      ∀ role : Role, ∀ v ∈ values, role.Matches matchString authorization v →
        HoldsRole matchString authorization lib cfg basicAuth (dir values) r role) ↔
      ∀ role : Role, ∀ v ∈ values, ∀ v' ∈ values,
        role.Matches matchString authorization v → role.Matches matchString authorization v' := by
  have hholds : ∀ {vs : List GoString}, vs.Perm values → ∀ role : Role,
      (HoldsRole matchString authorization lib cfg basicAuth (dir vs) r role ↔
        role.Matches matchString authorization (vs.headD [])) := fun hvs role =>
    holdsRole_iff hlib hcreds hname hpass hbefore (hdir _ hvs) role
  have hself := hholds (.refl values)
  constructor
  · rintro ⟨horder, hevery⟩ role v hv v' hv' hmatch
    -- the other value may as well be the first one
    have hfront : (v' :: values.erase v').Perm values := (List.perm_cons_erase hv').symm
    have hrole := (horder _ hfront role).mpr (hevery role v hv hmatch)
    exact (hholds hfront role).mp hrole
  · intro hagree
    have hhead : ∀ {vs : List GoString}, vs.Perm values → ∀ role : Role, ∀ v ∈ values,
        (role.Matches matchString authorization (vs.headD []) ↔
          role.Matches matchString authorization v) := by
      intro vs hvs role v hv
      cases vs with
      | nil => rw [List.nil_perm.mp hvs] at hv; cases hv
      | cons v' vs =>
        have hv' : v' ∈ values := hvs.subset List.mem_cons_self
        exact ⟨hagree role v' hv' v hv, hagree role v hv v' hv'⟩
    constructor
    · intro vs hvs role
      rw [hholds hvs, hself]
      cases hvalues : values with
      | nil =>
        rw [hvalues] at hvs
        rw [List.perm_nil.mp hvs]
      | cons v values' => exact hhead hvs role v (by rw [hvalues]; exact List.mem_cons_self)
    · intro role v hv hmatch
      rw [hself, hhead (.refl values) role v hv]
      exact hmatch

end Login

/-! ### Two groups -/

/-- `regexp.MatchString` for patterns without special characters: the text holds the pattern. -/
def literalMatch : MatchString := fun pattern text => some (text.tails.any pattern.isPrefixOf)

/-- `go-ldap`: names are compared with their case, and what is special in a filter is escaped. -/
def goLdap : LdapLibrary where
  escapeFilter s := s.flatMap fun b =>
    if 0x7F < b ∨ b = 40 ∨ b = 41 ∨ b = Byte.backslash ∨ b = 42 ∨ b = 0 then
      [Byte.backslash, Json.hexChar (b.toNat / 16), Json.hexChar (b.toNat % 16)]
    else [b]
  getAttributeValue e name := ((e.attributes.find? (·.name = name)).elim [] (·.values)).headD []

theorem firstValue_goLdap : goLdap.FirstValue := by
  intro dn name before after values hbefore
  have hfind : before.find? (·.name = name) = none :=
    List.find?_eq_none.mpr fun a ha => by simpa using hbefore a ha
  simp [goLdap, List.find?_append, hfind]

def oneUser (e : Entry) : Directory where
  dialURL _ := .ok ()
  bind _ _ := .ok ()
  search _ := .ok [e]

def staffDirectory : LdapConfig :=
  ⟨str "ldap://directory", [], [], str "dc=example", []⟩

def staffRoles : AuthorizationConfig := ⟨str "cn=admins", str "cn=", []⟩

def joCredentials : GoString → Option (GoString × GoString) :=
  fun _ => some (str "jo", str "secret")

def signInRequest : Request :=
  ⟨str "GET", str "/userinfo", [], [], str "/userinfo", .empty, [], [], false, none, .ok []⟩

def joWith (groups : List GoString) : Directory :=
  oneUser (userEntry (str "uid=jo") [] [] groups)

theorem accepts_joWith (groups : List GoString) :
    Accepts goLdap staffDirectory (joWith groups) (str "jo") (str "secret")
      (userEntry (str "uid=jo") [] [] groups) where
  dial := rfl
  service _ := rfl
  search := ⟨[], rfl⟩
  user := rfl

/-- Two groups of which neither is the administrators'. -/
theorem roles_order_free_staff :
    ((∀ vs, vs.Perm [str "cn=analysts", str "cn=engineers"] → ∀ role,
        HoldsRole literalMatch staffRoles goLdap staffDirectory joCredentials (joWith vs)
            signInRequest role ↔
          HoldsRole literalMatch staffRoles goLdap staffDirectory joCredentials
            (joWith [str "cn=analysts", str "cn=engineers"]) signInRequest role) ∧
      ∀ role : Role, ∀ v ∈ [str "cn=analysts", str "cn=engineers"],
        role.Matches literalMatch staffRoles v →
          HoldsRole literalMatch staffRoles goLdap staffDirectory joCredentials
            (joWith [str "cn=analysts", str "cn=engineers"]) signInRequest role) ↔
      ∀ role : Role, ∀ v ∈ [str "cn=analysts", str "cn=engineers"],
        ∀ v' ∈ [str "cn=analysts", str "cn=engineers"],
          role.Matches literalMatch staffRoles v → role.Matches literalMatch staffRoles v' :=
  roles_order_free_iff firstValue_goLdap rfl (by decide) (by decide) (by simp)
    fun vs _ => accepts_joWith vs

/-- An administrator whose group comes second is none. -/
theorem administrator_by_second_group :
    Role.admin.Matches literalMatch staffRoles (str "cn=admins") ∧
      HoldsRole literalMatch staffRoles goLdap staffDirectory joCredentials
        (joWith [str "cn=admins", str "cn=analysts"]) signInRequest .admin ∧
      ¬HoldsRole literalMatch staffRoles goLdap staffDirectory joCredentials
        (joWith [str "cn=analysts", str "cn=admins"]) signInRequest .admin := by
  have hmatch : Role.admin.Matches literalMatch staffRoles (str "cn=admins") :=
    ⟨by decide, by decide⟩
  have hholds : ∀ groups,
      HoldsRole literalMatch staffRoles goLdap staffDirectory joCredentials (joWith groups)
          signInRequest .admin ↔
        Role.admin.Matches literalMatch staffRoles (groups.headD []) := fun groups =>
    holdsRole_iff firstValue_goLdap rfl (by decide) (by decide) (by simp) (accepts_joWith groups)
      .admin
  refine ⟨hmatch, (hholds _).mpr hmatch, fun h => ?_⟩
  exact absurd ((hholds _).mp h).2 (by decide)

end TrinoGoway.Auth
