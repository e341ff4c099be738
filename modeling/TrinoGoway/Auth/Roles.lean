import TrinoGoway.Auth.Middleware
import TrinoGoway.Config

/-! Roles, by regular expressions over the groups of a principal, and the pages they may see. -/
namespace TrinoGoway.Auth

open Go

inductive Role
  | admin
  | user
  | api
  deriving DecidableEq

def Role.text : Role → GoString
  | admin => str "ADMIN"
  | user => str "USER"
  | api => str "API"

/-- `regexp.MatchString(pattern, text)`; none stands for its error. -/
abbrev MatchString := GoString → GoString → Option Bool

def Role.pattern (cfg : AuthorizationConfig) : Role → GoString
  | admin => cfg.adminRegex
  | user => cfg.userRegex
  | api => cfg.apiRegex

def hasRole (matchString : MatchString) (principal : Option Principal) (role : Role)
    (cfg : AuthorizationConfig) : Bool :=
  match principal with
  | none => false
  | some p =>
    if role.pattern cfg = [] then false
    else (matchString (role.pattern cfg) p.memberOf).getD false

/-! ### Pages -/

/-- One page of a role's entry. The pages collected so far are also those that have been seen. -/
def addPage (out : List GoString) (page : GoString) : List GoString :=
  if page = [] then out
  else if page ∈ out then out
  else out ++ [page]

def addPages (pagePermissions : GoMap GoString) (out : List GoString) (role : GoString) :
    List GoString :=
  (split Byte.underscore ((pagePermissions.get? role).getD [])).foldl addPage out

def resolvePagePermissions (roles : List GoString) (pagePermissions : GoMap GoString) :
    List GoString :=
  if roles = [] ∨ pagePermissions.entries = [] then []
  else if roles.any fun role => (pagePermissions.get? role).isNone then []
  else roles.foldl (addPages pagePermissions) []

def NamesPage (pagePermissions : GoMap GoString) (role page : GoString) : Prop :=
  ∃ entry, pagePermissions.get? role = some entry ∧ page ∈ split Byte.underscore entry ∧ page ≠ []

theorem mem_foldl_addPage {pages out : List GoString} {page : GoString} :
    page ∈ pages.foldl addPage out ↔ page ∈ out ∨ page ∈ pages ∧ page ≠ [] := by
  induction pages generalizing out with
  | nil => simp
  | cons p pages ih =>
    have hadd : page ∈ addPage out p ↔ page ∈ out ∨ page = p ∧ page ≠ [] := by
      unfold addPage
      split
      · rename_i hempty
        subst hempty
        simp
      split
      · rename_i hne hmem
        constructor
        · exact .inl
        · rintro (h | ⟨rfl, -⟩)
          · exact h
          · exact hmem
      · rename_i hne _
        rw [List.mem_append, List.mem_singleton]
        constructor
        · rintro (h | rfl)
          · exact .inl h
          · exact .inr ⟨rfl, hne⟩
        · rintro (h | ⟨h, -⟩)
          · exact .inl h
          · exact .inr h
    rw [List.foldl_cons, ih, hadd, List.mem_cons, or_and_right, or_assoc]

theorem mem_foldl_addPages {pagePermissions : GoMap GoString} {roles out : List GoString}
    {page : GoString} (hroles : ∀ role ∈ roles, pagePermissions.get? role ≠ none) :
    page ∈ roles.foldl (addPages pagePermissions) out ↔
      page ∈ out ∨ ∃ role ∈ roles, NamesPage pagePermissions role page := by
  induction roles generalizing out with
  | nil => simp
  | cons role roles ih =>
    rw [List.forall_mem_cons] at hroles
    obtain ⟨entry, hentry⟩ := Option.ne_none_iff_exists'.mp hroles.1
    have hnames : NamesPage pagePermissions role page ↔
        page ∈ split Byte.underscore entry ∧ page ≠ [] := by
      simp [NamesPage, hentry]
    rw [List.foldl_cons, ih hroles.2, addPages, hentry, Option.getD_some, mem_foldl_addPage,
      ← hnames]
    simp [or_assoc]

/-- With an entry for each of the roles, the list holds the pages that the entries name. -/
theorem mem_resolvePagePermissions {pagePermissions : GoMap GoString} {roles : List GoString}
    {page : GoString} (hroles : ∀ role ∈ roles, pagePermissions.get? role ≠ none) :
    page ∈ resolvePagePermissions roles pagePermissions ↔
      ∃ role ∈ roles, NamesPage pagePermissions role page := by
  unfold resolvePagePermissions
  split
  · rename_i hempty
    constructor
    · intro h
      cases h
    · rintro ⟨role, hrole, entry, hentry, -⟩
      rcases hempty with hempty | hempty
      · simp [hempty] at hrole
      · simp [GoMap.get?_eq_some, hempty] at hentry
  · rw [if_neg, mem_foldl_addPages hroles]
    · simp
    · simpa [Option.isNone_iff_eq_none] using hroles

end TrinoGoway.Auth
