import TrinoGoway.Admin.History

/-! The pages a user may see: `/userinfo` and the permission check of the web UI. -/
namespace TrinoGoway.Admin

open Go Auth

structure UserinfoResponse where
  userID : GoString := []
  userName : GoString := []
  roles : List GoString := []
  permissions : List GoString := []
  deriving DecidableEq

def Server.rolesOf (s : Server) (p : Principal) : List GoString :=
  ([Role.admin, Role.user, Role.api].filter fun role =>
    hasRole s.matchString (some p) role s.authorization).map Role.text

def Server.handleUserinfo (s : Server) (pagePermissions : GoMap GoString)
    (principal : Option Principal) : UserinfoResponse :=
  match principal with
  | none => {}
  | some p =>
    let roles := s.rolesOf p
    { userID := p.name, userName := p.name, roles,
      permissions := resolvePagePermissions roles pagePermissions }

/-- `hasPermission` of the access store, for the permissions last stored: none stands for a list
that is null or undefined, and for a permission that is undefined. -/
def hasPermission (permissions : Option (List GoString)) (permission : Option GoString) : Bool :=
  match permission, permissions with
  | none, _ => true
  | _, none => true
  | some page, some pages => pages.length = 0 || pages.contains page

theorem hasPermission_iff {pages : List GoString} {page : GoString} :
    hasPermission (some pages) (some page) = true ↔ pages = [] ∨ page ∈ pages := by
  simp [hasPermission]

section Pages

variable {roles : List GoString} {pagePermissions : GoMap GoString}
  (hroles : ∀ role ∈ roles, pagePermissions.get? role ≠ none)

include hroles

theorem permitted_of_unnamed
    (hnone : ∀ role ∈ roles, ∀ page, ¬NamesPage pagePermissions role page) (page : GoString) :
    hasPermission (some (resolvePagePermissions roles pagePermissions)) (some page) = true := by
  refine hasPermission_iff.mpr (.inl (List.eq_nil_iff_forall_not_mem.mpr ?_))
  intro page' hpage
  obtain ⟨role, hrole, hnames⟩ := (mem_resolvePagePermissions hroles).mp hpage
  exact hnone role hrole page' hnames

theorem permitted_iff_of_named {role page : GoString} (hrole : role ∈ roles)
    (hnames : NamesPage pagePermissions role page) (page' : GoString) :
    hasPermission (some (resolvePagePermissions roles pagePermissions)) (some page') = true ↔
      ∃ role ∈ roles, NamesPage pagePermissions role page' := by
  have hne : resolvePagePermissions roles pagePermissions ≠ [] :=
    List.ne_nil_of_mem ((mem_resolvePagePermissions hroles).mpr ⟨role, hrole, hnames⟩)
  rw [hasPermission_iff, or_iff_right hne, mem_resolvePagePermissions hroles]

/-- The web UI keeps to the entries of the roles exactly if one of them names a page. -/
theorem page_restrictions_iff :
    (∀ page,
      hasPermission (some (resolvePagePermissions roles pagePermissions)) (some page) = true ↔
        ∃ role ∈ roles, NamesPage pagePermissions role page) ↔
      ∃ role ∈ roles, ∃ page, NamesPage pagePermissions role page := by
  constructor
  · intro h
    by_contra hnone
    have hunnamed : ∀ role ∈ roles, ∀ page, ¬NamesPage pagePermissions role page := by
      intro role hrole page hnames
      exact hnone ⟨role, hrole, page, hnames⟩
    obtain ⟨role, hrole, hnames⟩ := (h []).mp (permitted_of_unnamed hroles hunnamed [])
    exact hunnamed role hrole [] hnames
  · rintro ⟨role, hrole, page, hnames⟩
    exact permitted_iff_of_named hroles hrole hnames

end Pages

/-- Users see the dashboard and the history; the entry for the interface names no page. -/
def dashboardUsers : GoMap GoString :=
  (GoMap.empty.set (str "USER") (str "dashboard_history")).set (str "API") []

theorem page_restrictions_users :
    hasPermission (some (resolvePagePermissions [str "USER", str "API"] dashboardUsers))
        (some (str "cluster")) = false ∧
      ((∀ page,
        hasPermission (some (resolvePagePermissions [str "USER", str "API"] dashboardUsers))
            (some page) = true ↔
          ∃ role ∈ [str "USER", str "API"], NamesPage dashboardUsers role page) ↔
        ∃ role ∈ [str "USER", str "API"], ∃ page, NamesPage dashboardUsers role page) := by
  refine ⟨by decide, page_restrictions_iff ?_⟩
  exact List.forall_iff_forall_mem.mp (by decide)

/-- The interface's entry alone opens every page. -/
theorem api_sees_cluster_page :
    dashboardUsers.get? (str "API") = some [] ∧
      ¬∀ page, hasPermission (some (resolvePagePermissions [str "API"] dashboardUsers))
          (some page) = true ↔
        ∃ role ∈ [str "API"], NamesPage dashboardUsers role page := by
  refine ⟨by decide, fun h => ?_⟩
  obtain ⟨role, hrole, entry, hentry, hpage, -⟩ := (h (str "cluster")).mp (by decide)
  rw [List.mem_singleton] at hrole
  subst hrole
  have hget : dashboardUsers.get? (str "API") = some [] := by decide
  obtain rfl : [] = entry := Option.some.inj (hget.symm.trans hentry)
  exact absurd hpage (by decide)

/-- The same for the list that `/userinfo` sends to a user whose roles have entries. -/
theorem handleUserinfo_permits {s : Server} {pagePermissions : GoMap GoString} {p : Principal}
    (hroles : ∀ role ∈ s.rolesOf p, pagePermissions.get? role ≠ none) {role page : GoString}
    (hrole : role ∈ s.rolesOf p) (hnames : NamesPage pagePermissions role page)
    (page' : GoString) :
    hasPermission (some (s.handleUserinfo pagePermissions (some p)).permissions) (some page') =
        true ↔
      ∃ role ∈ s.rolesOf p, NamesPage pagePermissions role page' :=
  permitted_iff_of_named hroles hrole hnames page'

end TrinoGoway.Admin
