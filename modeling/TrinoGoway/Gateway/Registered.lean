import TrinoGoway.Admin.Runs
import TrinoGoway.Gateway.World

/-! The admin server and the router on one database: where a new statement can go while backends
are added, changed, switched off and deleted. -/
namespace TrinoGoway

open Go Go.Http Routing Prog Interleave
open Admin (Api ApiState AdminAction)
open Persistence (Backend BackendTable BackendWrite)

/-- Each listing of the active backends has only rows of one table that is there at the time. -/
def ReadsTables (there : BackendTable → Prop) : GwEvent → Prop
  | ⟨.selectActive, ans⟩ =>
    ∀ rows, ans = .ok rows → ∃ t, there t ∧ ∀ b ∈ rows, b ∈ t.rows ∧ b.active = true
  | _ => True

section Route

variable {there : BackendTable → Prop}

def IsOn (there : BackendTable → Prop) (b : Backend) : Prop :=
  b.active = true ∧ ∃ t, there t ∧ b ∈ t.rows

theorem listActive_reads :
    listActive.wp (ReadsTables there) fun res =>
      ∀ backends, res = .ok backends →
        ∀ x ∈ backends, ∃ b, IsOn there b ∧ x = toActiveBackend b := by
  unfold listActive Persistence.BackendDAO.listActive
  simp only [wp_bind, wp_perform]
  intro ans hans
  cases ans with
  | error e =>
    intro backends hres
    cases hres
  | ok rows =>
    intro backends hres x hx
    cases hres
    obtain ⟨b, hb, rfl⟩ := List.mem_map.mp hx
    obtain ⟨t, ht, hrows⟩ := hans rows rfl
    exact ⟨b, ⟨(hrows b hb).2, t, ht, (hrows b hb).1⟩, rfl⟩

theorem resolveGroup_reads (group : GoString) :
    (resolveGroup group).wp (ReadsTables there) fun res =>
      ∀ url, res = .ok url →
        url = [] ∨ ∃ b, IsOn there b ∧ b.url = url ∧ b.routingGroup = group := by
  unfold resolveGroup
  refine listActive_reads.bind ?_
  rintro (e | backends) hread
  · rintro url ⟨⟩
  · dsimp only
    cases hfind : backends.find? fun b => b.routingGroup = group with
    | none =>
      rintro url ⟨⟩
      exact .inl rfl
    | some x =>
      rintro url ⟨⟩
      obtain ⟨b, hon, rfl⟩ := hread backends rfl x (List.mem_of_find?_eq_some hfind)
      have hgroup := List.find?_some hfind
      exact .inr ⟨b, hon, rfl, of_decide_eq_true hgroup⟩

theorem firstActiveBackend_reads :
    firstActiveBackend.wp (ReadsTables there) fun url =>
      url = [] ∨ ∃ b, IsOn there b ∧ b.url = url := by
  unfold firstActiveBackend
  refine listActive_reads.bind ?_
  rintro (e | backends) hread
  · exact .inl rfl
  · cases backends with
    | nil => exact .inl rfl
    | cons x backends =>
      obtain ⟨b, hon, rfl⟩ := hread _ rfl x List.mem_cons_self
      exact .inr ⟨b, hon, rfl⟩

/-- The decision has no URL, or that of a backend that is on; without a fallback it is one of the
group that the decision names. -/
def GoesToOn (there : BackendTable → Prop) (result : RouteResult) : Prop :=
  result.backendURL = [] ∨ ∃ b, IsOn there b ∧ b.url = result.backendURL ∧
    (result.outcome = .ok → b.routingGroup = result.routingGroup)

variable {req : RouteInput}

theorem routeRecovered_reads (hid : extractQueryID req = []) (group : GoString) (sel : Selection) :
    (Router.routeRecovered req group sel).wp (ReadsTables there) (GoesToOn there) := by
  unfold Router.routeRecovered Router.recoverPath
  rw [if_pos hid, wp_bind, wp_pure]
  refine firstActiveBackend_reads.bind ?_
  rintro url (rfl | ⟨b, hon, rfl⟩)
  · exact .inl rfl
  · exact .inr ⟨b, hon, rfl, fun h => by cases h⟩

theorem routeGroup_reads (hid : extractQueryID req = []) (r : Router) :
    (r.routeGroup req).wp (ReadsTables there) (GoesToOn there) := by
  unfold Router.routeGroup
  refine (wp_true (r.callExternal req)).bind ?_
  rintro ⟨sel, err⟩ -
  refine (resolveGroup_reads _).bind ?_
  rintro (e | url) hread
  · exact routeRecovered_reads hid _ sel
  · cases url with
    | nil => exact routeRecovered_reads hid _ sel
    | cons c url =>
      rcases hread _ rfl with hnil | ⟨b, hon, hurl, hgroup⟩
      · cases hnil
      · exact .inr ⟨b, hon, hurl, fun _ => hgroup⟩

theorem route_reads (hid : extractQueryID req = []) (hkill : extractKillQueryID req.body = [])
    (r : Router) :
    (r.route req).wp (ReadsTables there) fun res => ∃ result, res = .ok result ∧
      GoesToOn there result := by
  unfold Router.route Router.routeKill Router.routeCached
  rw [if_pos hkill, if_pos hid]
  refine (routeGroup_reads hid r).bind ?_
  intro result hresult
  exact ⟨result, rfl, hresult⟩

end Route

/-- A new statement goes nowhere but to a backend that the acknowledged admin requests have made
active: whatever requests the admin server gets while the statement is routed, there is a moment
of the routing at which the acknowledged writes about the name of the backend leave it active,
with the URL of the decision and, unless the decision is a fallback, in the group that it names.
-/
theorem new_statement_registered {a : Api} (s : ApiState) (before during : List AdminAction)
    (r : Router) {req : RouteInput} (hid : extractQueryID req = [])
    (hkill : extractKillQueryID req.body = []) (ora : Oracle Op.Ret) (h : List GwEvent)
    (hora : ∀ h o, ReadsTables (fun t => ∃ d, d <+: during ∧ t = (a.run s (before ++ d)).table)
      ⟨o, ora h o⟩) :
    ∃ result, ((r.route req).run ora h).2 = .ok result ∧
      (result.backendURL = [] ∨ ∃ d b, d <+: during ∧
        BackendWrite.replay (a.writesAbout s (before ++ d) b.name) (s.table.find? b.name) = some b ∧
        b.active = true ∧ b.url = result.backendURL ∧
        (result.outcome = .ok → b.routingGroup = result.routingGroup)) := by
  obtain ⟨result, hresult, hgoes⟩ := (route_reads hid hkill r).run hora h
  refine ⟨result, hresult, hgoes.imp id ?_⟩
  rintro ⟨b, ⟨hactive, t, ⟨d, hd, rfl⟩, hrow⟩, hurl, hgroup⟩
  refine ⟨d, b, hd, ?_, hactive, hurl, hgroup⟩
  rw [← Api.find?_run, BackendTable.find?_eq_some]
  exact ⟨hrow, rfl⟩

private def addedBackend : Backend := ⟨str "a", str "http://a", [], str "adhoc", true, 5, 5⟩

private def registeredWorld : World where
  active := .ok [addedBackend]

private theorem registeredWorld_reads (h : List GwEvent) (o : Op) :
    ReadsTables (fun t => ∃ d, d <+: Admin.addAndDeactivate.drop 1 ∧
        t = (Admin.openApi.run Admin.emptyState (Admin.addAndDeactivate.take 1 ++ d)).table)
      ⟨o, (fun _ o => registeredWorld.answers (.init []) o : Oracle Op.Ret) h o⟩ := by
  cases o with
  | selectActive =>
    intro rows hrows
    obtain rfl := Except.ok.inj hrows
    refine ⟨_, ⟨[], List.nil_prefix, rfl⟩, ?_⟩
    intro b hb
    obtain rfl := List.mem_singleton.mp hb
    exact ⟨by decide, rfl⟩
  | _ => trivial

theorem new_statement_registered_while_deactivated :
    let req := newRouteInput (sampleRequest "POST" "/v1/statement" "SELECT 1") (str "SELECT 1")
    let ora : Oracle Op.Ret := fun _ o => registeredWorld.answers (.init []) o
    (((sampleProxy true).router.route req).run ora []).2.toOption.map (·.backendURL) =
        some (str "http://a") ∧
      ∃ d b, d <+: Admin.addAndDeactivate.drop 1 ∧
        BackendWrite.replay (Admin.openApi.writesAbout Admin.emptyState
          (Admin.addAndDeactivate.take 1 ++ d) b.name) none = some b ∧
        b.active = true ∧ b.url = str "http://a" := by
  intro req ora
  have hurl : (((sampleProxy true).router.route req).run ora []).2.toOption.map (·.backendURL) =
      some (str "http://a") := by decide
  have hid : extractQueryID req = [] := by decide
  have hkill : extractKillQueryID req.body = [] := by decide
  refine ⟨hurl, ?_⟩
  obtain ⟨result, hresult, hgoes⟩ := new_statement_registered Admin.emptyState _ _
    (sampleProxy true).router hid hkill ora [] registeredWorld_reads
  rw [hresult] at hurl
  have hbackend : result.backendURL = str "http://a" := Option.some.inj hurl
  rw [hbackend] at hgoes
  rcases hgoes with hnone | ⟨d, b, hd, hb, hactive, hto, -⟩
  · cases hnone
  · exact ⟨d, b, hd, hb, hactive, hto⟩

end TrinoGoway
