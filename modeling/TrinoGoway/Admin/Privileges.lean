import TrinoGoway.Admin.Runs

/-! What callers without the roles `API` and `ADMIN` can do to the admin server: nothing that anyone
could notice, but for the requests that the metrics count. -/
namespace TrinoGoway.Admin

open Go Go.Http Auth Persistence

def Handler.writes : Handler → Bool
  | activateBackend | deactivateBackend | addBackend | updateBackend | deleteBackend
  | upsertEntity | webappSaveBackend | webappUpdateBackend | webappDeleteBackend => true
  | _ => false

def Api.callerHas (a : Api) (r : Request) (role : Role) : Bool :=
  match a.server.principal r with
  | .error _ => false
  | .ok p => hasRole a.server.matchString p role a.server.authorization

def Api.privileged (a : Api) (r : Request) : Bool := a.callerHas r .api || a.callerHas r .admin

def AdminAction.counts (a : Api) : AdminAction → Bool
  | request _ r => a.privileged r
  | _ => true

section Routes

theorem access_of_writes {metricsPath : Option GoString} {route : Route}
    (hroute : route ∈ routes metricsPath) (hwrites : route.handler.writes = true) :
    route.access = .role .api ∨ route.access = .role .admin := by
  have hfixed : ∀ route ∈ routes none, route.handler.writes = true →
      route.access = .role .api ∨ route.access = .role .admin := by
    decide
  cases metricsPath with
  | none => exact hfixed route hroute hwrites
  | some path =>
    by_cases hmetrics : route = ⟨.get, path, .anyone, .metrics⟩
    · rw [hmetrics] at hwrites
      cases hwrites
    · refine hfixed route ?_ hwrites
      simp only [routes, Option.toList_some, List.map_cons, List.map_nil, List.mem_append,
        List.mem_singleton, hmetrics, or_false] at hroute
      simpa only [routes, Option.toList_none, List.map_nil, List.append_nil, List.mem_append]
        using hroute

variable {a : Api} {env : Env} {s : ApiState} {r : Request}

theorem Api.handle_of_not_writes {p : Option Principal} {params : List GoString} {h : Handler}
    (hwrites : h.writes = false) : (a.handle env s r p params h).2 = s := by
  cases h with
  | activateBackend | deactivateBackend | addBackend | updateBackend | deleteBackend
  | upsertEntity | webappSaveBackend | webappUpdateBackend | webappDeleteBackend => cases hwrites
  | _ => rfl

theorem Api.authorize_role {role : Role} {p : Option Principal}
    (h : a.callerHas r role = false) : a.authorize r (.role role) ≠ .ok p := by
  unfold Api.callerHas at h
  simp only [Api.authorize]
  cases hprincipal : a.server.principal r with
  | error msg =>
    intro heq
    cases heq
  | ok p =>
    rw [hprincipal] at h
    simp only [h]
    intro heq
    cases heq

/-- A request without privileges changes nothing, as no group that lets it through writes. -/
theorem Api.serve_unprivileged (h : a.privileged r = false) : (a.serve env s r).2 = s := by
  rw [Api.privileged, Bool.or_eq_false_iff] at h
  unfold Api.serve
  cases hroute : a.mux.resolve (routes a.metricsPath) r with
  | notFound => rfl
  | methodNotAllowed => rfl
  | found route params =>
    cases hauth : a.authorize r route.access with
    | error answer => simp only [hauth]
    | ok p =>
      simp only [hauth]
      by_cases hwrites : route.handler.writes = true
      · rcases access_of_writes (a.mux.registered hroute) hwrites with haccess | haccess
        · rw [haccess] at hauth
          exact absurd hauth (Api.authorize_role h.1)
        · rw [haccess] at hauth
          exact absurd hauth (Api.authorize_role h.2)
      · exact Api.handle_of_not_writes (by simpa using hwrites)

def Api.asksMetrics (a : Api) (r : Request) : Bool :=
  match a.mux.resolve (routes a.metricsPath) r with
  | .found route _ => route.handler = .metrics
  | _ => false

/-- Only the handler of the metrics shows what the registry has. -/
theorem Api.serve_metrics (a : Api) (env : Env) (s : ApiState) (r : Request) (text : GoString) :
    (a.serve { env with metrics := text } s r).2 = (a.serve env s r).2 ∧
      (a.asksMetrics r = false →
        (a.serve { env with metrics := text } s r).1 = (a.serve env s r).1) := by
  unfold Api.serve Api.asksMetrics
  cases a.mux.resolve (routes a.metricsPath) r with
  | notFound => exact ⟨rfl, fun _ => rfl⟩
  | methodNotAllowed => exact ⟨rfl, fun _ => rfl⟩
  | found route params =>
    cases hauth : a.authorize r route.access with
    | error answer =>
      simp only [hauth]
      exact ⟨trivial, fun _ => trivial⟩
    | ok p =>
      simp only [hauth]
      cases hhandler : route.handler with
      | metrics => exact ⟨rfl, fun h => by cases h⟩
      | _ => exact ⟨rfl, fun _ => rfl⟩

end Routes

/-! ### Runs with metrics -/

/-- The server with its metrics: the text of the registry after the middleware has seen these
requests and answers. -/
structure Metered where
  api : Api
  exposition : List (Request × Answer) → GoString

structure MeteredState where
  api : ApiState
  observed : List (Request × Answer)

namespace Metered

def step (m : Metered) (s : MeteredState) : AdminAction → Option Answer × MeteredState
  | .request env r =>
    let res := m.api.serve { env with metrics := m.exposition s.observed } s.api r
    (some res.1, ⟨res.2, s.observed ++ [(r, res.1)]⟩)
  | act => ((m.api.step s.api act).1, { s with api := (m.api.step s.api act).2 })

def run (m : Metered) (s : MeteredState) (acts : List AdminAction) : MeteredState :=
  acts.foldl (fun s act => (m.step s act).2) s

def transcript (m : Metered) :
    MeteredState → List AdminAction → List (AdminAction × Option Answer)
  | _, [] => []
  | s, act :: acts => (act, (m.step s act).1) :: m.transcript (m.step s act).2 acts

end Metered

def AdminAction.shows (a : Api) : AdminAction → Bool
  | request _ r => !a.asksMetrics r
  | _ => true

section Runs

variable {m : Metered}

/-- Two servers in the same state differ after a step in what the middleware has seen, and in what
they show of it. -/
theorem Metered.step_congr {s s' : MeteredState} (h : s.api = s'.api) (act : AdminAction) :
    (m.step s act).2.api = (m.step s' act).2.api ∧
      (act.shows m.api = true → (m.step s act).1 = (m.step s' act).1) := by
  cases act with
  | request env r =>
    obtain ⟨hstate, hanswer⟩ := Api.serve_metrics m.api env s.api r (m.exposition s.observed)
    obtain ⟨hstate', hanswer'⟩ := Api.serve_metrics m.api env s'.api r (m.exposition s'.observed)
    refine ⟨?_, fun hshows => ?_⟩
    · dsimp only [Metered.step]
      rw [hstate, hstate', h]
    · have hmetrics : m.api.asksMetrics r = false := by
        simpa [AdminAction.shows] using hshows
      dsimp only [Metered.step]
      rw [hanswer hmetrics, hanswer' hmetrics, h]
  | publish status | observeStats stats | setReady =>
    dsimp only [Metered.step]
    rw [h]
    exact ⟨rfl, fun _ => rfl⟩

theorem Metered.step_of_not_counts {s : MeteredState} {act : AdminAction}
    (h : act.counts m.api = false) : (m.step s act).2.api = s.api := by
  cases act with
  | request env r => exact Api.serve_unprivileged h
  | _ => cases h

/-- Requests of callers without the roles `API` and `ADMIN` can be taken out of a run: the state in
the end is the same, but for what the middleware of the metrics has seen, and so is every answer to
the others that does not show the metrics. -/
theorem Api.unprivileged_requests_unnoticed (m : Metered) (s : MeteredState)
    (acts : List AdminAction) :
    (m.run s acts).api = (m.run s (acts.filter (·.counts m.api))).api ∧
      (m.transcript s acts).filter (fun e => e.1.counts m.api && e.1.shows m.api) =
        (m.transcript s (acts.filter (·.counts m.api))).filter (·.1.shows m.api) := by
  suffices h : ∀ s s' : MeteredState, s.api = s'.api →
      (m.run s acts).api = (m.run s' (acts.filter (·.counts m.api))).api ∧
      (m.transcript s acts).filter (fun e => e.1.counts m.api && e.1.shows m.api) =
        (m.transcript s' (acts.filter (·.counts m.api))).filter (·.1.shows m.api) from h s s rfl
  -- the two runs are in states that differ in what the middleware has seen
  induction acts with
  | nil => exact fun s s' h => ⟨h, rfl⟩
  | cons act acts ih =>
    intro s s' h
    cases hcounts : act.counts m.api with
    | true =>
      obtain ⟨hstate, hanswer⟩ := Metered.step_congr h act
      obtain ⟨hrun, htranscript⟩ := ih _ _ hstate
      rw [List.filter_cons_of_pos hcounts]
      refine ⟨hrun, ?_⟩
      cases hshows : act.shows m.api with
      | true =>
        rw [Metered.transcript, Metered.transcript,
          List.filter_cons_of_pos (by simp [hcounts, hshows]),
          List.filter_cons_of_pos (by simpa using hshows), hanswer hshows, htranscript]
      | false =>
        rw [Metered.transcript, Metered.transcript, List.filter_cons_of_neg (by simp [hshows]),
          List.filter_cons_of_neg (by simp [hshows]), htranscript]
    | false =>
      obtain ⟨hrun, htranscript⟩ := ih _ s' ((Metered.step_of_not_counts hcounts).trans h)
      rw [List.filter_cons_of_neg (by simp [hcounts])]
      refine ⟨hrun, ?_⟩
      rw [Metered.transcript, List.filter_cons_of_neg (by simp [hcounts]), htranscript]

end Runs

end TrinoGoway.Admin
