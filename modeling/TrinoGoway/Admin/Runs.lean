import TrinoGoway.Admin.Api

/-! Runs of the admin server. Whatever the requests, their callers and the faults of the database,
the table of backends is what the accepted requests have asked for, in their order. -/
namespace TrinoGoway.Admin

open Go Go.Http Auth Persistence
open Monitor (Snapshot)

namespace Api

def asks (a : Api) (env : Env) (r : Request) (params : List GoString) :
    Handler → Option BackendWrite
  | .activateBackend => some (.setActive (params.headD []) true env.now)
  | .deactivateBackend => some (.setActive (params.headD []) false env.now)
  | .addBackend | .updateBackend | .webappSaveBackend | .webappUpdateBackend =>
    (decodeJSON r a.decode.backend).map fun pb => .upsert (persistenceBackendFromProxy pb env.now)
  | .upsertEntity =>
    if queryGet r (str "entityType") = gatewayBackend then
      (decodeJSON r a.decode.backend).map fun pb => .upsert (persistenceBackendFromProxy pb env.now)
    else none
  | .deleteBackend =>
    match nameInBody r with
    | .error _ => none
    | .ok name => if name = [] then none else some (.delete name)
  | .webappDeleteBackend => (decodeJSON r a.decode.backend).map fun pb => .delete pb.name
  | _ => none

def requested (a : Api) (env : Env) (r : Request) : Option BackendWrite :=
  match a.mux.resolve (routes a.metricsPath) r with
  | .found route params => a.asks env r params route.handler
  | _ => none

end Api

/-- A write counts if the answer says that it has been made. -/
def Answer.acknowledges (answer : Answer) (w : Option BackendWrite) : List BackendWrite :=
  if answer.accepted then w.toList else []

section Step

variable {a : Api} {env : Env} {s : ApiState} {r : Request}

theorem Answer.acknowledges_none (answer : Answer) : answer.acknowledges none = [] := by
  unfold acknowledges
  split <;> rfl

/-- What a handler can do: leave everything as it is and acknowledge no write, or make the write
that it is asked for and acknowledge it. -/
inductive Outcome (a : Api) (env : Env) (s : ApiState) (r : Request) (params : List GoString)
    (h : Handler) : Answer × ApiState → Prop
  | unchanged {answer : Answer} (hanswer : answer.acknowledges (a.asks env r params h) = []) :
    Outcome a env s r params h (answer, s)
  | written {answer : Answer} {w : BackendWrite} (s' : ApiState)
      (hanswer : answer.acknowledges (a.asks env r params h) = [w])
      (htable : s'.table = s.table.apply w) :
    Outcome a env s r params h (answer, s')

variable {params : List GoString} {h : Handler}

theorem Env.store_outcome {w : BackendWrite} {ok err : Answer}
    (hasks : a.asks env r params h = some w) (hok : ok.accepted = true)
    (herr : err.accepted = false) :
    Outcome a env s r params h (env.store s w ok err) := by
  unfold Env.store
  cases env.fault with
  | none => exact .written _ (by simp [Answer.acknowledges, hok, hasks]) rfl
  | some e => exact .unchanged (by simp [Answer.acknowledges, herr])

theorem Api.saving_outcome {body : Option ProxyBackend}
    (hasks : a.asks env r params h =
      body.map fun pb => .upsert (persistenceBackendFromProxy pb env.now)) :
    Outcome a env s r params h (Api.saving s (saveBackend s.table env.now env.fault body)) := by
  cases body with
  | none => exact .unchanged (by simp [Answer.acknowledges, hasks])
  | some pb =>
    cases hfault : env.fault with
    | none => exact .written _ (by simp [Answer.acknowledges, hasks]; rfl) rfl
    | some e => exact .unchanged rfl

theorem Api.upsertEntity_outcome :
    Outcome a env s r params .upsertEntity (a.upsertEntity env s r) := by
  unfold Api.upsertEntity Admin.upsertEntity
  by_cases htype : queryGet r (str "entityType") = Api.gatewayBackend
  · have hneg : ¬ queryGet r (str "entityType") ≠ str "GATEWAY_BACKEND" := fun hne => hne htype
    simp only [if_neg hneg]
    cases hbody : decodeJSON r a.decode.backend with
    | none => exact .unchanged rfl
    | some pb =>
      cases hfault : env.fault with
      | none =>
        have hasks : a.asks env r params .upsertEntity =
            some (.upsert (persistenceBackendFromProxy pb env.now)) := by
          simp [Api.asks, htype, hbody]
        have hanswer : (Answer.json (.backend pb)).acknowledges
            (a.asks env r params .upsertEntity) =
              [.upsert (persistenceBackendFromProxy pb env.now)] := by
          rw [hasks]
          rfl
        cases a.statusMut with
        | true => exact .written _ hanswer rfl
        | false => exact .written _ hanswer rfl
      | some e => exact .unchanged rfl
  · have hpos : queryGet r (str "entityType") ≠ str "GATEWAY_BACKEND" := htype
    simp only [if_pos hpos]
    exact .unchanged rfl

theorem Api.handle_outcome (p : Option Principal) :
    Outcome a env s r params h (a.handle env s r p params h) := by
  cases h with
  | activateBackend => exact Env.store_outcome rfl rfl rfl
  | deactivateBackend => exact Env.store_outcome rfl rfl rfl
  | addBackend => exact Api.saving_outcome rfl
  | updateBackend => exact Api.saving_outcome rfl
  | upsertEntity => exact Api.upsertEntity_outcome
  | deleteBackend =>
    simp only [Api.handle, Api.deleteBackend]
    cases hname : Api.nameInBody r with
    | error e => exact .unchanged rfl
    | ok name =>
      by_cases hempty : name = []
      · simp only [if_pos hempty]
        exact .unchanged rfl
      · simp only [if_neg hempty]
        exact Env.store_outcome (by simp [Api.asks, hname, hempty]) rfl rfl
  | webappSaveBackend | webappUpdateBackend | webappDeleteBackend =>
    simp only [Api.handle, Api.webappStore, Api.webappDeleteBackend]
    cases hbody : decodeJSON r a.decode.backend with
    | none => exact .unchanged rfl
    | some pb => exact Env.store_outcome (by simp [Api.asks, hbody]) rfl rfl
  | _ => exact .unchanged (Answer.acknowledges_none _)

theorem Api.handle_table (p : Option Principal) :
    (a.handle env s r p params h).2.table =
      ((a.handle env s r p params h).1.acknowledges (a.asks env r params h)).foldl
        BackendTable.apply s.table := by
  have hout : Outcome a env s r params h (a.handle env s r p params h) := Api.handle_outcome p
  generalize a.handle env s r p params h = res at hout ⊢
  cases hout with
  | unchanged hanswer =>
    rw [hanswer]
    rfl
  | written s' hanswer htable =>
    rw [hanswer, htable]
    rfl

/-- The middlewares accept nothing. -/
theorem Api.not_accepted_of_authorize {access : Access} {answer : Answer}
    (h : a.authorize r access = .error answer) : answer.accepted = false := by
  cases access with
  | anyone => cases h
  | authenticated =>
    simp only [Api.authorize] at h
    split at h
    · cases h
      rfl
    · cases h
  | role role =>
    simp only [Api.authorize] at h
    split at h
    · cases h
      rfl
    · split at h
      · cases h
      · cases h
        rfl

/-- One request leaves the table as it was, or with the write that its answer acknowledges. -/
theorem Api.serve_table :
    (a.serve env s r).2.table =
      ((a.serve env s r).1.acknowledges (a.requested env r)).foldl BackendTable.apply s.table := by
  unfold Api.serve Api.requested
  cases a.mux.resolve (routes a.metricsPath) r with
  | notFound => rfl
  | methodNotAllowed => rfl
  | found route params =>
    cases hauth : a.authorize r route.access with
    | ok p =>
      simp only [hauth]
      exact Api.handle_table p
    | error answer =>
      simp only [hauth]
      have hrefused : answer.accepted = false := Api.not_accepted_of_authorize hauth
      simp [Answer.acknowledges, hrefused]

end Step

/-! ### Runs -/

inductive AdminAction
  | request (env : Env) (r : Request)
  /-- the monitor replaces its statuses -/
  | publish (status : Snapshot)
  /-- the monitor hands over the stats of a cycle -/
  | observeStats (stats : GoString → UiApi.ClusterStats)
  | setReady

namespace Api

def step (a : Api) (s : ApiState) : AdminAction → Option Answer × ApiState
  | .request env r => ((a.serve env s r).1, (a.serve env s r).2)
  | .publish status => (none, { s with status })
  | .observeStats stats => (none, { s with stats })
  | .setReady => (none, { s with ready := true })

def run (a : Api) (s : ApiState) (acts : List AdminAction) : ApiState :=
  acts.foldl (fun s act => (a.step s act).2) s

def transcript (a : Api) : ApiState → List AdminAction → List (AdminAction × Option Answer)
  | _, [] => []
  | s, act :: acts => (act, (a.step s act).1) :: a.transcript (a.step s act).2 acts

def acknowledgedBy (a : Api) : AdminAction × Option Answer → List BackendWrite
  | (.request env r, some answer) => answer.acknowledges (a.requested env r)
  | _ => []

def acknowledged (a : Api) (s : ApiState) (acts : List AdminAction) : List BackendWrite :=
  (a.transcript s acts).flatMap a.acknowledgedBy

def writesAbout (a : Api) (s : ApiState) (acts : List AdminAction) (name : GoString) :
    List BackendWrite :=
  (a.acknowledged s acts).filter (·.name = name)

end Api

section Run

variable {a : Api} {s : ApiState}

theorem Api.step_table (act : AdminAction) :
    (a.step s act).2.table =
      (a.acknowledgedBy (act, (a.step s act).1)).foldl BackendTable.apply s.table := by
  cases act with
  | request env r => exact Api.serve_table
  | publish status => rfl
  | observeStats stats => rfl
  | setReady => rfl

theorem Api.run_table (acts : List AdminAction) :
    (a.run s acts).table = (a.acknowledged s acts).foldl BackendTable.apply s.table := by
  induction acts generalizing s with
  | nil => rfl
  | cons act acts ih =>
    have hcons : a.acknowledged s (act :: acts) =
        a.acknowledgedBy (act, (a.step s act).1) ++ a.acknowledged (a.step s act).2 acts :=
      List.flatMap_cons ..
    rw [hcons, List.foldl_append, ← Api.step_table, ← ih]
    rfl

theorem Api.find?_run (s : ApiState) (acts : List AdminAction) (name : GoString) :
    (a.run s acts).table.find? name =
      BackendWrite.replay (a.writesAbout s acts name) (s.table.find? name) := by
  rw [Api.run_table, BackendTable.find?_foldl_apply]
  rfl

/-- After any run, the table has a backend under a name exactly if the acknowledged writes about
this name leave one: a request that is refused or fails has no effect on it, and neither has any
request about another name. -/
theorem Api.mem_rows_run_iff (s : ApiState) (acts : List AdminAction) (b : Backend) :
    b ∈ (a.run s acts).table.rows ↔
      BackendWrite.replay (a.writesAbout s acts b.name) (s.table.find? b.name) = some b := by
  rw [← Api.find?_run, BackendTable.find?_eq_some]
  exact ⟨fun h => ⟨h, rfl⟩, fun h => h.1⟩

end Run

/-! ### A run -/

/-- A router for paths that are a pattern, or a pattern with one last element for its name. -/
def plainMux : Mux where
  resolve rs r :=
    let before := ((split Byte.slash r.path).dropLast.map (· ++ [Byte.slash])).flatten
    match rs.find? fun route => route.method.text = r.method ∧ route.pattern = r.path with
    | some route => .found route []
    | none =>
      match rs.find? fun route =>
          route.method.text = r.method ∧ route.pattern = before ++ str "\x7bname\x7d" with
      | some route => .found route [r.path.drop before.length]
      | none => .notFound
  registered := by
    intro rs r route params h
    dsimp only at h
    split at h
    · rename_i found hfind
      obtain ⟨rfl, -⟩ := Resolution.found.inj h
      exact List.mem_of_find?_eq_some hfind
    · split at h
      · rename_i found hfind
        obtain ⟨rfl, -⟩ := Resolution.found.inj h
        exact List.mem_of_find?_eq_some hfind
      · cases h

def backendJSON : GoString :=
  str "\x7b\"name\":\"a\",\"proxyTo\":\"http://a\",\"active\":true,\"routingGroup\":\"adhoc\"\x7d"

def openApi : Api where
  mux := plainMux
  metricsPath := none
  server := ⟨some .noop, ⟨str ".*", str ".*", str ".*"⟩, fun _ _ => some true⟩
  authType := str "NOOP"
  webLogin := none
  pagePermissions := .empty
  disablePages := []
  statusMut := true
  stats := false
  decode :=
    { backend := fun body =>
        if body = backendJSON then some ⟨str "a", str "http://a", [], true, str "adhoc"⟩ else none
      history := fun _ => none
      distribution := fun _ => {}
      login := fun _ => none }

def emptyState : ApiState := ⟨⟨[], List.nodup_nil⟩, .empty, fun _ => Api.zeroStats, false⟩

noncomputable def calm (now : Time) : Env where
  now := now
  fault := none
  order := id
  perm := fun _ => .refl _
  history := { order := .arbitrary, rows := [], driver := .postgres }
  random := (.ok [], .ok [])
  metrics := []

def request (method path : String) (body : GoString) : Request :=
  ⟨str method, str path, [], [], str path, .empty, [], [], false, none, .ok body⟩

/-- A backend is added at time 5 and deactivated at time 7. -/
noncomputable def addAndDeactivate : List AdminAction :=
  [.request (calm 5) (request "POST" "/gateway/backend/modify/add" backendJSON),
    .request (calm 7) (request "POST" "/gateway/backend/deactivate/a" [])]

end TrinoGoway.Admin
