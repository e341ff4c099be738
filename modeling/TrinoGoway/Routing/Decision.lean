import TrinoGoway.Routing.Router

/-! What the routing decision computes when every operation has one answer. -/
namespace TrinoGoway.Routing

open Go Go.Http Prog

def groupURL (backends : List ActiveBackend) (group : GoString) : GoString :=
  ((backends.find? fun b => b.routingGroup = group).map (·.url)).getD []

def firstURL (backends : List ActiveBackend) : GoString := (backends.head?.map (·.url)).getD []

theorem groupURL_map (backends : List Persistence.Backend) (group : GoString) :
    groupURL (backends.map toActiveBackend) group =
      ((backends.find? fun x => x.routingGroup = group).map (·.url)).getD [] := by
  unfold groupURL
  rw [List.find?_map, Option.map_map]
  rfl

section Eval

variable {f : (o : Op) → o.Ret}

theorem eval_listActive {backends : List Persistence.Backend} (h : f .selectActive = .ok backends) :
    listActive.eval f = .ok (backends.map toActiveBackend) := by
  simp [listActive, Persistence.BackendDAO.listActive, h]

theorem eval_listActive_error {e : GoError} (h : f .selectActive = .error e) :
    listActive.eval f = .error (e.wrap "persistence: backend: list active: ") := by
  simp [listActive, Persistence.BackendDAO.listActive, h]

def resolvedURL (f : (o : Op) → o.Ret) (group : GoString) : GoString :=
  match listActive.eval f with
  | .ok backends => groupURL backends group
  | .error _ => []

theorem eval_resolveGroup (group : GoString) :
    (resolveGroup group).eval f = .ok (resolvedURL f group) ∨
      resolvedURL f group = [] ∧ ∃ e, (resolveGroup group).eval f = .error e := by
  unfold resolveGroup resolvedURL groupURL
  rw [eval_bind]
  cases listActive.eval f with
  | error e => exact Or.inr ⟨rfl, e, rfl⟩
  | ok backends =>
    left
    dsimp only
    cases backends.find? fun b => b.routingGroup = group with
    | none => rfl
    | some b => rfl

def firstActiveURL (f : (o : Op) → o.Ret) : GoString :=
  match listActive.eval f with
  | .ok backends => firstURL backends
  | .error _ => []

theorem eval_firstActiveBackend : firstActiveBackend.eval f = firstActiveURL f := by
  unfold firstActiveBackend firstActiveURL firstURL
  rw [eval_bind]
  cases listActive.eval f with
  | error e => rfl
  | ok backends =>
    cases backends with
    | nil => rfl
    | cons b bs => rfl

theorem eval_route (r : Router) (req : RouteInput) :
    (r.route req).eval f =
      .ok (((Router.routeKill req).eval f).getD (((Router.routeCached req).eval f).getD
        ((r.routeGroup req).eval f))) := by
  unfold Router.route
  rw [eval_bind]
  cases (Router.routeKill req).eval f with
  | some result => rfl
  | none =>
    dsimp only
    rw [eval_bind]
    cases (Router.routeCached req).eval f with
    | some result => rfl
    | none => simp

theorem eval_routeKill {req : RouteInput} (h : extractKillQueryID req.body ≠ []) :
    (Router.routeKill req).eval f =
      let url := (recoverBackend (extractKillQueryID req.body)).eval f
      if url = [] then none else some { backendURL := url, outcome := .killQuery } := by
  unfold Router.routeKill
  rw [if_neg h, eval_bind]
  dsimp only
  split
  · rfl
  · rfl

theorem eval_routeKill_none {req : RouteInput} (h : extractKillQueryID req.body = []) :
    (Router.routeKill req).eval f = none := by
  simp [Router.routeKill, h]

theorem eval_routeCached {req : RouteInput} (h : extractQueryID req ≠ []) :
    (Router.routeCached req).eval f =
      (f (.cacheGet (extractQueryID req))).map fun url =>
        { backendURL := url, outcome := .ok } := by
  unfold Router.routeCached
  rw [if_neg h, eval_bind, eval_perform]
  cases f (.cacheGet (extractQueryID req)) with
  | none => rfl
  | some url => rfl

theorem eval_routeCached_none {req : RouteInput} (h : extractQueryID req = []) :
    (Router.routeCached req).eval f = none := by
  simp [Router.routeCached, h]

/-- The group whose backend is looked for: the router's, or the default one. -/
def resolvedGroup (r : Router) (sel : Selection) : GoString :=
  if sel.group = [] then r.cfg.defaultGroup else sel.group

/-- Recovery is only tried when the group has no backend. -/
theorem eval_routeGroup_backendURL (r : Router) (req : RouteInput) :
    ((r.routeGroup req).eval f).backendURL =
      let sel := ((r.callExternal req).eval f).1
      let url := resolvedURL f (resolvedGroup r sel)
      if url = [] then
        ((Router.routeRecovered req (resolvedGroup r sel) sel).eval f).backendURL
      else url := by
  unfold Router.routeGroup
  rw [eval_bind]
  generalize (r.callExternal req).eval f = x
  obtain ⟨sel, err⟩ := x
  dsimp only
  rw [eval_bind]
  obtain h | ⟨hnil, e, h⟩ := eval_resolveGroup (f := f) (resolvedGroup r sel)
  · unfold resolvedGroup at h ⊢
    rw [h]
    cases resolvedURL f (if sel.group = [] then r.cfg.defaultGroup else sel.group) with
    | nil => rfl
    | cons c url => rfl
  · rw [if_pos hnil]
    unfold resolvedGroup at h ⊢
    rw [h]

/-- The backend for a request without a query id: the first listed active one of the resolved group
or, if that one has no URL or there is none, the first listed one of all. -/
def chosenURL (r : Router) (f : (o : Op) → o.Ret) (req : RouteInput) : GoString :=
  let url := resolvedURL f (resolvedGroup r ((r.callExternal req).eval f).1)
  if url = [] then firstActiveURL f else url

theorem eval_routeGroup_chosen (r : Router) {req : RouteInput} (hid : extractQueryID req = []) :
    ((r.routeGroup req).eval f).backendURL = chosenURL r f req := by
  have hrecover (group : GoString) (sel : Selection) :
      ((Router.routeRecovered req group sel).eval f).backendURL = firstActiveURL f := by
    unfold Router.routeRecovered Router.recoverPath
    rw [if_pos hid]
    simp [eval_firstActiveBackend]
  rw [eval_routeGroup_backendURL]
  dsimp only
  rw [hrecover]
  rfl

theorem eval_route_chosen (r : Router) (req : RouteInput)
    (hkill : extractKillQueryID req.body = []) (hid : extractQueryID req = []) :
    ∃ result, (r.route req).eval f = .ok result ∧ result.backendURL = chosenURL r f req := by
  refine ⟨(r.routeGroup req).eval f, ?_, eval_routeGroup_chosen r hid⟩
  rw [eval_route, eval_routeKill_none hkill, eval_routeCached_none hid]
  rfl

/-- The history store maps `q` to `b`, whether the lookup is made here or joined. -/
def HistoryMaps (f : (o : Op) → o.Ret) (q b : GoString) : Prop :=
  f (.selectHistory q) = .ok (some b) ∧
    ∀ c, f (.enterFlight q) = .join c → f (.awaitFlight c) = .ok b

variable {q b : GoString}

theorem eval_recoverFromHistory (h : HistoryMaps f q b) : (recoverFromHistory q).eval f = b := by
  obtain ⟨hselect, hjoin⟩ := h
  unfold recoverFromHistory singleFlight Persistence.HistoryDAO.lookupByQueryID
  simp only [eval_bind, eval_perform]
  cases henter : f (.enterFlight q) with
  | lead c => simp [hselect]
  | join c => simp [hjoin c henter]

theorem eval_recoverBackend (h : HistoryMaps f q b) (hb : b ≠ []) :
    (recoverBackend q).eval f = b := by
  unfold recoverBackend
  rw [eval_bind, eval_recoverFromHistory h, if_pos hb, eval_pure]

theorem eval_routeRecovered {req : RouteInput} (hid : extractQueryID req = q) (hq : q ≠ [])
    (h : HistoryMaps f q b) (hb : b ≠ []) (group : GoString) (sel : Selection) :
    ((Router.routeRecovered req group sel).eval f).backendURL = b := by
  have hpath : (Router.recoverPath req).eval f = b := by
    unfold Router.recoverPath
    rw [hid, if_neg hq, eval_recoverBackend h hb]
  unfold Router.routeRecovered
  rw [eval_bind, hpath, if_pos hb, eval_pure]

end Eval

end TrinoGoway.Routing
