import TrinoGoway.Gateway.World
import TrinoGoway.Routing.Decision

/-! Routing for a query that is in the history but no longer in the cache. -/
namespace TrinoGoway

open Go Go.Http Routing Prog

/-- Of the active backends, the first in the default group is the recorded one or has no URL. -/
def DefaultGroupAgrees (f : (o : Op) → o.Ret) (defaultGroup b : GoString) : Prop :=
  ∀ backends, f .selectActive = .ok backends → ∀ x,
    backends.find? (fun x => x.routingGroup = defaultGroup) = some x → x.url = [] ∨ x.url = b

theorem defaultGroupAgrees_iff (f : (o : Op) → o.Ret) (defaultGroup b : GoString) :
    DefaultGroupAgrees f defaultGroup b ↔
      resolvedURL f defaultGroup = [] ∨ resolvedURL f defaultGroup = b := by
  unfold DefaultGroupAgrees resolvedURL
  cases hactive : f .selectActive with
  | error e => simp [eval_listActive_error hactive]
  | ok backends =>
    rw [eval_listActive hactive]
    dsimp only
    rw [groupURL_map]
    cases hfind : backends.find? fun x => x.routingGroup = defaultGroup with
    | none => simp [hfind]
    | some x => simp [hfind]

/-- For a query that only the history knows, `Route` finds its backend exactly when the default
group does not offer another one first. -/
theorem route_after_restart_iff (r : Router) (req : RouteInput) (f : (o : Op) → o.Ret)
    {q b : GoString} (hq : q ≠ []) (hpath : ∀ c ∈ q, c ≠ Byte.slash ∧ c ≠ Byte.question)
    (huri : QueryURI q req.requestURI) (hbody : req.body = []) (hcache : f (.cacheGet q) = none)
    (hrouter : ((r.callExternal req).eval f).1.group = [])
    (hb : b ≠ []) (hhistory : HistoryMaps f q b) :
    (∃ result, (r.route req).eval f = .ok result ∧ result.backendURL = b) ↔
      DefaultGroupAgrees f r.cfg.defaultGroup b := by
  have hid : extractQueryID req = q := extractQueryID_of_queryURI hq hpath huri
  have hroute : (r.route req).eval f = .ok ((r.routeGroup req).eval f) := by
    have hid' : extractQueryID req ≠ [] := by rw [hid]; exact hq
    rw [eval_route, eval_routeKill_none (by rw [hbody]; rfl), eval_routeCached hid', hid, hcache]
    rfl
  have hurl : ((r.routeGroup req).eval f).backendURL =
      if resolvedURL f r.cfg.defaultGroup = [] then b else resolvedURL f r.cfg.defaultGroup := by
    rw [eval_routeGroup_backendURL]
    dsimp only
    rw [eval_routeRecovered hid hq hhistory hb]
    unfold resolvedGroup
    rw [if_pos hrouter]
  rw [hroute, defaultGroupAgrees_iff]
  constructor
  · rintro ⟨result, heq, rfl⟩
    obtain rfl := Except.ok.inj heq
    rw [hurl]
    split
    · next hnil => exact Or.inl hnil
    · exact Or.inr rfl
  · intro h
    refine ⟨_, rfl, ?_⟩
    rw [hurl]
    split
    · rfl
    · next hne => exact h.resolve_left hne

private def restartQuery : GoString := str "1_2_3_x"

private def restartInput : RouteInput :=
  newRouteInput (sampleRequest "GET" "/v1/query/1_2_3_x" "") []

private def restartState : Shared :=
  .init [{ queryID := restartQuery, backendURL := str "http://etl", externalURL := [],
           userName := [], source := [] }]

private def restartAnswers (others : List Persistence.Backend) : (o : Op) → o.Ret :=
  World.answers { active := .ok (others ++ [sampleBackend "http://etl" "etl"]) } restartState

private theorem restartAnswers_history (others : List Persistence.Backend) :
    HistoryMaps (restartAnswers others) restartQuery (str "http://etl") :=
  ⟨rfl, fun _ h => by cases h⟩

theorem route_after_restart_sample :
    (∃ result,
      ((sampleProxy true).router.route restartInput).eval (restartAnswers []) = .ok result ∧
      result.backendURL = str "http://etl") ↔
      DefaultGroupAgrees (restartAnswers []) (str "adhoc") (str "http://etl") := by
  have hword : ∀ c ∈ restartQuery, Byte.isWord c := List.all_eq_true.mp (by decide)
  exact route_after_restart_iff (sampleProxy true).router restartInput (restartAnswers [])
    (by decide) (fun c hc => not_separator_of_isWord (hword c hc)) (Or.inl (by decide)) rfl rfl rfl
    (by decide) (restartAnswers_history [])

/-- The default group has another backend: the query is sent there. -/
theorem route_after_restart_misroutes :
    let f := restartAnswers [sampleBackend "http://adhoc" "adhoc"]
    QueryURI restartQuery restartInput.requestURI ∧ f (.cacheGet restartQuery) = none ∧
      (((sampleProxy true).router.callExternal restartInput).eval f).1.group = [] ∧
      HistoryMaps f restartQuery (str "http://etl") ∧
      ¬∃ result, ((sampleProxy true).router.route restartInput).eval f = .ok result ∧
        result.backendURL = str "http://etl" := by
  refine ⟨Or.inl (by decide), rfl, rfl, restartAnswers_history _, ?_⟩
  rintro ⟨result, hroute, hurl⟩
  obtain rfl : (⟨str "http://adhoc", str "adhoc", none, [], .fallback⟩ : RouteResult) = result :=
    Except.ok.inj hroute
  exact absurd hurl (by decide)

end TrinoGoway
