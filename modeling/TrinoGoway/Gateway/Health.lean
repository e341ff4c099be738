import TrinoGoway.Gateway.World
import TrinoGoway.Monitor.Status
import TrinoGoway.Routing.Decision

/-! Routing decisions and the monitor: `Route` reads the list of active backends only. -/
namespace TrinoGoway

open Go Go.Http Routing Prog Monitor

def ReturnsDown (r : Router) (req : RouteInput) (f : (o : Op) → o.Ret) (snapshot : Snapshot)
    (active : List Persistence.Backend) (group : GoString) : Prop :=
  ∃ result, (r.route req).eval f = .ok result ∧
    ∃ b ∈ active, b.routingGroup = group ∧ b.url = result.backendURL ∧
      (snapshot.status b.url).isDown

/-- If the group has a HEALTHY active backend, `Route` returns none of the group that is down. -/
def HealthGates (r : Router) (req : RouteInput) (f : (o : Op) → o.Ret) (snapshot : Snapshot)
    (active : List Persistence.Backend) (group : GoString) : Prop :=
  (∃ b ∈ active, b.routingGroup = group ∧ snapshot.status b.url = .healthy) →
    ¬ReturnsDown r req f snapshot active group

/-- The backend that the order of the list puts first for the group: its first listed one or, where
that one has no URL, the first of the whole list. -/
def ListedFirst (active : List Persistence.Backend) (group : GoString)
    (b : Persistence.Backend) : Prop :=
  ∃ first, active.find? (fun b => b.routingGroup = group) = some first ∧
    (first.url ≠ [] ∧ b = first ∨ first.url = [] ∧ active.head? = some b)

theorem resolvedURL_of_find {f : (o : Op) → o.Ret} {active : List Persistence.Backend}
    {group : GoString} {first : Persistence.Backend} (hactive : f .selectActive = .ok active)
    (hfirst : active.find? (fun b => b.routingGroup = group) = some first) :
    resolvedURL f group = first.url := by
  unfold resolvedURL
  rw [eval_listActive hactive]
  dsimp only
  rw [groupURL_map, hfirst]
  rfl

theorem firstActiveURL_of_head {f : (o : Op) → o.Ret} {active : List Persistence.Backend}
    {front : Persistence.Backend} (hactive : f .selectActive = .ok active)
    (hfront : active.head? = some front) : firstActiveURL f = front.url := by
  unfold firstActiveURL firstURL
  rw [eval_listActive hactive]
  dsimp only
  rw [List.head?_map, hfront]
  rfl

theorem chosenURL_of_listedFirst {r : Router} {req : RouteInput} {f : (o : Op) → o.Ret}
    {active : List Persistence.Backend} {group : GoString} {b : Persistence.Backend}
    (hactive : f .selectActive = .ok active)
    (hgroup : resolvedGroup r ((r.callExternal req).eval f).1 = group)
    (hb : ListedFirst active group b) : chosenURL r f req = b.url := by
  obtain ⟨first, hfirst, hcase⟩ := hb
  unfold chosenURL
  rw [hgroup, resolvedURL_of_find hactive hfirst]
  obtain ⟨hurl, rfl⟩ | ⟨hurl, hfront⟩ := hcase
  · exact if_neg hurl
  · rw [firstActiveURL_of_head hactive hfront]
    exact if_pos hurl

theorem exists_listedFirst {active : List Persistence.Backend} {group : GoString}
    {b : Persistence.Backend} (hb : b ∈ active) (hin : b.routingGroup = group) :
    ∃ first, ListedFirst active group first := by
  cases hfirst : active.find? (fun b => b.routingGroup = group) with
  | none =>
    rw [List.find?_eq_none] at hfirst
    exact absurd (hfirst b hb) (by simpa using hin)
  | some first =>
    by_cases hurl : first.url = []
    · cases active with
      | nil => cases hb
      | cons front rest => exact ⟨front, first, hfirst, Or.inr ⟨hurl, rfl⟩⟩
    · exact ⟨first, first, hfirst, Or.inl ⟨hurl, rfl⟩⟩

/-- Health gates a decision exactly when the order of the list does it by chance: the backend that
is listed first is none of the group that is down. What the monitor says of the others has no
influence. -/
theorem health_gates_iff (r : Router) (req : RouteInput) (f : (o : Op) → o.Ret)
    (snapshot : Snapshot) {active : List Persistence.Backend} {group : GoString}
    (hkill : extractKillQueryID req.body = []) (hid : extractQueryID req = [])
    (hactive : f .selectActive = .ok active)
    (hgroup : resolvedGroup r ((r.callExternal req).eval f).1 = group) :
    HealthGates r req f snapshot active group ↔
      ((∃ b ∈ active, b.routingGroup = group ∧ snapshot.status b.url = .healthy) →
        ∀ first, ListedFirst active group first →
          (∃ b ∈ active, b.routingGroup = group ∧ b.url = first.url) →
            ¬(snapshot.status first.url).isDown) := by
  obtain ⟨result, hroute, hresult⟩ := eval_route_chosen (f := f) r req hkill hid
  have hreturned (first : Persistence.Backend) (hfirst : ListedFirst active group first) :
      result.backendURL = first.url := by
    rw [hresult]
    exact chosenURL_of_listedFirst hactive hgroup hfirst
  constructor
  · intro hgates hhealthy first hfirst hshared hdown
    obtain ⟨b, hb, hin, hurl⟩ := hshared
    refine hgates hhealthy ⟨result, hroute, b, hb, hin, ?_, ?_⟩
    · rw [hurl, hreturned first hfirst]
    · rwa [hurl]
  · rintro hcond hhealthy ⟨result', hroute', b, hb, hin, hurl, hdown⟩
    rw [hroute] at hroute'
    obtain rfl := Except.ok.inj hroute'
    obtain ⟨first, hfirst⟩ := exists_listedFirst hb hin
    have hsame : b.url = first.url := by rw [hurl, hreturned first hfirst]
    refine hcond hhealthy first hfirst ⟨b, hb, hin, hsame⟩ ?_
    rwa [← hsame]

section Samples

private def healthBackends : List Persistence.Backend :=
  [sampleBackend "http://a" "adhoc", sampleBackend "http://b" "adhoc"]

private def healthSnapshot : Snapshot :=
  GoMap.set (GoMap.set .empty (str "http://a") .unhealthy) (str "http://b") .healthy

private def healthInput : RouteInput :=
  newRouteInput (sampleRequest "POST" "/v1/statement" "SELECT 1") (str "SELECT 1")

private def healthAnswers : (o : Op) → o.Ret :=
  World.answers { active := .ok healthBackends } (.init [])

/-- With the healthy backend listed first nothing goes wrong. -/
theorem health_gates_healthy_first :
    HealthGates (sampleProxy true).router healthInput
      (World.answers { active := .ok healthBackends.reverse } (.init [])) healthSnapshot
      healthBackends.reverse (str "adhoc") := by
  refine (health_gates_iff (sampleProxy true).router healthInput _ healthSnapshot
    (by decide +kernel) (by decide) rfl rfl).mpr fun _ first hfirst _ => ?_
  obtain ⟨b, hb, ⟨-, rfl⟩ | ⟨hurl, -⟩⟩ := hfirst
  · obtain rfl : sampleBackend "http://b" "adhoc" = first := Option.some.inj hb
    decide
  · obtain rfl : sampleBackend "http://b" "adhoc" = b := Option.some.inj hb
    exact absurd hurl (by decide)

/-- The other backend of the group is healthy. -/
theorem unhealthy_backend_returned :
    let r := (sampleProxy true).router
    let group := resolvedGroup r ((r.callExternal healthInput).eval healthAnswers).1
    extractKillQueryID healthInput.body = [] ∧ extractQueryID healthInput = [] ∧
      healthAnswers .selectActive = .ok healthBackends ∧
      ¬HealthGates r healthInput healthAnswers healthSnapshot healthBackends group := by
  refine ⟨by decide +kernel, by decide, rfl, fun hgates => ?_⟩
  refine hgates ⟨sampleBackend "http://b" "adhoc", by simp [healthBackends], rfl, by decide⟩ ?_
  exact ⟨⟨str "http://a", str "adhoc", none, [], .fallback⟩, rfl, sampleBackend "http://a" "adhoc",
    by simp [healthBackends], rfl, rfl, by decide⟩

end Samples

end TrinoGoway
