import TrinoGoway.Routing.Router
import TrinoGoway.Routing.SingleFlight

/-! Requests that recover a query while contexts are cancelled. A coalesced lookup runs with the
context of the request that started it, so its failure reaches every request that has joined. -/
namespace TrinoGoway.Routing.Cancellation

open Go Persistence Prog

abbrev Res := Except GoError GoString

/-- `recoverBackend` once `do` has returned. -/
def afterLookup (queryID : GoString) (res : Res) : Gw GoString :=
  let url := match res with
    | .error _ => []
    | .ok url => url
  if url ≠ [] then return url else recoverFromActive queryID

variable {ι : Type} [DecidableEq ι]

structure State (ι : Type) where
  flight : SingleFlight.State ι GoString Res
  /-- the requests whose context is cancelled -/
  cancelled : ι → Bool

inductive Action (ι : Type)
  | flight (a : SingleFlight.Action ι Res)
  | cancel (i : ι)

def permits (key : ι → GoString) (q b : GoString) (s : State ι) : SingleFlight.Action ι Res → Bool
  | .next _ => true
  | .ret i (.ok url) => key i = q → url = b
  | .ret i (.error _) => key i = q → s.cancelled i

def step (key : ι → GoString) (q b : GoString) (s : State ι) : Action ι → Option (State ι)
  | .flight a =>
    if permits key q b s a then
      (SingleFlight.step key s.flight a).map fun flight => { s with flight }
    else none
  | .cancel i => some { s with cancelled := Function.update s.cancelled i true }

def init : State ι := ⟨SingleFlight.init (.ok []), fun _ => false⟩

def flights (as : List (Action ι)) : List (SingleFlight.Action ι Res) :=
  as.filterMap fun
    | .flight a => some a
    | .cancel _ => none

section Run

variable {key : ι → GoString} {q b : GoString} {as : List (Action ι)} {s : State ι}

theorem step_flight {a : SingleFlight.Action ι Res} {s' : State ι}
    (h : step key q b s (.flight a) = some s') :
    permits key q b s a ∧ SingleFlight.step key s.flight a = some s'.flight ∧
      s'.cancelled = s.cancelled := by
  simp only [step] at h
  split at h
  · rename_i hok
    obtain ⟨flight, hstep, rfl⟩ := Option.map_eq_some_iff.mp h
    exact ⟨hok, hstep, rfl⟩
  · cases h

/-- Without the cancellations a run is a run of `do`. -/
theorem run_flights (h : Machine.run (step key q b) init as = some s) :
    Machine.run (SingleFlight.step key) (SingleFlight.init (.ok [])) (flights as) =
      some s.flight := by
  induction as using List.reverseRecOn generalizing s with
  | nil =>
    obtain rfl := Option.some.inj h
    rfl
  | append_singleton as a ih =>
    obtain ⟨s₁, h₁, hstep⟩ := Machine.run_snoc_eq_some.mp h
    have ih := ih h₁
    unfold flights at ih ⊢
    rw [List.filterMap_append, Machine.run_append, ih]
    cases a with
    | flight a =>
      obtain ⟨-, hflight, -⟩ := step_flight hstep
      simpa using hflight
    | cancel i =>
      obtain rfl := Option.some.inj hstep
      rfl

theorem cancelled_of_result (h : Machine.run (step key q b) init as = some s) {c : ι} {res : Res}
    (hc : key c = q) (hres : res ∈ SingleFlight.results c (flights as)) :
    res = .ok b ∨ (∃ e, res = .error e) ∧ s.cancelled c := by
  induction as using List.reverseRecOn generalizing s with
  | nil => cases hres
  | append_singleton as a ih =>
    obtain ⟨s₁, h₁, hstep⟩ := Machine.run_snoc_eq_some.mp h
    unfold flights SingleFlight.results at hres
    rw [List.filterMap_append, List.filterMap_append] at hres
    rcases List.mem_append.mp hres with hold | hnew
    · have hbefore := ih h₁ hold
      cases a with
      | flight a =>
        obtain ⟨-, -, hcancelled⟩ := step_flight hstep
        rw [hcancelled]
        exact hbefore
      | cancel i =>
        obtain rfl := Option.some.inj hstep
        refine hbefore.imp_right fun ⟨herror, hwas⟩ => ⟨herror, ?_⟩
        by_cases hi : c = i
        · simp [hi]
        · simpa [hi] using hwas
    · cases a with
      | cancel i => cases hnew
      | flight a =>
        obtain ⟨hok, -, hcancelled⟩ := step_flight hstep
        cases a with
        | next i => cases hnew
        | ret i res' =>
          obtain ⟨rfl, rfl⟩ : i = c ∧ res' = res := by simpa using hnew
          rw [hcancelled]
          cases res' with
          | ok url =>
            have hurl : url = b := by simpa [permits, hc] using hok
            exact Or.inl (by rw [hurl])
          | error e => exact Or.inr ⟨⟨e, rfl⟩, by simpa [permits, hc] using hok⟩

end Run

section Outcome

variable {q b : GoString} (hb : b ≠ [])

include hb

theorem afterLookup_ok {h : List (Event Op.Ret)} {url : GoString}
    (hruns : Runs (afterLookup q (.ok b)) h url) : url = b := by
  have hret : afterLookup q (.ok b) = ret b := if_pos hb
  rw [hret] at hruns
  exact hruns.runs_ret.2

theorem not_sure_of_error (e : GoError) :
    ¬ ∀ h url, Runs (afterLookup q (.error e)) h url → url = b := by
  intro hall
  have hfail : Runs (afterLookup q (.error e)) [⟨.selectActive, .error ⟨[]⟩⟩] [] := .cons _ (.nil _)
  exact hb (hall _ _ hfail).symm

end Outcome

/-- **Cancellation of another request.** In every run, a request for `q` with a live context that
has come out of `do` is sure to get `b` exactly if the lookup that it shares has returned `b`; if it
has not, it is the lookup of another request, found in the table, whose context is cancelled. -/
theorem live_request_gets_iff {key : ι → GoString} {q b : GoString} (hb : b ≠ [])
    {as : List (Action ι)} {s : State ι} (h : Machine.run (step key q b) init as = some s)
    {i c : ι} {res : Res} (hkey : key i = q) (hpc : s.flight.pc i = .returned c res)
    (hlive : s.cancelled i = false) :
    ((∀ h url, Runs (afterLookup q res) h url → url = b) ↔
        SingleFlight.results c (flights as) = [.ok b]) ∧
      (SingleFlight.results c (flights as) ≠ [.ok b] → c ≠ i ∧ s.cancelled c ∧
        SingleFlight.Found key (.ok []) (flights as) i c) := by
  have hflight := run_flights h
  obtain ⟨hc, hrun, hres⟩ := (SingleFlight.inv_run hflight).returned i c res hpc
  have hresults : SingleFlight.results c (flights as) = [res] := by
    rw [SingleFlight.results_run hflight, if_pos hrun, hres]
  rw [hresults]
  rcases cancelled_of_result h (hc.trans hkey) (by rw [hresults]; exact List.mem_singleton.mpr rfl)
    with rfl | ⟨⟨e, rfl⟩, hcancelled⟩
  · exact ⟨⟨fun _ => rfl, fun _ _ _ hruns => afterLookup_ok hb hruns⟩, fun hne => absurd rfl hne⟩
  · have hother : c ≠ i := by
      rintro rfl
      rw [hlive] at hcancelled
      cases hcancelled
    refine ⟨⟨fun hall => absurd hall (not_sure_of_error hb e), fun heq => by cases heq⟩, ?_⟩
    intro _
    refine ⟨hother, hcancelled, SingleFlight.found_run hflight ?_⟩
    rw [hpc, SingleFlight.Pc.joined, if_neg hother]

section Samples

def joinedRun (res : Res) : List (Action Bool) :=
  [.flight (.next true), .flight (.next true), .flight (.next true), .flight (.next true),
    .flight (.next true), .flight (.next false), .flight (.next false), .flight (.next false),
    .cancel true, .flight (.ret true res), .flight (.next true), .flight (.next false),
    .flight (.next false)]

end Samples

theorem live_request_gets_iff_joined :
    ∃ s, Machine.run (step (fun _ => str "q") (str "q") (str "http://b")) init
        (joinedRun (.ok (str "http://b"))) = some s ∧ s.cancelled false = false ∧
      ∀ h url, Runs (afterLookup (str "q") (.ok (str "http://b"))) h url →
        url = str "http://b" := by
  have hrun : ∃ s, Machine.run (step (fun _ => str "q") (str "q") (str "http://b")) init
      (joinedRun (.ok (str "http://b"))) = some s ∧ s.cancelled false = false ∧
      s.flight.pc false = .returned true (.ok (str "http://b")) := ⟨_, rfl, rfl, rfl⟩
  obtain ⟨s, hs, hlive, hpc⟩ := hrun
  exact ⟨s, hs, hlive, (live_request_gets_iff (by decide) hs rfl hpc hlive).1.mpr (by decide)⟩

/-- The request that leads is cancelled and its lookup fails; the request that has joined is live,
goes on to the active backends, and is routed to the only one there. -/
theorem joined_request_misrouted :
    ∃ s, Machine.run (step (fun _ => str "q") (str "q") (str "http://b")) init
        (joinedRun (.error ⟨str "context canceled"⟩)) = some s ∧ s.cancelled false = false ∧
      s.flight.pc false = .returned true (.error ⟨str "context canceled"⟩) ∧
      Runs (afterLookup (str "q") (.error ⟨str "context canceled"⟩))
        [⟨.selectActive, .ok [⟨str "a", str "http://a", [], str "adhoc", true, 0, 0⟩]⟩,
          ⟨.headProbes [(str "http://a", str "http://a/v1/query/q")], []⟩] (str "http://a") := by
  refine ⟨_, rfl, rfl, rfl, ?_⟩
  exact .cons _ (.cons _ (.nil _))

end TrinoGoway.Routing.Cancellation
