import TrinoGoway.Gateway.Exchange

/-! Coalesced history lookups: a finished call holds what its own lookup answered. -/
namespace TrinoGoway

open Go Go.Http Routing Persistence Prog Interleave

/-- What `lookupByQueryID` makes of the answer of the database. -/
def lookupResult : Except GoError (Option GoString) → Except GoError GoString
  | .error e => .error (e.wrap "persistence: history: lookup by query id: ")
  | .ok none => .ok []
  | .ok (some url) => .ok url

theorem singleFlight_lookup (key : GoString) :
    singleFlight key (HistoryDAO.lookupByQueryID key) =
      call (.enterFlight key) fun
        | .join c => perform (.awaitFlight c)
        | .lead c => call (.selectHistory key) fun ans =>
            call (.finishFlight c (lookupResult ans)) fun _ =>
              call (.leaveFlight key) fun _ => pure (lookupResult ans) := by
  unfold singleFlight HistoryDAO.lookupByQueryID
  rw [perform_bind]
  congr 1
  funext x
  cases x with
  | join c => rfl
  | lead c =>
    simp only [perform_bind, call_bind]
    congr 1
    funext ans
    rcases ans with e | _ | url <;> rfl

/-- Every finished call was led by the same request, and holds the answer to its lookup. -/
def FlightTrace (h : List GwEvent) : Prop :=
  ∀ h₁ c res h₂, h = h₁ ++ ⟨.finishFlight c res, ()⟩ :: h₂ →
    ∃ h₀ key ans, h₁ = h₀ ++ [⟨.enterFlight key, .lead c⟩, ⟨.selectHistory key, ans⟩] ∧
      res = lookupResult ans

theorem FlightTrace.append (h h' : List GwEvent) (hT : FlightTrace h) (hT' : FlightTrace h') :
    FlightTrace (h ++ h') := by
  intro h₁ c res h₂ heq
  rcases List.append_eq_append_iff.mp heq with ⟨l, rfl, hl⟩ | ⟨l, rfl, hl⟩
  · obtain ⟨h₀, key, ans, rfl, hres⟩ := hT' l c res h₂ hl
    exact ⟨h ++ h₀, key, ans, by simp, hres⟩
  · cases l with
    | nil =>
      obtain ⟨h₀, key, ans, hnil, -⟩ := hT' [] c res h₂ hl.symm
      simp at hnil
    | cons x l =>
      obtain ⟨rfl, -⟩ := List.cons.inj hl
      exact hT h₁ c res l rfl

theorem FlightTrace.of_forall {h : List GwEvent}
    (hno : ∀ e ∈ h, ∀ c res, e.op ≠ .finishFlight c res) :
    FlightTrace h := by
  rintro h₁ c res h₂ rfl
  exact absurd rfl (hno ⟨.finishFlight c res, ()⟩ (by simp) c res)

private theorem flightTrace_finish (key : GoString) (c : CallRef)
    (ans : Except GoError (Option GoString)) :
    FlightTrace [⟨.enterFlight key, .lead c⟩, ⟨.selectHistory key, ans⟩,
      ⟨.finishFlight c (lookupResult ans), ()⟩] := by
  intro h₁ c' res h₂ heq
  -- the finished call can only be the third event
  match h₁ with
  | [] => simp at heq
  | [x] => simp at heq
  | [x, y] =>
    simp only [List.cons_append, List.nil_append, List.cons.injEq, Event.mk.injEq] at heq
    obtain ⟨rfl, rfl, ⟨hfin, -⟩, -⟩ := heq
    obtain ⟨rfl, rfl⟩ := Op.finishFlight.inj hfin
    exact ⟨[], key, ans, rfl, rfl⟩
  | x :: y :: z :: h₁ => simp at heq

theorem singleFlight_emits (key : GoString) :
    (singleFlight key (HistoryDAO.lookupByQueryID key)).Emits FlightTrace := by
  rw [singleFlight_lookup]
  intro h p' hp
  obtain ⟨rfl, -⟩ | ⟨x, t, rfl, hx⟩ := hp.of_call
  · exact .of_forall (by simp)
  cases x with
  | join c =>
    obtain ⟨rfl, -⟩ | ⟨r, t, rfl, ht⟩ := hx.of_call
    · exact .of_forall (by simp)
    · obtain ⟨rfl, -⟩ := ht.of_ret
      exact .of_forall (by simp)
  | lead c =>
    obtain ⟨rfl, -⟩ | ⟨ans, t, rfl, hans⟩ := hx.of_call
    · exact .of_forall (by simp)
    obtain ⟨rfl, -⟩ | ⟨u, t, rfl, hfin⟩ := hans.of_call
    · exact .of_forall (by simp)
    -- what follows only leaves the group
    have htail : ∀ e ∈ t, ∀ c res, e.op ≠ .finishFlight c res := by
      obtain ⟨rfl, -⟩ | ⟨u, t, rfl, hleave⟩ := hfin.of_call
      · simp
      · obtain ⟨rfl, -⟩ := hleave.of_ret
        simp
    exact FlightTrace.append _ t (flightTrace_finish key c ans) (.of_forall htail)

private theorem FlightTrace.of_ops {P : Op → Bool} (hP : ∀ c res, P (.finishFlight c res) = false)
    (h : List GwEvent) (hh : ∀ e ∈ h, P e.op) : FlightTrace h := by
  refine .of_forall fun e he c res heq => ?_
  have hop := hh e he
  rw [heq, hP] at hop
  cases hop

theorem serveHTTP_flightTrace (p : Proxy) (r : Request) : (p.serveHTTP r).Emits FlightTrace :=
  serveHTTP_emits (FlightTrace.of_ops fun _ _ => rfl) FlightTrace.append singleFlight_emits
    (FlightTrace.of_ops fun _ _ => rfl) (fun _ _ => FlightTrace.of_ops fun _ _ => rfl) p r

section Run

theorem calls_run {s s' : Shared} {l : List GwEvent} (h : Effect exec s l s') :
    s.calls ≤ s'.calls ∧
      ∀ key c, ⟨.enterFlight key, .lead c⟩ ∈ l → c.key = key ∧ c.id < s'.calls := by
  induction h with
  | nil => simp
  | @snoc s₁ s₂ l e _ he ih =>
    obtain ⟨hle, hids⟩ := ih
    have hmono : s₁.calls ≤ s₂.calls := by
      obtain rfl | ⟨_, _, rfl⟩ | ⟨_, _, _, rfl⟩ | ⟨_, _, rfl⟩ | ⟨_, _, rfl⟩ | ⟨_, _, rfl⟩ |
        ⟨_, _, _, rfl⟩ := exec_change he
      all_goals simp
    refine ⟨hle.trans hmono, fun key c hmem => ?_⟩
    rcases List.mem_append.mp hmem with hmem | hmem
    · obtain ⟨hkey, hid⟩ := hids key c hmem
      exact ⟨hkey, by omega⟩
    · obtain rfl := List.mem_singleton.mp hmem
      obtain ⟨c', -, hjoin, -⟩ | ⟨-, hlead, rfl⟩ := exec_enterFlight he
      · cases hjoin
      · obtain rfl := Entry.lead.inj hlead
        exact ⟨rfl, by simp⟩

theorem results_run {history : List QueryRecord} {s : Shared} {l : List GwEvent}
    (h : Effect exec (.init history) l s) {c : CallRef} {res : Except GoError GoString}
    (hc : s.results c = some res) : ⟨.finishFlight c res, ()⟩ ∈ l := by
  generalize hs₀ : Shared.init history = s₀ at h
  induction h with
  | nil =>
    subst hs₀
    cases hc
  | @snoc s₁ s₂ l e _ he ih =>
    obtain ⟨o, ans⟩ := e
    obtain rfl | ⟨_, _, rfl⟩ | ⟨c', res', rfl, rfl⟩ | ⟨_, _, rfl⟩ | ⟨_, _, rfl⟩ | ⟨_, _, rfl⟩ |
      ⟨_, _, _, rfl⟩ := exec_change he
    iterate 2 exact List.mem_append_left _ (ih hc)
    · by_cases hcc : c = c'
      · subst hcc
        obtain rfl : res' = res := by simpa using hc
        simp
      · dsimp only at hc
        rw [Function.update_of_ne hcc] at hc
        exact List.mem_append_left _ (ih hc)
    iterate 4 exact List.mem_append_left _ (ih hc)

end Run

end TrinoGoway
