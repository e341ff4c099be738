import TrinoGoway.Lifecycle.Server

/-! Draining after the termination signal. The context that reaches both `Shutdown` calls is
the root context, which the signal has cancelled: a process that has received the signal can
end at once from every state, so it drains exactly when nothing is left to drain. -/
namespace TrinoGoway.Lifecycle

open Go Machine

namespace Traffic

structure Fresh (t : Traffic) : Prop where
  inFlight : ∀ r ∈ t.inFlight, r.id < t.nextId
  atSignal : ∀ r ∈ t.atSignal, r.id < t.nextId

theorem Fresh.step {t t' : Traffic} {e : Event} (h : t.Fresh) (hst : t.step e = some t') :
    t'.Fresh := by
  cases e with
  | tick d =>
    obtain rfl := Option.some.inj hst
    exact ⟨h.inFlight, h.atSignal⟩
  | arrive v =>
    obtain rfl := Option.some.inj hst
    constructor
    · intro r hr
      rcases List.mem_cons.mp hr with rfl | hr
      · exact Nat.lt_succ_self _
      · exact Nat.lt_succ_of_lt (h.inFlight r hr)
    · intro r hr
      exact Nat.lt_succ_of_lt (h.atSignal r hr)
  | finish r =>
    simp only [Traffic.step, Option.ite_none_right_eq_some, Option.some.injEq] at hst
    obtain ⟨-, rfl⟩ := hst
    exact ⟨fun r' hr' => h.inFlight r' (List.mem_of_mem_erase hr'), h.atSignal⟩
  | signal =>
    simp only [Traffic.step, Option.ite_none_right_eq_some, Option.some.injEq] at hst
    obtain ⟨-, rfl⟩ := hst
    exact ⟨h.inFlight, h.inFlight⟩

theorem draining_of_step {t t' : Traffic} {e : Event} (hf : t.Fresh)
    (hsig : t.signalled.isSome) (hst : t.step e = some t') :
    t'.signalled.isSome ∧ (t'.Draining → t.Draining) := by
  cases e with
  | tick d =>
    obtain rfl := Option.some.inj hst
    refine ⟨hsig, ?_⟩
    rintro ⟨t₀, hat, hnow, r, hr⟩
    have hle : t.now ≤ t.now + (d : ℤ) := Int.le_add_of_nonneg_right (Int.natCast_nonneg d)
    exact ⟨t₀, hat, Int.lt_of_le_of_lt hle hnow, r, hr⟩
  | arrive v =>
    obtain rfl := Option.some.inj hst
    refine ⟨hsig, ?_⟩
    rintro ⟨t₀, hat, hnow, r, hr, hin⟩
    have hne : r ≠ ⟨v, t.nextId⟩ := by
      intro heq
      have hlt := hf.atSignal r hr
      rw [heq] at hlt
      exact Nat.lt_irrefl _ hlt
    exact ⟨t₀, hat, hnow, r, hr, (List.mem_cons.mp hin).resolve_left hne⟩
  | finish r =>
    simp only [step, Option.ite_none_right_eq_some, Option.some.injEq] at hst
    obtain ⟨-, rfl⟩ := hst
    refine ⟨hsig, ?_⟩
    rintro ⟨t₀, hat, hnow, r', hr', hin⟩
    exact ⟨t₀, hat, hnow, r', hr', List.mem_of_mem_erase hin⟩
  | signal =>
    simp only [step, Option.ite_none_right_eq_some] at hst
    rw [hst.1] at hsig
    exact absurd hsig (by decide)

end Traffic

theorem step_traffic {s s' : State} {a : Action} (h : step s a = some s') :
    s'.traffic = s.traffic ∨ ∃ e, s.traffic.step e = some s'.traffic := by
  cases a with
  | outside e =>
    simp only [step, Option.ite_none_right_eq_some, Option.map_eq_some_iff] at h
    obtain ⟨-, t, ht, rfl⟩ := h
    exact .inr ⟨e, ht⟩
  | shutdownReturns v =>
    left
    simp only [step, shutdownReturns, Option.ite_none_right_eq_some] at h
    obtain ⟨-, h⟩ := h
    split at h
    · obtain rfl := Option.some.inj h
      rfl
    · obtain ⟨-, h⟩ := Option.ite_none_right_eq_some.mp h
      obtain rfl := Option.some.inj h
      rfl
  | serveFails err | selectErr | selectDone | callShutdown v | stopReturns | monitorExits
  | monitorStopReturns | refreshExits | exit =>
    left
    simp only [step] at h
    split at h <;> simp only [Option.ite_none_right_eq_some, Option.some.injEq, reduceCtorEq] at h
    all_goals first
      | (obtain rfl := h; rfl)
      | (obtain ⟨-, rfl⟩ := h; rfl)

theorem fresh_of_run {s : State} {as : List Action} (h : run step {} as = some s) :
    s.traffic.Fresh := by
  refine run_invariant (I := fun s => s.traffic.Fresh) ?_ ⟨by simp, by simp⟩ h
  intro s a s' hs hst
  rcases step_traffic hst with heq | ⟨e, he⟩
  · rw [heq]
    exact hs
  · exact hs.step he

theorem not_draining_of_run {s s' : State} {as : List Action} (hf : s.traffic.Fresh)
    (hsig : s.traffic.signalled.isSome) (hd : ¬ s.traffic.Draining)
    (h : run step s as = some s') : ¬ s'.traffic.Draining := by
  refine (run_invariant (I := fun s => s.traffic.Fresh ∧ s.traffic.signalled.isSome ∧
    ¬ s.traffic.Draining) ?_ ⟨hf, hsig, hd⟩ h).2.2
  rintro s a s' ⟨hf, hsig, hd⟩ hst
  rcases step_traffic hst with heq | ⟨e, he⟩
  · rw [heq]
    exact ⟨hf, hsig, hd⟩
  · obtain ⟨hsig', hd'⟩ := Traffic.draining_of_step hf hsig he
    exact ⟨hf.step he, hsig', fun h => hd (hd' h)⟩

/-- Can end now: some actions that leave the traffic alone, and then one that ends. -/
def CanEnd (s : State) : Prop :=
  ∃ as a s₁, run step s as = some s₁ ∧ s₁.traffic = s.traffic ∧ a.ends ∧ (step s₁ a).isSome

theorem CanEnd.of_ends {s : State} {a : Action} (ha : a.ends) (h : (step s a).isSome) :
    CanEnd s := ⟨[], a, s, rfl, rfl, ha, h⟩

theorem CanEnd.of_step {s s' : State} {a : Action} (h : step s a = some s')
    (ht : s'.traffic = s.traffic) (hc : CanEnd s') : CanEnd s := by
  obtain ⟨as, b, s₁, hrun, htr, hb⟩ := hc
  refine ⟨a :: as, b, s₁, ?_, htr.trans ht, hb⟩
  rw [run_cons, h]
  exact hrun

/-- The root context is done, so a waiting `Shutdown` comes back. -/
theorem shutdownReturns_isSome {s : State} {v : HttpServer} (hsig : s.traffic.signalled.isSome)
    (hw : s.shutdown v = .waiting) : (step s (.shutdownReturns v)).isSome := by
  have hdone : s.groupDone = true := by
    unfold State.groupDone
    rw [hsig, Bool.true_or]
  simp only [step, shutdownReturns, hw, hdone, if_true]
  split <;> rfl

theorem canEnd_of_stopping {s : State} {e : Option GoError}
    (hsig : s.traffic.signalled.isSome) (hp : s.phase = .stopping e) : CanEnd s := by
  have hopen : ∀ v, s.shutdown v = .notCalled → CanEnd s := by
    intro v hv
    have hcall : step s (.callShutdown v) =
        some { s with shutdown := Function.update s.shutdown v .waiting } := by
      simp only [step, hp, hv, if_true]
    refine CanEnd.of_step hcall rfl (CanEnd.of_ends (a := .shutdownReturns v) rfl ?_)
    exact shutdownReturns_isSome hsig (Function.update_self ..)
  have hwait : ∀ v, s.shutdown v = .waiting → CanEnd s := fun v hv =>
    CanEnd.of_ends (a := .shutdownReturns v) rfl (shutdownReturns_isSome hsig hv)
  cases hpr : s.shutdown .proxy with
  | notCalled => exact hopen _ hpr
  | waiting => exact hwait _ hpr
  | returned e₁ =>
    cases had : s.shutdown .admin with
    | notCalled => exact hopen _ had
    | waiting => exact hwait _ had
    | returned e₂ =>
      refine CanEnd.of_ends (a := .stopReturns) rfl ?_
      simp only [step, hp, hpr, had]
      rfl

theorem canEnd_of_awaitingRefresh {s : State} {e : Option GoError}
    (hsig : s.traffic.signalled.isSome) (hp : s.phase = .awaitingRefresh e) : CanEnd s := by
  have hrefresh : step s .refreshExits = some { s with refreshDone := true } := by
    simp only [step, hsig, if_true]
  refine CanEnd.of_step hrefresh rfl (CanEnd.of_ends (a := .exit) rfl ?_)
  simp only [step, hp, if_true]
  rfl

/-- After the signal every state of the process can end at once. -/
theorem canEnd_of_signalled {s : State} (hsig : s.traffic.signalled.isSome)
    (hp : ∀ e, s.phase ≠ .exited e) : CanEnd s := by
  cases hph : s.phase with
  | serving =>
    have hsel : step s .selectDone = some { s with phase := .stopping none } := by
      simp only [step, hph, hsig, if_true]
    exact CanEnd.of_step hsel rfl (canEnd_of_stopping (e := none) hsig rfl)
  | stopping e => exact canEnd_of_stopping hsig hph
  | stoppingMonitor e deadline =>
    have hexit : step s .monitorExits = some { s with monitorDone := true } := by
      simp only [step, hph]
    have hstop : step { s with monitorDone := true } .monitorStopReturns =
        some { s with monitorDone := true, phase := .awaitingRefresh e } := by
      simp only [step, hph, Bool.true_or, if_true]
    refine CanEnd.of_step hexit rfl (CanEnd.of_step hstop rfl ?_)
    exact canEnd_of_awaitingRefresh (e := e) hsig rfl
  | awaitingRefresh e => exact canEnd_of_awaitingRefresh hsig hph
  | exited e => exact absurd hph (hp e)

/-- From a state in which the signal has arrived and the process has not ended, every
continuation is graceful exactly if none of the requests that the signal found in flight is
unfinished, or their time is over. -/
theorem graceful_iff {before : List Action} {s : State} (hs : run step {} before = some s)
    (hsig : s.traffic.signalled.isSome) (hp : ∀ e, s.phase ≠ .exited e) :
    (∀ as, (run step s as).isSome → Graceful s as) ↔ ¬ s.traffic.Draining := by
  constructor
  · intro h
    obtain ⟨as, a, s₁, hrun, htr, ha, hst⟩ := canEnd_of_signalled hsig hp
    have hall : (run step s (as ++ [a])).isSome := by
      rw [run_snoc, hrun]
      exact hst
    rw [← htr]
    exact h _ hall as a [] s₁ rfl hrun ha
  · intro hd as _ before' a after s₁ _ hrun _
    exact not_draining_of_run (fresh_of_run hs) hsig hd hrun

/-- A signal that finds one request in flight, which finishes. -/
theorem graceful_iff_finished :
    (∀ as, (run step
      { traffic := { nextId := 1, signalled := some 0, atSignal := [⟨.proxy, 0⟩] } } as).isSome →
      Graceful
        { traffic := { nextId := 1, signalled := some 0, atSignal := [⟨.proxy, 0⟩] } } as) ↔
      ¬ ({ nextId := 1, signalled := some 0, atSignal := [⟨.proxy, 0⟩] } : Traffic).Draining := by
  refine @graceful_iff [.outside (.arrive .proxy), .outside .signal,
    .outside (.finish ⟨.proxy, 0⟩)] _ rfl rfl ?_
  intro e he
  cases he

/-- The run in which the signal finds a statement in flight at the proxy, and the proxy's
`Shutdown` returns at once. -/
def abandoned : List Action :=
  [.outside (.arrive .proxy), .outside .signal, .selectDone, .callShutdown .proxy,
    .shutdownReturns .proxy]

theorem abandoned_not_graceful : (run step {} abandoned).isSome ∧ ¬ Graceful {} abandoned := by
  refine ⟨by decide, fun h => ?_⟩
  refine h (abandoned.take 4) (.shutdownReturns .proxy) [] _ rfl rfl rfl ?_
  exact ⟨0, rfl, by decide, ⟨.proxy, 0⟩, by decide, by decide⟩

end TrinoGoway.Lifecycle
