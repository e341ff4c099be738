import TrinoGoway.Monitor.Loop

/-! What becomes of a status set by `SetBackendStatus`. The call copies the map it has loaded and
stores the copy without comparing, and a cycle stores a map made of its own results only, so an
update is kept as long as no two of them overlap. -/
namespace TrinoGoway.Monitor

open Go

variable {cfg : Config} {s s' : State} {k : ℕ} {c : Call}

namespace State

/-- A call for the same URL that started later, or a cycle that began after call `k` had returned,
has stored its map. -/
def Superseded (s : State) (k : ℕ) (c : Call) : Prop :=
  (∃ j d, k < j ∧ s.calls[j]? = some d ∧ d.url = c.url ∧ Store.call j ∈ s.stores) ∨
    ∃ t b, c.phase = .returned t ∧ t < b ∧ Store.cycle b ∈ s.stores

/-- The status that a returned call has set is there until it is superseded. -/
def NoUpdateLost (s : State) : Prop :=
  ∀ k c t, s.calls[k]? = some c → c.phase = .returned t →
    s.status.status c.url = c.status ∨ s.Superseded k c

end State

/-- The step overwrites no update. At a call's store, the map that the call has loaded still has
the current status of every other URL, and no call for the same URL that started later has stored;
at a cycle's swap, every call that has stored had returned when the cycle began. -/
def Undisturbed (s : State) : Action → Prop
  | .store k => ∀ c old, s.calls[k]? = some c → c.phase = .loaded old →
      (∀ url, url ≠ c.url → old.status url = s.status.status url) ∧
        ∀ j d, k < j → s.calls[j]? = some d → d.url = c.url → Store.call j ∉ s.stores
  | .swap => ∀ cycle running results, s.loop = .probing cycle running results →
      ∀ c ∈ s.calls, c.HasStored → ∃ t, c.phase = .returned t ∧ t < cycle.begunAt
  | _ => True

structure Kept (s : State) : Prop where
  recorded : ∀ k c, s.calls[k]? = some c → c.HasStored → Store.call k ∈ s.stores
  current : ∀ k c, s.calls[k]? = some c → c.HasStored →
    s.status.status c.url = c.status ∨ s.Superseded k c

theorem kept_init : Kept init := by
  constructor
  · intro k c hc
    simp [init] at hc
  · intro k c hc
    simp [init] at hc

theorem Call.not_hasStored_called {url : GoString} {status : TrinoStatus} :
    ¬ (⟨url, status, .called⟩ : Call).HasStored := by
  simp [Call.HasStored]

theorem Call.not_hasStored_loaded {old : Snapshot} (h : c.phase = .loaded old) :
    ¬ c.HasStored := by
  simp [Call.HasStored, h]

theorem State.getElem?_enter {phase : Phase} {j : ℕ} {d : Call} (hc : s.calls[k]? = some c)
    (hd : (s.enter k c phase).calls[j]? = some d) :
    (j = k ∧ d = { c with phase }) ∨ (j ≠ k ∧ s.calls[j]? = some d) :=
  Machine.getElem?_set_eq_some hc hd

theorem State.exists_enter (phase : Phase) {j : ℕ} {d : Call} (hc : s.calls[k]? = some c)
    (hd : s.calls[j]? = some d) :
    ∃ d', (s.enter k c phase).calls[j]? = some d' ∧ d'.url = d.url := by
  have hk : k < s.calls.length := (List.getElem?_eq_some_iff.mp hc).1
  unfold State.enter
  rw [List.getElem?_set]
  grind

theorem State.Superseded.mono (h : s.Superseded k c)
    (hcalls : ∀ (j : ℕ) (d : Call), s.calls[j]? = some d →
      ∃ d' : Call, s'.calls[j]? = some d' ∧ d'.url = d.url)
    (hstores : ∀ w ∈ s.stores, w ∈ s'.stores) : s'.Superseded k c := by
  cases h with
  | inl h =>
    obtain ⟨j, d, hlt, hd, hurl, hstored⟩ := h
    obtain ⟨d', hd', hurl'⟩ := hcalls j d hd
    exact Or.inl ⟨j, d', hlt, hd', hurl'.trans hurl, hstores _ hstored⟩
  | inr h =>
    obtain ⟨t, b, ht, hlt, hstored⟩ := h
    exact Or.inr ⟨t, b, ht, hlt, hstores _ hstored⟩

theorem Kept.call (h : Kept s) (url : GoString) (status : TrinoStatus) :
    Kept { s with calls := s.calls ++ [⟨url, status, .called⟩] } := by
  -- a call that has stored is one of those before
  have hold : ∀ (k : ℕ) (c : Call), (s.calls ++ [⟨url, status, .called⟩])[k]? = some c →
      c.HasStored → s.calls[k]? = some c := by
    intro k c hc hstored
    cases Machine.getElem?_snoc_eq_some hc with
    | inl hc => exact hc
    | inr hc => exact absurd hstored (hc ▸ Call.not_hasStored_called)
  constructor
  · intro k c hc hstored
    exact h.recorded k c (hold k c hc hstored) hstored
  · intro k c hc hstored
    apply (h.current k c (hold k c hc hstored) hstored).imp_right
    intro hs
    apply hs.mono
    · intro j d hd
      have hj : j < s.calls.length := (List.getElem?_eq_some_iff.mp hd).1
      exact ⟨d, by rw [List.getElem?_append_left hj, hd], rfl⟩
    · intro w hw
      exact hw

theorem Kept.load (h : Kept s) (hc : s.calls[k]? = some c) :
    Kept (s.enter k c (.loaded s.status)) := by
  have hold : ∀ (j : ℕ) (d : Call), (s.enter k c (.loaded s.status)).calls[j]? = some d →
      d.HasStored → s.calls[j]? = some d := by
    intro j d hd hstored
    cases State.getElem?_enter hc hd with
    | inl hjk => exact absurd hstored (hjk.2 ▸ Call.not_hasStored_loaded rfl)
    | inr hjk => exact hjk.2
  constructor
  · intro j d hd hstored
    exact h.recorded j d (hold j d hd hstored) hstored
  · intro j d hd hstored
    apply (h.current j d (hold j d hd hstored) hstored).imp_right
    intro hs
    exact hs.mono (fun _ _ => State.exists_enter _ hc) fun _ hw => hw

theorem Kept.store {old : Snapshot} (h : Kept s) (hc : s.calls[k]? = some c)
    (hothers : ∀ url, url ≠ c.url → old.status url = s.status.status url)
    (hlast : ∀ j d, k < j → s.calls[j]? = some d → d.url = c.url → Store.call j ∉ s.stores) :
    Kept { s.enter k c .stored with
      status := old.set c.url c.status, stores := .call k :: s.stores } := by
  constructor
  · intro j d hd hstored
    cases State.getElem?_enter hc hd with
    | inl hjk => exact hjk.1 ▸ List.mem_cons_self
    | inr hjk => exact List.mem_cons_of_mem _ (h.recorded j d hjk.2 hstored)
  · intro j d hd hstored
    cases State.getElem?_enter hc hd with
    | inl hjk =>
      rw [hjk.2]
      exact Or.inl (by simp [Snapshot.status_set])
    | inr hjk =>
      by_cases hurl : d.url = c.url
      · -- of two calls for one URL the one that stores now has started later
        have hlt : j < k := by
          have hle : ¬ k < j := fun hlt => hlast j d hlt hjk.2 hurl (h.recorded j d hjk.2 hstored)
          omega
        obtain ⟨c', hc', hurl'⟩ := State.exists_enter .stored hc hc
        exact Or.inr (Or.inl ⟨k, c', hlt, hc', hurl'.trans hurl.symm, List.mem_cons_self⟩)
      · show Snapshot.status (GoMap.set old c.url c.status) d.url = d.status ∨ _
        rw [Snapshot.status_set, if_neg hurl, hothers _ hurl]
        apply (h.current j d hjk.2 hstored).imp_right
        intro hs
        exact hs.mono (fun _ _ => State.exists_enter _ hc) fun _ hw => List.mem_cons_of_mem _ hw

theorem Kept.ret (h : Kept s) (hc : s.calls[k]? = some c) (hphase : c.phase = .stored) :
    Kept (s.enter k c (.returned s.clock)) := by
  constructor
  · intro j d hd hstored
    cases State.getElem?_enter hc hd with
    | inl hjk => exact hjk.1 ▸ h.recorded k c hc (Or.inl hphase)
    | inr hjk => exact h.recorded j d hjk.2 hstored
  · intro j d hd hstored
    cases State.getElem?_enter hc hd with
    | inl hjk =>
      obtain ⟨rfl, rfl⟩ := hjk
      apply (h.current j c hc (Or.inl hphase)).imp_right
      intro hs
      have hs' : (s.enter j c (.returned s.clock)).Superseded j c :=
        hs.mono (fun _ _ => State.exists_enter _ hc) fun _ hw => hw
      -- no cycle has superseded the call: it had not returned
      cases hs' with
      | inl hs' => exact Or.inl hs'
      | inr hs' =>
        obtain ⟨t, b, ht, _⟩ := hs'
        simp [hphase] at ht
    | inr hjk =>
      apply (h.current j d hjk.2 hstored).imp_right
      intro hs
      exact hs.mono (fun _ _ => State.exists_enter _ hc) fun _ hw => hw

theorem Kept.swap {cycle : Cycle} {results : Snapshot} (h : Kept s)
    (hreturned : ∀ c ∈ s.calls, c.HasStored → ∃ t, c.phase = .returned t ∧ t < cycle.begunAt) :
    Kept { s with
      status := results, loop := .swapped cycle, stores := .cycle cycle.begunAt :: s.stores } := by
  constructor
  · intro k c hc hstored
    exact List.mem_cons_of_mem _ (h.recorded k c hc hstored)
  · intro k c hc hstored
    obtain ⟨t, ht, hlt⟩ := hreturned c (List.mem_of_getElem? hc) hstored
    exact Or.inr (Or.inr ⟨t, cycle.begunAt, ht, hlt, List.mem_cons_self⟩)

theorem kept_step {a : Action} (h : Kept s) (hok : Undisturbed s a)
    (hstep : step cfg s a = some s') : Kept s' := by
  obtain ⟨s₁, hdoes, rfl⟩ := does_of_step hstep
  suffices hkept : Kept s₁ from ⟨hkept.recorded, hkept.current⟩
  cases hdoes with
  | call url status => exact h.call url status
  | load hc => exact h.load hc
  | store hc hold =>
    obtain ⟨hothers, hlast⟩ := hok _ _ hc hold
    exact h.store hc hothers hlast
  | ret hc hstored => exact h.ret hc hstored
  | swap hloop => exact h.swap (hok _ _ _ hloop)
  | _ => exact ⟨h.recorded, h.current⟩

/-- Along a run in which no store overwrites another's update, the status that a returned call has
set is there until a later call for its URL or a later cycle has stored. -/
theorem no_update_lost {as : List Action} (hok : Machine.Meets (step cfg) Undisturbed init as)
    (hrun : Machine.run (step cfg) init as = some s) : s.NoUpdateLost := by
  have h : Kept s :=
    Machine.run_invariant_of_meets (fun _ _ _ => kept_step) kept_init hok hrun
  intro k c t hc ht
  exact h.current k c hc (Or.inr ⟨t, ht⟩)

/-- Two calls at a time, of which the second loads the map when the first has stored it. -/
def updatesInTurn : List Action :=
  [.call (str "http://a") .unhealthy, .call (str "http://b") .healthy, .load 0, .store 0, .load 1,
    .ret 0, .store 1, .ret 1]

def afterUpdatesInTurn : State :=
  ⟨[], GoMap.set (GoMap.set .empty (str "http://a") .unhealthy) (str "http://b") .healthy,
    .starting, false,
    [⟨str "http://a", .unhealthy, .returned 5⟩, ⟨str "http://b", .healthy, .returned 7⟩], 8,
    [.call 1, .call 0], none⟩

theorem no_update_lost_in_turn :
    Machine.run (step ⟨true, true⟩) init updatesInTurn = some afterUpdatesInTurn ∧
      afterUpdatesInTurn.NoUpdateLost := by
  have hrun : Machine.run (step ⟨true, true⟩) init updatesInTurn = some afterUpdatesInTurn := rfl
  have hok : Machine.Meets (step ⟨true, true⟩) Undisturbed init updatesInTurn := by
    refine Machine.meets_cons trivial rfl (Machine.meets_cons trivial rfl ?_)
    refine Machine.meets_cons trivial rfl (Machine.meets_cons ?_ rfl ?_)
    · intro c old hc hold
      obtain rfl := Option.some.inj hc
      obtain rfl := Phase.loaded.inj hold
      exact ⟨fun _ _ => rfl, fun _ _ _ _ _ => List.not_mem_nil⟩
    refine Machine.meets_cons trivial rfl (Machine.meets_cons trivial rfl ?_)
    refine Machine.meets_cons ?_ rfl (Machine.meets_cons trivial rfl trivial)
    · intro c old hc hold
      obtain rfl := Option.some.inj hc
      obtain rfl := Phase.loaded.inj hold
      refine ⟨fun _ _ => rfl, ?_⟩
      intro j d hj _ _ hstored
      obtain rfl := Store.call.inj (List.mem_singleton.mp hstored)
      cases hj
  exact ⟨hrun, no_update_lost hok hrun⟩

def twoUpdates : List Action :=
  [.call (str "http://a") .unhealthy, .call (str "http://b") .healthy,
    .load 0, .load 1, .store 0, .store 1, .ret 0]

def afterTwoUpdates : State :=
  ⟨[], GoMap.set .empty (str "http://b") .healthy, .starting, false,
    [⟨str "http://a", .unhealthy, .returned 6⟩, ⟨str "http://b", .healthy, .stored⟩], 7,
    [.call 1, .call 0], none⟩

/-- The second store has put back the map of before the first. -/
theorem concurrent_update_lost :
    Machine.run (step ⟨true, true⟩) init twoUpdates = some afterTwoUpdates ∧
      afterTwoUpdates.status.status (str "http://a") = .unknown ∧
      ¬ afterTwoUpdates.NoUpdateLost := by
  refine ⟨rfl, by decide, ?_⟩
  intro h
  cases h 0 _ _ rfl rfl with
  | inl hstatus => exact absurd hstatus (by decide)
  | inr hsuperseded =>
    cases hsuperseded with
    | inl hlater =>
      obtain ⟨j, d, hlt, hd, hurl, hstored⟩ := hlater
      have hj : j = 1 ∨ j = 0 := by simpa [afterTwoUpdates] using hstored
      obtain rfl : j = 1 := by omega
      obtain rfl := Option.some.inj hd
      exact absurd hurl (by decide)
    | inr hcycle =>
      obtain ⟨t, b, _, _, hstored⟩ := hcycle
      simp [afterTwoUpdates] at hstored

end TrinoGoway.Monitor
