import TrinoGoway.Monitor.Loop

/-! What a completed cycle leaves: the statuses of its backends, and readiness. Two of its ways
out differ from what the rest does: `probe` returns before the swap when the list is empty, and
its deferred call waits for the stats collections that follow the swap. -/
namespace TrinoGoway.Monitor

open Go

variable {cfg : Config} {s s' : State} {a : Action}

/-! ### Statuses -/

structure Follows (status : Snapshot) (c : Cycle) : Prop where
  urls : ∀ url, (∃ st, GoMap.get? status url = some st) ↔ ∃ b ∈ c.backends, b.url = url
  checked : ∀ url st, GoMap.get? status url = some st → (url, st) ∈ c.outcomes

/-- Whenever a cycle has completed, the statuses are those of that cycle. -/
def State.StatusesFollow (s : State) : Prop :=
  ∀ c, s.loop = .waiting → s.completed = some c → Follows s.status c

/-- Nobody calls `SetBackendStatus`, and a cycle with an empty list finds an empty map. -/
def EmptyWhenIdle (s : State) : Action → Prop
  | .call _ _ => False
  | .probe => s.backends = [] → ∀ url, GoMap.get? s.status url = none
  | _ => True

structure Gathered (c : Cycle) (running : List ℕ) (results : Snapshot) : Prop where
  urls : ∀ url, (∃ st, GoMap.get? results url = some st) ↔
    ∃ i b, i ∉ running ∧ c.backends[i]? = some b ∧ b.url = url
  checked : ∀ url st, GoMap.get? results url = some st → (url, st) ∈ c.outcomes

theorem gathered_fanOut (backends : List Backend) (time : ℕ) :
    Gathered ⟨backends, time, []⟩ (List.range backends.length) .empty := by
  constructor
  · intro url
    constructor
    · rintro ⟨st, hst⟩
      cases hst
    · rintro ⟨i, b, hi, hb, _⟩
      have hlt : i < backends.length := (List.getElem?_eq_some_iff.mp hb).1
      exact absurd (List.mem_range.mpr hlt) hi
  · intro url st hst
    cases hst

theorem Gathered.checkOne {c : Cycle} {running : List ℕ} {results : Snapshot} {i : ℕ}
    {b : Backend} (h : Gathered c running results) (hb : c.backends[i]? = some b)
    (status : TrinoStatus) :
    Gathered { c with outcomes := (b.url, status) :: c.outcomes } (running.filter (· ≠ i))
      (results.set b.url status) := by
  constructor
  · intro url
    rw [GoMap.get?_set]
    constructor
    · rintro ⟨st, hst⟩
      split at hst
      · rename_i hurl
        exact ⟨i, b, by simp, hb, hurl.symm⟩
      · obtain ⟨j, d, hj, hd, hurl⟩ := (h.urls url).mp ⟨st, hst⟩
        refine ⟨j, d, ?_, hd, hurl⟩
        intro hmem
        exact hj (List.mem_filter.mp hmem).1
    · rintro ⟨j, d, hj, hd, hurl⟩
      split
      · exact ⟨status, rfl⟩
      · rename_i hne
        -- another place, whose check ended before
        have hji : j ≠ i := by
          rintro rfl
          have hdb : d = b := Option.some.inj (hd.symm.trans hb)
          exact hne (hdb ▸ hurl.symm)
        apply (h.urls url).mpr
        refine ⟨j, d, ?_, hd, hurl⟩
        intro hmem
        exact hj (List.mem_filter.mpr ⟨hmem, by simpa using hji⟩)
  · intro url st hst
    rw [GoMap.get?_set] at hst
    split at hst
    · rename_i hurl
      obtain rfl := Option.some.inj hst
      rw [hurl]
      exact List.mem_cons_self
    · exact List.mem_cons_of_mem _ (h.checked url st hst)

theorem Gathered.follows {c : Cycle} {results : Snapshot} (h : Gathered c [] results) :
    Follows results c := by
  constructor
  · intro url
    rw [h.urls]
    constructor
    · rintro ⟨i, b, _, hb, hurl⟩
      exact ⟨b, List.mem_of_getElem? hb, hurl⟩
    · rintro ⟨b, hb, hurl⟩
      obtain ⟨i, hi⟩ := List.mem_iff_getElem?.mp hb
      exact ⟨i, b, List.not_mem_nil, hi, hurl⟩
  · exact h.checked

def Loop.Tracks (status : Snapshot) (completed : Option Cycle) : Loop → Prop
  | .probing c running results => Gathered c running results
  | .swapped c | .collecting c _ | .returning c => Follows status c
  | .waiting => ∀ c, completed = some c → Follows status c
  | .starting | .stopped => True

/-- No call has started, and the loop keeps track of the statuses. -/
structure Tracked (s : State) : Prop where
  calls : s.calls = []
  loop : s.loop.Tracks s.status s.completed

theorem tracked_init : Tracked init := ⟨rfl, trivial⟩

theorem tracked_step (h : Tracked s) (hok : EmptyWhenIdle s a)
    (hstep : step cfg s a = some s') : Tracked s' := by
  obtain ⟨s₁, hdoes, rfl⟩ := does_of_step hstep
  suffices htracked : Tracked s₁ from ⟨htracked.calls, htracked.loop⟩
  have hloop := h.loop
  have hnone : ∀ {k : ℕ} {c : Call}, s.calls[k]? ≠ some c := by simp [h.calls]
  cases hdoes with
  | setBackends backends => exact ⟨h.calls, h.loop⟩
  | idle _ hempty =>
    refine ⟨h.calls, ?_, ?_⟩
    · intro url
      simp [hok hempty url]
    · intro url st hst
      simp [hok hempty url] at hst
  | fanOut => exact ⟨h.calls, gathered_fanOut s.backends s.clock⟩
  | checked status hs hb =>
    rw [hs] at hloop
    exact ⟨h.calls, Gathered.checkOne hloop hb status⟩
  | swap hs =>
    rw [hs] at hloop
    exact ⟨h.calls, Gathered.follows hloop⟩
  | collect hs | skip hs | collected _ hs | observeStats hs =>
    rw [hs] at hloop
    exact ⟨h.calls, hloop⟩
  | firstTick hs =>
    rw [hs] at hloop
    refine ⟨h.calls, ?_⟩
    intro c hc
    obtain rfl := Option.some.inj hc
    exact hloop
  | stop => exact ⟨h.calls, trivial⟩
  | call => exact absurd hok id
  | load hc | store hc | ret hc => exact absurd hc hnone

/-- Along a run without calls of `SetBackendStatus` in which a cycle that reads an empty list
finds an empty map, the statuses after each completed cycle are those of its list. -/
theorem statuses_follow {as : List Action} (hok : Machine.Meets (step cfg) EmptyWhenIdle init as)
    (hrun : Machine.run (step cfg) init as = some s) : s.StatusesFollow := by
  have h : Tracked s :=
    Machine.run_invariant_of_meets (fun _ _ _ => tracked_step) tracked_init hok hrun
  intro c hloop hc
  have htracks := h.loop
  rw [hloop] at htracks
  exact htracks c hc

def clusterA : Backend := ⟨str "a", str "http://a", [], str "adhoc"⟩
def clusterB : Backend := ⟨str "b", str "http://b", [], str "adhoc"⟩

def oneCycle : List Action :=
  [.setBackends [clusterA], .probe, .checked 0 .healthy, .swap, .collectStats, .firstTick]

def cycleA : Cycle := ⟨[clusterA], 1, [(clusterA.url, .healthy)]⟩

def twoCycles : List Action :=
  oneCycle ++ [.setBackends [clusterA, clusterB], .probe, .checked 1 .healthy,
    .checked 0 .unhealthy, .swap, .collectStats, .firstTick]

def cycleAB : Cycle :=
  ⟨[clusterA, clusterB], 7, [(clusterA.url, .unhealthy), (clusterB.url, .healthy)]⟩

def afterTwoCycles : State :=
  ⟨[clusterA, clusterB],
    GoMap.set (GoMap.set .empty clusterB.url .healthy) clusterA.url .unhealthy, .waiting, true, [],
    13, [.cycle 7, .cycle 1], some cycleAB⟩

theorem statuses_follow_two_cycles :
    Machine.run (step ⟨false, false⟩) init twoCycles = some afterTwoCycles ∧
      Follows afterTwoCycles.status cycleAB := by
  have hrun : Machine.run (step ⟨false, false⟩) init twoCycles = some afterTwoCycles := rfl
  have hlisted {s : State} (h : s.backends ≠ []) : EmptyWhenIdle s .probe := fun hempty =>
    absurd hempty h
  have hok : Machine.Meets (step ⟨false, false⟩) EmptyWhenIdle init twoCycles := by
    refine Machine.meets_cons trivial rfl (Machine.meets_cons ?_ rfl ?_)
    · exact hlisted (List.cons_ne_nil clusterA [])
    refine Machine.meets_cons trivial rfl (Machine.meets_cons trivial rfl ?_)
    refine Machine.meets_cons trivial rfl (Machine.meets_cons trivial rfl ?_)
    refine Machine.meets_cons trivial rfl (Machine.meets_cons ?_ rfl ?_)
    · exact hlisted (List.cons_ne_nil clusterA [clusterB])
    exact Machine.meets_of_forall_mem (by simp [EmptyWhenIdle])
  exact ⟨hrun, statuses_follow hok hrun cycleAB rfl rfl⟩

/-- The backend leaves the list, and another cycle follows. -/
def listEmptied : List Action := oneCycle ++ [.setBackends [], .probe, .firstTick]

def afterListEmptied : State :=
  ⟨[], GoMap.set .empty clusterA.url .healthy, .waiting, true, [], 9, [.cycle 1],
    some ⟨[], 7, []⟩⟩

/-- `probe` has returned before the swap, and the backend keeps its status. -/
theorem removed_backend_keeps_status :
    Machine.run (step ⟨false, false⟩) init listEmptied = some afterListEmptied ∧
      afterListEmptied.status.status clusterA.url = .healthy ∧
      ¬ afterListEmptied.StatusesFollow := by
  refine ⟨rfl, by decide, ?_⟩
  intro h
  have hfollows := h _ rfl rfl
  obtain ⟨b, hb, _⟩ := (hfollows.urls clusterA.url).mp ⟨.healthy, by decide⟩
  cases hb

/-! ### Readiness -/

/-- A cycle has stored its statuses and waits for a stats collection, and nobody has been told
that the gateway is ready. -/
def State.Gated (s : State) : Prop :=
  ∃ c running, s.loop = .collecting c running ∧ running ≠ [] ∧ s.ready = false

/-- A cycle begins after the first tick, with an empty list, or without stats to collect. -/
def ReadyFirst (cfg : Config) (s : State) : Action → Prop
  | .probe => s.ready = true ∨ s.backends = [] ∨ cfg.collects = false
  | _ => True

/-- A cycle that gets to the stats has the gateway ready already, or collects none. -/
def Loop.Clears (cfg : Config) (ready : Bool) : Loop → Prop
  | .probing _ _ _ | .swapped _ => ready = true ∨ cfg.collects = false
  | .collecting _ _ => ready = true
  | _ => True

theorem clears_step (h : s.loop.Clears cfg s.ready) (hok : ReadyFirst cfg s a)
    (hstep : step cfg s a = some s') : s'.loop.Clears cfg s'.ready := by
  obtain ⟨s₁, hdoes, rfl⟩ := does_of_step hstep
  suffices hclears : s₁.loop.Clears cfg s₁.ready from hclears
  cases hdoes with
  | idle | skip | observeStats | firstTick | stop => trivial
  | fanOut _ hlist =>
    apply hok.imp_right
    intro hor
    exact hor.resolve_left hlist
  | checked _ hs | swap hs | collected _ hs =>
    rw [hs] at h
    exact h
  | collect hs hcfg =>
    rw [hs] at h
    exact h.resolve_right (by simp [hcfg])
  | setBackends | call | load | store | ret => exact h

/-- Along a run in which every cycle before the first tick reads an empty list or has no stats to
collect, no stats collection keeps the gateway from being ready. -/
theorem stats_never_gate {as : List Action}
    (hok : Machine.Meets (step cfg) (ReadyFirst cfg) init as)
    (hrun : Machine.run (step cfg) init as = some s) : ¬ s.Gated := by
  have h : s.loop.Clears cfg s.ready :=
    Machine.run_invariant_of_meets (I := fun s => s.loop.Clears cfg s.ready)
      (fun _ _ _ => clears_step) trivial hok hrun
  rintro ⟨c, running, hloop, _, hready⟩
  rw [hloop] at h
  exact absurd (h.symm.trans hready) (by decide)

def emptyFirst : List Action :=
  [.probe, .firstTick, .setBackends [clusterA], .probe, .checked 0 .healthy, .swap, .collectStats]

def afterEmptyFirst : State :=
  ⟨[clusterA], GoMap.set .empty clusterA.url .healthy,
    .collecting ⟨[clusterA], 3, [(clusterA.url, .healthy)]⟩ [0], true, [], 7, [.cycle 3],
    some ⟨[], 0, []⟩⟩

theorem stats_never_gate_empty_first :
    Machine.run (step ⟨true, true⟩) init emptyFirst = some afterEmptyFirst ∧
      ¬ afterEmptyFirst.Gated := by
  have hrun : Machine.run (step ⟨true, true⟩) init emptyFirst = some afterEmptyFirst := rfl
  have hok : Machine.Meets (step ⟨true, true⟩) (ReadyFirst ⟨true, true⟩) init emptyFirst := by
    refine ⟨Or.inr (Or.inl rfl), fun s₁ h₁ => ⟨trivial, fun s₂ h₂ => ⟨trivial, fun s₃ h₃ => ?_⟩⟩⟩
    obtain rfl := Option.some.inj h₁
    obtain rfl := Option.some.inj h₂
    obtain rfl := Option.some.inj h₃
    exact ⟨Or.inl rfl, fun _ _ => ⟨trivial, fun _ _ => ⟨trivial, fun _ _ =>
      ⟨trivial, fun _ _ => trivial⟩⟩⟩⟩
  exact ⟨hrun, stats_never_gate hok hrun⟩

theorem gated_step (h : s.Gated) (hok : ∀ i, a ≠ .collected i)
    (hstep : step cfg s a = some s') : s'.Gated := by
  obtain ⟨c, running, hloop, hrunning, hready⟩ := h
  obtain ⟨s₁, hdoes, rfl⟩ := does_of_step hstep
  cases hdoes with
  | collected i => exact absurd rfl (hok i)
  | observeStats hs =>
    obtain ⟨_, rfl⟩ := Loop.collecting.inj (hloop.symm.trans hs)
    exact absurd rfl hrunning
  | setBackends | call | load | store | ret => exact ⟨c, running, hloop, hrunning, hready⟩
  | checked _ hs | swap hs | collect hs | skip hs | firstTick hs | stop hs =>
    exact absurd (hloop.symm.trans hs) (by simp)
  | idle hs | fanOut hs => simp [hloop] at hs

/-- As long as no collection returns, the gateway stays not ready, whatever else happens. -/
theorem gated_until_collected {as : List Action} (h : s.Gated)
    (hnone : ∀ i, Action.collected i ∉ as) (hrun : Machine.run (step cfg) s as = some s') :
    s'.Gated := by
  have hok : Machine.Meets (step cfg) (fun _ a => ∀ i, a ≠ .collected i) s as := by
    apply Machine.meets_of_forall_mem
    rintro a ha s i rfl
    exact hnone i ha
  exact Machine.run_invariant_of_meets (fun _ _ _ => gated_step) h hok hrun

def firstCycle : List Action :=
  [.setBackends [clusterA], .probe, .checked 0 .healthy, .swap, .collectStats]

def inFirstCycle : State :=
  ⟨[clusterA], GoMap.set .empty clusterA.url .healthy, .collecting cycleA [0], false, [], 5,
    [.cycle 1], none⟩

/-- The statuses are stored, the collection runs, and the deferred call has not been made. -/
theorem first_collection_gates :
    Machine.run (step ⟨true, true⟩) init firstCycle = some inFirstCycle ∧ inFirstCycle.Gated :=
  ⟨rfl, cycleA, [0], rfl, by decide, rfl⟩

end TrinoGoway.Monitor
