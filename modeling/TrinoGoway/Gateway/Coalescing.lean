import TrinoGoway.Gateway.Flight
import TrinoGoway.Routing.SingleFlight

/-! The gateway takes `enterFlight`, `awaitFlight`, `finishFlight` and `leaveFlight` as single
steps. Here each run of `singleFlightGroup.do` under its mutex is matched by a run of those
operations. -/
namespace TrinoGoway

open Go Routing Persistence Prog Interleave
open Routing.SingleFlight (Pc Inv Move)

namespace Coalescing

abbrev Res := Except GoError GoString

variable {ι : Type} [DecidableEq ι]

/-! The call as the gateway has it, from each of its operations on. -/

def leave (key : GoString) (res : Res) : Gw Res := call (.leaveFlight key) fun _ => pure res

def finish (key : GoString) (c : CallRef) (res : Res) : Gw Res :=
  call (.finishFlight c res) fun _ => leave key res

def lookup (key : GoString) (c : CallRef) : Gw Res :=
  call (.selectHistory key) fun ans => finish key c (lookupResult ans)

def await (c : CallRef) : Gw Res := perform (.awaitFlight c)

def enter (key : GoString) : Gw Res :=
  call (.enterFlight key) fun
    | .join c => await c
    | .lead c => lookup key c

theorem enter_eq (key : GoString) : enter key = singleFlight key (HistoryDAO.lookupByQueryID key) :=
  (singleFlight_lookup key).symm

/-- What the call `i` still has to do. `ref c` is the number under which the object of `c` is
known to the gateway. -/
def remaining (key : GoString) (ref : ι → CallRef) (res : ι → Res) (i : ι) : Pc ι Res → Gw Res
  | .idle | .locked | .created | .added => enter key
  | .found c | .waiting c => await (ref c)
  | .woken c => pure (res c)
  | .registered | .running => lookup key (ref i)
  | .ran => finish key (ref i) (res i)
  | .signalled | .relocked => leave key (res i)
  | .removed | .leaving => pure (res i)
  | .returned _ b => pure b

def Registered (s : SingleFlight.State ι GoString Res) (c : ι) : Prop :=
  (s.pc c).inTable ∨ (s.pc c).hasRun c

def Published (s : SingleFlight.State ι GoString Res) (c : ι) : Prop :=
  (s.pc c).hasRun c ∧ (s.pc c).count = 0

/-- The shared state and the programs of the gateway that go with a state under the mutex. -/
structure Sim (key : ι → GoString) (history : List QueryRecord)
    (s : SingleFlight.State ι GoString Res) (sh : Shared) (P : ι → Gw Res) (ref : ι → CallRef) :
    Prop where
  history : sh.history = history
  table : ∀ k, sh.inflight k = (s.inflight k).map ref
  old : ∀ c, Registered s c → (ref c).id < sh.calls
  inj : ∀ c c', Registered s c → Registered s c' → ref c = ref c' → c = c'
  results : ∀ c, Published s c → sh.results (ref c) = some (s.res c)
  prog : ∀ i, P i = remaining (key i) ref s.res i (s.pc i)

section Step

variable {key : ι → GoString} {history : List QueryRecord}
  {s s' : SingleFlight.State ι GoString Res} {sh sh' : Shared} {P P' : ι → Gw Res}
  {ref ref' : ι → CallRef} {i j : ι}

theorem registered_of_published {c : ι} (h : Published s c) : Registered s c := Or.inr h.1

theorem registered_of_ne (hm : Move key s s' i) {c : ι} (hc : c ≠ i) :
    Registered s' c ↔ Registered s c := by
  unfold Registered
  rw [hm.others c hc]

theorem published_of_ne (hm : Move key s s' i) {c : ι} (hc : c ≠ i) :
    Published s' c ↔ Published s c := by
  unfold Published
  rw [hm.others c hc]

def Followed (key : ι → GoString) (history : List QueryRecord)
    (s' : SingleFlight.State ι GoString Res) (sh : Shared) (P : ι → Gw Res) : Prop :=
  ∃ t sh' P' ref', Steps exec sh P t sh' P' ∧ Sim key history s' sh' P' ref'

section Moves

variable (h : Sim key history s sh P ref) (hs : Inv key s) (hm : Move key s s' i)
include h hs hm

/-- The programs of the other calls do not see a step. -/
theorem Sim.prog_of_ne (href : ∀ c, Registered s c → ref' c = ref c) (hj : j ≠ i) :
    P j = remaining (key j) ref' s'.res j (s'.pc j) := by
  have hjoined := hs.joined j
  have hwoken := hs.woken j
  have hown := href j
  unfold Registered at hown
  rw [h.prog j, hm.others j hj]
  cases hpc : s.pc j with
  | found c | waiting c =>
    have hc := (hjoined c (by rw [hpc]; rfl)).2
    simp only [remaining, href c hc]
  | woken c => simp only [remaining, hm.res c (hwoken c hpc)]
  | registered | running =>
    rw [hpc] at hown
    simp only [remaining, hown (Or.inl rfl)]
  | ran =>
    rw [hpc] at hown
    have hres := hm.res j (by rw [hpc]; rfl)
    simp only [remaining, hown (Or.inr rfl), hres]
  | signalled | relocked | removed | leaving =>
    have hres := hm.res j (by rw [hpc]; rfl)
    simp only [remaining, hres]
  | _ => rfl

/-- What has to be seen about a step of the call `i`. -/
theorem Sim.move (hhistory : sh'.history = sh.history)
    (htable : ∀ k, sh'.inflight k = (s'.inflight k).map ref')
    (href : ∀ c, Registered s c → ref' c = ref c) (hcalls : sh.calls ≤ sh'.calls)
    (hnew : Registered s' i → Registered s i ∨ ((ref' i).id = sh.calls ∧ sh.calls < sh'.calls))
    (hresults : ∀ c, c ≠ i → Published s c → sh'.results (ref c) = sh.results (ref c))
    (hpublished : Published s' i → sh'.results (ref' i) = some (s'.res i))
    (hprog : P' i = remaining (key i) ref' s'.res i (s'.pc i)) (hothers : ∀ j, j ≠ i → P' j = P j) :
    Sim key history s' sh' P' ref' := by
  -- a new number is larger than all others
  have hfresh : ∀ c, c ≠ i → Registered s' c → Registered s' i → ref' c ≠ ref' i := by
    intro c hc hreg hregi heq
    have hregc := (registered_of_ne hm hc).mp hreg
    rcases hnew hregi with hold | ⟨hid, -⟩
    · rw [href c hregc, href i hold] at heq
      exact hc (h.inj c i hregc hold heq)
    · have hlt := h.old c hregc
      rw [← href c hregc, heq] at hlt
      omega
  constructor
  · rw [hhistory, h.history]
  · exact htable
  · intro c hreg
    by_cases hc : c = i
    · subst hc
      rcases hnew hreg with hold | ⟨hid, hlt⟩
      · have := h.old c hold
        rw [href c hold]
        omega
      · omega
    · have hregc := (registered_of_ne hm hc).mp hreg
      have := h.old c hregc
      rw [href c hregc]
      omega
  · intro c c' hreg hreg' heq
    by_cases hc : c = i
    · subst hc
      by_contra hne
      exact hfresh c' (Ne.symm hne) hreg' hreg heq.symm
    · by_cases hc' : c' = i
      · subst hc'
        exact absurd heq (hfresh c hc hreg hreg')
      · have hregc := (registered_of_ne hm hc).mp hreg
        have hregc' := (registered_of_ne hm hc').mp hreg'
        rw [href c hregc, href c' hregc'] at heq
        exact h.inj c c' hregc hregc' heq
  · intro c hpub
    by_cases hc : c = i
    · subst hc
      exact hpublished hpub
    · have hpubc := (published_of_ne hm hc).mp hpub
      rw [href c (registered_of_published hpubc), hresults c hc hpubc, h.results c hpubc,
        hm.res c hpubc.1]
  · intro j
    by_cases hj : j = i
    · subst hj
      exact hprog
    · rw [hothers j hj]
      exact h.prog_of_ne hs hm href hj

theorem Sim.silent (htable : s'.inflight = s.inflight) (hres : s'.res = s.res)
    (hregistered : Registered s' i → Registered s i) (hpublished : Published s' i → Published s i)
    (hprog : remaining (key i) ref s.res i (s'.pc i) = remaining (key i) ref s.res i (s.pc i)) :
    Followed key history s' sh P := by
  refine ⟨[], sh, P, ref, .start, h.move hs hm rfl ?_ (fun _ _ => rfl) (Nat.le_refl _)
    (fun hr => Or.inl (hregistered hr)) (fun _ _ _ => rfl) ?_ ?_ (fun _ _ => rfl)⟩
  · rw [htable]
    exact h.table
  · intro hp
    rw [hres]
    exact h.results i (hpublished hp)
  · rw [h.prog i, hres, hprog]

/-- An operation after which the objects have the numbers they had. -/
theorem Sim.acts {o : Op} {k : o.Ret → Gw Res} {r : o.Ret} (hi : remaining (key i) ref s.res i
      (s.pc i) = call o k) (he : exec o sh r sh') (hhistory : sh'.history = sh.history)
    (htable : ∀ k, sh'.inflight k = (s'.inflight k).map ref) (hcalls : sh'.calls = sh.calls)
    (hnew : Registered s' i → Registered s i)
    (hresults : ∀ c, c ≠ i → Published s c → sh'.results (ref c) = sh.results (ref c))
    (hpublished : Published s' i → sh'.results (ref i) = some (s'.res i))
    (hprog : k r = remaining (key i) ref s'.res i (s'.pc i)) : Followed key history s' sh P := by
  refine ⟨_, sh', _, ref, Steps.start.step ((h.prog i).trans hi) he, h.move hs hm hhistory htable
    (fun _ _ => rfl) (Nat.le_of_eq hcalls.symm) (fun hr => .inl (hnew hr)) hresults hpublished ?_
    fun j hj => Function.update_of_ne hj _ _⟩
  rw [Function.update_self, hprog]

theorem Sim.register (hpc : s.pc i = .added) (hpc' : s'.pc i = .registered)
    (htable : s'.inflight = Function.update s.inflight (key i) (some i)) :
    Followed key history s' sh P := by
  have hi : P i = enter (key i) := by rw [h.prog i, hpc]; rfl
  have hnone : sh.inflight (key i) = none := by
    rw [h.table, hs.entering i (by rw [hpc]; rfl)]
    rfl
  have hexec : exec (.enterFlight (key i)) sh (.lead ⟨key i, sh.calls⟩)
      { sh with
        inflight := Function.update sh.inflight (key i) (some ⟨key i, sh.calls⟩)
        calls := sh.calls + 1 } := by
    simp [exec, hnone]
  have hout : ∀ c, Registered s c → c ≠ i := by
    rintro c hc rfl
    simp [Registered, hpc, Pc.inTable, Pc.hasRun] at hc
  have href : ∀ c, Registered s c → Function.update ref i ⟨key i, sh.calls⟩ c = ref c :=
    fun c hc => Function.update_of_ne (hout c hc) _ _
  refine ⟨_, _, _, _, Steps.start.step hi hexec, h.move hs hm rfl ?_ href (Nat.le_succ _) ?_
    (fun _ _ _ => rfl) ?_ ?_ fun j hj => Function.update_of_ne hj _ _⟩
  · intro k
    rw [htable]
    by_cases hk : k = key i
    · subst hk
      simp
    · simp only [Function.update_of_ne hk, h.table k]
      cases hin : s.inflight k with
      | none => rfl
      | some c => simp [href c (Or.inl ((hs.table k c).mp hin).2)]
  · intro _
    exact Or.inr ⟨by simp, Nat.lt_succ_self _⟩
  · simp [Published, hpc', Pc.hasRun]
  · simp [hpc', remaining]

end Moves

theorem Sim.next (h : Sim key history s sh P ref) (hs : Inv key s)
    (hstep : SingleFlight.next key s i = some s') : Followed key history s' sh P := by
  have hm := SingleFlight.move_next hs hstep
  cases SingleFlight.does_next hstep with
  | register hpc => exact h.register hs hm hpc (Function.update_self _ _ _) rfl
  | @find c hpc hin =>
    have hexec : exec (.enterFlight (key i)) sh (.join (ref c)) sh := by simp [exec, h.table, hin]
    refine h.acts hs hm (by rw [hpc]; rfl) hexec rfl h.table rfl ?_ (fun _ _ _ => rfl) ?_ ?_
    all_goals simp [Registered, Published, SingleFlight.State.goto, Pc.inTable, Pc.hasRun,
      remaining]
  | @wake c hpc hwg =>
    have hpub : Published s c := ⟨hs.hasRun_of_wait hpc hwg, by rw [← hs.count, hwg]⟩
    have hexec : exec (.awaitFlight (ref c)) sh (s.res c) sh := ⟨h.results c hpub, rfl⟩
    have hret : ret (s.res c) = (pure (s.res c) : Gw Res) := rfl
    refine h.acts hs hm (by rw [hpc]; rfl) hexec rfl h.table rfl ?_ (fun _ _ _ => rfl) ?_ ?_
    all_goals simp [Registered, Published, SingleFlight.State.goto, Pc.inTable, Pc.hasRun,
      remaining, hret]
  | signal hpc =>
    have hreg : Registered s i := Or.inr (by rw [hpc]; rfl)
    have hexec : exec (.finishFlight (ref i) (s.res i)) sh ()
        { sh with results := Function.update sh.results (ref i) (some (s.res i)) } := rfl
    refine h.acts hs hm (by rw [hpc]; rfl) hexec rfl h.table rfl (fun _ => hreg) ?_
      (fun _ => Function.update_self _ _ _) (by simp [SingleFlight.State.goto, remaining])
    intro c hc hpub
    have hne : ref c ≠ ref i :=
      fun heq => hc (h.inj c i (registered_of_published hpub) hreg heq)
    exact Function.update_of_ne hne _ _
  | remove hpc =>
    have hpub : Published s i := ⟨by rw [hpc]; rfl, by rw [hpc]; rfl⟩
    have hexec : exec (.leaveFlight (key i)) sh ()
        { sh with inflight := Function.update sh.inflight (key i) none } := rfl
    refine h.acts hs hm (by rw [hpc]; rfl) hexec rfl ?_ rfl
      (fun _ => registered_of_published hpub) (fun _ _ _ => rfl) (fun _ => h.results i hpub)
      (by simp [SingleFlight.State.goto, remaining])
    intro k
    by_cases hk : k = key i
    · subst hk
      simp
    · simp only [Function.update_of_ne hk, h.table k]
  | @read c hpc =>
    have hne : c ≠ i := by
      rintro rfl
      have hrun := hs.woken c c hpc
      rw [hpc] at hrun
      cases hrun
    refine h.silent hs hm rfl rfl ?_ ?_ ?_
    all_goals simp [Registered, Published, SingleFlight.State.goto, hpc, hne, Pc.inTable,
      Pc.hasRun, remaining]
  | lock hpc | create hpc | unlockFound hpc | add hpc | unlockRegistered hpc | relock hpc
  | unlockRemoved hpc | leave hpc =>
    refine h.silent hs hm rfl rfl ?_ ?_ ?_
    all_goals simp [Registered, Published, SingleFlight.State.goto, hpc, Pc.inTable, Pc.hasRun,
      Pc.count, remaining]

theorem Sim.ret (h : Sim key history s sh P ref) (hs : Inv key s)
    {ans : Except GoError (Option GoString)}
    (hans : ∀ row, ans = .ok row → row = Shared.backendOf history (key i))
    (hstep : SingleFlight.step key s (.ret i (lookupResult ans)) = some s') :
    Followed key history s' sh P := by
  have hm : Move key s s' i := SingleFlight.move_step hs hstep
  obtain ⟨hpc, rfl⟩ := SingleFlight.step_ret hstep
  have hexec : exec (.selectHistory (key i)) sh ans sh := by
    rw [← h.history] at hans
    exact ⟨hans, rfl⟩
  refine h.acts hs hm (by rw [hpc]; rfl) hexec rfl h.table rfl ?_ (fun _ _ _ => rfl) ?_ ?_
  · exact fun _ => Or.inl (by rw [hpc]; rfl)
  · simp [Published, SingleFlight.State.goto, Pc.count]
  · simp [SingleFlight.State.goto, remaining]

theorem sim_init (key : ι → GoString) (history : List QueryRecord) (zero : Res)
    (ref : ι → CallRef) :
    Sim key history (SingleFlight.init zero) (.init history)
      (fun i => singleFlight (key i) (HistoryDAO.lookupByQueryID (key i))) ref := by
  constructor
  · rfl
  · exact fun _ => rfl
  · simp [Registered, SingleFlight.init, Pc.inTable, Pc.hasRun]
  · simp [Registered, SingleFlight.init, Pc.inTable, Pc.hasRun]
  · simp [Published, SingleFlight.init, Pc.hasRun]
  · exact fun i => (enter_eq (key i)).symm

theorem Sim.step (h : Sim key history s sh P ref) (hs : Inv key s) {a : SingleFlight.Action ι Res}
    (hstep : SingleFlight.step key s a = some s')
    (hlookup : ∀ i b, a = .ret i b → ∃ ans, b = lookupResult ans ∧
      ∀ row, ans = .ok row → row = Shared.backendOf history (key i)) :
    Followed key history s' sh P := by
  cases a with
  | next i => exact h.next hs hstep
  | ret i b =>
    obtain ⟨ans, rfl, hans⟩ := hlookup i b rfl
    exact h.ret hs hans hstep

theorem sim_run {zero : Res} {as : List (SingleFlight.Action ι Res)}
    (h : Machine.run (SingleFlight.step key) (SingleFlight.init zero) as = some s)
    (hlookup : ∀ i b, .ret i b ∈ as → ∃ ans, b = lookupResult ans ∧
      ∀ row, ans = .ok row → row = Shared.backendOf history (key i)) :
    ∃ t sh P ref, Steps exec (.init history)
        (fun i => singleFlight (key i) (HistoryDAO.lookupByQueryID (key i))) t sh P ∧
      Sim key history s sh P ref := by
  induction as using List.reverseRecOn generalizing s with
  | nil =>
    obtain rfl := Option.some.inj h
    exact ⟨[], _, _, _, .start, sim_init key history zero fun i => ⟨key i, 0⟩⟩
  | append_singleton as a ih =>
    obtain ⟨s₁, h₁, hstep⟩ := Machine.run_snoc_eq_some.mp h
    obtain ⟨t, sh, P, ref, hsteps, hsim⟩ :=
      ih h₁ fun i b hmem => hlookup i b (List.mem_append_left _ hmem)
    obtain ⟨u, sh', P', ref', hu, hsim'⟩ := hsim.step (SingleFlight.inv_run h₁) hstep
      fun i b hab => hlookup i b (by simp [hab])
    exact ⟨t ++ u, sh', P', ref', hsteps.append hu, hsim'⟩

/-- Every run of calls of `do` whose lookups read a fixed history, in any interleaving of their
steps under the mutex, is matched by a run of the gateway's operations in which the same keys are in
flight and each call that has returned has returned the same. -/
theorem singleFlight_refines {zero : Res} {as : List (SingleFlight.Action ι Res)}
    (h : Machine.run (SingleFlight.step key) (SingleFlight.init zero) as = some s)
    (hlookup : ∀ i b, .ret i b ∈ as → ∃ ans, b = lookupResult ans ∧
      ∀ row, ans = .ok row → row = Shared.backendOf history (key i)) :
    ∃ t sh P, Steps exec (.init history)
        (fun i => singleFlight (key i) (HistoryDAO.lookupByQueryID (key i))) t sh P ∧
      (∀ k, (sh.inflight k).isSome = (s.inflight k).isSome) ∧
      ∀ i c b, s.pc i = .returned c b →
        Runs (singleFlight (key i) (HistoryDAO.lookupByQueryID (key i))) (localTrace i t) b := by
  obtain ⟨t, sh, P, ref, hsteps, hsim⟩ := sim_run h hlookup
  refine ⟨t, sh, P, hsteps, ?_, ?_⟩
  · intro k
    rw [hsim.table k, Option.isSome_map]
  · intro i c b hpc
    have hpath := hsteps.path i
    rw [hsim.prog i, hpc] at hpath
    exact hpath

end Step

end Coalescing

end TrinoGoway
