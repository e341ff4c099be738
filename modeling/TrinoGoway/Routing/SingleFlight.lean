import TrinoGoway.Lib.Machine
import Mathlib.Logic.Function.Basic

/-! `singleFlightGroup.do`, instruction by instruction: the mutex, the table of calls in flight, and
for each call its wait group and its result. Any number of calls run concurrently, on any keys. -/
namespace TrinoGoway.Routing.SingleFlight

/-- Where a call of `do` is. The object `&call{}` that it makes, if it makes one, is named after it:
`c` below is the call of `do` whose object it is. -/
inductive Pc (ι β : Type)
  /-- before `g.mu.Lock()` -/
  | idle
  /-- holds the mutex, before the look into the table -/
  | locked
  /-- holds the mutex, with the object it has found -/
  | found (c : ι)
  /-- before `c.wg.Wait()` -/
  | waiting (c : ι)
  /-- before the reads of `c.val` and `c.err` -/
  | woken (c : ι)
  /-- holds the mutex, with a new object -/
  | created
  /-- holds the mutex, after `c.wg.Add(1)` -/
  | added
  /-- holds the mutex, after `g.inflight[key] = c` -/
  | registered
  /-- in `fn` -/
  | running
  /-- after the writes of `c.val` and `c.err` -/
  | ran
  /-- after `c.wg.Done()` -/
  | signalled
  /-- holds the mutex again -/
  | relocked
  /-- holds the mutex, after `delete(g.inflight, key)` -/
  | removed
  /-- before the last reads of `c.val` and `c.err` -/
  | leaving
  /-- with the object it has read and what it read there -/
  | returned (c : ι) (res : β)

structure State (ι κ β : Type) where
  pc : ι → Pc ι β
  /-- who holds the mutex -/
  mu : Option ι
  inflight : κ → Option ι
  /-- the counter of the wait group of an object -/
  wg : ι → ℕ
  /-- the fields `val` and `err` of an object -/
  res : ι → β

inductive Action (ι β : Type)
  | next (i : ι)
  | ret (i : ι) (b : β)

variable {ι κ β : Type} [DecidableEq ι] [DecidableEq κ]

def init (zero : β) : State ι κ β where
  pc _ := .idle
  mu := none
  inflight _ := none
  wg _ := 0
  res _ := zero

def State.goto (s : State ι κ β) (i : ι) (p : Pc ι β) : State ι κ β :=
  { s with pc := Function.update s.pc i p }

def next (key : ι → κ) (s : State ι κ β) (i : ι) : Option (State ι κ β) :=
  match s.pc i with
  | .idle => if s.mu = none then some { s.goto i .locked with mu := some i } else none
  | .locked =>
    match s.inflight (key i) with
    | some c => some (s.goto i (.found c))
    | none => some (s.goto i .created)
  | .found c => some { s.goto i (.waiting c) with mu := none }
  | .waiting c => if s.wg c = 0 then some (s.goto i (.woken c)) else none
  | .woken c => some (s.goto i (.returned c (s.res c)))
  | .created => some { s.goto i .added with wg := Function.update s.wg i (s.wg i + 1) }
  | .added =>
    some { s.goto i .registered with inflight := Function.update s.inflight (key i) (some i) }
  | .registered => some { s.goto i .running with mu := none }
  | .running => none
  | .ran => some { s.goto i .signalled with wg := Function.update s.wg i (s.wg i - 1) }
  | .signalled => if s.mu = none then some { s.goto i .relocked with mu := some i } else none
  | .relocked => some { s.goto i .removed with inflight := Function.update s.inflight (key i) none }
  | .removed => some { s.goto i .leaving with mu := none }
  | .leaving => some (s.goto i (.returned i (s.res i)))
  | .returned _ _ => none

def step (key : ι → κ) (s : State ι κ β) : Action ι β → Option (State ι κ β)
  | .next i => next key s i
  | .ret i b =>
    match s.pc i with
    | .running => some { s.goto i .ran with res := Function.update s.res i b }
    | _ => none

inductive Does (key : ι → κ) (s : State ι κ β) (i : ι) : State ι κ β → Prop
  | lock (hpc : s.pc i = .idle) (hmu : s.mu = none) :
      Does key s i { s.goto i .locked with mu := some i }
  | find {c : ι} (hpc : s.pc i = .locked) (hin : s.inflight (key i) = some c) :
      Does key s i (s.goto i (.found c))
  | create (hpc : s.pc i = .locked) (hin : s.inflight (key i) = none) :
      Does key s i (s.goto i .created)
  | unlockFound {c : ι} (hpc : s.pc i = .found c) :
      Does key s i { s.goto i (.waiting c) with mu := none }
  | wake {c : ι} (hpc : s.pc i = .waiting c) (hwg : s.wg c = 0) :
      Does key s i (s.goto i (.woken c))
  | read {c : ι} (hpc : s.pc i = .woken c) : Does key s i (s.goto i (.returned c (s.res c)))
  | add (hpc : s.pc i = .created) :
      Does key s i { s.goto i .added with wg := Function.update s.wg i (s.wg i + 1) }
  | register (hpc : s.pc i = .added) :
      Does key s i
        { s.goto i .registered with inflight := Function.update s.inflight (key i) (some i) }
  | unlockRegistered (hpc : s.pc i = .registered) :
      Does key s i { s.goto i .running with mu := none }
  | signal (hpc : s.pc i = .ran) :
      Does key s i { s.goto i .signalled with wg := Function.update s.wg i (s.wg i - 1) }
  | relock (hpc : s.pc i = .signalled) (hmu : s.mu = none) :
      Does key s i { s.goto i .relocked with mu := some i }
  | remove (hpc : s.pc i = .relocked) :
      Does key s i { s.goto i .removed with inflight := Function.update s.inflight (key i) none }
  | unlockRemoved (hpc : s.pc i = .removed) :
      Does key s i { s.goto i .leaving with mu := none }
  | leave (hpc : s.pc i = .leaving) : Does key s i (s.goto i (.returned i (s.res i)))

theorem does_next {key : ι → κ} {s s' : State ι κ β} {i : ι} (h : next key s i = some s') :
    Does key s i s' := by
  unfold next at h
  split at h
  all_goals rename_i hpc
  all_goals try split at h
  all_goals cases h
  · exact .lock hpc (by assumption)
  · exact .find hpc (by assumption)
  · exact .create hpc (by assumption)
  · exact .unlockFound hpc
  · exact .wake hpc (by assumption)
  · exact .read hpc
  · exact .add hpc
  · exact .register hpc
  · exact .unlockRegistered hpc
  · exact .signal hpc
  · exact .relock hpc (by assumption)
  · exact .remove hpc
  · exact .unlockRemoved hpc
  · exact .leave hpc

/-! ### Control ranges -/

def Pc.holds : Pc ι β → Bool
  | locked | found _ | created | added | registered | relocked | removed => true
  | _ => false

def Pc.inTable : Pc ι β → Bool
  | registered | running | ran | signalled | relocked => true
  | _ => false

def Pc.entering : Pc ι β → Bool
  | created | added => true
  | _ => false

def Pc.count : Pc ι β → ℕ
  | added | registered | running | ran => 1
  | _ => 0

def Pc.joined (i : ι) : Pc ι β → Option ι
  | found c | waiting c | woken c => some c
  | returned c _ => if c = i then none else some c
  | _ => none

def Pc.hasRun (i : ι) : Pc ι β → Bool
  | ran | signalled | relocked | removed | leaving => true
  | returned c _ => c = i
  | _ => false

def Pc.inactive : Pc ι β → Bool
  | idle | returned _ _ => true
  | _ => false

section Ranges

variable {p : Pc ι β} {i : ι}

theorem Pc.hasRun_of_count (h : p.inTable ∨ p.hasRun i) (hcount : p.count = 0) : p.hasRun i := by
  cases p <;> simp_all [Pc.inTable, Pc.count, Pc.hasRun]

theorem Pc.joined_eq_none (h : p.inTable ∨ p.hasRun i) : p.joined i = none := by
  cases p <;> simp_all [Pc.inTable, Pc.joined, Pc.hasRun]

omit [DecidableEq ι] in
theorem Pc.holds_of_entering (h : p.entering) : p.holds := by
  cases p <;> simp_all [Pc.entering, Pc.holds]

end Ranges

structure Inv (key : ι → κ) (s : State ι κ β) : Prop where
  mutex : ∀ i, s.mu = some i ↔ (s.pc i).holds
  table : ∀ k c, s.inflight k = some c ↔ key c = k ∧ (s.pc c).inTable
  entering : ∀ i, (s.pc i).entering → s.inflight (key i) = none
  count : ∀ i, s.wg i = (s.pc i).count
  joined : ∀ i c, (s.pc i).joined i = some c →
    key c = key i ∧ ((s.pc c).inTable ∨ (s.pc c).hasRun c)
  woken : ∀ i c, s.pc i = .woken c → (s.pc c).hasRun c
  returned : ∀ i c b, s.pc i = .returned c b →
    key c = key i ∧ (s.pc c).hasRun c ∧ s.res c = b

omit [DecidableEq κ] in
theorem inv_init (key : ι → κ) (zero : β) : Inv key (init zero) := by
  constructor <;> simp [init, Pc.holds, Pc.inTable, Pc.entering, Pc.count, Pc.joined]

structure Move (key : ι → κ) (s s' : State ι κ β) (i : ι) : Prop where
  others : ∀ j ≠ i, s'.pc j = s.pc j
  mutex : (s'.mu = s.mu ∧ (s'.pc i).holds = (s.pc i).holds) ∨
    (s.mu = none ∧ s'.mu = some i ∧ (s'.pc i).holds) ∨
    ((s.pc i).holds ∧ s'.mu = none ∧ (s'.pc i).holds = false)
  table : (s'.inflight = s.inflight ∧ (s'.pc i).inTable = (s.pc i).inTable) ∨
    ((s.pc i).entering ∧ s'.inflight = Function.update s.inflight (key i) (some i) ∧
      (s'.pc i).inTable) ∨
    (s.pc i = .relocked ∧ s'.inflight = Function.update s.inflight (key i) none ∧
      (s'.pc i).inTable = false)
  entering : (s'.pc i).entering → s'.inflight (key i) = none
  count : s'.wg i = (s'.pc i).count
  counts : ∀ j ≠ i, s'.wg j = s.wg j
  joined : ∀ c, (s'.pc i).joined i = some c →
    (s.pc i).joined i = some c ∨ (s.pc i = .locked ∧ s.inflight (key i) = some c)
  lasting : (s.pc i).inTable ∨ (s.pc i).hasRun i → (s'.pc i).inTable ∨ (s'.pc i).hasRun i
  hasRun : (s.pc i).hasRun i → (s'.pc i).hasRun i
  woken : ∀ c, s'.pc i = .woken c → (s.pc c).hasRun c
  returned : ∀ c b, s'.pc i = .returned c b →
    key c = key i ∧ (s.pc c).hasRun c ∧ s.res c = b
  res : ∀ c, (s.pc c).hasRun c → s'.res c = s.res c

section Move

variable {key : ι → κ} {s s' : State ι κ β} {i : ι}

/-- An object that was in the table, or whose lookup has returned, is in the table or its lookup has
returned. -/
theorem Move.lasting_all (hm : Move key s s' i) {c : ι}
    (h : (s.pc c).inTable ∨ (s.pc c).hasRun c) : (s'.pc c).inTable ∨ (s'.pc c).hasRun c := by
  by_cases hc : c = i
  · subst hc
    exact hm.lasting h
  · rw [hm.others c hc]
    exact h

theorem Move.hasRun_all (hm : Move key s s' i) {c : ι} (h : (s.pc c).hasRun c) :
    (s'.pc c).hasRun c := by
  by_cases hc : c = i
  · subst hc
    exact hm.hasRun h
  · rw [hm.others c hc]
    exact h

theorem Inv.mutex_move (hs : Inv key s) (hm : Move key s s' i) (j : ι) :
    s'.mu = some j ↔ (s'.pc j).holds := by
  have hi := hs.mutex i
  have hj := hs.mutex j
  by_cases hji : j = i
  · subst hji
    rcases hm.mutex with ⟨hmu, hh⟩ | ⟨-, hmu, hh⟩ | ⟨-, hmu, hh⟩
    · rw [hmu, hh, hi]
    · simp [hmu, hh]
    · simp [hmu, hh]
  · rw [hm.others j hji]
    rcases hm.mutex with ⟨hmu, -⟩ | ⟨hnone, hmu, -⟩ | ⟨hheld, hmu, -⟩
    · rw [hmu, hj]
    · rw [← hj, hnone, hmu]
      simp [Ne.symm hji]
    · rw [← hj, hi.mpr hheld, hmu]
      simp [Ne.symm hji]

theorem Inv.table_move (hs : Inv key s) (hm : Move key s s' i) (k : κ) (c : ι) :
    s'.inflight k = some c ↔ key c = k ∧ (s'.pc c).inTable := by
  have hi := hs.table k i
  have hc := hs.table k c
  by_cases hci : c = i
  · subst hci
    rcases hm.table with ⟨htab, hin⟩ | ⟨-, htab, hin⟩ | ⟨-, htab, hin⟩
    · rw [htab, hin, hi]
    all_goals
      rw [htab, hin, Function.update_apply]
      by_cases hk : k = key c
      · simp [hk]
      · rw [if_neg hk, hc]
        simp [Ne.symm hk]
  · rw [hm.others c hci]
    rcases hm.table with ⟨htab, -⟩ | ⟨hent, htab, -⟩ | ⟨hwas, htab, -⟩
    · rw [htab, hc]
    · rw [htab, Function.update_apply, ← hc]
      split
      · rename_i hk
        subst hk
        rw [hs.entering i hent]
        simp [Ne.symm hci]
      · exact Iff.rfl
    · rw [htab, Function.update_apply, ← hc]
      split
      · rename_i hk
        subst hk
        rw [hi.mpr ⟨rfl, by rw [hwas]; rfl⟩]
        simp [Ne.symm hci]
      · exact Iff.rfl

/-- The mutex keeps the table as it is for a call that is about to enter its object. -/
theorem Inv.entering_move (hs : Inv key s) (hm : Move key s s' i) (j : ι)
    (h : (s'.pc j).entering) : s'.inflight (key j) = none := by
  by_cases hji : j = i
  · subst hji
    exact hm.entering h
  · rw [hm.others j hji] at h
    have hnone := hs.entering j h
    rcases hm.table with ⟨htab, -⟩ | ⟨hent, -, -⟩ | ⟨-, htab, -⟩
    · rw [htab]
      exact hnone
    · have hj := (hs.mutex j).mpr (Pc.holds_of_entering h)
      have hi := (hs.mutex i).mpr (Pc.holds_of_entering hent)
      rw [hj] at hi
      exact absurd (Option.some.inj hi) hji
    · rw [htab, Function.update_apply]
      split
      · rfl
      · exact hnone

theorem Inv.joined_move (hs : Inv key s) (hm : Move key s s' i) {j c : ι}
    (h : (s'.pc j).joined j = some c) :
    key c = key j ∧ ((s'.pc c).inTable ∨ (s'.pc c).hasRun c) := by
  have hfound : key c = key j ∧ ((s.pc c).inTable ∨ (s.pc c).hasRun c) := by
    by_cases hji : j = i
    · subst hji
      rcases hm.joined c h with hwas | ⟨-, hfound⟩
      · exact hs.joined j c hwas
      · obtain ⟨hkey, hin⟩ := (hs.table _ _).mp hfound
        exact ⟨hkey, Or.inl hin⟩
    · rw [hm.others j hji] at h
      exact hs.joined j c h
  exact ⟨hfound.1, hm.lasting_all hfound.2⟩

theorem Inv.returned_move (hs : Inv key s) (hm : Move key s s' i) {j c : ι} {b : β}
    (h : s'.pc j = .returned c b) : key c = key j ∧ (s'.pc c).hasRun c ∧ s'.res c = b := by
  have hread : key c = key j ∧ (s.pc c).hasRun c ∧ s.res c = b := by
    by_cases hji : j = i
    · subst hji
      exact hm.returned c b h
    · rw [hm.others j hji] at h
      exact hs.returned j c b h
  obtain ⟨hkey, hrun, hres⟩ := hread
  exact ⟨hkey, hm.hasRun_all hrun, (hm.res c hrun).trans hres⟩

theorem Inv.move (hs : Inv key s) (hm : Move key s s' i) : Inv key s' where
  mutex := hs.mutex_move hm
  table := hs.table_move hm
  entering := hs.entering_move hm
  count j := by
    by_cases hji : j = i
    · subst hji
      exact hm.count
    · rw [hm.counts j hji, hm.others j hji]
      exact hs.count j
  joined _ _ h := hs.joined_move hm h
  woken j c h := by
    apply hm.hasRun_all
    by_cases hji : j = i
    · subst hji
      exact hm.woken c h
    · rw [hm.others j hji] at h
      exact hs.woken j c h
  returned _ _ _ h := hs.returned_move hm h

omit [DecidableEq κ] in
theorem Inv.hasRun_of_wait (hs : Inv key s) {c : ι} (hpc : s.pc i = .waiting c)
    (hzero : s.wg c = 0) : (s.pc c).hasRun c := by
  have hfound := hs.joined i c (by rw [hpc]; rfl)
  rw [hs.count c] at hzero
  exact Pc.hasRun_of_count hfound.2 hzero

omit [DecidableEq κ] in
theorem Inv.read (hs : Inv key s) {c : ι} (hpc : s.pc i = .woken c) :
    key c = key i ∧ (s.pc c).hasRun c :=
  ⟨(hs.joined i c (by rw [hpc]; rfl)).1, hs.woken i c hpc⟩

omit [DecidableEq κ] in
theorem goto_others {p : Pc ι β} : ∀ j ≠ i, (s.goto i p).pc j = s.pc j :=
  fun _ hj => Function.update_of_ne hj _ _

/-! What one step does to each part of the state. -/

theorem next_others (h : next key s i = some s') (j : ι) (hj : j ≠ i) :
    s'.pc j = s.pc j ∧ s'.wg j = s.wg j := by
  cases does_next h
  all_goals simp [State.goto, Function.update_of_ne hj]

theorem next_lasting (h : next key s i = some s') :
    ((s.pc i).inTable ∨ (s.pc i).hasRun i → (s'.pc i).inTable ∨ (s'.pc i).hasRun i) ∧
      ((s.pc i).hasRun i → (s'.pc i).hasRun i) ∧ s'.res = s.res := by
  cases does_next h
  all_goals simp_all [State.goto, Pc.inTable, Pc.hasRun]

theorem next_read (hs : Inv key s) (h : next key s i = some s') :
    (∀ c, s'.pc i = .woken c → (s.pc c).hasRun c) ∧
      ∀ c b, s'.pc i = .returned c b → key c = key i ∧ (s.pc c).hasRun c ∧ s.res c = b := by
  have hwait := fun c => hs.hasRun_of_wait (i := i) (c := c)
  have hread := fun c => hs.read (i := i) (c := c)
  clear hs
  cases does_next h
  all_goals simp_all [State.goto, Pc.hasRun]

theorem move_next (hs : Inv key s) (h : next key s i = some s') : Move key s s' i where
  others j hj := (next_others h j hj).1
  mutex := by
    clear hs
    cases does_next h
    all_goals simp_all [State.goto, Pc.holds]
  table := by
    clear hs
    cases does_next h
    all_goals simp_all [State.goto, Pc.inTable, Pc.entering]
  entering := by
    have hentering := hs.entering i
    clear hs
    cases does_next h
    all_goals simp_all [State.goto, Pc.entering]
  count := by
    have hcount := hs.count i
    clear hs
    cases does_next h
    all_goals simp_all [State.goto, Pc.count]
  counts j hj := (next_others h j hj).2
  joined c hc := by
    clear hs
    cases does_next h
    all_goals simp_all [State.goto, Pc.joined]
  lasting := (next_lasting h).1
  hasRun := (next_lasting h).2.1
  woken := (next_read hs h).1
  returned := (next_read hs h).2
  res c _ := by rw [(next_lasting h).2.2]

theorem move_ret (hs : Inv key s) (hpc : s.pc i = .running) (b : β) :
    Move key s { s.goto i .ran with res := Function.update s.res i b } i := by
  have hcount := hs.count i
  rw [hpc] at hcount
  clear hs
  constructor
  · exact goto_others
  all_goals simp only [State.goto, hpc, Function.update_self, Pc.holds, Pc.inTable, Pc.entering,
    Pc.count, Pc.joined]
  all_goals grind [Pc.hasRun, Pc.count]

end Move

def Action.call : Action ι β → ι
  | next i | ret i _ => i

theorem step_ret {key : ι → κ} {s s' : State ι κ β} {i : ι} {b : β}
    (h : step key s (.ret i b) = some s') :
    s.pc i = .running ∧ s' = { s.goto i .ran with res := Function.update s.res i b } := by
  simp only [step] at h
  split at h
  · exact ⟨by assumption, (Option.some.inj h).symm⟩
  · cases h

theorem move_step {key : ι → κ} {s s' : State ι κ β} {a : Action ι β} (hs : Inv key s)
    (h : step key s a = some s') : Move key s s' a.call := by
  cases a with
  | next i => exact move_next hs h
  | ret i b =>
    obtain ⟨hpc, rfl⟩ := step_ret h
    exact move_ret hs hpc b

theorem inv_run {key : ι → κ} {zero : β} {as : List (Action ι β)} {s : State ι κ β}
    (h : Machine.run (step key) (init zero) as = some s) : Inv key s :=
  Machine.run_invariant (fun _ _ _ hs hstep => hs.move (move_step hs hstep)) (inv_init key zero) h

/-! ### The lookups of a run -/

def results (c : ι) (as : List (Action ι β)) : List β :=
  as.filterMap fun
    | .ret i b => if i = c then some b else none
    | .next _ => none

/-- The call `i` has found the object `c` under its key when it looked into the table. -/
def Found (key : ι → κ) (zero : β) (as : List (Action ι β)) (i c : ι) : Prop :=
  ∃ as₁ as₂ s, as = as₁ ++ .next i :: as₂ ∧ Machine.run (step key) (init zero) as₁ = some s ∧
    s.pc i = .locked ∧ s.inflight (key i) = some c

section Run

variable {key : ι → κ} {zero : β} {as : List (Action ι β)} {s s' : State ι κ β} {i : ι}

theorem next_results (hs : Inv key s) (h : next key s i = some s') (c : ι) :
    (s'.pc c).hasRun c = (s.pc c).hasRun c ∧ s'.res = s.res := by
  have hself := hs.joined i i
  have hnone : (s.pc i).inTable ∨ (s.pc i).hasRun i → (s.pc i).joined i = none := Pc.joined_eq_none
  refine ⟨?_, (next_lasting h).2.2⟩
  by_cases hc : c = i
  · subst hc
    clear hs
    cases does_next h
    all_goals simp only [State.goto, Function.update_self]
    all_goals grind [Pc.hasRun, Pc.joined]
  · rw [(next_others h c hc).1]

/-- Each lookup returns once, and the object of the call holds what it returned. -/
theorem results_run (h : Machine.run (step key) (init zero) as = some s) (c : ι) :
    results c as = if (s.pc c).hasRun c then [s.res c] else [] := by
  induction as using List.reverseRecOn generalizing s with
  | nil =>
    obtain rfl := Option.some.inj h
    rfl
  | append_singleton as a ih =>
    obtain ⟨s₁, h₁, hstep⟩ := Machine.run_snoc_eq_some.mp h
    have hs := inv_run h₁
    have ih := ih h₁
    unfold results at ih ⊢
    rw [List.filterMap_append, ih]
    cases a with
    | next i =>
      obtain ⟨hrun, hres⟩ := next_results hs hstep c
      rw [hrun, hres]
      simp
    | ret i b =>
      obtain ⟨hpc, rfl⟩ := step_ret hstep
      by_cases hc : c = i
      · subst hc
        simp [State.goto, hpc, Pc.hasRun]
      · simp [State.goto, hc, Ne.symm hc]

theorem found_run (h : Machine.run (step key) (init zero) as = some s) {c : ι}
    (hc : (s.pc i).joined i = some c) : Found key zero as i c := by
  induction as using List.reverseRecOn generalizing s with
  | nil =>
    obtain rfl := Option.some.inj h
    cases hc
  | append_singleton as a ih =>
    obtain ⟨s₁, h₁, hstep⟩ := Machine.run_snoc_eq_some.mp h
    have hmove := move_step (inv_run h₁) hstep
    have hbefore : (s₁.pc i).joined i = some c → Found key zero (as ++ [a]) i c := by
      intro hwas
      obtain ⟨as₁, as₂, s₂, rfl, hrun, hpc, hin⟩ := ih h₁ hwas
      exact ⟨as₁, as₂ ++ [a], s₂, by simp, hrun, hpc, hin⟩
    by_cases hi : i = a.call
    · subst hi
      rcases hmove.joined c hc with hwas | ⟨hpc, hin⟩
      · exact hbefore hwas
      · cases a with
        | next i => exact ⟨as, [], s₁, rfl, h₁, hpc, hin⟩
        | ret i b =>
          obtain ⟨hrunning, -⟩ := step_ret hstep
          rw [Action.call, hrunning] at hpc
          cases hpc
    · rw [hmove.others i hi] at hc
      exact hbefore hc

/-! ### Progress -/

def Pc.rank : Pc ι β → ℕ
  | idle => 0
  | locked => 1
  | found _ | created => 2
  | waiting _ | added => 3
  | woken _ | registered => 4
  | running => 5
  | ran => 6
  | signalled => 7
  | relocked => 8
  | removed => 9
  | leaving => 10
  | returned _ _ => 11

omit [DecidableEq ι] in
theorem Pc.rank_le (p : Pc ι β) : p.rank ≤ 11 := by
  cases p <;> simp [Pc.rank]

theorem rank_step {a : Action ι β} (h : step key s a = some s') :
    (s.pc a.call).rank < (s'.pc a.call).rank := by
  cases a with
  | ret i b =>
    obtain ⟨hpc, rfl⟩ := step_ret h
    simp [State.goto, Action.call, hpc, Pc.rank]
  | next i =>
    change next key s i = some s' at h
    change (s.pc i).rank < (s'.pc i).rank
    cases does_next h
    all_goals simp_all [State.goto, Pc.rank]

/-- A call makes at most eleven steps. -/
theorem length_call_le (h : Machine.run (step key) (init zero) as = some s) (i : ι) :
    (as.filter fun a => a.call = i).length ≤ (s.pc i).rank := by
  induction as using List.reverseRecOn generalizing s with
  | nil => simp
  | append_singleton as a ih =>
    obtain ⟨s₁, h₁, hstep⟩ := Machine.run_snoc_eq_some.mp h
    have hlen := ih h₁
    have hrank := rank_step hstep
    rw [List.filter_append, List.length_append]
    by_cases hi : a.call = i
    · subst hi
      simp only [decide_true, List.filter_cons_of_pos, List.filter_nil, List.length_singleton]
      omega
    · rw [(move_step (inv_run h₁) hstep).others i (Ne.symm hi)]
      simpa [hi] using hlen

theorem exists_next_of_holds (h : (s.pc i).holds) : ∃ s', step key s (.next i) = some s' := by
  cases hpc : s.pc i with
  | locked => cases hin : s.inflight (key i) <;> simp [step, next, hpc, hin]
  | _ => simp_all [Pc.holds, step, next]

theorem exists_step_of_count (hs : Inv key s) (hfree : s.mu = none) (h : (s.pc i).count ≠ 0) :
    ∃ a s', a.call = i ∧ step key s a = some s' := by
  have hheld : (s.pc i).holds = false := by
    rw [Bool.eq_false_iff, Ne, ← hs.mutex, hfree]
    simp
  cases hpc : s.pc i with
  | running => exact ⟨.ret i (s.res i), by simp [Action.call, step, hpc]⟩
  | ran => exact ⟨.next i, by simp [Action.call, step, next, hpc]⟩
  | _ =>
    rw [hpc] at h hheld
    first
    | exact absurd rfl h
    | cases hheld

/-- As long as a call is active, some active call can make a step. -/
theorem exists_step (hs : Inv key s) (h : (s.pc i).inactive = false) :
    ∃ a s', (s.pc a.call).inactive = false ∧ step key s a = some s' := by
  cases hmu : s.mu with
  | some j =>
    have hheld := (hs.mutex j).mp hmu
    obtain ⟨s', hs'⟩ : ∃ s', step key s (.next j) = some s' := exists_next_of_holds hheld
    refine ⟨.next j, s', ?_, hs'⟩
    change (s.pc j).inactive = false
    cases hpc : s.pc j <;> simp_all [Pc.holds, Pc.inactive]
  | none =>
    cases hpc : s.pc i with
    | waiting c =>
      by_cases hzero : s.wg c = 0
      · exact ⟨.next i, by simp [Action.call, Pc.inactive, step, next, hpc, hzero]⟩
      · -- the object that it waits for is the one of a call that can go on
        rw [hs.count c] at hzero
        obtain ⟨a, s', rfl, hstep⟩ := exists_step_of_count hs hmu hzero
        refine ⟨a, s', ?_, hstep⟩
        cases hc : s.pc a.call <;> simp_all [Pc.count, Pc.inactive]
    | woken c => exact ⟨.next i, by simp [Action.call, Pc.inactive, step, next, hpc]⟩
    | running => exact ⟨.ret i (s.res i), by simp [Action.call, Pc.inactive, step, hpc]⟩
    | ran => exact ⟨.next i, by simp [Action.call, Pc.inactive, step, next, hpc]⟩
    | signalled => exact ⟨.next i, by simp [Action.call, Pc.inactive, step, next, hpc, hmu]⟩
    | leaving => exact ⟨.next i, by simp [Action.call, Pc.inactive, step, next, hpc]⟩
    | idle =>
      rw [hpc] at h
      cases h
    | returned c b =>
      rw [hpc] at h
      cases h
    | _ =>
      have hheld := (hs.mutex i).mpr (by rw [hpc]; rfl)
      rw [hmu] at hheld
      cases hheld

end Run

/-- **Coalesced lookups.** In every run of any number of calls of `do`, on any keys and in any
interleaving: at most one lookup runs for a key; a call returns the result of the only run of one
lookup for its key, its own or the one that it found in the table; an entry leaves the table only by
the delete of its own call; without an active call the table is empty. No call is blocked for good:
while one is active an active one can make a step, and none makes more than eleven. -/
theorem calls_exclusive (key : ι → κ) (zero : β) {as : List (Action ι β)} {s : State ι κ β}
    (h : Machine.run (step key) (init zero) as = some s) :
    (∀ i j, s.pc i = .running → s.pc j = .running → key i = key j → i = j) ∧
    (∀ i c b, s.pc i = .returned c b →
      key c = key i ∧ results c as = [b] ∧ (c = i ∨ Found key zero as i c)) ∧
    (∀ a s' k c, step key s a = some s' → s.inflight k = some c →
      s'.inflight k = some c ∨ (a.call = c ∧ s.pc c = .relocked ∧ s'.inflight k = none)) ∧
    ((∀ i, (s.pc i).inactive) → ∀ k, s.inflight k = none) ∧
    (∀ i, (s.pc i).inactive = false →
      ∃ a s', (s.pc a.call).inactive = false ∧ step key s a = some s') ∧
    ∀ i, (as.filter fun a => a.call = i).length ≤ 11 := by
  have hs := inv_run h
  refine ⟨?_, ?_, ?_, ?_, ?_, ?_⟩
  · intro i j hi hj hkey
    have hini := (hs.table (key j) i).mpr ⟨hkey, by rw [hi]; rfl⟩
    have hinj := (hs.table (key j) j).mpr ⟨rfl, by rw [hj]; rfl⟩
    rw [hini] at hinj
    exact Option.some.inj hinj
  · intro i c b hpc
    obtain ⟨hkey, hrun, hres⟩ := hs.returned i c b hpc
    refine ⟨hkey, ?_, ?_⟩
    · rw [results_run h, if_pos hrun, hres]
    · by_cases hc : c = i
      · exact Or.inl hc
      · exact Or.inr (found_run h (by rw [hpc, Pc.joined, if_neg hc]))
  · intro a s' k c hstep hin
    rcases (move_step hs hstep).table with ⟨htab, -⟩ | ⟨hent, htab, -⟩ | ⟨hpc, htab, -⟩
    · rw [htab]
      exact Or.inl hin
    · rw [htab, Function.update_apply]
      split
      · rename_i hk
        rw [hk, hs.entering _ hent] at hin
        cases hin
      · exact Or.inl hin
    · rw [htab, Function.update_apply]
      split
      · rename_i hk
        have hown := (hs.table k a.call).mpr ⟨hk.symm, by rw [hpc]; rfl⟩
        rw [hin] at hown
        obtain rfl := Option.some.inj hown
        exact Or.inr ⟨rfl, hpc, rfl⟩
      · exact Or.inl hin
  · intro hall k
    cases hk : s.inflight k with
    | none => rfl
    | some c =>
      have hin := ((hs.table k c).mp hk).2
      have hout := hall c
      cases hc : s.pc c <;> simp_all [Pc.inTable, Pc.inactive]
  · exact fun i hi => exists_step hs hi
  · exact fun i => Nat.le_trans (length_call_le h i) (s.pc i).rank_le

/-- The first call leads, the second one joins it and reads its result. -/
theorem calls_exclusive_joined :
    ∃ as : List (Action Bool ℕ), ∃ s, Machine.run (step fun _ => ()) (init 0) as = some s ∧
      s.pc false = .returned true 7 ∧ results true as = [7] ∧
        Found (fun _ => ()) 0 as false true := by
  let as : List (Action Bool ℕ) :=
    [.next true, .next true, .next true, .next true, .next true, .next false, .next false,
      .next false, .ret true 7, .next true, .next false, .next false]
  have hrun : ∃ s, Machine.run (step fun _ => ()) (init 0) as = some s ∧
      s.pc false = .returned true 7 := ⟨_, rfl, rfl⟩
  obtain ⟨s, hs, hpc⟩ := hrun
  obtain ⟨-, hres, hfound⟩ := (calls_exclusive (fun _ => ()) 0 hs).2.1 false true 7 hpc
  exact ⟨as, s, hs, hpc, hres, hfound.resolve_left (by decide)⟩

end TrinoGoway.Routing.SingleFlight
