import TrinoGoway.Reload.Changes
import TrinoGoway.Reload.LastGood

/-! `Stop` against the watcher's goroutine: the select with its debounce timer, the reloads that
the goroutine makes inline, its deferred calls, and any number of calls of `Stop`. -/
namespace TrinoGoway.Reload.Stop

open Go Engine Prog Machine
open Changes (FsEvent)

variable {M : Type}

inductive Timer
  | stopped
  | running
  | fired
  deriving DecidableEq

inductive Loop (M : Type)
  | starting
  | selecting
  /-- with what is left to do of `reload` -/
  | reloading (rest : Code M Unit)
  /-- before the deferred `timer.Stop()` -/
  | returning
  /-- before the deferred `close(w.done)` -/
  | closing
  | exited

inductive Caller
  | called
  /-- it has closed the fsnotify watcher -/
  | waiting
  | returned
  deriving DecidableEq

structure State (M : Type) where
  loop : Loop M := .starting
  timer : Timer := .stopped
  /-- `timerC` is not nil -/
  timerC : Bool := false
  /-- the context is done -/
  cancelled : Bool := false
  /-- the fsnotify watcher and its channels are closed -/
  closed : Bool := false
  /-- what fsnotify has to deliver -/
  events : List FsEvent := []
  errors : ℕ := 0
  /-- how often `done` has been closed -/
  doneCloses : ℕ := 0
  stops : List Caller := []
  /-- the steps of all reloads -/
  log : List (Event (Ret (M := M))) := []

inductive Action (M : Type)
  | event (e : FsEvent)
  | error
  | fire
  | cancel
  | callStop
  | closeWatcher (i : ℕ)
  | awaitDone (i : ℕ)
  | start
  /-- `case <-ctx.Done()` -/
  | takeDone
  /-- `case event, ok := <-w.watcher.Events` -/
  | takeEvent
  /-- `case err, ok := <-w.watcher.Errors` -/
  | takeError
  /-- `case <-timerC` -/
  | takeTimer
  /-- the next step of the reload, with the answer that it gets -/
  | reloadStep (answer : (o : Op M) → Ret o)
  | endReload
  | stopTimer
  | closeDone

def Action.isControl : Action M → Bool
  | start | takeDone | takeEvent | takeError | takeTimer | endReload | stopTimer | closeDone => true
  | _ => false

def Action.isLoop : Action M → Bool
  | reloadStep _ => true
  | a => a.isControl

def step (env : Env) (s : State M) : Action M → Option (State M)
  | .event e => if s.closed then none else some { s with events := s.events ++ [e] }
  | .error => if s.closed then none else some { s with errors := s.errors + 1 }
  | .fire => if s.timer = .running then some { s with timer := .fired } else none
  | .cancel => some { s with cancelled := true }
  | .callStop => some { s with stops := s.stops ++ [.called] }
  | .closeWatcher i =>
    if s.stops[i]? = some .called then
      some { s with closed := true, events := [], errors := 0, stops := s.stops.set i .waiting }
    else none
  | .awaitDone i =>
    if s.stops[i]? = some .waiting ∧ 0 < s.doneCloses then
      some { s with stops := s.stops.set i .returned }
    else none
  | .start =>
    match s.loop with
    | .starting => some { s with loop := .selecting }
    | _ => none
  | .takeDone =>
    match s.loop with
    | .selecting => if s.cancelled then some { s with loop := .returning } else none
    | _ => none
  | .takeEvent =>
    match s.loop, s.events with
    | .selecting, e :: es =>
      -- an event that arms: `timer.Reset`, and `timerC = timer.C`
      some { s with
        events := es
        timer := if e.arms then .running else s.timer
        timerC := s.timerC || e.arms }
    | .selecting, [] => if s.closed then some { s with loop := .returning } else none
    | _, _ => none
  | .takeError =>
    match s.loop, s.errors with
    | .selecting, n + 1 => some { s with errors := n }
    | .selecting, 0 => if s.closed then some { s with loop := .returning } else none
    | _, _ => none
  | .takeTimer =>
    match s.loop with
    | .selecting =>
      if s.timerC ∧ s.timer = .fired then
        some { s with timer := .stopped, timerC := false, loop := .reloading (reload env) }
      else none
    | _ => none
  | .reloadStep answer =>
    match s.loop with
    | .reloading (.call o k) =>
      some { s with loop := .reloading (k (answer o)), log := s.log ++ [⟨o, answer o⟩] }
    | _ => none
  | .endReload =>
    match s.loop with
    | .reloading (.ret _) => some { s with loop := .selecting }
    | _ => none
  | .stopTimer =>
    match s.loop with
    | .returning => some { s with loop := .closing, timer := .stopped }
    | _ => none
  | .closeDone =>
    match s.loop with
    | .closing => some { s with loop := .exited, doneCloses := s.doneCloses + 1 }
    | _ => none

def init : State M := {}

structure Inv (s : State M) : Prop where
  /-- `done` has been closed once the goroutine has exited, and not before -/
  exited : s.loop = .exited ∧ s.doneCloses = 1 ∨ s.loop ≠ .exited ∧ s.doneCloses = 0
  returned : ∀ i : ℕ, s.stops[i]? = some .returned → s.doneCloses = 1
  waiting : ∀ i : ℕ, s.stops[i]? = some .waiting → s.closed = true
  drained : s.closed = true → s.events = [] ∧ s.errors = 0
  /-- a reload has cleared `timerC` -/
  reloading : ∀ rest, s.loop = .reloading rest → s.timerC = false

section Steps

variable {env : Env} {s s' : State M} {a : Action M}

theorem Inv.of_loop (h : Inv s) (hfrom : s.loop ≠ .exited) (hto : s'.loop ≠ .exited)
    (hsame : s'.stops = s.stops ∧ s'.closed = s.closed ∧ s'.doneCloses = s.doneCloses)
    (hdrained : s'.closed = true → s'.events = [] ∧ s'.errors = 0)
    (hreloading : ∀ rest, s'.loop = .reloading rest → s'.timerC = false) : Inv s' := by
  obtain ⟨hstops, hclosed, hcloses⟩ := hsame
  refine ⟨.inr ⟨hto, ?_⟩, ?_, ?_, hdrained, hreloading⟩
  · rw [hcloses]
    exact (h.exited.resolve_left fun hl => hfrom hl.1).2
  · rw [hstops, hcloses]
    exact h.returned
  · rw [hstops, hclosed]
    exact h.waiting

theorem of_not_loop (ha : a.isLoop = false) (hst : step env s a = some s') :
    s'.loop = s.loop ∧ s'.timerC = s.timerC ∧ s'.doneCloses = s.doneCloses ∧ s'.log = s.log ∧
      (s.closed = true → s'.closed = true) := by
  cases a with
  | event | error | fire | closeWatcher | awaitDone =>
    simp only [step, Option.ite_none_left_eq_some, Option.ite_none_right_eq_some,
      Option.some.injEq] at hst
    obtain ⟨-, rfl⟩ := hst
    simp
  | cancel | callStop =>
    cases hst
    simp
  | _ => cases ha

theorem Inv.of_not_loop (h : Inv s) (ha : a.isLoop = false) (hst : step env s a = some s')
    (hreturned : ∀ i : ℕ, s'.stops[i]? = some .returned → s.doneCloses = 1)
    (hwaiting : ∀ i : ℕ, s'.stops[i]? = some .waiting → s'.closed = true)
    (hdrained : s'.closed = true → s'.events = [] ∧ s'.errors = 0) : Inv s' := by
  obtain ⟨hloop, htimer, hcloses, -, -⟩ := Stop.of_not_loop ha hst
  refine ⟨?_, ?_, hwaiting, hdrained, ?_⟩
  · rw [hloop, hcloses]
    exact h.exited
  · rw [hcloses]
    exact hreturned
  · rw [hloop, htimer]
    exact h.reloading

theorem Inv.doneCloses_of_pos (h : Inv s) (hpos : 0 < s.doneCloses) : s.doneCloses = 1 := by
  rcases h.exited with ⟨-, hone⟩ | ⟨-, hzero⟩
  · exact hone
  · omega

theorem Inv.step_not_loop (h : Inv s) (ha : a.isLoop = false) (hst : step env s a = some s') :
    Inv s' := by
  have hinv := h.of_not_loop ha hst
  cases a with
  | event | error =>
    simp only [step] at hst
    split at hst
    · cases hst
    · rename_i hopen
      cases hst
      exact hinv h.returned h.waiting fun hclosed => absurd hclosed hopen
  | fire =>
    simp only [step] at hst
    split at hst
    · cases hst
      exact hinv h.returned h.waiting h.drained
    · cases hst
  | cancel =>
    cases hst
    exact hinv h.returned h.waiting h.drained
  | callStop =>
    cases hst
    refine hinv ?_ ?_ h.drained
    · intro i hi
      rcases getElem?_snoc_eq_some hi with hi | hi
      · exact h.returned i hi
      · cases hi
    · intro i hi
      rcases getElem?_snoc_eq_some hi with hi | hi
      · exact h.waiting i hi
      · cases hi
  | closeWatcher i =>
    simp only [step] at hst
    split at hst
    · rename_i hcalled
      cases hst
      refine hinv ?_ (fun _ _ => rfl) fun _ => ⟨rfl, rfl⟩
      intro j hj
      rcases getElem?_set_eq_some hcalled hj with ⟨-, hj⟩ | ⟨-, hj⟩
      · cases hj
      · exact h.returned j hj
    · cases hst
  | awaitDone i =>
    simp only [step] at hst
    split at hst
    · rename_i hdone
      cases hst
      refine hinv (fun _ _ => h.doneCloses_of_pos hdone.2) ?_ h.drained
      intro j hj
      rcases getElem?_set_eq_some hdone.1 hj with ⟨-, hj⟩ | ⟨-, hj⟩
      · cases hj
      · exact h.waiting j hj
    · cases hst
  | _ => cases ha

/-- How far the goroutine is from its end, once the fsnotify watcher is closed: outside `reload`
each of its steps brings it nearer. -/
def rank (s : State M) : ℕ :=
  match s.loop with
  | .starting => 6
  | .selecting => if s.timerC then 5 else 3
  | .reloading _ => 4
  | .returning => 2
  | .closing => 1
  | .exited => 0

structure LoopStep (a : Action M) (s s' : State M) : Prop where
  running : s.loop ≠ .exited
  inv : Inv s'
  stops : s'.stops = s.stops
  closed : s'.closed = s.closed
  nearer : s.closed = true → if a.isControl then rank s' < rank s else rank s' = rank s

theorem LoopStep.of_move (h : Inv s) (hfrom : s.loop ≠ .exited) (hto : s'.loop ≠ .exited)
    (hsame : s'.stops = s.stops ∧ s'.closed = s.closed ∧ s'.doneCloses = s.doneCloses)
    (hdrained : s'.closed = true → s'.events = [] ∧ s'.errors = 0)
    (hreloading : ∀ rest, s'.loop = .reloading rest → s'.timerC = false)
    (hnearer : s.closed = true → if a.isControl then rank s' < rank s else rank s' = rank s) :
    LoopStep a s s' :=
  ⟨hfrom, h.of_loop hfrom hto hsame hdrained hreloading, hsame.1, hsame.2.1, hnearer⟩

theorem LoopStep.of_return (h : Inv s) (hloop : s.loop = .selecting) (ha : a.isControl = true) :
    LoopStep a s { s with loop := .returning } := by
  refine .of_move h (by simp [hloop]) (by simp) ⟨rfl, rfl, rfl⟩ h.drained (by simp) ?_
  intro _
  simp only [rank, hloop, ha, if_true]
  split <;> omega

theorem LoopStep.of_delivery (h : Inv s) (hopen : s.closed ≠ true) (hloop : s.loop = .selecting)
    (hloop' : s'.loop = .selecting)
    (hsame : s'.stops = s.stops ∧ s'.closed = s.closed ∧ s'.doneCloses = s.doneCloses) :
    LoopStep a s s' := by
  refine .of_move h (by simp [hloop]) (by simp [hloop']) hsame ?_ (by simp [hloop']) ?_
  · intro hclosed
    rw [hsame.2.1] at hclosed
    exact absurd hclosed hopen
  · exact fun hclosed => absurd hclosed hopen

theorem LoopStep.of_exit (h : Inv s) (hloop : s.loop = .closing) :
    LoopStep .closeDone s { s with loop := .exited, doneCloses := s.doneCloses + 1 } := by
  have hzero : s.doneCloses = 0 :=
    (h.exited.resolve_left fun hexited => by simp [hloop] at hexited).2
  have hinv : Inv { s with loop := .exited, doneCloses := s.doneCloses + 1 } :=
    ⟨.inl ⟨rfl, by simp [hzero]⟩, fun _ _ => by simp [hzero], h.waiting, h.drained, by simp⟩
  refine ⟨by simp [hloop], hinv, rfl, rfl, ?_⟩
  intro _
  simp [rank, hloop, Action.isControl]

theorem loopStep (h : Inv s) (ha : a.isLoop = true) (hst : step env s a = some s') :
    LoopStep a s s' := by
  cases a with
  | start =>
    simp only [step] at hst
    split at hst <;> cases hst
    rename_i hloop
    refine .of_move h (by simp [hloop]) (by simp) ⟨rfl, rfl, rfl⟩ h.drained (by simp) ?_
    intro _
    simp only [rank, hloop, Action.isControl, if_true]
    split <;> omega
  | takeDone =>
    simp only [step] at hst
    split at hst
    · rename_i hloop
      split at hst <;> cases hst
      exact .of_return h hloop rfl
    · cases hst
  | takeEvent =>
    simp only [step] at hst
    split at hst
    · rename_i e es hloop hevents
      cases hst
      have hopen : s.closed ≠ true := by
        intro hclosed
        simp [(h.drained hclosed).1] at hevents
      exact .of_delivery h hopen hloop hloop ⟨rfl, rfl, rfl⟩
    · rename_i hloop hevents
      split at hst <;> cases hst
      exact .of_return h hloop rfl
    · cases hst
  | takeError =>
    simp only [step] at hst
    split at hst
    · rename_i n hloop herrors
      cases hst
      have hopen : s.closed ≠ true := by
        intro hclosed
        simp [(h.drained hclosed).2] at herrors
      exact .of_delivery h hopen hloop hloop ⟨rfl, rfl, rfl⟩
    · rename_i hloop herrors
      split at hst <;> cases hst
      exact .of_return h hloop rfl
    · cases hst
  | takeTimer =>
    simp only [step] at hst
    split at hst
    · rename_i hloop
      split at hst
      · rename_i hfired
        cases hst
        refine .of_move h (by simp [hloop]) (by simp) ⟨rfl, rfl, rfl⟩ h.drained (fun _ _ => rfl) ?_
        intro _
        simp [rank, hloop, Action.isControl, hfired.1]
      · cases hst
    · cases hst
  | reloadStep answer =>
    simp only [step] at hst
    split at hst
    · rename_i o k hloop
      cases hst
      refine .of_move h (by simp [hloop]) (by simp) ⟨rfl, rfl, rfl⟩ h.drained
        (fun _ _ => h.reloading _ hloop) ?_
      intro _
      simp [rank, hloop, Action.isControl]
    · cases hst
  | endReload =>
    simp only [step] at hst
    split at hst
    · rename_i hloop
      cases hst
      refine .of_move h (by simp [hloop]) (by simp) ⟨rfl, rfl, rfl⟩ h.drained (by simp) ?_
      intro _
      simp [rank, hloop, Action.isControl, h.reloading _ hloop]
    · cases hst
  | stopTimer =>
    simp only [step] at hst
    split at hst
    · rename_i hloop
      cases hst
      refine .of_move h (by simp [hloop]) (by simp) ⟨rfl, rfl, rfl⟩ h.drained (by simp) ?_
      intro _
      simp [rank, hloop, Action.isControl]
    · cases hst
  | closeDone =>
    simp only [step] at hst
    split at hst
    · rename_i hloop
      cases hst
      exact .of_exit h hloop
    · cases hst
  | _ => cases ha

theorem Inv.step (h : Inv s) (hst : step env s a = some s') : Inv s' := by
  cases ha : a.isLoop with
  | true => exact (loopStep h ha hst).inv
  | false => exact h.step_not_loop ha hst

end Steps

section Runs

variable {env : Env} {s s' : State M} {as bs : List (Action M)}

theorem inv_run (h : run (step env) init as = some s) : Inv s := by
  refine run_invariant (fun _ _ _ => Inv.step) ?_ h
  exact ⟨.inr ⟨by simp [init], rfl⟩, by simp [init], by simp [init], by simp [init], by simp [init]⟩

theorem run_of_exited (hinv : Inv s) (hexited : s.loop = .exited)
    (h : run (step env) s bs = some s') :
    s'.loop = .exited ∧ s'.log = s.log ∧ ∀ a ∈ bs, a.isLoop = false := by
  induction bs generalizing s with
  | nil =>
    obtain rfl := Option.some.inj h
    exact ⟨hexited, rfl, by simp⟩
  | cons a bs ih =>
    rw [run_cons, Option.bind_eq_some_iff] at h
    obtain ⟨s₁, hst, h⟩ := h
    have ha : a.isLoop = false := by
      cases ha : a.isLoop with
      | true => exact absurd hexited (loopStep hinv ha hst).running
      | false => rfl
    obtain ⟨hloop, -, -, hlog, -⟩ := of_not_loop ha hst
    obtain ⟨h₁, h₂, h₃⟩ := ih (hinv.step hst) (hloop.trans hexited) h
    exact ⟨h₁, h₂.trans hlog, List.forall_mem_cons.mpr ⟨ha, h₃⟩⟩

/-- After the fsnotify watcher is closed, the goroutine takes no more steps outside `reload` than
its rank. -/
theorem run_of_closed (hinv : Inv s) (hclosed : s.closed = true)
    (h : run (step env) s bs = some s') :
    s'.closed = true ∧ bs.countP Action.isControl + rank s' ≤ rank s := by
  induction bs generalizing s with
  | nil =>
    obtain rfl := Option.some.inj h
    exact ⟨hclosed, by simp⟩
  | cons a bs ih =>
    rw [run_cons, Option.bind_eq_some_iff] at h
    obtain ⟨s₁, hst, h⟩ := h
    have hstep : s₁.closed = true ∧
        if a.isControl then rank s₁ < rank s else rank s₁ = rank s := by
      cases ha : a.isLoop with
      | true =>
        have hl := loopStep hinv ha hst
        exact ⟨hl.closed.trans hclosed, hl.nearer hclosed⟩
      | false =>
        obtain ⟨hloop, htimer, -, -, hkeep⟩ := of_not_loop ha hst
        have hcontrol : a.isControl = false := by
          cases a <;> first | rfl | cases ha
        rw [hcontrol]
        exact ⟨hkeep hclosed, by simp [rank, hloop, htimer]⟩
    obtain ⟨hclosed', hle⟩ := ih (hinv.step hst) hstep.1 h
    refine ⟨hclosed', ?_⟩
    rw [List.countP_cons]
    have hrank := hstep.2
    cases hcontrol : a.isControl with
    | true =>
      simp only [hcontrol, if_true] at hrank ⊢
      omega
    | false =>
      simp only [hcontrol, Bool.false_eq_true, if_false] at hrank ⊢
      omega

def anyAnswer : (o : Op M) → Ret o
  | .readFile => .error ⟨[]⟩
  | .loadConfig _ _ => .error ⟨[]⟩
  | .loadHash => none
  | .loadMethods => []
  | .evaluate _ => .panicked []
  | .swap _ | .storeHash _ | .addSuccess | .addError | .addCount | .audit _
  | .setConfigVersion _ => ()

/-- After the fsnotify watcher is closed, the goroutine waits for nothing until it has exited. -/
theorem exists_step_of_closed (hinv : Inv s) (hclosed : s.closed = true)
    (hrunning : s.loop ≠ .exited) :
    ∃ a, a.isLoop = true ∧ (step env s a).isSome = true ∧
      ((∀ rest, s.loop ≠ .reloading rest) → a.isControl = true) := by
  cases hloop : s.loop with
  | starting => exact ⟨.start, rfl, by simp [step, hloop], fun _ => rfl⟩
  | selecting =>
    exact ⟨.takeEvent, rfl, by simp [step, hloop, (hinv.drained hclosed).1, hclosed], fun _ => rfl⟩
  | reloading rest =>
    cases rest with
    | ret u => exact ⟨.endReload, rfl, by simp [step, hloop], fun _ => rfl⟩
    | call o k =>
      exact ⟨.reloadStep anyAnswer, rfl, by simp [step, hloop], fun hnot => absurd rfl (hnot _)⟩
  | returning => exact ⟨.stopTimer, rfl, by simp [step, hloop], fun _ => rfl⟩
  | closing => exact ⟨.closeDone, rfl, by simp [step, hloop], fun _ => rfl⟩
  | exited => exact absurd hloop hrunning

theorem rank_le (s : State M) : rank s ≤ 6 := by
  unfold rank
  split
  all_goals first | omega | split <;> omega

/-- `Stop` is a barrier. In every run `done` is closed at most once, and exactly once when a call
has returned; from then on the goroutine takes no step, so that nothing is reloaded or swapped. A
call that has closed the fsnotify watcher finds `done` closed, or a goroutine that has something to
do and leaves after at most six steps outside `reload`. -/
theorem stop_is_barrier (h : run (step env) init as = some s) :
    s.doneCloses ≤ 1 ∧
      (∀ i : ℕ, s.stops[i]? = some .returned → s.doneCloses = 1 ∧
        ∀ bs s', run (step env) s bs = some s' →
          s'.doneCloses = 1 ∧ s'.log = s.log ∧ ∀ a ∈ bs, a.isLoop = false) ∧
      (∀ i : ℕ, s.stops[i]? = some .called → (step env s (.closeWatcher i)).isSome) ∧
      ∀ i : ℕ, s.stops[i]? = some .waiting → ∀ bs s', run (step env) s bs = some s' →
        bs.countP Action.isControl ≤ 6 ∧
          if s'.doneCloses = 1 then s'.stops[i]? = some .waiting →
            (step env s' (.awaitDone i)).isSome
          else ∃ a, a.isLoop = true ∧ (step env s' a).isSome ∧
            ((∀ rest, s'.loop ≠ .reloading rest) → a.isControl = true) := by
  have hinv := inv_run h
  refine ⟨?_, ?_, ?_, ?_⟩
  · rcases hinv.exited with ⟨-, hone⟩ | ⟨-, hzero⟩
    · omega
    · omega
  · intro i hi
    have hone := hinv.returned i hi
    have hexited : s.loop = .exited := by
      rcases hinv.exited with hexited | ⟨-, hzero⟩
      · exact hexited.1
      · omega
    refine ⟨hone, ?_⟩
    intro bs s' hrun
    obtain ⟨hexited', hlog, hloop⟩ := run_of_exited hinv hexited hrun
    have hinv' : Inv s' := run_invariant (fun _ _ _ => Inv.step) hinv hrun
    rcases hinv'.exited with ⟨-, hone'⟩ | ⟨hrunning, -⟩
    · exact ⟨hone', hlog, hloop⟩
    · exact absurd hexited' hrunning
  · intro i hi
    simp [step, hi]
  · intro i hi bs s' hrun
    have hinv' : Inv s' := run_invariant (fun _ _ _ => Inv.step) hinv hrun
    obtain ⟨hclosed, hcount⟩ := run_of_closed hinv (hinv.waiting i hi) hrun
    have hrank := rank_le s
    refine ⟨by omega, ?_⟩
    split
    · rename_i hone
      intro hi'
      simp [step, hi', hone]
    · rename_i hnot
      refine exists_step_of_closed hinv' hclosed ?_
      rcases hinv'.exited with ⟨-, hone⟩ | ⟨hrunning, -⟩
      · exact absurd hone hnot
      · exact hrunning

end Runs

/-- A write arms the timer, which fires while `Stop` closes the fsnotify watcher: one more reload
is made, which cannot read the file, before the call returns. -/
def lastReload : List (Action Numbered) :=
  [.start, .event .write, .takeEvent, .callStop, .fire, .closeWatcher 0, .takeTimer,
    .reloadStep anyAnswer, .reloadStep anyAnswer, .reloadStep anyAnswer, .reloadStep anyAnswer,
    .reloadStep anyAnswer, .endReload, .takeError, .stopTimer, .closeDone, .awaitDone 0]

theorem stop_is_barrier_lastReload :
    ∃ s : State Numbered, run (step oneMethod) init lastReload = some s ∧
      s.stops = [.returned] ∧ s.log.length = 5 ∧ s.doneCloses = 1 ∧
      ∀ bs s', run (step oneMethod) s bs = some s' →
        s'.doneCloses = 1 ∧ s'.log = s.log ∧ ∀ a ∈ bs, a.isLoop = false := by
  obtain ⟨s, hrun⟩ : ∃ s, run (step oneMethod) init lastReload = some s := ⟨_, rfl⟩
  have hstops : s.stops = [.returned] ∧ s.log.length = 5 := by
    cases hrun
    exact ⟨rfl, rfl⟩
  have hreturned : s.stops[0]? = some .returned := by rw [hstops.1]; rfl
  exact ⟨s, hrun, hstops.1, hstops.2, (stop_is_barrier hrun).2.1 0 hreturned⟩

end TrinoGoway.Reload.Stop
