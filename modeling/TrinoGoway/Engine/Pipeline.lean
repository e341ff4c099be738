import TrinoGoway.Engine.Method

/-! `engine.Pipeline`: the three evaluation loops, and the one specification they meet. -/
namespace TrinoGoway.Engine

open Go Prog

variable {M : Type} [RoutingMethod M]

/-- `engine.Pipeline`, with the method list its atomic pointer holds. -/
structure Pipeline (M : Type) where
  methods : List (Entry M)
  defaultGroup : GoString

def newPipeline (methods : List M) (defaultGroup : GoString) : Pipeline M :=
  ⟨methods.map .live, defaultGroup⟩

/-- `engine.EvalResult`, without the summary that the evaluator adds. -/
structure EvalResult where
  routingGroup : GoString
  methodType : GoString := []
  decided : Bool
  hadError : Bool

namespace Pipeline

variable (p : Pipeline M) (input : RouteInput)

def evaluateFrom : List (Entry M) → Exec M GoString
  | [] => pure p.defaultGroup
  | m :: ms =>
    if m.isDisabled then evaluateFrom ms
    else do
      let (d, err) ← safeEvaluate input m
      if err.isSome then evaluateFrom ms
      else if d.decided then
        if d.routingGroup = [] then pure p.defaultGroup else pure d.routingGroup
      else evaluateFrom ms

def evaluate : Exec M GoString := evaluateFrom p input p.methods

def evaluateResultFrom : Bool → List (Entry M) → Exec M EvalResult
  | hadErr, [] => pure { routingGroup := p.defaultGroup, decided := false, hadError := hadErr }
  | hadErr, m :: ms =>
    if m.isDisabled then evaluateResultFrom hadErr ms
    else do
      let (d, err) ← safeEvaluate input m
      if err.isSome then evaluateResultFrom true ms
      else if d.decided then
        let group := if d.routingGroup = [] then p.defaultGroup else d.routingGroup
        pure
          { routingGroup := group, methodType := m.typeName, decided := true, hadError := hadErr }
      else evaluateResultFrom hadErr ms

def evaluateResult : Exec M EvalResult := evaluateResultFrom p input false p.methods

def evaluateFullFrom : List (Entry M) → Exec M Decision
  | [] => pure { routingGroup := p.defaultGroup, decided := false }
  | m :: ms =>
    if m.isDisabled then evaluateFullFrom ms
    else do
      let (d, err) ← safeEvaluate input m
      if err.isSome then evaluateFullFrom ms
      else if d.decided then
        if d.routingGroup = [] then pure { d with routingGroup := p.defaultGroup } else pure d
      else evaluateFullFrom ms

def evaluateFull : Exec M Decision := evaluateFullFrom p input p.methods

end Pipeline

/-! ### Specification: the first enabled method that decides -/

namespace Ended

def failed : Ended → Bool
  | .returned _ err => err.isSome
  | .panicked _ => true

def decision? : Ended → Option Decision
  | .returned d none => if d.decided then some d else none
  | _ => none

end Ended

section Spec

variable {M : Type} (defaultGroup : GoString) (f : Call M → Ended) (input : RouteInput)

def decides (m : M) : Bool := (f ⟨m, input⟩).decision?.isSome

def passedOver (ms : List M) : List M := ms.takeWhile fun m => !decides f input m

def decider (ms : List M) : Option M := ms.find? (decides f input)

/-- The methods that are called: those up to the first one that decides. -/
def consulted (ms : List M) : List M := passedOver f input ms ++ (decider f input ms).toList

/-- The decision of the first method that decides, with the default group for the empty one;
the default group alone if none decides. -/
def chosen (ms : List M) : Decision :=
  match ms.findSome? fun m => (f ⟨m, input⟩).decision? with
  | some d => if d.routingGroup = [] then { d with routingGroup := defaultGroup } else d
  | none => { routingGroup := defaultGroup }

variable {defaultGroup f input} {m : M} {d : Decision}

section Decides

variable (h : (f ⟨m, input⟩).decision? = some d) (ms : List M)
include h

theorem decider_of_decides : decider f input (m :: ms) = some m := by
  simp [decider, decides, h]

theorem passedOver_of_decides : passedOver f input (m :: ms) = [] := by
  simp [passedOver, decides, h]

theorem consulted_of_decides : consulted f input (m :: ms) = [m] := by
  rw [consulted, passedOver_of_decides h, decider_of_decides h]
  rfl

theorem chosen_of_decides :
    chosen defaultGroup f input (m :: ms) =
      if d.routingGroup = [] then { d with routingGroup := defaultGroup } else d := by
  simp [chosen, h]

end Decides

section Passes

variable (h : (f ⟨m, input⟩).decision? = none) (ms : List M)
include h

theorem decider_of_passes : decider f input (m :: ms) = decider f input ms := by
  simp [decider, decides, h]

theorem passedOver_of_passes : passedOver f input (m :: ms) = m :: passedOver f input ms := by
  simp [passedOver, decides, h]

theorem consulted_of_passes : consulted f input (m :: ms) = m :: consulted f input ms := by
  rw [consulted, passedOver_of_passes h, decider_of_passes h]
  rfl

theorem chosen_of_passes :
    chosen defaultGroup f input (m :: ms) = chosen defaultGroup f input ms := by
  simp [chosen, h]

end Passes

end Spec

theorem chosen_group_eq_nil {M : Type} {defaultGroup : GoString} {f : Call M → Ended}
    {input : RouteInput} {ms : List M}
    (h : (chosen defaultGroup f input ms).routingGroup = []) : defaultGroup = [] := by
  unfold chosen at h
  split at h
  · split at h
    · exact h
    · contradiction
  · exact h

/-- One turn of a loop at an enabled method: its call fails, decides, or defers. -/
inductive Turn (m : M) (r : Ended) : Prop
  | fails (herr : (recovered m r).2.isSome = true) (hf : r.failed = true)
      (hd : r.decision? = none)
  | decides (herr : (recovered m r).2.isSome = false) (hf : r.failed = false)
      (hdec : (recovered m r).1.decided = true) (hd : r.decision? = some (recovered m r).1)
  | defers (herr : (recovered m r).2.isSome = false) (hf : r.failed = false)
      (hdec : (recovered m r).1.decided = false) (hd : r.decision? = none)

theorem turn (m : M) (r : Ended) : Turn m r := by
  cases r with
  | panicked v => exact .fails rfl rfl rfl
  | returned d err =>
    cases err with
    | some e => exact .fails rfl rfl rfl
    | none =>
      cases h : d.decided with
      | false => exact .defers rfl rfl h (if_neg (by simp [h]))
      | true => exact .decides rfl rfl h (if_pos h)

namespace Pipeline

variable (p : Pipeline M) (input : RouteInput) (f : Call M → Ended)

theorem evaluateFrom_spec (ms : List (Entry M)) :
    (p.evaluateFrom input ms).run.eval f =
        .ok (chosen p.defaultGroup f input (enabled ms)).routingGroup ∧
      ((p.evaluateFrom input ms).run.trace f).map Event.op =
        (consulted f input (enabled ms)).map (⟨·, input⟩) := by
  induction ms with
  | nil => exact ⟨rfl, rfl⟩
  | cons m ms ih =>
    cases m with
    | disabled e => exact ih
    | live m =>
      rw [show (p.evaluateFrom input (.live m :: ms)).run = _ from safeEvaluate_live_bind ..]
      rw [enabled_live, eval_call, trace, List.map_cons]
      rcases turn m (f ⟨m, input⟩) with ⟨herr, -, hd⟩ | ⟨herr, -, hdec, hd⟩ | ⟨herr, -, hdec, hd⟩
      · simp only [herr, if_true, chosen_of_passes hd, consulted_of_passes hd, List.map_cons, ih,
          and_self]
      · simp only [herr, hdec, if_true, chosen_of_decides hd, consulted_of_decides hd,
          Bool.false_eq_true, if_false]
        split
        · exact ⟨rfl, rfl⟩
        · exact ⟨rfl, rfl⟩
      · simp only [herr, hdec, chosen_of_passes hd, consulted_of_passes hd, List.map_cons, ih,
          Bool.false_eq_true, if_false, and_self]

/-- What `EvaluateResult` reports, when `hadErr` methods have failed before `ms`. -/
def reported (hadErr : Bool) (ms : List M) : EvalResult where
  routingGroup := (chosen p.defaultGroup f input ms).routingGroup
  methodType := ((decider f input ms).map typeName).getD []
  decided := (decider f input ms).isSome
  hadError := hadErr || (passedOver f input ms).any fun m => (f ⟨m, input⟩).failed

section Reported

variable {p input f} {m : M} {hadErr : Bool} (ms : List M)

theorem reported_of_fails (hf : (f ⟨m, input⟩).failed = true)
    (hd : (f ⟨m, input⟩).decision? = none) :
    p.reported input f hadErr (m :: ms) = p.reported input f true ms := by
  simp only [reported, chosen_of_passes hd, decider_of_passes hd, passedOver_of_passes hd,
    List.any_cons, hf, Bool.true_or, Bool.or_true]

theorem reported_of_defers (hf : (f ⟨m, input⟩).failed = false)
    (hd : (f ⟨m, input⟩).decision? = none) :
    p.reported input f hadErr (m :: ms) = p.reported input f hadErr ms := by
  simp only [reported, chosen_of_passes hd, decider_of_passes hd, passedOver_of_passes hd,
    List.any_cons, hf, Bool.false_or]

theorem reported_of_decides {d : Decision} (hd : (f ⟨m, input⟩).decision? = some d) :
    p.reported input f hadErr (m :: ms) =
      { routingGroup := if d.routingGroup = [] then p.defaultGroup else d.routingGroup
        methodType := typeName m
        decided := true
        hadError := hadErr } := by
  simp only [reported, chosen_of_decides hd, decider_of_decides hd, passedOver_of_decides hd,
    List.any_nil, Bool.or_false]
  split
  · rfl
  · rfl

/-- What is reported depends only on which methods fail, and on the decisions of the others. -/
theorem reported_congr {f' : Call M → Ended} {input' : RouteInput} {ms : List M}
    (hms : ∀ m ∈ ms, (f ⟨m, input⟩).decision? = (f' ⟨m, input'⟩).decision? ∧
      (f ⟨m, input⟩).failed = (f' ⟨m, input'⟩).failed) (hadErr : Bool) :
    p.reported input f hadErr ms = p.reported input' f' hadErr ms ∧
      passedOver f input ms = passedOver f' input' ms := by
  induction ms generalizing hadErr with
  | nil => exact ⟨rfl, rfl⟩
  | cons m ms ih =>
    obtain ⟨⟨hdec, hfail⟩, hrest⟩ := List.forall_mem_cons.mp hms
    cases hd : (f ⟨m, input⟩).decision? with
    | some d =>
      have hd' : (f' ⟨m, input'⟩).decision? = some d := hdec.symm.trans hd
      rw [reported_of_decides _ hd, reported_of_decides _ hd', passedOver_of_decides hd,
        passedOver_of_decides hd']
      exact ⟨rfl, rfl⟩
    | none =>
      have hd' : (f' ⟨m, input'⟩).decision? = none := hdec.symm.trans hd
      rw [passedOver_of_passes hd, passedOver_of_passes hd']
      cases hf : (f ⟨m, input⟩).failed with
      | true =>
        have hf' : (f' ⟨m, input'⟩).failed = true := hfail.symm.trans hf
        obtain ⟨hreported, hpassed⟩ := ih hrest true
        rw [reported_of_fails _ hf hd, reported_of_fails _ hf' hd', hpassed]
        exact ⟨hreported, rfl⟩
      | false =>
        have hf' : (f' ⟨m, input'⟩).failed = false := hfail.symm.trans hf
        obtain ⟨hreported, hpassed⟩ := ih hrest hadErr
        rw [reported_of_defers _ hf hd, reported_of_defers _ hf' hd', hpassed]
        exact ⟨hreported, rfl⟩

end Reported

theorem evaluateResultFrom_spec (hadErr : Bool) (ms : List (Entry M)) :
    (p.evaluateResultFrom input hadErr ms).run.eval f =
        .ok (p.reported input f hadErr (enabled ms)) ∧
      ((p.evaluateResultFrom input hadErr ms).run.trace f).map Event.op =
        (consulted f input (enabled ms)).map (⟨·, input⟩) := by
  induction ms generalizing hadErr with
  | nil =>
    refine ⟨?_, rfl⟩
    simp only [reported, passedOver, enabled_nil, List.takeWhile_nil, List.any_nil, Bool.or_false]
    rfl
  | cons m ms ih =>
    cases m with
    | disabled e => exact ih hadErr
    | live m =>
      rw [show (p.evaluateResultFrom input hadErr (.live m :: ms)).run = _ from
        safeEvaluate_live_bind ..]
      rw [enabled_live, eval_call, trace, List.map_cons]
      rcases turn m (f ⟨m, input⟩) with ⟨herr, hf, hd⟩ | ⟨herr, -, hdec, hd⟩ | ⟨herr, hf, hdec, hd⟩
      · simp only [herr, if_true, reported_of_fails _ hf hd, consulted_of_passes hd, List.map_cons,
          ih, and_self]
      · simp only [herr, hdec, if_true, reported_of_decides _ hd, consulted_of_decides hd,
          Bool.false_eq_true, if_false]
        exact ⟨rfl, rfl⟩
      · simp only [herr, hdec, reported_of_defers _ hf hd, consulted_of_passes hd, List.map_cons,
          ih, Bool.false_eq_true, if_false, and_self]

theorem evaluateFullFrom_spec (ms : List (Entry M)) :
    (p.evaluateFullFrom input ms).run.eval f =
        .ok (chosen p.defaultGroup f input (enabled ms)) ∧
      ((p.evaluateFullFrom input ms).run.trace f).map Event.op =
        (consulted f input (enabled ms)).map (⟨·, input⟩) := by
  induction ms with
  | nil => exact ⟨rfl, rfl⟩
  | cons m ms ih =>
    cases m with
    | disabled e => exact ih
    | live m =>
      rw [show (p.evaluateFullFrom input (.live m :: ms)).run = _ from safeEvaluate_live_bind ..]
      rw [enabled_live, eval_call, trace, List.map_cons]
      rcases turn m (f ⟨m, input⟩) with ⟨herr, -, hd⟩ | ⟨herr, -, hdec, hd⟩ | ⟨herr, -, hdec, hd⟩
      · simp only [herr, if_true, chosen_of_passes hd, consulted_of_passes hd, List.map_cons, ih,
          and_self]
      · simp only [herr, hdec, if_true, chosen_of_decides hd, consulted_of_decides hd,
          Bool.false_eq_true, if_false]
        split
        · exact ⟨rfl, rfl⟩
        · exact ⟨rfl, rfl⟩
      · simp only [herr, hdec, chosen_of_passes hd, consulted_of_passes hd, List.map_cons, ih,
          Bool.false_eq_true, if_false, and_self]

section Performs

variable {P : Call M → Prop} {ms : List (Entry M)}

theorem performs_turn {α : Type} {m : M} {k : Decision × Option GoError → Exec M α}
    (hm : P ⟨m, input⟩) (hk : ∀ d err, (k (d, err)).run.Performs P) :
    (safeEvaluate input (.live m) >>= k).run.Performs P := by
  rw [safeEvaluate_live_bind]
  exact ⟨hm, fun r => hk (recovered m r).1 (recovered m r).2⟩

theorem performs_evaluateFrom (h : ∀ m ∈ enabled ms, P ⟨m, input⟩) :
    (p.evaluateFrom input ms).run.Performs P := by
  induction ms with
  | nil => trivial
  | cons m ms ih =>
    cases m with
    | disabled e => exact ih h
    | live m =>
      rw [enabled_live, List.forall_mem_cons] at h
      refine performs_turn input h.1 ?_
      intro d err
      dsimp only
      split
      · exact ih h.2
      · split
        · split <;> trivial
        · exact ih h.2

theorem performs_evaluateResultFrom {hadErr : Bool} (h : ∀ m ∈ enabled ms, P ⟨m, input⟩) :
    (p.evaluateResultFrom input hadErr ms).run.Performs P := by
  induction ms generalizing hadErr with
  | nil => trivial
  | cons m ms ih =>
    cases m with
    | disabled e => exact ih h
    | live m =>
      rw [enabled_live, List.forall_mem_cons] at h
      refine performs_turn input h.1 ?_
      intro d err
      dsimp only
      split
      · exact ih h.2
      · split
        · trivial
        · exact ih h.2

theorem performs_evaluateFullFrom (h : ∀ m ∈ enabled ms, P ⟨m, input⟩) :
    (p.evaluateFullFrom input ms).run.Performs P := by
  induction ms with
  | nil => trivial
  | cons m ms ih =>
    cases m with
    | disabled e => exact ih h
    | live m =>
      rw [enabled_live, List.forall_mem_cons] at h
      refine performs_turn input h.1 ?_
      intro d err
      dsimp only
      split
      · exact ih h.2
      · split
        · split <;> trivial
        · exact ih h.2

end Performs

def called {α : Type} (x : Exec M α) (f : Call M → Ended) : List M :=
  (x.run.trace f).map fun e => e.op.method

/-- The methods that an evaluation calls, by whichever entry point. -/
def calls : List M :=
  called (p.evaluate input) f ++ called (p.evaluateResult input) f ++
    called (p.evaluateFull input) f

theorem mem_enabled_of_mem_calls {m : M} (h : m ∈ p.calls input f) : m ∈ enabled p.methods := by
  have hcalled : ∀ {α : Type} {x : Exec M α},
      x.run.Performs (fun c => c.method ∈ enabled p.methods) → m ∈ called x f →
      m ∈ enabled p.methods := by
    intro α x hx hm
    obtain ⟨e, he, rfl⟩ := List.mem_map.mp hm
    exact (hx.path (runs_trace f x.run)).1 e he
  rcases List.mem_append.mp h with h | h
  · rcases List.mem_append.mp h with h | h
    · exact hcalled (performs_evaluateFrom p input fun _ hm => hm) h
    · exact hcalled (performs_evaluateResultFrom p input fun _ hm => hm) h
  · exact hcalled (performs_evaluateFullFrom p input fun _ hm => hm) h

/-- The three entry points choose the same group, that of the first enabled method that
decides; they call the methods up to that one and no other, and never panic. -/
theorem entryPoints_agree :
    ((p.evaluate input).run.eval f =
        .ok (chosen p.defaultGroup f input (enabled p.methods)).routingGroup ∧
      (p.evaluateResult input).run.eval f =
        .ok (p.reported input f false (enabled p.methods)) ∧
      (p.evaluateFull input).run.eval f =
        .ok (chosen p.defaultGroup f input (enabled p.methods))) ∧
    ((p.evaluate input).run.trace f).map Event.op =
        (consulted f input (enabled p.methods)).map (⟨·, input⟩) ∧
      ((p.evaluateResult input).run.trace f).map Event.op =
        (consulted f input (enabled p.methods)).map (⟨·, input⟩) ∧
      ((p.evaluateFull input).run.trace f).map Event.op =
        (consulted f input (enabled p.methods)).map (⟨·, input⟩) := by
  have h₁ := evaluateFrom_spec p input f p.methods
  have h₂ := evaluateResultFrom_spec p input f false p.methods
  have h₃ := evaluateFullFrom_spec p input f p.methods
  exact ⟨⟨h₁.1, h₂.1, h₃.1⟩, h₁.2, h₂.2, h₃.2⟩

end Pipeline

end TrinoGoway.Engine
