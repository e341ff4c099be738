import TrinoGoway.Lib.Prog
import Mathlib.Data.List.Induction

/-! Interleaved runs of a family of programs over one shared state. Each operation is one
atomic step; `exec o s r s'` says that performing `o` in state `s` may answer `r` and
leave `s'`. An operation that no `exec` step allows is blocked. -/
namespace Interleave

open Prog

variable {Op : Type} {Ret : Op → Type} {α S ι : Type}

/-- The effect of a sequence of events on the shared state alone. -/
inductive Effect (exec : (o : Op) → S → Ret o → S → Prop) : S → List (Event Ret) → S → Prop
  | nil (s : S) : Effect exec s [] s
  | snoc {s s' s'' : S} {l : List (Event Ret)} {e : Event Ret} :
      Effect exec s l s' → exec e.op s' e.ans s'' → Effect exec s (l ++ [e]) s''

/-- Runs of the threads `P`, from shared state `s`: any thread may take the next step. -/
inductive Steps [DecidableEq ι] (exec : (o : Op) → S → Ret o → S → Prop) (s : S)
    (P : ι → Prog Ret α) : List (ι × Event Ret) → S → (ι → Prog Ret α) → Prop
  | start : Steps exec s P [] s P
  | step {t : List (ι × Event Ret)} {s' s'' : S} {P' : ι → Prog Ret α} {i : ι} {o : Op}
      {k : Ret o → Prog Ret α} {r : Ret o} :
      Steps exec s P t s' P' → P' i = call o k → exec o s' r s'' →
        Steps exec s P (t ++ [(i, ⟨o, r⟩)]) s'' (Function.update P' i (k r))

def localTrace [DecidableEq ι] (i : ι) (t : List (ι × Event Ret)) : List (Event Ret) :=
  (t.filter fun x => x.1 = i).map Prod.snd

section LocalTrace

variable [DecidableEq ι] (i : ι) (t u : List (ι × Event Ret))

@[simp] theorem localTrace_nil : localTrace i ([] : List (ι × Event Ret)) = [] := rfl

@[simp] theorem localTrace_append :
    localTrace i (t ++ u) = localTrace i t ++ localTrace i u := by
  simp [localTrace]

@[simp] theorem localTrace_cons_self (e : Event Ret) :
    localTrace i ((i, e) :: t) = e :: localTrace i t := by
  simp [localTrace]

theorem localTrace_cons_ne {j : ι} (hj : j ≠ i) (e : Event Ret) :
    localTrace i ((j, e) :: t) = localTrace i t := by
  simp [localTrace, hj]

theorem mem_localTrace {i : ι} {t : List (ι × Event Ret)} {e : Event Ret} :
    e ∈ localTrace i t ↔ (i, e) ∈ t := by
  simp [localTrace]

/-- A cut of a thread's events comes from a cut of the whole trace. -/
theorem localTrace_split {i : ι} {t : List (ι × Event Ret)} {h₁ h₂ : List (Event Ret)}
    {e : Event Ret} (ht : localTrace i t = h₁ ++ e :: h₂) :
    ∃ u v, t = u ++ (i, e) :: v ∧ localTrace i u = h₁ ∧ localTrace i v = h₂ := by
  induction t generalizing h₁ with
  | nil => simp at ht
  | cons x t ih =>
    obtain ⟨j, f⟩ := x
    by_cases hj : j = i
    · subst hj
      rw [localTrace_cons_self] at ht
      cases h₁ with
      | nil =>
        obtain ⟨rfl, rfl⟩ := List.cons.inj ht
        exact ⟨[], t, rfl, rfl, rfl⟩
      | cons g h₁ =>
        obtain ⟨rfl, ht'⟩ := List.cons.inj ht
        obtain ⟨u, v, rfl, hu, hv⟩ := ih ht'
        exact ⟨(j, f) :: u, v, rfl, by simp [hu], hv⟩
    · rw [localTrace_cons_ne _ _ hj] at ht
      obtain ⟨u, v, rfl, hu, hv⟩ := ih ht
      exact ⟨(j, f) :: u, v, rfl, by rw [localTrace_cons_ne _ _ hj, hu], hv⟩

/-- The only step of a thread in a run is where the run can be cut at that thread. -/
theorem eq_of_cut_at_last {i : ι} {t u v : List (ι × Event Ret)} {e e' : Event Ret}
    (ht : localTrace i t = []) (h : t ++ [(i, e)] = u ++ (i, e') :: v) : u = t := by
  induction v using List.reverseRecOn with
  | nil => exact (List.append_inj' h rfl).1.symm
  | append_singleton v x _ =>
    rw [← List.cons_append, ← List.append_assoc] at h
    obtain ⟨rfl, -⟩ := List.append_inj' h rfl
    simp at ht

end LocalTrace

namespace Effect

variable {exec : (o : Op) → S → Ret o → S → Prop} {s s' s'' : S} {l l' : List (Event Ret)}

theorem of_append (h : Effect exec s (l ++ l') s'') :
    ∃ s', Effect exec s l s' ∧ Effect exec s' l' s'' := by
  induction l' using List.reverseRecOn generalizing s'' with
  | nil => exact ⟨s'', by simpa using h, .nil _⟩
  | append_singleton l' e ih =>
    rw [← List.append_assoc] at h
    generalize hl : l ++ l' ++ [e] = m at h
    cases h with
    | nil => simp at hl
    | snoc h' he =>
      obtain ⟨rfl, rfl⟩ := List.append_inj' hl rfl |>.imp_right List.singleton_inj.mp
      obtain ⟨s₁, hs₁, hs₂⟩ := ih h'
      exact ⟨s₁, hs₁, hs₂.snoc he⟩

theorem of_append_cons {e : Event Ret} (h : Effect exec s (l ++ e :: l') s'') :
    ∃ s₁ s₂, Effect exec s l s₁ ∧ exec e.op s₁ e.ans s₂ ∧ Effect exec s₂ l' s'' := by
  rw [← List.singleton_append, ← List.append_assoc] at h
  obtain ⟨s₂, h₂, h'⟩ := of_append h
  generalize hl : l ++ [e] = m at h₂
  cases h₂ with
  | nil => simp at hl
  | snoc h₁ he =>
    obtain ⟨rfl, rfl⟩ := List.append_inj' hl rfl |>.imp_right List.singleton_inj.mp
    exact ⟨_, s₂, h₁, he, h'⟩

/-- An invariant of the shared state that every event of the sequence keeps. -/
theorem invariant {I : S → Prop} (h : Effect exec s l s') (hs : I s)
    (hstep : ∀ e ∈ l, ∀ s₁ s₂, I s₁ → exec e.op s₁ e.ans s₂ → I s₂) : I s' := by
  induction h with
  | nil => exact hs
  | snoc h' he ih =>
    have hI := ih fun e' he' => hstep e' (List.mem_append_left _ he')
    exact hstep _ (by simp) _ _ hI he

end Effect

section Play

variable [DecidableEq ι]

/-- Let thread `i` take a step, if it is neither finished nor blocked in `env`. -/
def play (env : (o : Op) → S → Option (Ret o × S))
    (x : List (ι × Event Ret) × S × (ι → Prog Ret α)) (i : ι) :
    List (ι × Event Ret) × S × (ι → Prog Ret α) :=
  match x.2.2 i with
  | ret _ => x
  | call o k =>
    match env o x.2.1 with
    | none => x
    | some (r, s) => (x.1 ++ [(i, ⟨o, r⟩)], s, Function.update x.2.2 i (k r))

def playAll (env : (o : Op) → S → Option (Ret o × S)) (s : S) (P : ι → Prog Ret α)
    (schedule : List ι) : List (ι × Event Ret) × S × (ι → Prog Ret α) :=
  schedule.foldl (play env) ([], s, P)

/-- Playing a schedule gives a run, if the environment only does what `exec` allows. -/
theorem steps_playAll {exec : (o : Op) → S → Ret o → S → Prop}
    {env : (o : Op) → S → Option (Ret o × S)}
    (henv : ∀ o s r s', env o s = some (r, s') → exec o s r s') (s : S) (P : ι → Prog Ret α)
    (schedule : List ι) :
    Steps exec s P (playAll env s P schedule).1 (playAll env s P schedule).2.1
      (playAll env s P schedule).2.2 := by
  induction schedule using List.reverseRecOn with
  | nil => exact .start
  | append_singleton is i ih =>
    unfold playAll at ih ⊢
    rw [List.foldl_append, List.foldl_cons, List.foldl_nil]
    generalize is.foldl (play env) ([], s, P) = x at ih ⊢
    unfold play
    cases hi : x.2.2 i with
    | ret a => exact ih
    | call o k =>
      cases he : env o x.2.1 with
      | none =>
        simp only [he]
        exact ih
      | some rs =>
        simp only [he]
        exact ih.step hi (henv o _ _ _ he)

end Play

namespace Steps

variable [DecidableEq ι] {exec : (o : Op) → S → Ret o → S → Prop} {s s' : S}
  {P P' : ι → Prog Ret α} {t : List (ι × Event Ret)}

theorem path (h : Steps exec s P t s' P') (i : ι) : Path (P i) (localTrace i t) (P' i) := by
  induction h with
  | start => exact .nil _
  | @step t s₁ s₂ P₁ j o k r _ hj _ ih =>
    by_cases hij : j = i
    · subst hij
      rw [hj] at ih
      simpa using ih.snoc r
    · rw [localTrace_append, localTrace_cons_ne _ _ hij, localTrace_nil, List.append_nil,
        Function.update_of_ne (Ne.symm hij)]
      exact ih

theorem effect (h : Steps exec s P t s' P') : Effect exec s (t.map Prod.snd) s' := by
  induction h with
  | start => exact .nil _
  | step _ _ he ih =>
    rw [List.map_append]
    exact ih.snoc he

theorem append {s'' : S} {P'' : ι → Prog Ret α} {u : List (ι × Event Ret)}
    (h₁ : Steps exec s P t s' P') (h₂ : Steps exec s' P' u s'' P'') :
    Steps exec s P (t ++ u) s'' P'' := by
  induction h₂ with
  | start => simpa using h₁
  | step _ hi he ih =>
    rw [← List.append_assoc]
    exact ih.step hi he

theorem of_append_cons {u v : List (ι × Event Ret)} {x : ι × Event Ret}
    (h : Steps exec s P (u ++ x :: v) s' P') :
    ∃ s₁ P₁ s₂, Steps exec s P u s₁ P₁ ∧ exec x.2.op s₁ x.2.ans s₂ := by
  induction v using List.reverseRecOn generalizing s' P' with
  | nil =>
    generalize hl : u ++ [x] = l at h
    cases h with
    | start => simp at hl
    | step h' _ he =>
      obtain ⟨rfl, rfl⟩ := List.append_inj' hl rfl |>.imp_right List.singleton_inj.mp
      exact ⟨_, _, _, h', he⟩
  | append_singleton v y ih =>
    rw [← List.cons_append, ← List.append_assoc] at h
    generalize hl : u ++ x :: v ++ [y] = l at h
    cases h with
    | start => simp at hl
    | step h' _ _ =>
      obtain ⟨rfl, -⟩ := List.append_inj' hl rfl
      exact ih h'

end Steps

end Interleave
