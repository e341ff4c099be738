import Mathlib.Data.List.Basic

/-! Programs as trees of calls. A program either returns or performs an operation and
continues with the answer; what an operation does is left to whoever runs the program. -/

/-- A program over operations `o : Op`, each answered by a value of type `Ret o`. -/
inductive Prog {Op : Type} (Ret : Op → Type) (α : Type) : Type
  | ret (a : α)
  | call (o : Op) (k : Ret o → Prog Ret α)

namespace Prog

variable {Op : Type} {Ret : Op → Type} {α β : Type}

protected def bind : Prog Ret α → (α → Prog Ret β) → Prog Ret β
  | ret a, f => f a
  | call o k, f => call o fun r => (k r).bind f

instance : Monad (Prog Ret) where
  pure := ret
  bind := Prog.bind

def perform (o : Op) : Prog Ret (Ret o) := call o ret

@[simp] theorem ret_bind (a : α) (f : α → Prog Ret β) : (ret a >>= f) = f a := rfl

@[simp] theorem pure_bind' (a : α) (f : α → Prog Ret β) : ((pure a : Prog Ret α) >>= f) = f a := rfl

@[simp] theorem call_bind (o : Op) (k : Ret o → Prog Ret α) (f : α → Prog Ret β) :
    (call o k >>= f) = call o fun r => k r >>= f := rfl

@[simp] theorem perform_bind (o : Op) (f : Ret o → Prog Ret β) :
    (perform o >>= f) = call o f := rfl

/-- An operation together with the answer it got. -/
structure Event {Op : Type} (Ret : Op → Type) where
  op : Op
  ans : Ret op

abbrev Oracle {Op : Type} (Ret : Op → Type) := List (Event Ret) → (o : Op) → Ret o

/-- Run to the end; the events performed so far are in `h`, the oldest first. -/
def run (ora : Oracle Ret) : Prog Ret α → List (Event Ret) → List (Event Ret) × α
  | ret a, h => (h, a)
  | call o k, h => (k (ora h o)).run ora (h ++ [⟨o, ora h o⟩])

def eval (f : (o : Op) → Ret o) : Prog Ret α → α
  | ret a => a
  | call o k => (k (f o)).eval f

section Eval

variable (f : (o : Op) → Ret o)

@[simp] theorem eval_pure (a : α) : (pure a : Prog Ret α).eval f = a := rfl

@[simp] theorem eval_call (o : Op) (k : Ret o → Prog Ret α) :
    (call o k).eval f = (k (f o)).eval f := rfl

@[simp] theorem eval_perform (o : Op) : (perform o).eval f = f o := rfl

@[simp] theorem eval_bind (p : Prog Ret α) (g : α → Prog Ret β) :
    (p >>= g).eval f = (g (p.eval f)).eval f := by
  induction p with
  | ret a => rfl
  | call o k ih => exact ih (f o)

end Eval

/-- `Path p h p'`: answering the calls of `p` as in `h` leaves `p'` to be done. -/
inductive Path : Prog Ret α → List (Event Ret) → Prog Ret α → Prop
  | nil (p : Prog Ret α) : Path p [] p
  | cons {o : Op} {k : Ret o → Prog Ret α} (r : Ret o) {h : List (Event Ret)} {p' : Prog Ret α} :
      Path (k r) h p' → Path (call o k) (⟨o, r⟩ :: h) p'

/-- `h` is a complete execution of `p` with result `a`. -/
abbrev Runs (p : Prog Ret α) (h : List (Event Ret)) (a : α) : Prop := Path p h (ret a)

namespace Path

variable {p p' p'' : Prog Ret α} {h h' : List (Event Ret)}

theorem append (h₁ : Path p h p') (h₂ : Path p' h' p'') : Path p (h ++ h') p'' := by
  induction h₁ with
  | nil => exact h₂
  | cons r _ ih => exact .cons r (ih h₂)

theorem snoc {o : Op} {k : Ret o → Prog Ret α} (hp : Path p h (call o k)) (r : Ret o) :
    Path p (h ++ [⟨o, r⟩]) (k r) :=
  hp.append (.cons r (.nil _))

theorem of_ret {a : α} (hp : Path (ret a) h p') : h = [] ∧ p' = ret a := by
  cases hp
  exact ⟨rfl, rfl⟩

theorem runs_ret {a b : α} (hp : Runs (ret a) h b) : h = [] ∧ b = a := by
  cases hp
  exact ⟨rfl, rfl⟩

theorem of_call {o : Op} {k : Ret o → Prog Ret α} (hp : Path (call o k) h p') :
    (h = [] ∧ p' = call o k) ∨ ∃ r t, h = ⟨o, r⟩ :: t ∧ Path (k r) t p' := by
  cases hp with
  | nil => exact Or.inl ⟨rfl, rfl⟩
  | cons r ht => exact Or.inr ⟨r, _, rfl, ht⟩

theorem bind (hp : Path p h p') (f : α → Prog Ret β) : Path (p >>= f) h (p' >>= f) := by
  induction hp with
  | nil => exact .nil _
  | cons r _ ih => exact .cons r ih

theorem unique_continuation (h₁ : Path p h p') (h₂ : Path p (h ++ h') p'') : Path p' h' p'' := by
  induction h₁ with
  | nil => exact h₂
  | cons r _ ih =>
    cases h₂ with
    | cons _ ht => exact ih ht

theorem of_append (hp : Path p (h ++ h') p'') : ∃ p', Path p h p' ∧ Path p' h' p'' := by
  induction h generalizing p with
  | nil => exact ⟨p, .nil p, hp⟩
  | cons e h ih =>
    cases hp with
    | cons r ht =>
      obtain ⟨p', hp', hrest⟩ := ih ht
      exact ⟨p', .cons r hp', hrest⟩

/-- A path through a sequence is still in the first part, or has finished it. -/
theorem of_bind {q : Prog Ret β} {f : α → Prog Ret β} (hp : Path (p >>= f) h q) :
    (∃ p₁, Path p h p₁ ∧ q = p₁ >>= f) ∨
      ∃ h₁ h₂ a, h = h₁ ++ h₂ ∧ Runs p h₁ a ∧ Path (f a) h₂ q := by
  induction p generalizing h with
  | ret a => exact Or.inr ⟨[], h, a, rfl, .nil _, hp⟩
  | call o k ih =>
    obtain ⟨rfl, rfl⟩ | ⟨r, t, rfl, ht⟩ := of_call hp
    · exact Or.inl ⟨call o k, .nil _, rfl⟩
    · obtain ⟨p₁, hp₁, rfl⟩ | ⟨h₁, h₂, a, rfl, hr, hf⟩ := ih r ht
      · exact Or.inl ⟨p₁, .cons r hp₁, rfl⟩
      · exact Or.inr ⟨⟨o, r⟩ :: h₁, h₂, a, rfl, .cons r hr, hf⟩

/-- Complete executions of a sequence split at the point where the first part ends. -/
theorem runs_bind {f : α → Prog Ret β} {b : β} (hp : Runs (p >>= f) h b) :
    ∃ h₁ h₂ a, h = h₁ ++ h₂ ∧ Runs p h₁ a ∧ Runs (f a) h₂ b := by
  induction p generalizing h with
  | ret a => exact ⟨[], h, a, rfl, .nil _, hp⟩
  | call o k ih =>
    obtain ⟨_, hq⟩ | ⟨r, t, rfl, ht⟩ := of_call hp
    · cases hq
    · obtain ⟨h₁, h₂, a, rfl, hr, hf⟩ := ih r ht
      exact ⟨⟨o, r⟩ :: h₁, h₂, a, rfl, .cons r hr, hf⟩

end Path

/-- Run each operation as a program over other operations. -/
def interp {Op' : Type} {Ret' : Op' → Type} (g : (o : Op) → Prog Ret' (Ret o)) :
    Prog Ret α → Prog Ret' α
  | ret a => ret a
  | call o k => g o >>= fun r => (k r).interp g

theorem bind_bind {γ : Type} (p : Prog Ret α) (f : α → Prog Ret β) (g : β → Prog Ret γ) :
    (p >>= f) >>= g = p >>= fun a => f a >>= g := by
  induction p with
  | ret a => rfl
  | call o k ih => exact congrArg (call o) (funext ih)

theorem interp_bind {Op' : Type} {Ret' : Op' → Type} (g : (o : Op) → Prog Ret' (Ret o))
    (p : Prog Ret α) (f : α → Prog Ret β) :
    (p >>= f).interp g = p.interp g >>= fun a => (f a).interp g := by
  induction p with
  | ret a => rfl
  | call o k ih =>
    have hk : (fun r => (k r >>= f).interp g) =
        fun r => (k r).interp g >>= fun a => (f a).interp g := funext ih
    change (g o >>= fun r => (k r >>= f).interp g) = (g o >>= fun r => (k r).interp g) >>= _
    rw [bind_bind, hk]

/-- Every call on every path satisfies `P`. -/
def Performs (P : Op → Prop) : Prog Ret α → Prop
  | ret _ => True
  | call o k => P o ∧ ∀ r, (k r).Performs P

section Performs

variable {P Q : Op → Prop}

@[simp] theorem performs_ret (a : α) : (ret a : Prog Ret α).Performs P := trivial

@[simp] theorem performs_pure (a : α) : (pure a : Prog Ret α).Performs P := trivial

@[simp] theorem performs_call (o : Op) (k : Ret o → Prog Ret α) :
    (call o k).Performs P ↔ P o ∧ ∀ r, (k r).Performs P := Iff.rfl

@[simp] theorem performs_perform (o : Op) : (perform o : Prog Ret (Ret o)).Performs P ↔ P o := by
  simp [perform]

theorem Performs.bind {p : Prog Ret α} {f : α → Prog Ret β} (hp : p.Performs P)
    (hf : ∀ a, (f a).Performs P) : (p >>= f).Performs P := by
  induction p with
  | ret a => exact hf a
  | call o k ih => exact ⟨hp.1, fun r => ih r (hp.2 r)⟩

theorem Performs.mono {p : Prog Ret α} (hp : p.Performs P) (hPQ : ∀ o, P o → Q o) :
    p.Performs Q := by
  induction p with
  | ret a => trivial
  | call o k ih => exact ⟨hPQ o hp.1, fun r => ih r (hp.2 r)⟩

theorem Performs.interp {Op' : Type} {Ret' : Op' → Type} {Q : Op' → Prop}
    {g : (o : Op) → Prog Ret' (Ret o)} {p : Prog Ret α} (hp : p.Performs P)
    (hg : ∀ o, P o → (g o).Performs Q) : (p.interp g).Performs Q := by
  induction p with
  | ret a => trivial
  | call o k ih => exact (hg o hp.1).bind fun r => ih r (hp.2 r)

theorem Performs.path {p p' : Prog Ret α} {h : List (Event Ret)} (hp : p.Performs P)
    (hh : Path p h p') : (∀ e ∈ h, P e.op) ∧ p'.Performs P := by
  induction hh with
  | nil => exact ⟨by simp, hp⟩
  | cons r _ ih =>
    obtain ⟨hP, hk⟩ := hp
    obtain ⟨hmem, hend⟩ := ih (hk r)
    exact ⟨by simpa using ⟨hP, hmem⟩, hend⟩

/-- An operation that the first part does not perform comes after the end of the first part. -/
theorem Performs.of_bind_cons {p : Prog Ret α} {f : α → Prog Ret β} {q : Prog Ret β}
    {h₁ h₂ : List (Event Ret)} {e : Event Ret} (hp : p.Performs P) (he : ¬ P e.op)
    (hh : Path (p >>= f) (h₁ ++ e :: h₂) q) :
    ∃ h₃ h₄ a, h₁ = h₃ ++ h₄ ∧ Runs p h₃ a ∧ Path (f a) (h₄ ++ e :: h₂) q := by
  rcases hh.of_bind with ⟨p₁, hp₁, -⟩ | ⟨h₃, h₄, a, heq, hr, hf⟩
  · exact absurd ((hp.path hp₁).1 e (by simp)) he
  · rcases List.append_eq_append_iff.mp heq with ⟨c, hc, hc'⟩ | ⟨c, hc, hc'⟩
    · cases c with
      | nil =>
        refine ⟨h₃, [], a, by simpa using hc.symm, hr, ?_⟩
        rw [List.nil_append, hc', List.nil_append]
        exact hf
      | cons e' c =>
        obtain ⟨rfl, -⟩ := List.cons.inj hc'
        exact absurd ((hp.path hr).1 e (by simp [hc])) he
    · refine ⟨h₃, c, a, hc, hr, ?_⟩
      rw [← hc']
      exact hf

end Performs

/-- The events of every path, complete or not, are in `T`. -/
def Emits (T : List (Event Ret) → Prop) (p : Prog Ret α) : Prop :=
  ∀ ⦃h : List (Event Ret)⦄ ⦃p' : Prog Ret α⦄, Path p h p' → T h

section Emits

variable {T : List (Event Ret) → Prop}

theorem Emits.bind (happend : ∀ h h', T h → T h' → T (h ++ h')) {p : Prog Ret α}
    {f : α → Prog Ret β} (hp : p.Emits T) (hf : ∀ a, (f a).Emits T) : (p >>= f).Emits T := by
  intro h q hq
  obtain ⟨p₁, hp₁, -⟩ | ⟨h₁, h₂, a, rfl, hr, ht⟩ := hq.of_bind
  · exact hp hp₁
  · exact happend h₁ h₂ (hp hr) (hf a ht)

theorem Performs.emits {P : Op → Prop} {p : Prog Ret α} (hp : p.Performs P)
    (hT : ∀ h, (∀ e ∈ h, P e.op) → T h) : p.Emits T :=
  fun h _ hh => hT h (hp.path hh).1

end Emits

def trace (f : (o : Op) → Ret o) : Prog Ret α → List (Event Ret)
  | ret _ => []
  | call o k => ⟨o, f o⟩ :: (k (f o)).trace f

section Trace

variable (f : (o : Op) → Ret o)

@[simp] theorem trace_pure (a : α) : (pure a : Prog Ret α).trace f = [] := rfl

theorem trace_bind (p : Prog Ret α) (g : α → Prog Ret β) :
    (p >>= g).trace f = p.trace f ++ (g (p.eval f)).trace f := by
  induction p with
  | ret a => rfl
  | call o k ih => exact congrArg (⟨o, f o⟩ :: ·) (ih (f o))

theorem runs_trace (p : Prog Ret α) : Runs p (p.trace f) (p.eval f) := by
  induction p with
  | ret a => exact .nil _
  | call o k ih => exact .cons _ (ih (f o))

end Trace

/-- Every result of `p` satisfies `Q`, if every answer is one that `ok` permits. -/
def wp (ok : Event Ret → Prop) (Q : α → Prop) : Prog Ret α → Prop
  | ret a => Q a
  | call o k => ∀ r, ok ⟨o, r⟩ → (k r).wp ok Q

section Wp

variable {ok : Event Ret → Prop} {Q Q' : α → Prop}

@[simp] theorem wp_pure (a : α) : (pure a : Prog Ret α).wp ok Q ↔ Q a := Iff.rfl

@[simp] theorem wp_perform (o : Op) (Q : Ret o → Prop) :
    (perform o).wp ok Q ↔ ∀ r, ok ⟨o, r⟩ → Q r := Iff.rfl

theorem wp_bind (p : Prog Ret α) (f : α → Prog Ret β) (Q : β → Prop) :
    (p >>= f).wp ok Q ↔ p.wp ok fun a => (f a).wp ok Q := by
  induction p with
  | ret a => exact Iff.rfl
  | call o k ih => exact forall_congr' fun r => imp_congr_right fun _ => ih r

theorem wp.mono {p : Prog Ret α} (hp : p.wp ok Q) (hQ : ∀ a, Q a → Q' a) : p.wp ok Q' := by
  induction p with
  | ret a => exact hQ a hp
  | call o k ih => exact fun r hr => ih r (hp r hr)

theorem wp_true (p : Prog Ret α) : p.wp ok fun _ => True := by
  induction p with
  | ret a => trivial
  | call o k ih => exact fun r _ => ih r

theorem wp.bind {p : Prog Ret α} {f : α → Prog Ret β} {R : β → Prop} (hp : p.wp ok Q)
    (hf : ∀ a, Q a → (f a).wp ok R) : (p >>= f).wp ok R :=
  (wp_bind p f R).mpr (hp.mono hf)

/-- What follows a first part need only behave well on the results that the first part can have. -/
theorem Performs.bind_wp {P : Op → Prop} {p : Prog Ret α} {f : α → Prog Ret β} (hp : p.Performs P)
    (hq : p.wp (fun _ => True) Q) (hf : ∀ a, Q a → (f a).Performs P) : (p >>= f).Performs P := by
  induction p with
  | ret a => exact hf a hq
  | call o k ih => exact ⟨hp.1, fun r => ih r (hp.2 r) (hq r trivial)⟩

/-- An oracle that only gives permitted answers brings the program to such a result. -/
theorem wp.run {p : Prog Ret α} (hp : p.wp ok Q) {ora : Oracle Ret}
    (hora : ∀ h o, ok ⟨o, ora h o⟩) (h : List (Event Ret)) : Q (p.run ora h).2 := by
  induction p generalizing h with
  | ret a => exact hp
  | call o k ih => exact ih _ (hp _ (hora h o)) _

end Wp

end Prog
