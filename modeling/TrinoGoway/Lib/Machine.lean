import Mathlib.Data.List.Induction

/-! Machines given by one partial step function: an action that does not apply in a state
has no next state, and a run is a list of actions that apply one after the other. -/
namespace Machine

variable {S A : Type} {step : S → A → Option S} {s s' : S} {as bs : List A} {a : A}

def run (step : S → A → Option S) (s : S) (as : List A) : Option S := as.foldlM step s

@[simp] theorem run_nil : run step s [] = some s := rfl

@[simp] theorem run_cons : run step s (a :: as) = (step s a).bind fun s₁ => run step s₁ as := rfl

theorem run_append :
    run step s (as ++ bs) = (run step s as).bind fun s₁ => run step s₁ bs := by
  simp [run, List.foldlM_append, Option.bind_eq_bind]

theorem run_snoc : run step s (as ++ [a]) = (run step s as).bind fun s₁ => step s₁ a := by
  simp [run_append]

theorem run_snoc_eq_some :
    run step s (as ++ [a]) = some s' ↔ ∃ s₁, run step s as = some s₁ ∧ step s₁ a = some s' := by
  rw [run_snoc, Option.bind_eq_some_iff]

/-- What every step keeps, every run keeps. -/
theorem run_invariant {I : S → Prop} (hstep : ∀ s a s', I s → step s a = some s' → I s')
    (hs : I s) (h : run step s as = some s') : I s' := by
  induction as generalizing s with
  | nil =>
    obtain rfl := Option.some.inj h
    exact hs
  | cons a as ih =>
    rw [run_cons, Option.bind_eq_some_iff] at h
    obtain ⟨s₁, h₁, h⟩ := h
    exact ih (hstep s a s₁ hs h₁) h

/-- Threads kept in a list, after one of them has been replaced. -/
theorem getElem?_set_eq_some {T : Type} {l : List T} {k j : ℕ} {old new t : T}
    (hk : l[k]? = some old) (h : (l.set k new)[j]? = some t) :
    (j = k ∧ t = new) ∨ (j ≠ k ∧ l[j]? = some t) := by
  have hlt : k < l.length := (List.getElem?_eq_some_iff.mp hk).1
  by_cases hj : j = k
  · rw [hj, List.getElem?_set_self hlt] at h
    exact Or.inl ⟨hj, (Option.some.inj h).symm⟩
  · rw [List.getElem?_set_ne (Ne.symm hj)] at h
    exact Or.inr ⟨hj, h⟩

theorem getElem?_snoc_eq_some {T : Type} {l : List T} {j : ℕ} {new t : T}
    (h : (l ++ [new])[j]? = some t) : l[j]? = some t ∨ t = new := by
  rw [List.getElem?_append] at h
  split at h
  · exact Or.inl h
  · exact Or.inr (List.mem_singleton.mp (List.mem_of_getElem? h))

/-- Each action of a list meets a condition in the state in which it is taken. -/
def Meets (step : S → A → Option S) (ok : S → A → Prop) : S → List A → Prop
  | _, [] => True
  | s, a :: as => ok s a ∧ ∀ s₁, step s a = some s₁ → Meets step ok s₁ as

theorem meets_cons {ok : S → A → Prop} {a : A} {s₁ : S} (hok : ok s a) (hstep : step s a = some s₁)
    (h : Meets step ok s₁ as) : Meets step ok s (a :: as) := by
  refine ⟨hok, ?_⟩
  intro s₂ h₂
  obtain rfl := Option.some.inj (hstep.symm.trans h₂)
  exact h

theorem meets_of_forall_mem {ok : S → A → Prop} (h : ∀ a ∈ as, ∀ s, ok s a) :
    Meets step ok s as := by
  induction as generalizing s with
  | nil => trivial
  | cons a as ih =>
    refine ⟨h a List.mem_cons_self s, ?_⟩
    intro s₁ _
    exact ih fun b hb => h b (List.mem_cons_of_mem a hb)

/-- What every step that meets a condition keeps, every run of such steps keeps. -/
theorem run_invariant_of_meets {I : S → Prop} {ok : S → A → Prop}
    (hstep : ∀ s a s', I s → ok s a → step s a = some s' → I s') (hs : I s)
    (hok : Meets step ok s as) (h : run step s as = some s') : I s' := by
  induction as generalizing s with
  | nil =>
    obtain rfl := Option.some.inj h
    exact hs
  | cons a as ih =>
    rw [run_cons, Option.bind_eq_some_iff] at h
    obtain ⟨s₁, h₁, h⟩ := h
    exact ih (hstep s a s₁ hs hok.1 h₁) (hok.2 s₁ h₁) h

/-- A property of the states that a step keeps exactly if it meets a condition, under an invariant
and where every action applies: it holds throughout a run exactly if all the steps meet the
condition. -/
theorem forall_run_iff_meets {I P : S → Prop} {ok : S → A → Prop}
    (htotal : ∀ s a, ∃ s', step s a = some s')
    (hinv : ∀ s a s', I s → step s a = some s' → I s')
    (hstep : ∀ s a s', I s → P s → step s a = some s' → (P s' ↔ ok s a)) (hs : I s) (hp : P s) :
    (∀ bs, bs <+: as → ∀ s', run step s bs = some s' → P s') ↔ Meets step ok s as := by
  induction as generalizing s with
  | nil =>
    refine ⟨fun _ => trivial, ?_⟩
    intro _ bs hbs s' h
    rw [List.prefix_nil.mp hbs] at h
    obtain rfl := Option.some.inj h
    exact hp
  | cons a as ih =>
    obtain ⟨s₁, h₁⟩ := htotal s a
    have hfirst := hstep s a s₁ hs hp h₁
    constructor
    · intro h
      have hp₁ : P s₁ := h [a] ⟨as, rfl⟩ s₁ (by simp [h₁])
      refine ⟨hfirst.mp hp₁, ?_⟩
      intro s₂ h₂
      obtain rfl : s₁ = s₂ := Option.some.inj (h₁.symm.trans h₂)
      refine (ih (hinv s a s₁ hs h₁) hp₁).mp ?_
      intro bs hbs s' hrun
      exact h (a :: bs) (List.cons_prefix_cons.mpr ⟨rfl, hbs⟩) s' (by simpa [h₁] using hrun)
    · rintro ⟨hok, hmeets⟩ bs hbs s' hrun
      have hp₁ := hfirst.mpr hok
      cases bs with
      | nil =>
        obtain rfl := Option.some.inj hrun
        exact hp
      | cons b bs =>
        obtain ⟨rfl, htail⟩ := List.cons_prefix_cons.mp hbs
        rw [run_cons, h₁, Option.bind_some] at hrun
        exact (ih (hinv s b s₁ hs h₁) hp₁).mpr (hmeets s₁ h₁) bs htail s' hrun

end Machine
