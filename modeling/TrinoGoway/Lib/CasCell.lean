import TrinoGoway.Lib.Machine

/-! A shared cell that any number of threads write, either by a store or by the lock-free retry
loop: load, compute the new value, compare-and-swap, and start again if another write came
between. Every run has the effect of its calls one after another, each at one of its own
steps. -/
namespace CasCell

variable {α ι : Type} [DecidableEq ι]

/-- A thread's call. An update gives the new value, or `none` when it returns without writing. -/
inductive Call (α : Type)
  | update (f : α → Option α)
  | store (a : α)

def Call.apply : Call α → α → α
  | update f, a => (f a).getD a
  | store b, _ => b

/-- Where a thread is. A loaded one holds the identity of what it has read, and its new value. -/
inductive Pc (α : Type)
  | ready
  | loaded (version : ℕ) (new : α)
  | returned

/-- Every write puts a new object into the cell: `version` is its identity, which
compare-and-swap compares. -/
structure State (α ι : Type) where
  version : ℕ
  value : α
  pc : ι → Pc α
  /-- the calls that have taken effect, in this order -/
  order : List ι

def init (a : α) : State α ι := ⟨0, a, fun _ => .ready, []⟩

inductive Action (ι : Type)
  | load (i : ι)
  | cas (i : ι)
  | store (i : ι)

/-- An update takes effect at its successful compare-and-swap, or at the load after which it has
nothing to write; a store takes effect at once. -/
def step (calls : ι → Call α) (s : State α ι) : Action ι → Option (State α ι)
  | .load i =>
    match s.pc i, calls i with
    | .ready, .update f =>
      match f s.value with
      | some new => some { s with pc := Function.update s.pc i (.loaded s.version new) }
      | none => some { s with pc := Function.update s.pc i .returned, order := s.order ++ [i] }
    | _, _ => none
  | .cas i =>
    match s.pc i with
    | .loaded version new =>
      if version = s.version then
        some ⟨s.version + 1, new, Function.update s.pc i .returned, s.order ++ [i]⟩
      else some { s with pc := Function.update s.pc i .ready }
    | _ => none
  | .store i =>
    match s.pc i, calls i with
    | .ready, .store a =>
      some ⟨s.version + 1, a, Function.update s.pc i .returned, s.order ++ [i]⟩
    | _, _ => none

/-- What a step does: it changes only the thread's own position, or it is the point at which
the thread's call takes effect. -/
inductive Effect (calls : ι → Call α) (s : State α ι) (i : ι) : State α ι → Prop
  | load (f : α → Option α) (new : α) (hpc : s.pc i = .ready) (hcall : calls i = .update f)
      (hf : f s.value = some new) :
      Effect calls s i { s with pc := Function.update s.pc i (.loaded s.version new) }
  | retry (version : ℕ) (new : α) (hpc : s.pc i = .loaded version new) :
      Effect calls s i { s with pc := Function.update s.pc i .ready }
  | skip (hpc : s.pc i = .ready) (hkeep : (calls i).apply s.value = s.value) :
      Effect calls s i { s with pc := Function.update s.pc i .returned, order := s.order ++ [i] }
  | write (a : α) (hpc : s.pc i ≠ .returned)
      (ha : s.pc i = .loaded s.version a ∨ (calls i).apply s.value = a) :
      Effect calls s i ⟨s.version + 1, a, Function.update s.pc i .returned, s.order ++ [i]⟩

theorem effect_of_step {calls : ι → Call α} {s s' : State α ι} {a : Action ι}
    (h : step calls s a = some s') : ∃ i, Effect calls s i s' := by
  cases a with
  | load i =>
    cases hpc : s.pc i with
    | ready =>
      cases hcall : calls i with
      | update f =>
        cases hf : f s.value with
        | some new =>
          simp only [step, hpc, hcall, hf, Option.some.injEq] at h
          subst h
          exact ⟨i, .load f new hpc hcall hf⟩
        | none =>
          simp only [step, hpc, hcall, hf, Option.some.injEq] at h
          subst h
          exact ⟨i, .skip hpc (by simp [Call.apply, hcall, hf])⟩
      | store b => simp [step, hpc, hcall] at h
    | loaded v new => simp [step, hpc] at h
    | returned => simp [step, hpc] at h
  | cas i =>
    cases hpc : s.pc i with
    | ready => simp [step, hpc] at h
    | returned => simp [step, hpc] at h
    | loaded version new =>
      simp only [step, hpc] at h
      split at h
      · rename_i hv
        obtain rfl := Option.some.inj h
        subst hv
        exact ⟨i, .write new (by simp [hpc]) (.inl hpc)⟩
      · obtain rfl := Option.some.inj h
        exact ⟨i, .retry version new hpc⟩
  | store i =>
    cases hpc : s.pc i with
    | ready =>
      cases hcall : calls i with
      | update f => simp [step, hpc, hcall] at h
      | store b =>
        simp only [step, hpc, hcall, Option.some.injEq] at h
        subst h
        exact ⟨i, .write b (by simp [hpc]) (.inr (by simp [Call.apply, hcall]))⟩
    | loaded v new => simp [step, hpc] at h
    | returned => simp [step, hpc] at h

/-- The cell holds the effect of the calls in `order`, which are those that have returned; a
thread whose loaded version is still the current one holds what its call makes of the value. -/
structure Linearized (calls : ι → Call α) (a : α) (s : State α ι) : Prop where
  value : s.value = s.order.foldl (fun b i => (calls i).apply b) a
  nodup : s.order.Nodup
  mem_order : ∀ i, i ∈ s.order ↔ s.pc i = .returned
  version_le : ∀ i v new, s.pc i = .loaded v new → v ≤ s.version
  loaded : ∀ i new, s.pc i = .loaded s.version new → (calls i).apply s.value = new

section Linearized

variable {calls : ι → Call α} {a : α} {s s' : State α ι}

omit [DecidableEq ι] in
theorem linearized_init : Linearized calls a (init a) where
  value := rfl
  nodup := List.nodup_nil
  mem_order := by simp [init]
  version_le := by simp [init]
  loaded := by simp [init]

theorem Linearized.move (h : Linearized calls a s) {i : ι} {pc : Pc α}
    (hpc : s.pc i ≠ .returned) (hnew : pc ≠ .returned)
    (hl : ∀ v new, pc = .loaded v new → v ≤ s.version ∧ (calls i).apply s.value = new) :
    Linearized calls a { s with pc := Function.update s.pc i pc } where
  value := h.value
  nodup := h.nodup
  mem_order := by
    intro j
    by_cases hj : j = i
    · subst hj
      simp [h.mem_order, hpc, hnew]
    · simp [Function.update_of_ne hj, h.mem_order]
  version_le := by
    intro j v new hjv
    by_cases hj : j = i
    · subst hj
      exact (hl v new (by simpa using hjv)).1
    · exact h.version_le j v new (by simpa [Function.update_of_ne hj] using hjv)
  loaded := by
    intro j new hjv
    by_cases hj : j = i
    · subst hj
      exact (hl _ new (by simpa using hjv)).2
    · exact h.loaded j new (by simpa [Function.update_of_ne hj] using hjv)

/-- A step at which the call of thread `i` takes effect, with `n` writes to the cell. -/
theorem Linearized.finish (h : Linearized calls a s) {i : ι} {n : ℕ} {b : α}
    (hpc : s.pc i ≠ .returned) (hb : (calls i).apply s.value = b) (hn : n = 0 → b = s.value) :
    Linearized calls a
      ⟨s.version + n, b, Function.update s.pc i .returned, s.order ++ [i]⟩ where
  value := by
    rw [List.foldl_append, ← h.value]
    exact hb.symm
  nodup := by
    have hi : i ∉ s.order := fun hi => hpc ((h.mem_order i).mp hi)
    rw [List.nodup_append]
    refine ⟨h.nodup, by simp, ?_⟩
    intro x hx y hy hxy
    rw [List.mem_singleton] at hy
    exact hi (hy ▸ hxy ▸ hx)
  mem_order := by
    intro j
    by_cases hj : j = i
    · subst hj
      simp
    · simp [hj, h.mem_order]
  version_le := by
    intro j v new hjv
    by_cases hj : j = i
    · subst hj
      simp at hjv
    · have hle := h.version_le j v new (by simpa [Function.update_of_ne hj] using hjv)
      exact Nat.le_add_right_of_le hle
  loaded := by
    intro j new hjv
    by_cases hj : j = i
    · subst hj
      simp at hjv
    · have hjv' : s.pc j = .loaded (s.version + n) new := by
        simpa [Function.update_of_ne hj] using hjv
      have hle := h.version_le j _ new hjv'
      have hn0 : n = 0 := by omega
      subst hn0
      rw [hn rfl]
      exact h.loaded j new hjv'

theorem Linearized.step (h : Linearized calls a s) {act : Action ι}
    (hst : step calls s act = some s') : Linearized calls a s' := by
  obtain ⟨i, he⟩ := effect_of_step hst
  cases he with
  | load f new hpc hcall hf =>
    refine h.move (by simp [hpc]) (by simp) ?_
    intro v new' hnew
    obtain ⟨rfl, rfl⟩ := Pc.loaded.inj hnew
    exact ⟨Nat.le_refl _, by simp [Call.apply, hcall, hf]⟩
  | retry version new hpc => exact h.move (by simp [hpc]) (by simp) (by simp)
  | skip hpc hkeep => exact h.finish (n := 0) (by simp [hpc]) hkeep fun _ => rfl
  | write b hpc hb =>
    have happly : (calls i).apply s.value = b := by
      rcases hb with hb | hb
      · exact h.loaded i b hb
      · exact hb
    exact h.finish (n := 1) hpc happly (by simp)

theorem linearized_of_run {as : List (Action ι)}
    (h : Machine.run (CasCell.step calls) (init a) as = some s) : Linearized calls a s :=
  Machine.run_invariant (I := Linearized calls a) (fun _ _ _ hs hst => hs.step hst)
    linearized_init h

end Linearized

end CasCell
