import Mathlib.Init

/-! Places in a record that can be read and written. -/

structure Lens (σ α : Type) where
  get : σ → α
  set : σ → α → σ
  /-- writing what is there changes nothing -/
  set_get : ∀ s, set s (get s) = s

namespace Lens

variable {σ τ α : Type}

@[simp] def comp (outer : Lens σ τ) (inner : Lens τ α) : Lens σ α where
  get s := inner.get (outer.get s)
  set s a := outer.set s (inner.set (outer.get s) a)
  set_get s := by rw [inner.set_get, outer.set_get]

/-- A value that may be missing is written or leaves what is there. -/
theorem ite_set (L : Lens σ α) (p : Prop) [Decidable p] (s : σ) (a : α) :
    (if p then s else L.set s a) = L.set s (if p then L.get s else a) := by
  split
  · rw [L.set_get]
  · rfl

end Lens
