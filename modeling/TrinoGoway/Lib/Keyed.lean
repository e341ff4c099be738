import Mathlib.Logic.Function.Basic

/-! State that is kept by key and written at one key at a time. -/
namespace Keyed

variable {K V W S : Type} [DecidableEq K] {key : W → K} {on : W → V → V} {f : K → V}

def write (key : W → K) (on : W → V → V) (f : K → V) (w : W) : K → V :=
  Function.update f (key w) (on w (f (key w)))

theorem write_self (w : W) : write key on f w (key w) = on w (f (key w)) :=
  Function.update_self ..

theorem write_of_ne {k : K} {w : W} (h : k ≠ key w) : write key on f w k = f k :=
  Function.update_of_ne h ..

/-- After any writes, the value at a key is what the writes at this key have made of it. -/
theorem foldl_write (ws : List W) (k : K) :
    ws.foldl (write key on) f k = (ws.filter (key · = k)).foldl (fun v w => on w v) (f k) := by
  induction ws generalizing f with
  | nil => rfl
  | cons w ws ih =>
    rw [List.foldl_cons, ih]
    by_cases hk : key w = k
    · rw [List.filter_cons_of_pos (by simpa using hk), List.foldl_cons, ← hk, write_self]
    · rw [List.filter_cons_of_neg (by simpa using hk), write_of_ne (Ne.symm hk)]

/-- A representation whose operations are writes in its view. -/
theorem view_foldl {view : S → K → V} {apply : S → W → S}
    (happly : ∀ s w, view (apply s w) = write key on (view s) w) (s : S) (ws : List W) :
    view (ws.foldl apply s) = ws.foldl (write key on) (view s) := by
  induction ws generalizing s with
  | nil => rfl
  | cons w ws ih => rw [List.foldl_cons, List.foldl_cons, ih, happly]

theorem view_foldl_apply {view : S → K → V} {apply : S → W → S}
    (happly : ∀ s w, view (apply s w) = write key on (view s) w) (s : S) (ws : List W) (k : K) :
    view (ws.foldl apply s) k = (ws.filter (key · = k)).foldl (fun v w => on w v) (view s k) := by
  rw [view_foldl happly, foldl_write]

end Keyed
