import Mathlib.Data.List.Basic

/-! Machines that read a word symbol by symbol and write while they read. -/

/-- A step reads a symbol and writes a word; at the end of the input the state has a last word. -/
structure Transducer (σ α β : Type) where
  step : σ → α → List β × σ
  finish : σ → List β

namespace Transducer

variable {σ α β : Type} (T : Transducer σ α β)

/-- What has been written after a word, and the state it leads to. -/
def run : σ → List α → List β × σ
  | s, [] => ([], s)
  | s, a :: w => ((T.step s a).1 ++ (run (T.step s a).2 w).1, (run (T.step s a).2 w).2)

def output (s : σ) (w : List α) : List β := (T.run s w).1 ++ T.finish (T.run s w).2

@[simp] theorem run_nil (s : σ) : T.run s [] = ([], s) := rfl

theorem run_cons (s : σ) (a : α) (w : List α) :
    T.run s (a :: w) =
      ((T.step s a).1 ++ (T.run (T.step s a).2 w).1, (T.run (T.step s a).2 w).2) := rfl

theorem run_singleton (s : σ) (a : α) : T.run s [a] = T.step s a := by
  rw [run_cons, run_nil, List.append_nil]

theorem run_append (s : σ) (u v : List α) :
    T.run s (u ++ v) = ((T.run s u).1 ++ (T.run (T.run s u).2 v).1, (T.run (T.run s u).2 v).2) := by
  induction u generalizing s with
  | nil => rfl
  | cons a u ih =>
    rw [List.cons_append, run_cons, run_cons, ih]
    simp only [List.append_assoc]

@[simp] theorem output_nil (s : σ) : T.output s [] = T.finish s := rfl

theorem output_cons (s : σ) (a : α) (w : List α) :
    T.output s (a :: w) = (T.step s a).1 ++ T.output (T.step s a).2 w := by
  unfold output
  rw [run_cons, List.append_assoc]

theorem output_append (s : σ) (u v : List α) :
    T.output s (u ++ v) = (T.run s u).1 ++ T.output (T.run s u).2 v := by
  unfold output
  rw [run_append, List.append_assoc]

end Transducer
