import Mathlib.Algebra.Order.BigOperators.Group.Finset

/-! Buffered channels as Go has them, and counts over a pool of goroutines. -/
namespace Sync

/-- What an operation of a goroutine comes to. -/
inductive Outcome (σ : Type)
  | ok (s : σ)
  | blocked
  | panic

structure Chan (α : Type) where
  cap : ℕ
  buf : List α
  closed : Bool

namespace Chan

variable {α : Type} (c : Chan α)

def make (cap : ℕ) : Chan α := ⟨cap, [], false⟩

def send (x : α) : Outcome (Chan α) :=
  if c.closed then .panic
  else if c.buf.length < c.cap then .ok { c with buf := c.buf ++ [x] }
  else .blocked

def recv : Outcome (Option α × Chan α) :=
  match c.buf with
  | x :: rest => .ok (some x, { c with buf := rest })
  | [] => if c.closed then .ok (none, c) else .blocked

def close : Outcome (Chan α) := if c.closed then .panic else .ok { c with closed := true }

theorem send_eq_ok {c : Chan α} (hopen : c.closed = false) (hroom : c.buf.length < c.cap) (x : α) :
    c.send x = .ok { c with buf := c.buf ++ [x] } := by
  simp [send, hopen, hroom]

theorem close_eq_ok {c : Chan α} (hopen : c.closed = false) :
    c.close = .ok { c with closed := true } := by
  simp [close, hopen]

end Chan

section Tally

variable {σ : Type} (n : ℕ) (weight : σ → ℕ) (pc : ℕ → σ)

/-- The sum of the weights of the first `n` goroutines. -/
def tally : ℕ := ∑ i ∈ Finset.range n, weight (pc i)

variable {n weight pc}

/-- One goroutine moves: the sum changes by the difference of its weights. -/
theorem tally_update (weight : σ → ℕ) {i : ℕ} (hi : i < n) (p : σ) :
    tally n weight (Function.update pc i p) + weight (pc i) = tally n weight pc + weight p := by
  have hmem : i ∈ Finset.range n := Finset.mem_range.mpr hi
  have hnew := Finset.add_sum_erase _ (fun j => weight (Function.update pc i p j)) hmem
  have hold := Finset.add_sum_erase _ (fun j => weight (pc j)) hmem
  have hrest : ∑ j ∈ (Finset.range n).erase i, weight (Function.update pc i p j) =
      ∑ j ∈ (Finset.range n).erase i, weight (pc j) := by
    refine Finset.sum_congr rfl fun j hj => ?_
    rw [Function.update_of_ne (Finset.ne_of_mem_erase hj)]
  rw [Function.update_self] at hnew
  unfold tally
  omega

theorem tally_eq_zero_iff : tally n weight pc = 0 ↔ ∀ i < n, weight (pc i) = 0 := by
  unfold tally
  rw [Finset.sum_eq_zero_iff]
  simp

theorem tally_le {b : ℕ} (h : ∀ p, weight p ≤ b) : tally n weight pc ≤ n * b := by
  unfold tally
  have hsum := Finset.sum_le_card_nsmul (Finset.range n) (fun i => weight (pc i)) b
    fun i _ => h (pc i)
  simpa using hsum

/-- With weights of at most one, a goroutine without weight leaves the sum below `n`. -/
theorem tally_lt {i : ℕ} (hi : i < n) (h : ∀ p, weight p ≤ 1) (hzero : weight (pc i) = 0) :
    tally n weight pc < n := by
  have hsum : ∑ j ∈ Finset.range n, weight (pc j) < ∑ _j ∈ Finset.range n, 1 :=
    Finset.sum_lt_sum (fun j _ => h (pc j)) ⟨i, Finset.mem_range.mpr hi, by omega⟩
  unfold tally
  simpa using hsum

end Tally

end Sync
