import Mathlib.Data.List.Basic

/-! Loops over an input that is read by index. Every access is checked, and a loop that goes round
more often than it may is reported, so that a result is a proof that neither has happened. -/
namespace Loop

inductive Fault
  | outOfRange (index length : ℕ)
  | hung
  deriving DecidableEq

variable {σ α β : Type}

@[simp] theorem ok_bind (a : α) (f : α → Except Fault β) : (Except.ok a >>= f) = f a := rfl

@[simp] theorem pure_eq_ok (a : α) : (pure a : Except Fault α) = .ok a := rfl

def get (xs : List α) (i : ℕ) : Except Fault α :=
  match xs[i]? with
  | some x => .ok x
  | none => .error (.outOfRange i xs.length)

def slice (xs : List α) (lo hi : ℕ) : Except Fault (List α) :=
  if lo ≤ hi ∧ hi ≤ xs.length then .ok ((xs.drop lo).take (hi - lo))
  else .error (.outOfRange hi xs.length)

/-- What one turn of a loop comes to: the loop goes round again, or it is left. -/
inductive Turn (σ : Type)
  | again (s : σ)
  | leave (s : σ)

def Turn.state : Turn σ → σ
  | again s => s
  | leave s => s

def run (turn : σ → Except Fault (Turn σ)) : ℕ → σ → Except Fault σ
  | 0, _ => .error .hung
  | n + 1, s =>
    match turn s with
    | .error e => .error e
    | .ok (.again s') => run turn n s'
    | .ok (.leave s') => .ok s'

/-- The rule of total correctness: the invariant is kept, and every turn that goes round again
makes the measure smaller. -/
theorem total {turn : σ → Except Fault (Turn σ)} (inv post : σ → Prop) (measure : σ → ℕ)
    (hturn : ∀ s, inv s → (∃ s', turn s = .ok (.again s') ∧ inv s' ∧ measure s' < measure s) ∨
      ∃ s', turn s = .ok (.leave s') ∧ post s')
    {s : σ} (hs : inv s) {n : ℕ} (hn : measure s < n) :
    ∃ s', run turn n s = .ok s' ∧ post s' := by
  induction n generalizing s with
  | zero => omega
  | succ n ih =>
    rcases hturn s hs with ⟨s', hagain, hinv, hless⟩ | ⟨s', hleave, hpost⟩
    · obtain ⟨r, hr, hpost⟩ := ih hinv (by omega)
      refine ⟨r, ?_, hpost⟩
      rw [run, hagain]
      exact hr
    · refine ⟨s', ?_, hpost⟩
      rw [run, hleave]

/-- At every position inside the input a turn is free of faults and moves on, at most to the end. -/
def Advances (turn : σ → Except Fault (Turn σ)) (pos : σ → ℕ) (length : ℕ) : Prop :=
  ∀ s, pos s < length → ∃ t, turn s = .ok t ∧ pos s < pos t.state ∧ pos t.state ≤ length

/-- The same for every turn that goes round again; the turn that leaves the loop may stay where it
is. -/
def AdvancesAgain (turn : σ → Except Fault (Turn σ)) (pos : σ → ℕ) (length : ℕ) : Prop :=
  ∀ s, pos s < length → ∃ t, turn s = .ok t ∧ pos s ≤ pos t.state ∧ pos t.state ≤ length ∧
    ∀ s', t = .again s' → pos s < pos s'

/-! ### Positions -/

/-- The rest of the input from position `i` on is `rest`. -/
def At (xs : List α) (i : ℕ) (rest : List α) : Prop := i ≤ xs.length ∧ xs.drop i = rest

variable {xs rest : List α} {x : α} {i j : ℕ}

theorem At.length (h : At xs i rest) : i + rest.length = xs.length := by
  obtain ⟨hi, rfl⟩ := h
  rw [List.length_drop]
  omega

theorem At.start (xs : List α) : At xs 0 xs := ⟨Nat.zero_le _, List.drop_zero⟩

theorem At.of_le (h : i ≤ xs.length) : At xs i (xs.drop i) := ⟨h, rfl⟩

theorem At.of_lt (h : i < xs.length) : ∃ x rest, At xs i (x :: rest) :=
  ⟨xs[i], xs.drop (i + 1), Nat.le_of_lt h, List.drop_eq_getElem_cons h⟩

theorem At.lt (h : At xs i (x :: rest)) : i < xs.length := by
  have hlen := h.length
  rw [List.length_cons] at hlen
  omega

theorem At.eq_length (h : At xs i []) : i = xs.length := h.length

theorem At.next (h : At xs i (x :: rest)) : At xs (i + 1) rest := by
  refine ⟨h.lt, ?_⟩
  rw [← List.drop_drop, h.2, List.drop_succ_cons, List.drop_zero]

theorem At.get_eq (h : At xs i (x :: rest)) : get xs i = .ok x := by
  have hx : xs[i]? = some x := by
    rw [← Nat.add_zero i, ← List.getElem?_drop, h.2, List.getElem?_cons_zero]
  rw [get, hx]

/-- Between two positions stands what the rest at the first has before the rest at the second. -/
theorem At.slice_eq {word : List α} (h : At xs i (word ++ rest)) (hj : At xs j rest) :
    slice xs i j = .ok word := by
  have hi := h.length
  have hj := hj.length
  rw [List.length_append] at hi
  have hlen : j - i = word.length := by omega
  rw [slice, if_pos (by omega), h.2, hlen, List.take_left]

theorem At.drop_two (h : At xs i rest) :
    At xs (if i + 2 > xs.length then xs.length else i + 2) (rest.drop 2) := by
  rw [← h.2, List.drop_drop]
  split
  · exact ⟨Nat.le_refl _, by rw [List.drop_of_length_le (Nat.le_refl _),
      List.drop_of_length_le (by omega)]⟩
  · exact ⟨by omega, rfl⟩

/-- A loop over positions computes `f` of the rest if a turn that goes round again shortens the rest
without a change of `f`, and one that leaves does so where the value of `f` begins. -/
theorem total_at {turn : ℕ → Except Fault (Turn ℕ)} (f : List α → List α)
    (hturn : ∀ i r, At xs i r →
      (∃ j r', turn i = .ok (.again j) ∧ At xs j r' ∧ r'.length < r.length ∧ f r' = f r) ∨
      ∃ j, turn i = .ok (.leave j) ∧ At xs j (f r))
    (h : At xs i rest) : ∃ j, run turn (xs.length + 1) i = .ok j ∧ At xs j (f rest) := by
  refine total (fun k => ∃ r, At xs k r ∧ f r = f rest) (fun k => At xs k (f rest))
    (xs.length - ·) ?_ ⟨rest, h, rfl⟩ (by omega)
  rintro k ⟨r, hr, heq⟩
  rcases hturn k r hr with ⟨j, r', hagain, hr', hless, hf⟩ | ⟨j, hleave, hj⟩
  · refine .inl ⟨j, hagain, ⟨r', hr', hf.trans heq⟩, ?_⟩
    have hlen := hr.length
    have hlen' := hr'.length
    omega
  · exact .inr ⟨j, hleave, heq ▸ hj⟩

end Loop
