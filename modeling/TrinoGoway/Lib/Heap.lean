import Mathlib.Data.List.Basic

/-! A heap of cells of one type, named by the order of their allocation, and slices of the arrays in
such a heap. Allocation and writes to one cell leave what the others hold. -/

structure Heap (α : Type) where
  cells : List α

namespace Heap

variable {α : Type} (h : Heap α)

def size : ℕ := h.cells.length

def load (a : ℕ) : Option α := h.cells[a]?

/-- A new cell at the end; its name is the old size. -/
def alloc (x : α) : Heap α := ⟨h.cells ++ [x]⟩

def store (a : ℕ) (x : α) : Heap α := ⟨h.cells.set a x⟩

@[simp] theorem size_alloc (x : α) : (h.alloc x).size = h.size + 1 := by
  simp [size, alloc]

@[simp] theorem size_store (a : ℕ) (x : α) : (h.store a x).size = h.size := by
  simp [size, store]

@[simp] theorem load_alloc_self (x : α) : (h.alloc x).load h.size = some x := by
  simp [load, alloc, size]

theorem load_alloc_of_lt {a : ℕ} (ha : a < h.size) (x : α) : (h.alloc x).load a = h.load a :=
  List.getElem?_append_left ha

theorem load_store_self {a : ℕ} (ha : a < h.size) (x : α) : (h.store a x).load a = some x :=
  List.getElem?_set_self ha

theorem load_store_of_ne {a b : ℕ} (hab : a ≠ b) (x : α) : (h.store b x).load a = h.load a :=
  List.getElem?_set_ne (Ne.symm hab)

/-- A property of all cells is kept by an allocation with it. -/
theorem forall_alloc {P : α → Prop} (hP : ∀ y ∈ h.cells, P y) {x : α} (hx : P x) :
    ∀ y ∈ (h.alloc x).cells, P y := by
  intro y hy
  rcases List.mem_append.mp hy with hy | hy
  · exact hP y hy
  · rw [List.mem_singleton.mp hy]
    exact hx

theorem forall_store {P : α → Prop} (hP : ∀ y ∈ h.cells, P y) {x : α} (hx : P x) (a : ℕ) :
    ∀ y ∈ (h.store a x).cells, P y := by
  intro y hy
  rcases List.mem_or_eq_of_mem_set hy with hy | rfl
  · exact hP y hy
  · exact hx

theorem mem_of_load {a : ℕ} {x : α} (hx : h.load a = some x) : x ∈ h.cells :=
  List.mem_of_getElem? hx

/-- Part of an array: where the array is, and how much of it from which place on. -/
structure Slice where
  cell : ℕ
  start : ℕ
  len : ℕ

def read (h : Heap (List α)) (s : Slice) : List α :=
  (((h.load s.cell).getD []).drop s.start).take s.len

def fresh (h : Heap (List α)) (xs : List α) : Slice := ⟨h.size, 0, xs.length⟩

@[simp] theorem read_alloc_fresh (h : Heap (List α)) (xs : List α) :
    (h.alloc xs).read (h.fresh xs) = xs := by
  simp [read, fresh]

theorem read_alloc_of_lt {h : Heap (List α)} {s : Slice} (hs : s.cell < h.size) (xs : List α) :
    (h.alloc xs).read s = h.read s := by
  unfold read
  rw [load_alloc_of_lt h hs]

end Heap
