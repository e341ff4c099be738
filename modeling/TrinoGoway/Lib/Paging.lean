import Mathlib.Data.List.Flatten
import Mathlib.Data.List.Nodup
import Mathlib.Data.List.TakeDrop
import Mathlib.Order.Lattice

/-! Pages of a list that is arranged by a key, where each page is taken from an arrangement of its
own. -/
namespace Paging

section Pages

variable {α : Type*}

/-- Page `i`, counted from zero, with `n` elements to a page. -/
def page (n i : ℕ) (l : List α) : List α := (l.drop (i * n)).take n

theorem take_append_page (n i : ℕ) (l : List α) :
    l.take (i * n) ++ page n i l = l.take ((i + 1) * n) := by
  rw [page, Nat.succ_mul, List.take_add]

/-- The first `m` pages, page `i` of the arrangement `l i`. -/
def pages (n m : ℕ) (l : ℕ → List α) : List α := (List.range m).flatMap fun i => page n i (l i)

theorem pages_succ (n m : ℕ) (l : ℕ → List α) :
    pages n (m + 1) l = pages n m l ++ page n m (l m) := by
  simp [pages, List.range_succ]

/-- If all arrangements have the same elements up to each boundary, the pages have those of one
arrangement. -/
theorem pages_perm {n m : ℕ} {l : ℕ → List α} {base : List α}
    (h : ∀ i, ∀ k ≤ m, ((l i).take (k * n)).Perm (base.take (k * n))) :
    (pages n m l).Perm (base.take (m * n)) := by
  induction m with
  | zero => simp [pages]
  | succ m ih =>
    have hpages := ih fun i k hk => h i k (Nat.le_succ_of_le hk)
    have hlast : (pages n m l ++ page n m (l m)).Perm ((l m).take (m * n) ++ page n m (l m)) :=
      (hpages.trans (h m m (Nat.le_succ m)).symm).append_right _
    rw [take_append_page] at hlast
    rw [pages_succ]
    exact hlast.trans (h m (m + 1) (Nat.le_refl _))

theorem not_nodup_pages {n m i j : ℕ} {l : ℕ → List α} {x : α} (hij : i < j) (hj : j < m)
    (hi : x ∈ page n i (l i)) (hx : x ∈ page n j (l j)) : ¬ (pages n m l).Nodup := by
  intro hnodup
  obtain ⟨-, hdisjoint⟩ := List.nodup_flatMap.mp hnodup
  have hrange := List.pairwise_iff_getElem.mp hdisjoint i j (by simp; omega) (by simpa) hij
  simp only [List.getElem_range, Function.onFun] at hrange
  exact hrange hi hx

theorem mem_page_of_getElem? {n i k : ℕ} {l : List α} {x : α} (hlow : i * n ≤ k)
    (hhigh : k < (i + 1) * n) (h : l[k]? = some x) : x ∈ page n i l := by
  rw [Nat.succ_mul] at hhigh
  refine List.mem_of_getElem? (i := k - i * n) ?_
  rw [page, List.getElem?_take_of_lt (by omega), List.getElem?_drop]
  rw [show i * n + (k - i * n) = k by omega]
  exact h

end Pages

section Keys

variable {α κ : Type*} [LinearOrder κ] {key : α → κ} {l l' : List α}

def Descending (key : α → κ) (l : List α) : Prop := l.Pairwise fun a b => key b ≤ key a

def countFrom (key : α → κ) (t : κ) (l : List α) : ℕ := (l.filter fun a => t ≤ key a).length

theorem Descending.filter_eq_take (h : Descending key l) (t : κ) :
    (l.filter fun a => t ≤ key a) = l.take (countFrom key t l) := by
  induction l with
  | nil => rfl
  | cons a l ih =>
    obtain ⟨ha, hl⟩ := List.pairwise_cons.mp h
    by_cases hat : t ≤ key a
    · have hcount : countFrom key t (a :: l) = countFrom key t l + 1 := by
        simp [countFrom, hat]
      rw [hcount, List.take_succ_cons, ← ih hl]
      simp [hat]
    · have hnone : (a :: l).filter (fun a => t ≤ key a) = [] := by
        rw [List.filter_eq_nil_iff]
        intro b hb
        rw [decide_eq_true_eq]
        rcases List.mem_cons.mp hb with rfl | hb
        · exact hat
        · exact fun hbt => hat (le_trans hbt (ha b hb))
      rw [countFrom, hnone]
      rfl

/-- At a boundary between two keys all arrangements have the same elements before it. -/
theorem Descending.take_perm (h : Descending key l) (h' : Descending key l') (hperm : l.Perm l')
    (t : κ) : (l.take (countFrom key t l)).Perm (l'.take (countFrom key t l)) := by
  have hfilter := hperm.filter fun a => decide (t ≤ key a)
  have hcount : countFrom key t l = countFrom key t l' := hfilter.length_eq
  rw [← h.filter_eq_take t, hcount, ← h'.filter_eq_take t]
  exact hfilter

/-- At a boundary between two elements of one key, they may change places. -/
theorem Descending.exists_swapped (h : Descending key l) {b : ℕ} (hb : b + 1 < l.length)
    (hcut : ∀ t, countFrom key t l ≠ b + 1) :
    ∃ l' x, l'.Perm l ∧ Descending key l' ∧ l[b]? = some x ∧ l'[b + 1]? = some x := by
  obtain ⟨pre, x, y, post, rfl, rfl⟩ : ∃ pre x y post, l = pre ++ x :: y :: post ∧
      pre.length = b := by
    refine ⟨l.take b, l[b], l[b + 1], l.drop (b + 2), ?_, by simp; omega⟩
    rw [List.getElem_cons_drop, List.getElem_cons_drop, List.take_append_drop]
  obtain ⟨hpre, hrest, hcross⟩ := List.pairwise_append.mp h
  obtain ⟨hx, htail⟩ := List.pairwise_cons.mp hrest
  obtain ⟨hy, hpost⟩ := List.pairwise_cons.mp htail
  -- otherwise the boundary is between the two keys
  have hkey : key x = key y := by
    refine le_antisymm ?_ (hx y List.mem_cons_self)
    by_contra hlt
    refine hcut (key x) ?_
    have hbefore : pre.filter (fun a => key x ≤ key a) = pre := by
      rw [List.filter_eq_self]
      intro a ha
      exact decide_eq_true (hcross a ha x List.mem_cons_self)
    have hbehind : post.filter (fun a => key x ≤ key a) = [] := by
      rw [List.filter_eq_nil_iff]
      intro a ha
      rw [decide_eq_true_eq]
      exact fun hle => hlt (le_trans hle (hy a ha))
    simp [countFrom, List.filter_append, hbefore, hbehind, hlt]
  refine ⟨pre ++ y :: x :: post, x, (List.Perm.swap x y post).append_left pre, ?_, by simp, ?_⟩
  · refine List.pairwise_append.mpr ⟨hpre, ?_, ?_⟩
    · refine List.pairwise_cons.mpr ⟨?_, List.pairwise_cons.mpr ⟨?_, hpost⟩⟩
      · intro a ha
        rcases List.mem_cons.mp ha with rfl | ha
        · exact le_of_eq hkey
        · exact hy a ha
      · exact fun a ha => hx a (List.mem_cons_of_mem y ha)
    · intro a ha c hc
      exact hcross a ha c (((List.Perm.swap x y post).mem_iff).mp hc)
  · rw [List.getElem?_append_right (by omega)]
    simp

end Keys

end Paging
