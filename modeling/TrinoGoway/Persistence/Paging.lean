import Mathlib.Data.Int.Order.Basic
import TrinoGoway.Lib.Paging
import TrinoGoway.Persistence.History

/-! The pages of the history listing, on a table that does not change, when the database may order
rows of one instant differently from one query to the next. -/
namespace TrinoGoway.Persistence

open Go Paging

def pageCount (total n : ℕ) : ℕ := (total + n - 1) / n

theorem lt_pageCount {total n k : ℕ} (hn : 0 < n) : k < pageCount total n ↔ k * n < total := by
  unfold pageCount
  rw [Nat.lt_iff_add_one_le, Nat.le_div_iff_mul_le hn, Nat.succ_mul]
  omega

/-- The pages `1, 2, …` of the listing hold every matching row once and nothing else, and each says
how many there are; `orders k` is the order that the database chooses for page `k`. -/
def PagesPartition (rows : List QueryRecord) (f : HistoryFilter) (n : ℕ) : Prop :=
  ∀ (d : Driver) (orders : ℕ → RowOrder), ∃ pages : ℕ → List QueryRecord,
    (∀ k, 1 ≤ k → k ≤ pageCount (rows.filter f.accepts).length n →
      (HistoryStore.mk (orders k) rows none none d).findByFilter
          { f with page := k, pageSize := n } =
        .ok (pages k, (rows.filter f.accepts).length)) ∧
    ((List.range (pageCount (rows.filter f.accepts).length n)).flatMap fun i => pages (i + 1)).Perm
      ((rows.filter f.accepts).map QueryRecord.columns)

/-! ### One page -/

theorem bmod_of_lt {i : ℕ} (h : i < 2 ^ 63) : (i : ℤ).bmod (2 ^ 64) = i := by
  unfold Int.bmod
  rw [Int.emod_eq_of_lt (by omega) (by omega)]
  dsimp only
  rw [if_pos (by omega)]

/-- A query for one page, as long as its offset is an `int`. -/
theorem findByFilter_page (d : Driver) (o : RowOrder) (rows : List QueryRecord)
    (f : HistoryFilter) {n i : ℕ} (hn : 0 < n) (hi : i * n < 2 ^ 63) :
    (HistoryStore.mk o rows none none d).findByFilter
        { f with page := ((i + 1 : ℕ) : ℤ), pageSize := n } =
      .ok ((page n i (o.sort (rows.filter f.accepts))).map QueryRecord.columns,
        (rows.filter f.accepts).length) := by
  have hlimit : HistoryFilter.limit { f with page := ((i + 1 : ℕ) : ℤ), pageSize := n } = n :=
    if_neg (by dsimp only; omega)
  have hoffset : HistoryFilter.offset { f with page := ((i + 1 : ℕ) : ℤ), pageSize := n } =
      ((i * n : ℕ) : ℤ) := by
    have hpage : ¬ ((i + 1 : ℕ) : ℤ) < 1 := by omega
    unfold HistoryFilter.offset
    dsimp only
    rw [hlimit, if_neg hpage, Int.natCast_succ, Int.add_sub_cancel, ← Int.natCast_mul]
    exact bmod_of_lt hi
  have haccepts : HistoryFilter.accepts { f with page := ((i + 1 : ℕ) : ℤ), pageSize := n } =
      f.accepts := rfl
  rw [findByFilter_eq]
  unfold HistoryStore.select
  dsimp only
  rw [hlimit, hoffset, haccepts, if_neg (by omega), Int.toNat_natCast, Int.toNat_natCast]
  rfl

/-! ### The orders of the database -/

open Classical in
noncomputable def RowOrder.of (l : List QueryRecord)
    (h : l.Pairwise fun a b => b.createdAt ≤ a.createdAt) : RowOrder where
  sort rows := if rows.Perm l then l else RowOrder.arbitrary.sort rows
  perm rows := by
    split
    · rename_i hperm
      exact hperm.symm
    · exact RowOrder.arbitrary.perm rows
  latestFirst rows := by
    split
    · exact h
    · exact RowOrder.arbitrary.latestFirst rows
  sort_congr {rows rows'} hrows := by
    have hiff : rows.Perm l ↔ rows'.Perm l := ⟨hrows.symm.trans, hrows.trans⟩
    simp only [hiff, RowOrder.arbitrary.sort_congr hrows]

theorem RowOrder.of_sort {l rows : List QueryRecord}
    (h : l.Pairwise fun a b => b.createdAt ≤ a.createdAt) (hrows : rows.Perm l) :
    (RowOrder.of l h).sort rows = l := if_pos hrows

theorem RowOrder.descending (o : RowOrder) (rows : List QueryRecord) :
    Descending QueryRecord.createdAt (o.sort rows) := o.latestFirst rows

/-! ### All pages -/

section All

variable {rows : List QueryRecord} {f : HistoryFilter} {n : ℕ}

theorem pagesPartition_iff_perm (hcount : rows.length < 2 ^ 63) (hn : 0 < n) :
    PagesPartition rows f n ↔ ∀ orders : ℕ → RowOrder,
      ((pages n (pageCount (rows.filter f.accepts).length n) fun i =>
          (orders (i + 1)).sort (rows.filter f.accepts)).map QueryRecord.columns).Perm
        ((rows.filter f.accepts).map QueryRecord.columns) := by
  have hlength : (rows.filter f.accepts).length ≤ rows.length := List.length_filter_le _ _
  have hpage : ∀ (d : Driver) (orders : ℕ → RowOrder) {i : ℕ},
      i < pageCount (rows.filter f.accepts).length n →
      (HistoryStore.mk (orders (i + 1)) rows none none d).findByFilter
          { f with page := ((i + 1 : ℕ) : ℤ), pageSize := n } =
        .ok ((page n i ((orders (i + 1)).sort (rows.filter f.accepts))).map QueryRecord.columns,
          (rows.filter f.accepts).length) := by
    intro d orders i hi
    have hoffset := (lt_pageCount hn).mp hi
    exact findByFilter_page d _ rows f hn (by omega)
  constructor
  · intro hall orders
    obtain ⟨pages, hpages, hperm⟩ := hall .postgres orders
    refine List.Perm.trans (List.Perm.of_eq ?_) hperm
    rw [Paging.pages, List.map_flatMap]
    refine List.flatMap_congr ?_
    intro i hi
    have hok := (hpage .postgres orders (List.mem_range.mp hi)).symm.trans
      (hpages (i + 1) (by omega) (List.mem_range.mp hi))
    exact (Prod.mk.inj (Except.ok.inj hok)).1
  · intro hall d orders
    refine ⟨fun k => (page n (k - 1) ((orders k).sort (rows.filter f.accepts))).map
      QueryRecord.columns, ?_, ?_⟩
    · intro k hk hcount'
      obtain ⟨i, rfl⟩ : ∃ i, k = i + 1 := ⟨k - 1, by omega⟩
      exact hpage d orders hcount'
    · have hperm := hall orders
      rw [Paging.pages, List.map_flatMap] at hperm
      exact hperm

theorem nodup_columns (hkey : (rows.map (·.queryID)).Nodup) :
    ((rows.filter f.accepts).map QueryRecord.columns).Nodup := by
  refine List.Nodup.of_map (·.queryID) ?_
  rw [List.map_map]
  exact hkey.sublist (List.filter_sublist.map _)

/-- At every boundary between two instants the orders agree on what comes before it. -/
theorem take_sort_perm
    (hcut : ∀ k, 0 < k → k * n < rows.length → ∃ t, countFrom QueryRecord.createdAt t rows = k * n)
    (o o' : RowOrder) (k : ℕ) :
    ((o.sort rows).take (k * n)).Perm ((o'.sort rows).take (k * n)) := by
  have hperm : (o.sort rows).Perm (o'.sort rows) := (o.perm rows).trans (o'.perm rows).symm
  by_cases hall : rows.length ≤ k * n
  · rw [List.take_of_length_le (by rw [(o.perm rows).length_eq]; exact hall),
      List.take_of_length_le (by rw [(o'.perm rows).length_eq]; exact hall)]
    exact hperm
  · cases k with
    | zero => simp
    | succ k =>
      obtain ⟨t, ht⟩ := hcut (k + 1) (by omega) (by omega)
      have hcount : countFrom QueryRecord.createdAt t (o.sort rows) = (k + 1) * n :=
        (((o.perm rows).filter _).length_eq).trans ht
      rw [← hcount]
      exact (o.descending rows).take_perm (o'.descending rows) hperm t

/-- At a boundary within an instant a row comes on both pages in some orders. -/
theorem exists_orders_not_nodup {k : ℕ} (hn : 0 < n) (hk : 0 < k) (hlt : k * n < rows.length)
    (hcut : ∀ t, countFrom QueryRecord.createdAt t rows ≠ k * n) :
    ∃ orders : ℕ → RowOrder,
      ¬ (pages n (pageCount rows.length n) fun i => (orders i).sort rows).Nodup := by
  have hpos : 0 < k * n := Nat.mul_pos hk hn
  have hb : k * n - 1 + 1 = k * n := by omega
  have hperm := RowOrder.arbitrary.perm rows
  have hcut' : ∀ t, countFrom QueryRecord.createdAt t (RowOrder.arbitrary.sort rows) ≠
      k * n - 1 + 1 := by
    intro t ht
    exact hcut t ((((hperm.filter _).length_eq).symm.trans ht).trans hb)
  obtain ⟨l', x, hl', hdesc, hx, hx'⟩ := (RowOrder.arbitrary.descending rows).exists_swapped
    (by rw [hb, hperm.length_eq]; exact hlt) hcut'
  rw [hb] at hx'
  have hswapped : (RowOrder.of l' hdesc).sort rows = l' :=
    RowOrder.of_sort hdesc (hperm.symm.trans hl'.symm)
  refine ⟨fun i => if i < k then RowOrder.arbitrary else RowOrder.of l' hdesc, ?_⟩
  refine not_nodup_pages (i := k - 1) (j := k) (x := x) (by omega) ((lt_pageCount hn).mpr hlt) ?_ ?_
  · have hprev : (k - 1 + 1) * n = k * n := by rw [Nat.sub_add_cancel hk]
    have hsplit : (k - 1) * n + n = k * n := by rw [← Nat.succ_mul]; exact hprev
    simp only [Nat.sub_lt hk Nat.zero_lt_one, if_true]
    exact mem_page_of_getElem? (by omega) (by omega) hx
  · simp only [Nat.lt_irrefl, if_false, hswapped]
    exact mem_page_of_getElem? (Nat.le_refl _) (Nat.mul_lt_mul_of_pos_right (by omega) hn) hx'

end All

/-- **Pages.** The pages of a listing hold every matching row once, whatever the orders that the
database chooses, exactly if no page ends between two rows of one instant: for every boundary there
is an instant since which exactly as many of the rows have been created. -/
theorem pages_partition_iff {rows : List QueryRecord} (hkey : (rows.map (·.queryID)).Nodup)
    (hcount : rows.length < 2 ^ 63) (f : HistoryFilter) {n : ℕ} (hn : 0 < n) :
    PagesPartition rows f n ↔
      ∀ k, 0 < k → k * n < (rows.filter f.accepts).length →
        ∃ t, countFrom QueryRecord.createdAt t (rows.filter f.accepts) = k * n := by
  rw [pagesPartition_iff_perm hcount hn]
  constructor
  · intro hall k hk hlt
    by_contra hcut
    obtain ⟨orders, hnodup⟩ := exists_orders_not_nodup hn hk hlt (not_exists.mp hcut)
    have hperm := hall fun i => orders (i - 1)
    exact hnodup (List.Nodup.of_map _ (hperm.nodup_iff.mpr (nodup_columns hkey)))
  · intro hcut orders
    refine List.Perm.map _ ?_
    have hpages := pages_perm (m := pageCount (rows.filter f.accepts).length n) fun i k _ =>
      take_sort_perm hcut (orders (i + 1)) RowOrder.arbitrary k
    have hsort := RowOrder.arbitrary.perm (rows.filter f.accepts)
    have hlast : (rows.filter f.accepts).length ≤
        pageCount (rows.filter f.accepts).length n * n := by
      by_contra hlt
      exact Nat.lt_irrefl _ ((lt_pageCount hn).mpr (Nat.lt_of_not_le hlt))
    rw [List.take_of_length_le (by rw [hsort.length_eq]; exact hlast)] at hpages
    exact hpages.trans hsort

section Samples

/-- A row as the gateway inserts it, without a creation time. -/
def untimedRow (queryID : GoString) : QueryRecord :=
  { queryID, backendURL := str "http://a", externalURL := str "http://a", userName := str "alice",
    source := [] }

def latestRow : QueryRecord := { untimedRow (str "q2") with createdAt := 1 }

end Samples

theorem pages_partition_iff_distinct :
    PagesPartition [untimedRow (str "q1"), latestRow] { page := 1, pageSize := 1 } 1 := by
  refine (pages_partition_iff (by decide) (by decide) _ (by decide)).mpr ?_
  intro k hk hlt
  obtain rfl : k = 1 := by
    change k * 1 < 2 at hlt
    omega
  exact ⟨1, by decide⟩

/-- Two rows of one instant: the first can be on both pages and the second on none. -/
theorem row_on_both_pages :
    (∃ o o' : RowOrder,
      (HistoryStore.mk o [untimedRow (str "q1"), untimedRow (str "q2")] none none
          .postgres).findByFilter { page := 1, pageSize := 1 } =
        .ok ([untimedRow (str "q1")], 2) ∧
      (HistoryStore.mk o' [untimedRow (str "q1"), untimedRow (str "q2")] none none
          .postgres).findByFilter { page := 2, pageSize := 1 } =
        .ok ([untimedRow (str "q1")], 2)) ∧
      ¬ PagesPartition [untimedRow (str "q1"), untimedRow (str "q2")]
        { page := 1, pageSize := 1 } 1 := by
  have hdesc : ∀ a b : GoString, [untimedRow a, untimedRow b].Pairwise fun r r' =>
      r'.createdAt ≤ r.createdAt := by
    intro a b
    exact List.pairwise_pair.mpr (Int.le_refl _)
  have hfilter : [untimedRow (str "q1"), untimedRow (str "q2")].filter
      (HistoryFilter.accepts { page := 1, pageSize := 1 }) =
        [untimedRow (str "q1"), untimedRow (str "q2")] := rfl
  let o := RowOrder.of _ (hdesc (str "q1") (str "q2"))
  let o' := RowOrder.of _ (hdesc (str "q2") (str "q1"))
  have hfirst : (HistoryStore.mk o [untimedRow (str "q1"), untimedRow (str "q2")] none none
      .postgres).findByFilter { page := 1, pageSize := 1 } = .ok ([untimedRow (str "q1")], 2) := by
    refine (findByFilter_page _ o _ { page := 1, pageSize := 1 } (n := 1) (i := 0) (by decide)
      (by decide)).trans ?_
    rw [hfilter, show o.sort _ = _ from RowOrder.of_sort _ (List.Perm.refl _)]
    rfl
  have hsecond : (HistoryStore.mk o' [untimedRow (str "q1"), untimedRow (str "q2")] none none
      .postgres).findByFilter { page := 2, pageSize := 1 } = .ok ([untimedRow (str "q1")], 2) := by
    refine (findByFilter_page _ o' _ { page := 1, pageSize := 1 } (n := 1) (i := 1) (by decide)
      (by decide)).trans ?_
    rw [hfilter, show o'.sort _ = _ from RowOrder.of_sort _ (List.Perm.swap _ _ _)]
    rfl
  refine ⟨⟨o, o', hfirst, hsecond⟩, ?_⟩
  intro hall
  obtain ⟨pages, hpages, hperm⟩ := hall .postgres fun k => if k = 1 then o else o'
  have hone := (Prod.mk.inj (Except.ok.inj ((hpages 1 (by decide) (by decide)).symm.trans
    hfirst))).1
  have htwo := (Prod.mk.inj (Except.ok.inj ((hpages 2 (by decide) (by decide)).symm.trans
    hsecond))).1
  change (pages 1 ++ (pages 2 ++ [])).Perm _ at hperm
  rw [hone, htwo] at hperm
  revert hperm
  decide

end TrinoGoway.Persistence
