import Mathlib.Data.List.Induction
import Mathlib.Data.List.Nodup
import Mathlib.Data.Finset.Card
import Mathlib.Data.Finset.Insert

/-! An exact bounded least-recently-used cache, and when it still holds a key. -/
namespace Lru

variable {κ ν : Type} [DecidableEq κ] {cap : ℕ}

/-- Entries are kept with the most recently used first. -/
structure Cache (κ ν : Type) (cap : ℕ) where
  entries : List (κ × ν)
  nodup : (entries.map Prod.fst).Nodup
  bounded : entries.length ≤ cap

namespace Cache

def empty : Cache κ ν cap := ⟨[], List.nodup_nil, Nat.zero_le _⟩

def keys (c : Cache κ ν cap) : List κ := c.entries.map Prod.fst

def lookup (c : Cache κ ν cap) (k : κ) : Option ν :=
  (c.entries.find? fun e => e.1 = k).map Prod.snd

private theorem filter_key_nodup (k : κ) (v : ν) {l : List (κ × ν)}
    (h : (l.map Prod.fst).Nodup) :
    (((k, v) :: l.filter fun e => e.1 ≠ k).map Prod.fst).Nodup := by
  rw [List.map_cons, List.nodup_cons]
  constructor
  · simp
  · exact h.sublist (List.filter_sublist.map _)

/-- Store `v` under `k` as the most recent entry; the oldest entry is dropped when full. -/
def add (c : Cache κ ν cap) (k : κ) (v : ν) : Cache κ ν cap where
  entries := ((k, v) :: c.entries.filter fun e => e.1 ≠ k).take cap
  nodup := (filter_key_nodup k v c.nodup).sublist ((List.take_sublist _ _).map _)
  bounded := List.length_take_le _ _

/-- A hit makes the entry the most recent one. It was counted already, so none is dropped. -/
def touch (c : Cache κ ν cap) (k : κ) : Cache κ ν cap :=
  match c.lookup k with
  | some v => c.add k v
  | none => c

theorem touch_eq_add {c : Cache κ ν cap} {k : κ} {v : ν} (h : c.lookup k = some v) :
    c.touch k = c.add k v := by
  simp [touch, h]

theorem touch_of_none {c : Cache κ ν cap} {k : κ} (h : c.lookup k = none) : c.touch k = c := by
  simp [touch, h]

theorem keys_add (c : Cache κ ν cap) (k : κ) (v : ν) :
    (c.add k v).keys = (k :: c.keys.filter (· ≠ k)).take cap := by
  simp only [keys, add, List.map_take, List.map_cons]
  rw [List.filter_map]
  rfl

theorem lookup_add_self (c : Cache κ ν cap) (k : κ) (v : ν) (hc : 0 < cap) :
    (c.add k v).lookup k = some v := by
  obtain ⟨n, rfl⟩ := Nat.exists_eq_succ_of_ne_zero hc.ne'
  simp [lookup, add]

private theorem find_take_filter {l : List (κ × ν)} {k k' : κ} (hk : k ≠ k') (n : ℕ) {e : κ × ν}
    (h : ((l.filter fun e => e.1 ≠ k').take n).find? (fun e => e.1 = k) = some e) :
    l.find? (fun e => e.1 = k) = some e := by
  have hf : (l.filter fun e => e.1 ≠ k').find? (fun e => e.1 = k) = some e :=
    List.IsPrefix.find?_eq_some (List.take_prefix n _) h
  rw [List.find?_filter] at hf
  rw [← hf]
  congr 1
  funext a
  by_cases ha : a.1 = k
  · simp [ha, hk]
  · simp [ha]

/-- Storing another key never changes a value, though it may drop one. -/
theorem lookup_of_lookup_add {c : Cache κ ν cap} {k k' : κ} {v w : ν} (hk : k ≠ k')
    (h : (c.add k' v).lookup k = some w) : c.lookup k = some w := by
  simp only [lookup, add, Option.map_eq_some_iff] at h ⊢
  obtain ⟨e, he, rfl⟩ := h
  refine ⟨e, ?_, rfl⟩
  cases cap with
  | zero => simp at he
  | succ n =>
    rw [List.take_succ_cons, List.find?_cons_of_neg (by simpa using Ne.symm hk)] at he
    exact find_take_filter hk n he

theorem lookup_of_lookup_touch {c : Cache κ ν cap} {k k' : κ} {v : ν}
    (h : (c.touch k').lookup k = some v) : c.lookup k = some v := by
  cases hk' : c.lookup k' with
  | none => rwa [touch_of_none hk'] at h
  | some w =>
    rw [touch_eq_add hk'] at h
    by_cases hk : k = k'
    · subst hk
      rcases Nat.eq_zero_or_pos cap with rfl | hc
      · have hz : (c.add k w).entries = [] :=
          List.eq_nil_of_length_eq_zero (Nat.le_zero.mp (c.add k w).bounded)
        simp [lookup, hz] at h
      · rwa [lookup_add_self c k w hc, ← hk'] at h
    · exact lookup_of_lookup_add hk h

theorem lookup_isSome_iff (c : Cache κ ν cap) (k : κ) : (c.lookup k).isSome ↔ k ∈ c.keys := by
  simp [lookup, keys, List.find?_isSome]

end Cache

/-- The uses of the cache that change its order: a hit, or a stored value. -/
inductive Use (κ ν : Type)
  | hit (k : κ)
  | write (k : κ) (v : ν)

namespace Use

def key : Use κ ν → κ
  | hit k => k
  | write k _ => k

end Use

/-- The caches that a sequence of uses can produce, starting from the empty one. -/
inductive After (κ ν : Type) [DecidableEq κ] (cap : ℕ) : List (Use κ ν) → Cache κ ν cap → Prop
  | empty : After κ ν cap [] .empty
  | hit {l : List (Use κ ν)} {c : Cache κ ν cap} {k : κ} {v : ν} :
      After κ ν cap l c → c.lookup k = some v → After κ ν cap (l ++ [.hit k]) (c.touch k)
  | write {l : List (Use κ ν)} {c : Cache κ ν cap} (k : κ) (v : ν) :
      After κ ν cap l c → After κ ν cap (l ++ [.write k v]) (c.add k v)

def recent (k : κ) (l : List (Use κ ν)) : Finset κ :=
  l.foldl (fun acc u => if u.key = k then ∅ else insert u.key acc) ∅

/-- The value last written under `k`: what an unbounded store would answer. -/
def lastWrite (k : κ) (l : List (Use κ ν)) : Option ν :=
  l.foldl (fun acc u => match u with
    | .hit _ => acc
    | .write k' v => if k' = k then some v else acc) none

@[simp] theorem recent_snoc (k : κ) (l : List (Use κ ν)) (u : Use κ ν) :
    recent k (l ++ [u]) = if u.key = k then ∅ else insert u.key (recent k l) := by
  simp [recent]

@[simp] theorem lastWrite_snoc_hit (k k' : κ) (l : List (Use κ ν)) :
    lastWrite k (l ++ [.hit k']) = lastWrite k l := by
  simp [lastWrite]

@[simp] theorem lastWrite_snoc_write (k k' : κ) (v : ν) (l : List (Use κ ν)) :
    lastWrite k (l ++ [.write k' v]) = if k' = k then some v else lastWrite k l := by
  simp [lastWrite]

/-- Uses after a write that do not write its key again leave it the last one. -/
theorem lastWrite_append_write (k : κ) (v : ν) (l l' : List (Use κ ν))
    (h : ∀ w, Use.write k w ∉ l') : lastWrite k (l ++ .write k v :: l') = some v := by
  induction l' using List.reverseRecOn with
  | nil => simp
  | append_singleton l' u ih =>
    have ih := ih fun w hw => h w (List.mem_append_left _ hw)
    rw [← List.cons_append, ← List.append_assoc]
    cases u with
    | hit k' => rw [lastWrite_snoc_hit, ih]
    | write k' w =>
      have hk : k' ≠ k := by
        rintro rfl
        exact h w (by simp)
      rw [lastWrite_snoc_write, if_neg hk, ih]

theorem write_mem_of_lastWrite {k : κ} {v : ν} {l : List (Use κ ν)} (h : lastWrite k l = some v) :
    Use.write k v ∈ l := by
  induction l using List.reverseRecOn with
  | nil => cases h
  | append_singleton l u ih =>
    cases u with
    | hit k' =>
      rw [lastWrite_snoc_hit] at h
      exact List.mem_append_left _ (ih h)
    | write k' w =>
      rw [lastWrite_snoc_write] at h
      split at h
      · next hk =>
        obtain rfl := Option.some.inj h
        simp [hk]
      · exact List.mem_append_left _ (ih h)

section Ahead

private def ahead (k : κ) (l : List κ) : List κ := l.takeWhile (· ≠ k)

private theorem ahead_filter {k k' : κ} (hk : k ≠ k') {l : List κ} (hl : k ∈ l) :
    ahead k (l.filter (· ≠ k')) = (ahead k l).filter (· ≠ k') := by
  induction l with
  | nil => simp at hl
  | cons x l ih =>
    by_cases hx : x = k
    · subst hx
      simp [ahead, hk]
    · have hl' : k ∈ l := by simpa [Ne.symm hx] using hl
      have ih := ih hl'
      simp only [ahead] at ih ⊢
      by_cases hx' : x = k'
      · subst hx'
        simpa [hx] using ih
      · simpa [hx, hx'] using ih

private theorem mem_take_of_ahead {k : κ} {l : List κ} (hl : k ∈ l) {n : ℕ}
    (hn : (ahead k l).length < n) : k ∈ l.take n := by
  induction l generalizing n with
  | nil => simp at hl
  | cons x l ih =>
    cases n with
    | zero => simp at hn
    | succ n =>
      by_cases hx : x = k
      · simp [hx]
      · have hl' : k ∈ l := by simpa [Ne.symm hx] using hl
        have hn' : (ahead k l).length < n := by simpa [ahead, hx] using hn
        exact List.mem_cons_of_mem _ (ih hl' hn')

private theorem ahead_take_subset (k : κ) (l : List κ) (n : ℕ) :
    ahead k (l.take n) ⊆ ahead k l := by
  induction l generalizing n with
  | nil => simp
  | cons x l ih =>
    cases n with
    | zero => simp [ahead]
    | succ n =>
      by_cases hx : x = k
      · simp [ahead, hx]
      · have h := ih n
        simp only [ahead] at h
        simpa [ahead, hx] using List.cons_subset_cons x h

end Ahead

/-- What the uses so far say about the entry of one key. -/
private structure Tracks (k : κ) (l : List (Use κ ν)) (c : Cache κ ν cap) : Prop where
  value : ∀ v, c.lookup k = some v → lastWrite k l = some v
  ahead : k ∈ c.keys → ∀ x ∈ ahead k c.keys, x ∈ recent k l
  kept : (lastWrite k l).isSome → (recent k l).card < cap → k ∈ c.keys

private theorem Tracks.use_self {k : κ} {v : ν} {l : List (Use κ ν)} {c : Cache κ ν cap}
    (hw : lastWrite k l = some v) (hr : recent k l = ∅) : Tracks k l (c.add k v) where
  value w hw' := by
    rcases Nat.eq_zero_or_pos cap with rfl | hc
    · have hz : (c.add k v).entries = [] := List.eq_nil_of_length_eq_zero
        (Nat.le_zero.mp (c.add k v).bounded)
      simp [Cache.lookup, hz] at hw'
    · rw [Cache.lookup_add_self c k v hc] at hw'
      rw [hw, hw']
  ahead _ x hx := by
    rw [Cache.keys_add] at hx
    have hx' := ahead_take_subset k _ cap hx
    simp [Lru.ahead] at hx'
  kept _ hc := by
    rw [Cache.keys_add]
    rw [hr, Finset.card_empty] at hc
    exact mem_take_of_ahead (by simp) (by simpa [Lru.ahead] using hc)

private theorem ahead_cons_filter {k k' : κ} {ks : List κ} (hk : k ≠ k') (hks : k ∈ ks) :
    Lru.ahead k (k' :: ks.filter (· ≠ k')) = k' :: (Lru.ahead k ks).filter (· ≠ k') := by
  rw [← ahead_filter hk hks]
  simp [Lru.ahead, Ne.symm hk]

/-- Using another key moves at most that one key in front of `k`. -/
private theorem Tracks.use_other {k k' : κ} {v : ν} {l l' : List (Use κ ν)} {c : Cache κ ν cap}
    (h : Tracks k l c) (hk : k ≠ k') (hw : lastWrite k l' = lastWrite k l)
    (hr : recent k l' = insert k' (recent k l)) : Tracks k l' (c.add k' v) where
  value w hw' := by
    rw [hw]
    exact h.value w (Cache.lookup_of_lookup_add hk hw')
  ahead hmem x hx := by
    rw [Cache.keys_add] at hmem hx
    have hkc : k ∈ c.keys := by
      have := List.mem_of_mem_take hmem
      simpa [hk] using this
    have hx' := ahead_take_subset k _ cap hx
    rw [hr, Finset.mem_insert]
    rw [ahead_cons_filter hk hkc, List.mem_cons] at hx'
    exact hx'.imp_right fun hm => h.ahead hkc x (List.mem_of_mem_filter hm)
  kept hsome hc := by
    rw [hw] at hsome
    rw [hr] at hc
    have hkc : k ∈ c.keys :=
      h.kept hsome (lt_of_le_of_lt (Finset.card_le_card (Finset.subset_insert _ _)) hc)
    have hmem : k ∈ k' :: c.keys.filter (· ≠ k') := by simp [hk, hkc]
    rw [Cache.keys_add]
    refine mem_take_of_ahead hmem (lt_of_le_of_lt ?_ hc)
    -- the keys ahead of `k` are distinct and all recent, so there are at most that many
    have hnd : (Lru.ahead k (k' :: c.keys.filter (· ≠ k'))).Nodup := by
      refine List.Nodup.sublist (List.takeWhile_sublist _) (List.nodup_cons.mpr ⟨by simp, ?_⟩)
      exact c.nodup.sublist List.filter_sublist
    rw [← List.toFinset_card_of_nodup hnd]
    refine Finset.card_le_card fun x hx => ?_
    rw [List.mem_toFinset, ahead_cons_filter hk hkc, List.mem_cons] at hx
    rw [Finset.mem_insert]
    exact hx.imp_right fun hm => h.ahead hkc x (List.mem_of_mem_filter hm)

private theorem After.tracks {l : List (Use κ ν)} {c : Cache κ ν cap} (h : After κ ν cap l c)
    (k : κ) : Tracks k l c := by
  induction h with
  | empty =>
    exact ⟨by simp [Cache.lookup, Cache.empty], by simp [Cache.keys, Cache.empty],
      by simp [lastWrite]⟩
  | @hit l c k' v _ hv ih =>
    rw [Cache.touch_eq_add hv]
    by_cases hk : k = k'
    · subst hk
      exact Tracks.use_self (by rw [lastWrite_snoc_hit]; exact ih.value v hv)
        (by simp [Use.key])
    · exact ih.use_other hk (by simp) (by simp [Use.key, Ne.symm hk])
  | @write l c k' v _ ih =>
    by_cases hk : k = k'
    · subst hk
      exact Tracks.use_self (by simp) (by simp [Use.key])
    · exact ih.use_other hk (by simp [Ne.symm hk]) (by simp [Use.key, Ne.symm hk])

theorem After.lookup_sound {l : List (Use κ ν)} {c : Cache κ ν cap} (h : After κ ν cap l c)
    {k : κ} {v : ν} (hv : c.lookup k = some v) : lastWrite k l = some v :=
  (h.tracks k).value v hv

/-- A written key is still there while fewer than `cap` other keys were used since. -/
theorem After.lookup_complete {l : List (Use κ ν)} {c : Cache κ ν cap} (h : After κ ν cap l c)
    {k : κ} {v : ν} (hw : lastWrite k l = some v) (hc : (recent k l).card < cap) :
    c.lookup k = some v := by
  have hk : k ∈ c.keys := (h.tracks k).kept (by simp [hw]) hc
  obtain ⟨w, hw'⟩ := Option.isSome_iff_exists.mp ((c.lookup_isSome_iff k).mpr hk)
  rw [hw', ← (h.lookup_sound hw').symm.trans hw |> Option.some.inj]

end Lru
