import Mathlib.Data.Int.Notation
import Mathlib.Data.List.Nodup
import Mathlib.Data.List.TakeDrop

/-! Go strings, maps, errors and instants. A Go string is a sequence of bytes, in any
encoding or none. -/
namespace Go

abbrev GoString := List UInt8

instance decidableMem (s : GoString) (ss : List GoString) : Decidable (s ∈ ss) :=
  List.instDecidableMemOfLawfulBEq s ss

def str (s : String) : GoString := s.toUTF8.data.toList

structure GoError where
  message : GoString
  deriving DecidableEq

def GoError.wrap (context : String) (e : GoError) : GoError := ⟨str context ++ e.message⟩

/-- An instant, in nanoseconds since the zero `time.Time` (1 January of year 1, UTC). -/
abbrev Time := ℤ

abbrev Duration := ℤ

def Time.unixMilli (t : Time) : ℤ := (t - 62135596800 * 1000000000) / 1000000

def Time.ofUnixMilli (ms : ℤ) : Time := ms * 1000000 + 62135596800 * 1000000000

namespace Byte

abbrev tab : UInt8 := 9
abbrev newline : UInt8 := 10
abbrev formFeed : UInt8 := 12
abbrev carriageReturn : UInt8 := 13
abbrev space : UInt8 := 32
abbrev doubleQuote : UInt8 := 34
abbrev hash : UInt8 := 35
abbrev percent : UInt8 := 37
abbrev ampersand : UInt8 := 38
abbrev quote : UInt8 := 39
abbrev plus : UInt8 := 43
abbrev comma : UInt8 := 44
abbrev minus : UInt8 := 45
abbrev period : UInt8 := 46
abbrev slash : UInt8 := 47
abbrev colon : UInt8 := 58
abbrev semicolon : UInt8 := 59
abbrev equals : UInt8 := 61
abbrev question : UInt8 := 63
abbrev openBracket : UInt8 := 91
abbrev backslash : UInt8 := 92
abbrev closeBracket : UInt8 := 93
abbrev underscore : UInt8 := 95

def isDigit (b : UInt8) : Bool := 48 ≤ b && b ≤ 57
def isUpper (b : UInt8) : Bool := 65 ≤ b && b ≤ 90
def isLower (b : UInt8) : Bool := 97 ≤ b && b ≤ 122
def isAlpha (b : UInt8) : Bool := isUpper b || isLower b

def isWord (b : UInt8) : Bool := isDigit b || isAlpha b || b == underscore

def toLower (b : UInt8) : UInt8 := if isUpper b then b + 32 else b
def toUpper (b : UInt8) : UInt8 := if isLower b then b - 32 else b

/-- What holds for the 256 values holds for every byte. -/
theorem forall_of_ofNat {P : UInt8 → Prop} (h : ∀ m < 256, P (.ofNat m)) (b : UInt8) : P b := by
  have hb : UInt8.ofNat b.toNat = b := by simp
  rw [← hb]
  exact h b.toNat b.toNat_lt

end Byte

def hasPrefix (s p : GoString) : Bool := p.isPrefixOf s

/-- `strings.ToUpper`; `other` is what it does to texts that are not ASCII. -/
def toUpper (other : GoString → GoString) (s : GoString) : GoString :=
  if s.all (· < 128) then s.map Byte.toUpper else other s

/-- Equality of ASCII strings up to the case of letters. -/
def equalFold (s t : GoString) : Bool := s.map Byte.toLower == t.map Byte.toLower

/-- The text before the first byte `b`, and the text after it when there is one. -/
def cut (b : UInt8) (s : GoString) : GoString × Option GoString :=
  match s.span (· != b) with
  | (l, []) => (l, none)
  | (l, _ :: r) => (l, some r)

/-- All pieces between the bytes `b`, as in `strings.Split` with a one-byte separator. -/
def split (b : UInt8) : GoString → List GoString
  | [] => [[]]
  | c :: s =>
    if c = b then [] :: split b s
    else
      match split b s with
      | [] => [[c]]
      | p :: ps => (c :: p) :: ps

def trim (p : UInt8 → Bool) (s : GoString) : GoString :=
  ((s.dropWhile p).reverse.dropWhile p).reverse

/-- The encodings of the runes for which `unicode.IsSpace` holds. -/
def spaceRunes : List GoString :=
  [[9], [10], [11], [12], [13], [32], [194, 133], [194, 160], [225, 154, 128], [226, 128, 128],
    [226, 128, 129], [226, 128, 130], [226, 128, 131], [226, 128, 132], [226, 128, 133],
    [226, 128, 134], [226, 128, 135], [226, 128, 136], [226, 128, 137], [226, 128, 138],
    [226, 128, 168], [226, 128, 169], [226, 128, 175], [226, 129, 159], [227, 128, 128]]

-- drops leading members of `runes`; the length of `s` is enough fuel
private def dropRunes (runes : List GoString) : ℕ → GoString → GoString
  | 0, s => s
  | n + 1, s =>
    match runes.find? (·.isPrefixOf s) with
    | some r => dropRunes runes n (s.drop r.length)
    | none => s

def trimSpace (s : GoString) : GoString :=
  let t := dropRunes spaceRunes s.length s
  (dropRunes (spaceRunes.map List.reverse) t.length t.reverse).reverse

private theorem dropRunes_of_head {runes : List GoString} {c : UInt8} (t : GoString)
    (hne : ∀ r ∈ runes, r ≠ []) (hc : ∀ r ∈ runes, r.head? ≠ some c) (n : ℕ) :
    dropRunes runes n (c :: t) = c :: t := by
  cases n with
  | zero => rfl
  | succ n =>
    have hnone : runes.find? (·.isPrefixOf (c :: t)) = none := by
      rw [List.find?_eq_none]
      intro r hr hpre
      obtain ⟨a, r', rfl⟩ := List.exists_cons_of_ne_nil (hne r hr)
      obtain ⟨rfl, -⟩ := List.cons_prefix_cons.mp (List.isPrefixOf_iff_prefix.mp hpre)
      exact hc _ hr rfl
    rw [dropRunes, hnone]

/-- A text that neither begins nor ends with a byte of a space is left as it is. -/
theorem trimSpace_of_ends {c d : UInt8} {s : GoString} (hhead : s.head? = some c)
    (hlast : s.getLast? = some d) (hc : ∀ r ∈ spaceRunes, r.head? ≠ some c)
    (hd : ∀ r ∈ spaceRunes, r.getLast? ≠ some d) : trimSpace s = s := by
  have hne : ∀ r ∈ spaceRunes, r ≠ [] := by decide
  have hfront : dropRunes spaceRunes s.length s = s := by
    obtain ⟨t, rfl⟩ := List.head?_eq_some_iff.mp hhead
    exact dropRunes_of_head t hne hc _
  have hback : dropRunes (spaceRunes.map List.reverse) s.length s.reverse = s.reverse := by
    rw [← List.head?_reverse] at hlast
    obtain ⟨t, ht⟩ := List.head?_eq_some_iff.mp hlast
    rw [ht]
    refine dropRunes_of_head t (fun r hr => ?_) (fun r hr => ?_) _
    · obtain ⟨r', hr', rfl⟩ := List.mem_map.mp hr
      exact List.reverse_ne_nil_iff.mpr (hne r' hr')
    · obtain ⟨r', hr', rfl⟩ := List.mem_map.mp hr
      rw [List.head?_reverse]
      exact hd r' hr'
  rw [trimSpace, hfront, hback, List.reverse_reverse]

def join (ss : List GoString) (sep : GoString) : GoString := (ss.intersperse sep).flatten

private def hexDigit (n : UInt8) : UInt8 := if n < 10 then 48 + n else 87 + n

private def escapeByte (b : UInt8) : GoString :=
  if b = Byte.doubleQuote ∨ b = Byte.backslash then [Byte.backslash, b]
  else if b = 7 then str "\\a"
  else if b = 8 then str "\\b"
  else if b = Byte.formFeed then str "\\f"
  else if b = Byte.newline then str "\\n"
  else if b = Byte.carriageReturn then str "\\r"
  else if b = Byte.tab then str "\\t"
  else if b = 11 then str "\\v"
  else if b < 32 ∨ b = 127 then str "\\x" ++ [hexDigit (b / 16), hexDigit (b % 16)]
  else [b]

/-- The verb `%q`, for texts that hold nothing unprintable beyond ASCII. -/
def quoted (s : GoString) : GoString :=
  [Byte.doubleQuote] ++ s.flatMap escapeByte ++ [Byte.doubleQuote]

theorem not_mem_quoted (s : GoString) : Byte.newline ∉ quoted s := by
  have hescape : ∀ b : UInt8, Byte.newline ∉ escapeByte b :=
    Byte.forall_of_ofNat (by decide +kernel)
  simp only [quoted, List.mem_append, List.mem_flatMap, List.mem_singleton, not_or, not_exists,
    not_and]
  exact ⟨⟨by decide, fun b _ => hescape b⟩, by decide⟩

/-- The text before the last byte `b`, and the text after it; `none` when there is no `b`. -/
def cutLast (b : UInt8) (s : GoString) : Option (GoString × GoString) :=
  match s.reverse.span (· != b) with
  | (_, []) => none
  | (r, _ :: l) => some (l.reverse, r.reverse)

section Pieces

theorem split_ne_nil (b : UInt8) (s : GoString) : split b s ≠ [] := by
  cases s with
  | nil => simp [split]
  | cons c s =>
    unfold split
    split
    · simp
    · split <;> simp

theorem split_append (b : UInt8) (s t : GoString) :
    split b (s ++ b :: t) = split b s ++ split b t := by
  induction s with
  | nil => simp [split]
  | cons c s ih =>
    rw [List.cons_append]
    by_cases hc : c = b
    · simp [split, hc, ih]
    · cases hs : split b s with
      | nil => exact absurd hs (split_ne_nil b s)
      | cons p ps => simp [split, hc, ih, hs]

theorem split_of_not_mem {b : UInt8} {s : GoString} (h : b ∉ s) : split b s = [s] := by
  induction s with
  | nil => rfl
  | cons c s ih =>
    rw [List.mem_cons, not_or] at h
    simp [split, Ne.symm h.1, ih h.2]

theorem trim_cons {p : UInt8 → Bool} {c : UInt8} (hc : p c = true) (s : GoString) :
    trim p (c :: s) = trim p s := by
  simp [trim, hc]

theorem trim_of_forall {p : UInt8 → Bool} {s : GoString} (h : ∀ c ∈ s, p c = false) :
    trim p s = s := by
  have hdrop : ∀ {t : GoString}, (∀ c ∈ t, p c = false) → t.dropWhile p = t := by
    intro t ht
    cases t with
    | nil => rfl
    | cons c t => simp [ht c (by simp)]
  unfold trim
  rw [hdrop h, hdrop (by simpa using h), List.reverse_reverse]

theorem cut_fst (b : UInt8) (s : GoString) : (cut b s).1 = s.takeWhile (· != b) := by
  unfold cut
  rw [List.span_eq_takeWhile_dropWhile]
  cases s.dropWhile (· != b) with
  | nil => rfl
  | cons c t => rfl

theorem not_mem_cut_fst (b : UInt8) (s : GoString) : b ∉ (cut b s).1 := by
  rw [cut_fst]
  intro h
  simpa using List.all_eq_true.mp List.all_takeWhile b h

theorem cut_cons_self (b : UInt8) (s : GoString) : cut b (b :: s) = ([], some s) := by
  simp [cut, List.span_eq_takeWhile_dropWhile]

theorem cut_append {b : UInt8} {l : GoString} (h : b ∉ l) (s : GoString) :
    cut b (l ++ s) = (l ++ (cut b s).1, (cut b s).2) := by
  have hall : ∀ c ∈ l, (c != b) = true := by
    intro c hc
    rw [bne_iff_ne]
    rintro rfl
    exact h hc
  unfold cut
  rw [List.span_eq_takeWhile_dropWhile, List.span_eq_takeWhile_dropWhile,
    List.takeWhile_append_of_pos hall, List.dropWhile_append_of_pos hall]
  cases s.dropWhile (· != b) with
  | nil => rfl
  | cons c t => rfl

theorem cut_of_not_mem {b : UInt8} {s : GoString} (h : b ∉ s) : cut b s = (s, none) := by
  have hcut := cut_append h []
  rw [List.append_nil] at hcut
  rw [hcut]
  simp [cut]

theorem eq_append_of_cut {b : UInt8} {s l r : GoString} (h : cut b s = (l, some r)) :
    s = l ++ b :: r := by
  unfold cut at h
  rw [List.span_eq_takeWhile_dropWhile] at h
  have hs := List.takeWhile_append_dropWhile (p := (· != b)) (l := s)
  cases hd : s.dropWhile (· != b) with
  | nil => simp [hd] at h
  | cons c t =>
    have hc : (c != b) = false := by
      have hne : s.dropWhile (· != b) ≠ [] := by simp [hd]
      simpa [hd] using List.head_dropWhile_not (· != b) hne
    simp only [hd, Prod.mk.injEq, Option.some.injEq] at h
    obtain rfl : c = b := by simpa using hc
    rw [← hs, hd, h.1, h.2]

theorem cutLast_append {b : UInt8} (l : GoString) {r : GoString} (h : b ∉ r) :
    cutLast b (l ++ b :: r) = some (l, r) := by
  have hall : ∀ c ∈ r.reverse, (c != b) = true := by
    intro c hc
    rw [bne_iff_ne]
    rintro rfl
    exact h (List.mem_reverse.mp hc)
  have hspan : (l ++ b :: r).reverse.span (· != b) = (r.reverse, b :: l.reverse) := by
    rw [List.span_eq_takeWhile_dropWhile, List.reverse_append, List.reverse_cons, List.append_assoc,
      List.takeWhile_append_of_pos hall, List.dropWhile_append_of_pos hall]
    simp
  unfold cutLast
  rw [hspan]
  simp

end Pieces

/-- A Go map with string keys: every key at most once, in no meaningful order. -/
structure GoMap (α : Type) where
  entries : List (GoString × α)
  nodup : (entries.map Prod.fst).Nodup
  deriving DecidableEq

namespace GoMap

variable {α : Type}

def empty : GoMap α := ⟨[], List.nodup_nil⟩

def get? (m : GoMap α) (k : GoString) : Option α :=
  (m.entries.find? fun e => e.1 = k).map Prod.snd

def filterKeys (m : GoMap α) (p : GoString → Bool) : GoMap α where
  entries := m.entries.filter fun e => p e.1
  nodup := m.nodup.sublist (List.filter_sublist.map _)

def set (m : GoMap α) (k : GoString) (v : α) : GoMap α where
  entries := (k, v) :: m.entries.filter fun e => e.1 ≠ k
  nodup := by
    rw [List.map_cons, List.nodup_cons]
    exact ⟨by simp, m.nodup.sublist (List.filter_sublist.map _)⟩

def mapVals {β : Type} (m : GoMap α) (f : α → β) : GoMap β where
  entries := m.entries.map fun e => (e.1, f e.2)
  nodup := by
    have h : (m.entries.map fun e => (e.1, f e.2)).map Prod.fst = m.entries.map Prod.fst := by
      simp [List.map_map, Function.comp_def]
    rw [h]
    exact m.nodup

section Laws

variable {α β : Type} {m : GoMap α} {k k' : GoString} {v : α}

private theorem find?_key_of_mem {l : List (GoString × α)} (hl : (l.map Prod.fst).Nodup)
    (h : (k, v) ∈ l) : l.find? (fun e => e.1 = k) = some (k, v) := by
  induction l with
  | nil => cases h
  | cons e l ih =>
    rw [List.map_cons, List.nodup_cons] at hl
    by_cases he : e.1 = k
    · have hnot : (k, v) ∉ l := by
        intro hmem
        apply hl.1
        rw [he]
        exact List.mem_map_of_mem (f := Prod.fst) hmem
      have heq : (k, v) = e := (List.mem_cons.mp h).resolve_right hnot
      rw [← heq]
      simp
    · have hmem : (k, v) ∈ l := by
        apply (List.mem_cons.mp h).resolve_left
        rintro rfl
        exact he rfl
      rw [List.find?_cons_of_neg (by simpa using he)]
      exact ih hl.2 hmem

theorem get?_eq_some : m.get? k = some v ↔ (k, v) ∈ m.entries := by
  unfold get?
  constructor
  · intro h
    obtain ⟨e, he, rfl⟩ := Option.map_eq_some_iff.mp h
    have hkey : e.1 = k := by simpa using List.find?_some he
    rw [← hkey]
    exact List.mem_of_find?_eq_some he
  · intro h
    rw [find?_key_of_mem m.nodup h]
    rfl

theorem get?_set : (m.set k v).get? k' = if k' = k then some v else m.get? k' := by
  ext v'
  rw [get?_eq_some]
  unfold set
  split
  · rename_i h
    subst h
    simp [eq_comm]
  · rename_i h
    simp [h, get?_eq_some]

theorem get?_filterKeys {p : GoString → Bool} :
    (m.filterKeys p).get? k = if p k then m.get? k else none := by
  ext v'
  rw [get?_eq_some]
  unfold filterKeys
  split
  · rename_i h
    simp [h, get?_eq_some]
  · rename_i h
    simp [h]

theorem filterKeys_comm (m : GoMap α) (p q : GoString → Bool) :
    (m.filterKeys p).filterKeys q = (m.filterKeys q).filterKeys p := by
  unfold filterKeys
  congr 1
  exact List.filter_comm _ _ _

theorem filterKeys_set {p : GoString → Bool} :
    (m.set k v).filterKeys p = if p k then (m.filterKeys p).set k v else m.filterKeys p := by
  unfold filterKeys set
  split
  · rename_i h
    congr 1
    rw [List.filter_cons_of_pos (by exact h), List.filter_comm]
  · rename_i h
    congr 1
    rw [List.filter_cons_of_neg (by exact h), List.filter_filter]
    refine List.filter_congr fun e _ => ?_
    by_cases he : e.1 = k
    · simp [he, h]
    · simp [he]

theorem mapVals_set (f : α → β) : (m.set k v).mapVals f = (m.mapVals f).set k (f v) := by
  unfold mapVals set
  congr 1
  rw [List.map_cons, List.filter_map]
  rfl

theorem mapVals_filterKeys (f : α → β) (p : GoString → Bool) :
    (m.filterKeys p).mapVals f = (m.mapVals f).filterKeys p := by
  unfold mapVals filterKeys
  congr 1
  rw [List.filter_map]
  rfl

/-- Ranging over a map: what the body makes true for one key, and keeps for the others, is true in
the end, in whatever order the entries come. -/
theorem foldl_entries_of_get? {σ : Type} {f : σ → GoString × α → σ} {P : σ → Prop} {s : σ}
    (h : m.get? k = some v) (hset : ∀ s, P (f s (k, v)))
    (hkeep : ∀ s e, e.1 ≠ k → P s → P (f s e)) : P (m.entries.foldl f s) := by
  rw [get?_eq_some] at h
  obtain ⟨before, after, hentries⟩ := List.append_of_mem h
  have hnodup := m.nodup
  rw [hentries, List.map_append, List.map_cons] at hnodup
  have hafter : ∀ e ∈ after, e.1 ≠ k := by
    intro e he hek
    have hmem : k ∈ after.map Prod.fst := hek ▸ List.mem_map_of_mem he
    exact (List.nodup_cons.mp (List.nodup_append.mp hnodup).2.1).1 hmem
  rw [hentries, List.foldl_append, List.foldl_cons]
  refine List.foldlRecOn after f (hset _) ?_
  intro s hs e he
  exact hkeep s e (hafter e he) hs

/-- Entries written one after the other, under their keys mapped by `f`, leave the other keys. -/
theorem get?_foldl_set_of_ne {f : GoString → GoString} {g : β → α} {es : List (GoString × β)}
    (h : ∀ e ∈ es, f e.1 ≠ k) :
    (es.foldl (fun m e => m.set (f e.1) (g e.2)) m).get? k = m.get? k := by
  induction es generalizing m with
  | nil => rfl
  | cons e es ih =>
    rw [List.forall_mem_cons] at h
    rw [List.foldl_cons, ih h.2, get?_set, if_neg (Ne.symm h.1)]

/-- The only entry written under a key is what is found there. -/
theorem get?_foldl_set_of_mem {f : GoString → GoString} {g : β → α} {es : List (GoString × β)}
    {e : GoString × β} (he : e ∈ es) (honly : ∀ e' ∈ es, f e'.1 = f e.1 → e' = e) :
    (es.foldl (fun m e => m.set (f e.1) (g e.2)) m).get? (f e.1) = some (g e.2) := by
  induction es generalizing m with
  | nil => cases he
  | cons e' es ih =>
    rw [List.foldl_cons]
    by_cases hmem : e ∈ es
    · exact ih hmem fun e'' he'' => honly e'' (List.mem_cons_of_mem e' he'')
    · obtain rfl : e = e' := (List.mem_cons.mp he).resolve_right hmem
      rw [get?_foldl_set_of_ne, get?_set, if_pos rfl]
      intro e'' he'' heq
      exact hmem (honly e'' (List.mem_cons_of_mem e he'') heq ▸ he'')

theorem get?_foldl_set_ne_none {f : β → GoString} {g : β → α} {es : List β} :
    (es.foldl (fun m e => m.set (f e) (g e)) m).get? k ≠ none ↔
      m.get? k ≠ none ∨ ∃ e ∈ es, f e = k := by
  induction es generalizing m with
  | nil => simp
  | cons e es ih =>
    rw [List.foldl_cons, ih, get?_set]
    by_cases hk : k = f e
    · simp [hk]
    · simp [hk, Ne.symm hk]

theorem isSome_get?_foldl_set {f : GoString → GoString} {g : β → α} {es : List (GoString × β)}
    (h : (m.get? k).isSome ∨ ∃ e ∈ es, f e.1 = k) :
    ((es.foldl (fun m e => m.set (f e.1) (g e.2)) m).get? k).isSome := by
  rw [Option.isSome_iff_ne_none] at h ⊢
  exact get?_foldl_set_ne_none.mpr h

theorem get?_ne_none : m.get? k ≠ none ↔ ∃ e ∈ m.entries, e.1 = k := by
  rw [Option.ne_none_iff_exists']
  constructor
  · rintro ⟨v, hv⟩
    exact ⟨(k, v), get?_eq_some.mp hv, rfl⟩
  · rintro ⟨e, he, rfl⟩
    exact ⟨e.2, get?_eq_some.mpr he⟩

theorem map_snd_entries (m : GoMap α) (d : α) :
    m.entries.map Prod.snd = (m.entries.map Prod.fst).map fun k => (m.get? k).getD d := by
  rw [List.map_map]
  refine List.map_congr_left ?_
  intro e he
  have hget : m.get? e.1 = some e.2 := get?_eq_some.mpr he
  simp [hget]

end Laws

end GoMap

end Go
