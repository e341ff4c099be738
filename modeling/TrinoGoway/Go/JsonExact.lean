import TrinoGoway.Go.JsonDoc

/-! Documents that are written and read again: what `json.Unmarshal` makes of a text survives
`json.Marshal` and a second `json.Unmarshal`. -/
namespace Go.JsonText

open Go Json

/-! ### Decoded strings are UTF-8 -/

def within (lo hi b : UInt8) : Bool := lo ≤ b && b ≤ hi

theorem within_cont {c : ℕ} (hc : c < 64) : within 0x80 0xBF (.ofNat (0x80 + c)) = true := by
  have hall : ∀ c < 64, within 0x80 0xBF (.ofNat (0x80 + c)) = true := by decide
  exact hall c hc

theorem isRune_one {r : ℕ} (h : r < 0x80) : IsRune [.ofNat r] := by
  have hall : ∀ r < 0x80, runeTail (.ofNat r) [] = some 0 := by decide
  exact ⟨_, [], rfl, hall r h⟩

theorem isRune_two {a c : ℕ} (hlo : 2 ≤ a) (ha : a < 32) (hc : c < 64) :
    IsRune [.ofNat (0xC0 + a), .ofNat (0x80 + c)] := by
  have hlead : ∀ a < 32, 2 ≤ a → ¬UInt8.ofNat (0xC0 + a) < 0x80 ∧ ¬UInt8.ofNat (0xC0 + a) < 0xC2 ∧
      UInt8.ofNat (0xC0 + a) < 0xE0 := by decide
  obtain ⟨h₁, h₂, h₃⟩ := hlead a ha hlo
  refine ⟨_, _, rfl, ?_⟩
  unfold runeTail
  simp only [if_neg h₁, if_neg h₂, if_pos h₃]
  exact if_pos (within_cont hc)

theorem isRune_three {a b c : ℕ} (ha : a < 16) (hb : b < 64) (hc : c < 64) (hlo : a = 0 → 32 ≤ b)
    (hhi : a = 13 → b < 32) :
    IsRune [.ofNat (0xE0 + a), .ofNat (0x80 + b), .ofNat (0x80 + c)] := by
  have hlead : ∀ a < 16, ¬UInt8.ofNat (0xE0 + a) < 0x80 ∧ ¬UInt8.ofNat (0xE0 + a) < 0xC2 ∧
      ¬UInt8.ofNat (0xE0 + a) < 0xE0 ∧ UInt8.ofNat (0xE0 + a) < 0xF0 := by decide
  have hsecond : ∀ a < 16, ∀ b < 64, (a = 0 → 32 ≤ b) → (a = 13 → b < 32) →
      within (if UInt8.ofNat (0xE0 + a) = 0xE0 then 0xA0 else 0x80)
        (if UInt8.ofNat (0xE0 + a) = 0xED then 0x9F else 0xBF) (.ofNat (0x80 + b)) = true := by
    decide +kernel
  obtain ⟨h₁, h₂, h₃, h₄⟩ := hlead a ha
  refine ⟨_, _, rfl, ?_⟩
  unfold runeTail
  simp only [if_neg h₁, if_neg h₂, if_neg h₃, if_pos h₄]
  exact if_pos (Bool.and_eq_true_iff.mpr ⟨hsecond a ha b hb hlo hhi, within_cont hc⟩)

theorem isRune_four {a b c d : ℕ} (ha : a < 5) (hb : b < 64) (hc : c < 64) (hd : d < 64)
    (hlo : a = 0 → 16 ≤ b) (hhi : a = 4 → b < 16) :
    IsRune [.ofNat (0xF0 + a), .ofNat (0x80 + b), .ofNat (0x80 + c), .ofNat (0x80 + d)] := by
  have hlead : ∀ a < 5, ¬UInt8.ofNat (0xF0 + a) < 0x80 ∧ ¬UInt8.ofNat (0xF0 + a) < 0xC2 ∧
      ¬UInt8.ofNat (0xF0 + a) < 0xE0 ∧ ¬UInt8.ofNat (0xF0 + a) < 0xF0 ∧
      UInt8.ofNat (0xF0 + a) < 0xF5 := by decide
  have hsecond : ∀ a < 5, ∀ b < 64, (a = 0 → 16 ≤ b) → (a = 4 → b < 16) →
      within (if UInt8.ofNat (0xF0 + a) = 0xF0 then 0x90 else 0x80)
        (if UInt8.ofNat (0xF0 + a) = 0xF4 then 0x8F else 0xBF) (.ofNat (0x80 + b)) = true := by
    decide +kernel
  obtain ⟨h₁, h₂, h₃, h₄, h₅⟩ := hlead a ha
  refine ⟨_, _, rfl, ?_⟩
  unfold runeTail
  simp only [if_neg h₁, if_neg h₂, if_neg h₃, if_neg h₄, if_pos h₅]
  have hfront := Bool.and_eq_true_iff.mpr ⟨hsecond a ha b hb hlo hhi, within_cont hc⟩
  exact if_pos (Bool.and_eq_true_iff.mpr ⟨hfront, within_cont hd⟩)

theorem isRune_replacement : IsRune replacement := ⟨239, [191, 189], rfl, by decide⟩

theorem isRune_encodeRune {r : ℕ} (h : r < 0x110000) : IsRune (encodeRune r) := by
  unfold encodeRune
  split
  · next h₁ => exact isRune_one h₁
  split
  · exact isRune_two (by omega) (by omega) (by omega)
  split
  · exact isRune_replacement
  split
  · exact isRune_three (by omega) (by omega) (by omega) (by omega) (by omega)
  · have hfour := @isRune_four (r / 262144) (r / 4096 % 64) (r / 64 % 64) (r % 64)
    exact hfour (by omega) (by omega) (by omega) (by omega) (by omega) (by omega)

def SmallEscapes (ps : List Piece) : Prop := ∀ u, .escape u ∈ ps → u < 0x10000

theorem surrogatePair_lt {u v r : ℕ} (h : surrogatePair u v = some r) : r < 0x110000 := by
  unfold surrogatePair at h
  split at h
  · obtain rfl := Option.some.inj h
    omega
  · cases h

theorem exists_bytes {k : ℕ} {ps : List Piece}
    (hcont : ∀ i < k, ∃ q, ps[i]? = some q ∧ q.isCont = true) :
    ∃ (bs : GoString) (qs : List Piece), ps = bs.map .byte ++ qs ∧ bs.length = k := by
  induction k generalizing ps with
  | zero => exact ⟨[], ps, rfl, rfl⟩
  | succ k ih =>
    obtain ⟨q, hq, hfirst⟩ := hcont 0 (Nat.succ_pos k)
    cases ps with
    | nil => cases hq
    | cons p ps =>
      obtain rfl := Option.some.inj hq
      cases p with
      | escape u => cases hfirst
      | byte b =>
        obtain ⟨bs, qs, rfl, rfl⟩ := ih fun i hi => hcont (i + 1) (Nat.succ_lt_succ hi)
        exact ⟨b :: bs, qs, rfl, rfl⟩

section Unquote

variable {ps : List Piece} (htail : ∀ qs, qs <:+ ps → validString (unquote 0 qs) = true)

include htail

theorem validString_unquote_byte (b : UInt8) : validString (unquote 0 (.byte b :: ps)) = true := by
  cases hrune : runeTail b ps with
  | none =>
    rw [unquote, hrune]
    dsimp only
    rw [validString_append_rune isRune_replacement]
    exact htail ps (List.suffix_refl ps)
  | some k =>
    obtain ⟨-, -, hcont⟩ := runeTail_of_agree hrune fun _ _ => rfl
    obtain ⟨bs, qs, rfl, rfl⟩ := exists_bytes hcont
    have hbytes : runeTail b (bs.map .byte) = some bs.length := by
      refine (runeTail_of_agree hrune fun i hi => ?_).2.1
      exact (List.getElem?_append_left (by rw [List.length_map]; exact hi)).symm
    rw [unquote_rune hbytes, validString_append_rune ⟨b, bs, rfl, hbytes⟩]
    exact htail qs (List.suffix_append _ qs)

/-- An escape is a rune by itself, or with the one behind it. -/
theorem validString_unquote_escape {u : ℕ} (hu : u < 0x10000) :
    validString (unquote 0 (.escape u :: ps)) = true := by
  have hrune : IsRune (encodeRune u) := isRune_encodeRune (by omega)
  have hone : validString (encodeRune u ++ unquote 0 ps) = true := by
    rw [validString_append_rune hrune]
    exact htail ps (List.suffix_refl ps)
  cases ps with
  | nil => exact hone
  | cons q ps =>
    cases q with
    | byte b => exact hone
    | escape v =>
      rw [unquote_escape_escape]
      cases hpair : surrogatePair u v with
      | none => exact hone
      | some r =>
        have hpaired := isRune_encodeRune (surrogatePair_lt hpair)
        rw [Option.elim_some, validString_append_rune hpaired]
        exact htail ps (List.suffix_cons _ ps)

end Unquote

/-- What a string literal stands for is valid UTF-8. -/
theorem validString_unquote {ps : List Piece} (hps : SmallEscapes ps) :
    validString (unquote 0 ps) = true := by
  -- a rune can take several pieces, so the induction is on their number
  generalize hlen : ps.length = n
  induction n using Nat.strong_induction_on generalizing ps with
  | h n ih =>
    cases ps with
    | nil => rfl
    | cons p ps =>
      rw [List.length_cons] at hlen
      have htail : ∀ qs : List Piece, qs <:+ ps → validString (unquote 0 qs) = true := by
        intro qs hqs
        have hle := hqs.length_le
        refine ih qs.length (by omega) (fun u hu => hps u ?_) rfl
        exact List.mem_cons_of_mem _ (hqs.subset hu)
      cases p with
      | byte b => exact validString_unquote_byte htail b
      | escape u => exact validString_unquote_escape htail (hps u List.mem_cons_self)

theorem hexValue_lt (h₁ h₂ h₃ h₄ : UInt8) : hexValue h₁ h₂ h₃ h₄ < 0x10000 := by
  have hdigit : ∀ c : UInt8, (Json.hexDigit c).getD 0 < 16 :=
    Byte.forall_of_ofNat (by decide +kernel)
  have := hdigit h₁
  have := hdigit h₂
  have := hdigit h₃
  have := hdigit h₄
  simp only [hexValue, List.foldl_cons, List.foldl_nil]
  omega

theorem smallEscapes_pieces (s : GoString) : SmallEscapes (pieces s) := by
  fun_induction pieces s with
  | case4 h₁ h₂ h₃ h₄ s _ ih =>
    intro u hu
    rcases List.mem_cons.mp hu with heq | hu
    · obtain rfl := Piece.escape.inj heq
      exact hexValue_lt h₁ h₂ h₃ h₄
    · exact ih u hu
  | case6 e s _ _ ih =>
    intro u hu
    exact ih u ((List.mem_cons.mp hu).resolve_left Piece.noConfusion)
  | case7 c s _ _ ih =>
    intro u hu
    exact ih u ((List.mem_cons.mp hu).resolve_left Piece.noConfusion)
  | _ =>
    intro u hu
    cases hu

theorem validString_literalString (raw : GoString) : validString (literalString raw) = true :=
  validString_unquote (smallEscapes_pieces raw.tail)

/-! ### Members -/

section Members

variable {α β : Type}

def Increasing (ms : List (GoString × α)) : Prop := ms.Pairwise fun m m' => m.1 < m'.1

theorem mem_assign {key : GoString} {x : α} {ms : List (GoString × α)} {m : GoString × α}
    (h : m ∈ assign key x ms) : m = (key, x) ∨ m ∈ ms := by
  induction ms with
  | nil => exact Or.inl (List.mem_singleton.mp h)
  | cons e ms ih =>
    obtain ⟨k, y⟩ := e
    rw [assign] at h
    split_ifs at h
    · exact (List.mem_cons.mp h).imp_right (List.mem_cons_of_mem _)
    · exact List.mem_cons.mp h
    · rcases List.mem_cons.mp h with h | h
      · exact Or.inr (List.mem_cons.mpr (Or.inl h))
      · exact (ih h).imp_right (List.mem_cons_of_mem _)

theorem increasing_assign (key : GoString) (x : α) {ms : List (GoString × α)}
    (h : Increasing ms) : Increasing (assign key x ms) := by
  induction ms with
  | nil => exact List.pairwise_singleton _ _
  | cons e ms ih =>
    obtain ⟨k, y⟩ := e
    obtain ⟨hk, hms⟩ := List.pairwise_cons.mp h
    rw [assign]
    split_ifs with heq hlt
    · subst heq
      exact List.pairwise_cons.mpr ⟨hk, hms⟩
    · refine List.pairwise_cons.mpr ⟨?_, h⟩
      intro m hm
      rcases List.mem_cons.mp hm with rfl | hm
      · exact hlt
      · exact List.lt_trans hlt (hk m hm)
    · have hgt : k < key := Std.lt_of_le_of_ne hlt fun he => heq he.symm
      refine List.pairwise_cons.mpr ⟨?_, ih hms⟩
      intro m hm
      rcases mem_assign hm with rfl | hm
      · exact hgt
      · exact hk m hm

theorem increasing_foldl_assign (xs : List (GoString × α)) {ms : List (GoString × α)}
    (h : Increasing ms) : Increasing (xs.foldl (fun ms x => assign x.1 x.2 ms) ms) := by
  induction xs generalizing ms with
  | nil => exact h
  | cons x xs ih => exact ih (increasing_assign x.1 x.2 h)

theorem mem_foldl_assign {xs ms : List (GoString × α)} {m : GoString × α}
    (h : m ∈ xs.foldl (fun ms x => assign x.1 x.2 ms) ms) : m ∈ xs ∨ m ∈ ms := by
  induction xs generalizing ms with
  | nil => exact Or.inr h
  | cons x xs ih =>
    rcases ih h with h | h
    · exact Or.inl (List.mem_cons_of_mem _ h)
    · exact (mem_assign h).imp_left fun hx => List.mem_cons.mpr (Or.inl hx)

/-- A member with a name above all others goes to the end. -/
theorem assign_last {key : GoString} (x : α) {ms : List (GoString × α)}
    (h : ∀ m ∈ ms, m.1 < key) : assign key x ms = ms ++ [(key, x)] := by
  induction ms with
  | nil => rfl
  | cons e ms ih =>
    obtain ⟨k, y⟩ := e
    obtain ⟨hk, hms⟩ := List.forall_mem_cons.mp h
    have hne : key ≠ k := by
      rintro rfl
      exact List.lt_irrefl _ hk
    have hlt : ¬key < k := fun hlt => List.lt_irrefl _ (List.lt_trans hlt hk)
    rw [assign, if_neg hne, if_neg hlt, ih hms, List.cons_append]

theorem foldl_assign_of_increasing {xs ms : List (GoString × α)} (h : Increasing (ms ++ xs)) :
    xs.foldl (fun ms x => assign x.1 x.2 ms) ms = ms ++ xs := by
  induction xs generalizing ms with
  | nil => rw [List.foldl_nil, List.append_nil]
  | cons x xs ih =>
    have hlast : ∀ m ∈ ms, m.1 < x.1 := fun m hm =>
      (List.pairwise_append.mp h).2.2 m hm x List.mem_cons_self
    have hassoc : ms ++ x :: xs = (ms ++ [x]) ++ xs := by rw [List.append_assoc]; rfl
    rw [hassoc] at h ⊢
    rw [List.foldl_cons, assign_last x.2 hlast]
    exact ih h

theorem map_assign (f : α → β) (key : GoString) (x : α) (ms : List (GoString × α)) :
    (assign key x ms).map (fun m => (m.1, f m.2)) =
      assign key (f x) (ms.map fun m => (m.1, f m.2)) := by
  induction ms with
  | nil => rfl
  | cons e ms ih =>
    obtain ⟨k, y⟩ := e
    rw [assign, List.map_cons, assign]
    split_ifs
    · rfl
    · rfl
    · rw [List.map_cons, ih]

theorem map_foldl_assign (f : α → β) (xs ms : List (GoString × α)) :
    (xs.foldl (fun ms x => assign x.1 x.2 ms) ms).map (fun m => (m.1, f m.2)) =
      (xs.map fun m => (m.1, f m.2)).foldl (fun ms x => assign x.1 x.2 ms)
        (ms.map fun m => (m.1, f m.2)) := by
  induction xs generalizing ms with
  | nil => rfl
  | cons x xs ih => rw [List.foldl_cons, ih, map_assign, List.map_cons, List.foldl_cons]

end Members

/-! ### Documents that are read back -/

section Readable

variable {ν : Type} (F : Floats ν)

/-- A document that is the same after it was written and read: its strings are UTF-8, its numbers
are read back, and the members of its objects are in order. -/
inductive Readable : Doc ν → Prop
  | null : Readable .null
  | bool (b : Bool) : Readable (.bool b)
  | number {x : ν} : literalDoc F (F.format x) = some (.number x) → Readable (.number x)
  | string {s : GoString} : validString s = true → Readable (.string s)
  | array {items : List (Doc ν)} : (∀ x ∈ items, Readable x) → Readable (.array items)
  | object {members : List (GoString × Doc ν)} : Increasing members →
      (∀ m ∈ members, validString m.1 = true) → (∀ m ∈ members, Readable m.2) →
      Readable (.object members)

variable {F}

theorem docAll_itemTrees {items : List (Doc ν)} (h : ∀ x ∈ items, (x.tree F).doc F = some x) :
    docAll F (itemTrees F items) = some (items.map fun x => (literalString [], x)) := by
  induction items with
  | nil => rw [itemTrees, docAll, List.map_nil]
  | cons x xs ih =>
    obtain ⟨hx, hxs⟩ := List.forall_mem_cons.mp h
    rw [itemTrees, docAll, hx]
    dsimp only
    rw [ih hxs, Option.map_some, List.map_cons]

theorem docAll_memberTrees {members : List (GoString × Doc ν)}
    (hnames : ∀ m ∈ members, validString m.1 = true)
    (h : ∀ m ∈ members, (m.2.tree F).doc F = some m.2) :
    docAll F (memberTrees F members) = some members := by
  induction members with
  | nil => rw [memberTrees, docAll]
  | cons m ms ih =>
    obtain ⟨name, x⟩ := m
    obtain ⟨hname, hnames⟩ := List.forall_mem_cons.mp hnames
    obtain ⟨hx, hxs⟩ := List.forall_mem_cons.mp h
    rw [memberTrees, docAll, hx]
    dsimp only
    rw [ih hnames hxs, Option.map_some, literalString_marshalString hname]

theorem Readable.doc_tree {x : Doc ν} (h : Readable F x) : (x.tree F).doc F = some x := by
  induction h with
  | null => rw [Doc.tree, doc_null]
  | bool b =>
    rw [Doc.tree, JTree.doc]
    cases b
    · rw [if_neg Bool.false_ne_true]
      rfl
    · rw [if_pos rfl]
      rfl
  | number hx => rw [Doc.tree, JTree.doc, hx]
  | string hs => rw [Doc.tree, JTree.doc, literalDoc_marshalString F hs]
  | @array items _ ih =>
    rw [Doc.tree, JTree.doc, docAll_itemTrees ih, Option.map_some, containerDoc, List.map_map]
    exact congrArg (fun xs => some (Doc.array xs)) (List.map_id' items)
  | object hinc hnames _ ih =>
    rw [Doc.tree, JTree.doc, docAll_memberTrees hnames ih, Option.map_some, containerDoc]
    have hfold := @foldl_assign_of_increasing _ _ [] hinc
    rw [hfold, List.nil_append]

theorem Readable.unmarshal_marshal {x : Doc ν} (h : Readable F x) :
    unmarshal F (marshal F x) = some x := by
  rw [unmarshal, marshal, readText_print_self compact (x.wf_tree F) 0, Option.bind_some, h.doc_tree]

theorem Readable.of_names {members : List (GoString × Doc ν)} (names : List GoString)
    (hnames : members.map Prod.fst = names) (hinc : names.Pairwise (· < ·))
    (hvalid : ∀ name ∈ names, validString name = true) (h : ∀ m ∈ members, Readable F m.2) :
    Readable F (.object members) := by
  subst hnames
  exact .object (List.pairwise_map.mp hinc) (List.forall_mem_map.mp hvalid) h

theorem Readable.eq_of_marshal {x y : Doc ν} (hx : Readable F x) (hy : Readable F y)
    (h : marshal F x = marshal F y) : x = y := by
  have hread := congrArg (unmarshal F) h
  rw [hx.unmarshal_marshal, hy.unmarshal_marshal] at hread
  exact Option.some.inj hread

variable (F)

/-- The numbers that are read come back from what is written of them. -/
def Rereads : Prop :=
  ∀ raw x, IsLiteral raw → literalDoc F raw = some (.number x) →
    literalDoc F (F.format x) = some (.number x)

variable {F}

theorem docAll_cons_eq_some {name : GoString} {s : JTree} {cs : List (GoString × JTree)}
    {xs : List (GoString × Doc ν)} (h : docAll F ((name, s) :: cs) = some xs) :
    ∃ x ys, s.doc F = some x ∧ docAll F cs = some ys ∧ xs = (literalString name, x) :: ys := by
  rw [docAll] at h
  cases hdoc : s.doc F with
  | none =>
    rw [hdoc] at h
    cases h
  | some x =>
    rw [hdoc] at h
    obtain ⟨ys, hys, hxs⟩ := Option.map_eq_some_iff.mp h
    exact ⟨x, ys, rfl, hys, hxs.symm⟩

/-- Every part that is read comes from a part of the text. -/
theorem exists_of_mem_docAll {cs : List (GoString × JTree)} {xs : List (GoString × Doc ν)}
    (h : docAll F cs = some xs) {m : GoString × Doc ν} (hm : m ∈ xs) :
    ∃ c ∈ cs, m.1 = literalString c.1 ∧ c.2.doc F = some m.2 := by
  induction cs generalizing xs with
  | nil =>
    rw [docAll] at h
    obtain rfl := Option.some.inj h
    cases hm
  | cons c cs ih =>
    obtain ⟨x, ys, hx, hys, rfl⟩ := docAll_cons_eq_some h
    rcases List.mem_cons.mp hm with rfl | hm
    · exact ⟨c, List.mem_cons_self, rfl, hx⟩
    · obtain ⟨c', hc', hread⟩ := ih hys hm
      exact ⟨c', List.mem_cons_of_mem _ hc', hread⟩

theorem IsLiteral.readable (hF : Rereads F) {raw : GoString} (hraw : IsLiteral raw) {x : Doc ν}
    (h : literalDoc F raw = some x) : Readable F x := by
  have hnumber : ∀ y, x = .number y → Readable F x := by
    rintro y rfl
    exact .number (hF raw y hraw h)
  rw [literalDoc] at h
  split_ifs at h
  · obtain rfl := Option.some.inj h
    exact .string (validString_literalString raw)
  · obtain rfl := Option.some.inj h
    exact .bool true
  · obtain rfl := Option.some.inj h
    exact .bool false
  · obtain rfl := Option.some.inj h
    exact .null
  · obtain ⟨y, -, hy⟩ := Option.map_eq_some_iff.mp h
    exact hnumber y hy.symm

theorem JTree.WF.readable_doc (hF : Rereads F) {s : JTree} (hs : s.WF) {x : Doc ν}
    (h : s.doc F = some x) : Readable F x := by
  induction hs generalizing x with
  | literal hraw =>
    rw [JTree.doc] at h
    exact hraw.readable hF h
  | @node kind cs _ _ ih =>
    rw [JTree.doc] at h
    obtain ⟨xs, hxs, rfl⟩ := Option.map_eq_some_iff.mp h
    have hmem : ∀ m ∈ xs, validString m.1 = true ∧ Readable F m.2 := by
      intro m hm
      obtain ⟨c, hc, hname, hdoc⟩ := exists_of_mem_docAll hxs hm
      rw [hname]
      exact ⟨validString_literalString c.1, ih c hc hdoc⟩
    cases kind with
    | array => exact .array (List.forall_mem_map.mpr fun m hm => (hmem m hm).2)
    | object =>
      have hfold : ∀ m ∈ xs.foldl (fun ms x => assign x.1 x.2 ms) [], m ∈ xs := fun m hm =>
        (mem_foldl_assign hm).resolve_right List.not_mem_nil
      exact .object (increasing_foldl_assign xs List.Pairwise.nil)
        (fun m hm => (hmem m (hfold m hm)).1) fun m hm => (hmem m (hfold m hm)).2

theorem readable_unmarshal (hF : Rereads F) {t : GoString} {x : Doc ν}
    (h : unmarshal F t = some x) : Readable F x := by
  obtain ⟨s, hs, hdoc⟩ := Option.bind_eq_some_iff.mp h
  exact (wf_of_readText hs).readable_doc hF hdoc

end Readable

end Go.JsonText
