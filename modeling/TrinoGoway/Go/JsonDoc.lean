import TrinoGoway.Go.JsonString

/-! JSON documents: what `json.Unmarshal` makes of a text in an `any`, and `json.Marshal` of it.
Numbers are a parameter. Neither the layout of a text nor HTML escaping changes its document. -/
namespace Go.JsonText

open Go Json

/-- An `any` with a JSON document; the members of an object are in the order of their names. -/
inductive Doc (ν : Type)
  | null
  | bool (b : Bool)
  | number (x : ν)
  | string (s : GoString)
  | array (items : List (Doc ν))
  | object (members : List (GoString × Doc ν))

/-- The `float64` of a document: `strconv.ParseFloat`, which refuses a number out of range, and
what `json.Marshal` writes. -/
structure Floats (ν : Type) where
  parse : GoString → Option ν
  format : ν → GoString
  isLiteral_format : ∀ x, IsLiteral (format x)

variable {ν : Type} (F : Floats ν)

def literalString (raw : GoString) : GoString := unquote 0 (pieces raw.tail)

def literalDoc (raw : GoString) : Option (Doc ν) :=
  if raw.head? = some 34 then some (.string (literalString raw))
  else if raw = str "true" then some (.bool true)
  else if raw = str "false" then some (.bool false)
  else if raw = str "null" then some .null
  else (F.parse raw).map .number

def assign {α : Type} (key : GoString) (x : α) : List (GoString × α) → List (GoString × α)
  | [] => [(key, x)]
  | (k, y) :: ms =>
    if key = k then (key, x) :: ms
    else if key < k then (key, x) :: (k, y) :: ms
    else (k, y) :: assign key x ms

/-- The document of a container; of several members of one name the last one counts. -/
def containerDoc : Kind → List (GoString × Doc ν) → Doc ν
  | .array, xs => .array (xs.map Prod.snd)
  | .object, xs => .object (xs.foldl (fun ms x => assign x.1 x.2 ms) [])

mutual

def JTree.doc : JTree → Option (Doc ν)
  | .literal raw => literalDoc F raw
  | .node kind cs => (docAll cs).map (containerDoc kind)

def docAll : List (GoString × JTree) → Option (List (GoString × Doc ν))
  | [] => some []
  | (name, s) :: cs =>
    match s.doc with
    | none => none
    | some x => (docAll cs).map ((literalString name, x) :: ·)

end

def unmarshal (t : GoString) : Option (Doc ν) := (readText t).bind (JTree.doc F)

/-! ### Escaping -/

mutual

/-- The escaping of `json.Marshal` for a value that is given as JSON. -/
def JTree.escape : JTree → JTree
  | .literal raw => .literal (escapeHTML 0 raw)
  | .node kind cs => .node kind (escapeAll cs)

def escapeAll : List (GoString × JTree) → List (GoString × JTree)
  | [] => []
  | (name, s) :: cs => (escapeHTML 0 name, s.escape) :: escapeAll cs

end

theorem escapeAll_eq (cs : List (GoString × JTree)) :
    escapeAll cs = cs.map fun c => (escapeHTML 0 c.1, c.2.escape) := by
  induction cs with
  | nil => rw [escapeAll, List.map_nil]
  | cons c cs ih => rw [escapeAll, ih, List.map_cons]

theorem NumState.not_special {n n' : NumState} {c : UInt8} (h : n.next c = some n') :
    ¬IsHTML c ∧ c ≠ 0xE2 := by
  have hall : ∀ c : UInt8, (n.next c).isSome = true → ¬IsHTML c ∧ c ≠ 0xE2 := by
    cases n <;> exact Byte.forall_of_ofNat (by decide +kernel)
  exact hall c (by rw [h]; rfl)

/-- A state of a literal that is no string, and whose word has no byte to escape. -/
def LitState.Bare : LitState → Prop
  | .string _ => False
  | .number _ => True
  | .word rest => ∀ c ∈ rest, ¬IsHTML c ∧ c ≠ 0xE2

theorem LitState.bare_start {c : UInt8} {st : LitState} (h : LitState.start c = some st)
    (hc : c ≠ 34) : st.Bare ∧ ¬IsHTML c ∧ c ≠ 0xE2 := by
  have hbytes : ∀ b : UInt8, (LitState.start b).isSome = true → ¬IsHTML b ∧ b ≠ 0xE2 :=
    Byte.forall_of_ofNat (by decide +kernel)
  constructor
  · dsimp only [LitState.start] at h
    rw [if_neg hc] at h
    split_ifs at h <;> cases h
    · trivial
    · trivial
    · trivial
    · show ∀ c ∈ str "rue", ¬IsHTML c ∧ c ≠ 0xE2
      have hword : str "rue" = [114, 117, 101] := by decide
      simp [hword, IsHTML]
    · show ∀ c ∈ str "alse", ¬IsHTML c ∧ c ≠ 0xE2
      have hword : str "alse" = [97, 108, 115, 101] := by decide
      simp [hword, IsHTML]
    · show ∀ c ∈ str "ull", ¬IsHTML c ∧ c ≠ 0xE2
      have hword : str "ull" = [117, 108, 108] := by decide
      simp [hword, IsHTML]
  · exact hbytes c (by rw [h]; rfl)

theorem LitState.bare_next {st st' : LitState} {c : UInt8} (hst : st.Bare)
    (h : st.next c = some st') : st'.Bare ∧ ¬IsHTML c ∧ c ≠ 0xE2 := by
  cases st with
  | string q => exact hst.elim
  | number n =>
    obtain ⟨n', hn', rfl⟩ := Option.map_eq_some_iff.mp h
    exact ⟨trivial, NumState.not_special hn'⟩
  | word rest =>
    cases rest with
    | nil => cases h
    | cons x rest =>
      obtain ⟨rfl, hst'⟩ := Option.ite_none_right_eq_some.mp h
      obtain rfl := Option.some.inj hst'
      obtain ⟨hx, hrest⟩ := List.forall_mem_cons.mp hst
      exact ⟨hrest, hx⟩

theorem LitState.not_special_of_run {s : GoString} {st e : LitState} (hst : st.Bare)
    (h : s.foldlM LitState.next st = some e) : ∀ c ∈ s, ¬IsHTML c ∧ c ≠ 0xE2 := by
  induction s generalizing st with
  | nil => exact fun c hc => absurd hc List.not_mem_nil
  | cons c s ih =>
    obtain ⟨st', hnext, h⟩ := foldlM_cons_eq_some h
    obtain ⟨hst', hc⟩ := LitState.bare_next hst hnext
    exact List.forall_mem_cons.mpr ⟨hc, ih hst' h⟩

theorem IsLiteral.escape_eq_self {raw : GoString} (h : IsLiteral raw)
    (hhead : raw.head? ≠ some 34) : escapeHTML 0 raw = raw := by
  obtain ⟨c, s, st, e, rfl, hstart, hrun, -⟩ := h
  obtain ⟨hst, hc⟩ := LitState.bare_start hstart fun hc => hhead (congrArg some hc)
  exact escapeHTML_eq_self (List.forall_mem_cons.mpr ⟨hc, LitState.not_special_of_run hst hrun⟩)

/-- Escaping keeps a string a string, and what it stands for. -/
theorem IsString.escape {raw : GoString} (h : IsString raw) :
    IsString (escapeHTML 0 raw) ∧ literalString (escapeHTML 0 raw) = literalString raw := by
  obtain ⟨s, ps, rfl, hs⟩ := isString_iff.mp h
  obtain ⟨ps', hs', he⟩ := hs.escapeHTML
  rw [escapeHTML_cons (by decide) (by decide)]
  refine ⟨isString_iff.mpr ⟨_, ps', rfl, hs'⟩, ?_⟩
  rw [literalString, literalString, List.tail_cons, List.tail_cons, hs.pieces_eq, hs'.pieces_eq]
  exact he.unquote_eq

theorem IsLiteral.escape {raw : GoString} (h : IsLiteral raw) :
    IsLiteral (escapeHTML 0 raw) ∧ literalDoc F (escapeHTML 0 raw) = literalDoc F raw := by
  by_cases hhead : raw.head? = some 34
  · obtain ⟨hstring, heq⟩ := IsString.escape ⟨h, hhead⟩
    refine ⟨hstring.1, ?_⟩
    rw [literalDoc, literalDoc, if_pos hstring.2, if_pos hhead, heq]
  · rw [h.escape_eq_self hhead]
    exact ⟨h, rfl⟩

theorem NameOk.escape {kind : Kind} {name : GoString} (h : NameOk kind name) :
    NameOk kind (escapeHTML 0 name) ∧
      literalString (escapeHTML 0 name) = literalString name := by
  cases kind with
  | array =>
    obtain rfl : name = [] := h
    exact ⟨rfl, rfl⟩
  | object => exact IsString.escape h

theorem docAll_congr {cs : List (GoString × JTree)} {f : GoString × JTree → GoString × JTree}
    (hname : ∀ c ∈ cs, literalString (f c).1 = literalString c.1)
    (hdoc : ∀ c ∈ cs, (f c).2.doc F = c.2.doc F) : docAll F (cs.map f) = docAll F cs := by
  induction cs with
  | nil => rfl
  | cons c cs ih =>
    obtain ⟨hn, hname⟩ := List.forall_mem_cons.mp hname
    obtain ⟨hd, hdoc⟩ := List.forall_mem_cons.mp hdoc
    rw [List.map_cons, docAll, docAll, hn, hd, ih hname hdoc]

theorem JTree.WF.escape {s : JTree} (h : s.WF) : s.escape.WF ∧ s.escape.doc F = s.doc F := by
  induction h with
  | literal hraw =>
    rw [JTree.escape, JTree.doc, JTree.doc]
    obtain ⟨hlit, hdoc⟩ := hraw.escape F
    exact ⟨.literal hlit, hdoc⟩
  | node hnames hchildren ih =>
    rw [JTree.escape, escapeAll_eq, JTree.doc, JTree.doc]
    constructor
    · refine .node ?_ ?_
      · rw [List.forall_mem_map]
        exact fun c hc => (hnames c hc).escape.1
      · rw [List.forall_mem_map]
        exact fun c hc => (ih c hc).1
    · rw [docAll_congr F (fun c hc => (hnames c hc).escape.2) fun c hc => (ih c hc).2]

/-- Neither the layout nor escaping changes the document of a text. -/
theorem unmarshal_escape_print (w : Layout) (d : ℕ) {s : JTree} (hs : s.WF) :
    unmarshal F (s.escape.print w d) = s.doc F := by
  obtain ⟨hwf, hdoc⟩ := hs.escape F
  rw [unmarshal, readText_print_self w hwf d, Option.bind_some, hdoc]

theorem unmarshal_eq_doc {t : GoString} {s : JTree} (h : readText t = some s) :
    unmarshal F t = s.doc F := by
  rw [unmarshal, h, Option.bind_some]

theorem unmarshal_of_not_valid {t : GoString} (h : ¬valid t = true) : unmarshal F t = none := by
  rw [valid, Option.not_isSome_iff_eq_none] at h
  rw [unmarshal, h, Option.bind_none]

theorem eq_null_of_doc {s : JTree} (h : s.doc F = some .null) : s = .literal (str "null") := by
  cases s with
  | node kind cs =>
    rw [JTree.doc] at h
    obtain ⟨xs, -, hxs⟩ := Option.map_eq_some_iff.mp h
    cases kind <;> cases hxs
  | literal raw =>
    rw [JTree.doc, literalDoc] at h
    split_ifs at h with h₁ h₂ h₃ h₄
    · cases h
    · cases h
    · cases h
    · rw [h₄]
    · obtain ⟨x, -, hx⟩ := Option.map_eq_some_iff.mp h
      cases hx

theorem doc_null : (JTree.literal (str "null")).doc F = some .null := by
  rw [JTree.doc, literalDoc, if_neg (by decide), if_neg (by decide), if_neg (by decide), if_pos rfl]

/-! ### Writing -/

theorem literalString_marshalString {s : GoString} (h : validString s) :
    literalString (marshalString s) = s := by
  obtain ⟨t, ps, htext, hspells, hunquote⟩ := spells_marshalString s
  rw [literalString, htext, List.tail_cons, hspells.pieces_eq]
  exact hunquote h

theorem literalDoc_marshalString {s : GoString} (h : validString s) :
    literalDoc F (marshalString s) = some (.string s) := by
  rw [literalDoc, if_pos (isString_marshalString s).2, literalString_marshalString h]

mutual

def Doc.tree : Doc ν → JTree
  | .null => .literal (str "null")
  | .bool b => .literal (if b then str "true" else str "false")
  | .number x => .literal (F.format x)
  | .string s => .literal (marshalString s)
  | .array items => .node .array (itemTrees items)
  | .object members => .node .object (memberTrees members)

def itemTrees : List (Doc ν) → List (GoString × JTree)
  | [] => []
  | x :: xs => ([], x.tree) :: itemTrees xs

def memberTrees : List (GoString × Doc ν) → List (GoString × JTree)
  | [] => []
  | (name, x) :: xs => (marshalString name, x.tree) :: memberTrees xs

end

def marshal (x : Doc ν) : GoString := (x.tree F).print compact 0

theorem isLiteral_null : IsLiteral (str "null") :=
  ⟨110, str "ull", .word (str "ull"), .word [], by decide, rfl, rfl, rfl⟩

theorem isLiteral_bool (b : Bool) : IsLiteral (if b then str "true" else str "false") := by
  cases b with
  | false => exact ⟨102, str "alse", .word (str "alse"), .word [], by decide, rfl, rfl, rfl⟩
  | true => exact ⟨116, str "rue", .word (str "rue"), .word [], by decide, rfl, rfl, rfl⟩

mutual

theorem Doc.wf_tree : ∀ x : Doc ν, (x.tree F).WF
  | .null => by
    rw [Doc.tree]
    exact .literal isLiteral_null
  | .bool b => by
    rw [Doc.tree]
    exact .literal (isLiteral_bool b)
  | .number x => by
    rw [Doc.tree]
    exact .literal (F.isLiteral_format x)
  | .string s => by
    rw [Doc.tree]
    exact .literal (isString_marshalString s).1
  | .array items => by
    rw [Doc.tree]
    exact .node (fun c hc => (wf_itemTrees items c hc).1) fun c hc => (wf_itemTrees items c hc).2
  | .object members => by
    rw [Doc.tree]
    exact .node (fun c hc => (wf_memberTrees members c hc).1)
      fun c hc => (wf_memberTrees members c hc).2

theorem wf_itemTrees : ∀ xs : List (Doc ν), ∀ c ∈ itemTrees F xs, NameOk .array c.1 ∧ c.2.WF
  | [] => by
    rw [itemTrees]
    exact fun c hc => absurd hc List.not_mem_nil
  | x :: xs => by
    rw [itemTrees]
    exact List.forall_mem_cons.mpr ⟨⟨rfl, x.wf_tree⟩, wf_itemTrees xs⟩

theorem wf_memberTrees : ∀ xs : List (GoString × Doc ν),
    ∀ c ∈ memberTrees F xs, NameOk .object c.1 ∧ c.2.WF
  | [] => by
    rw [memberTrees]
    exact fun c hc => absurd hc List.not_mem_nil
  | (name, x) :: xs => by
    rw [memberTrees]
    exact List.forall_mem_cons.mpr ⟨⟨isString_marshalString name, x.wf_tree⟩, wf_memberTrees xs⟩

end

theorem valid_marshal (x : Doc ν) : valid (marshal F x) = true := by
  rw [valid, marshal, readText_print_self compact (x.wf_tree F) 0, Option.isSome_some]

/-! ### Integers -/

def parseDecimal (digits : GoString) : Option ℕ :=
  if digits ≠ [] ∧ digits.all Byte.isDigit then some (parseDigits digits) else none

/-- `strconv.ParseInt` to base ten for a literal; integers have no bounds here. -/
def parseInt (raw : GoString) : Option ℤ :=
  if raw.head? = some Byte.minus then (parseDecimal raw.tail).map fun n : ℕ => -(n : ℤ)
  else (parseDecimal raw).map fun n : ℕ => (n : ℤ)

theorem formatNat_cases (n : ℕ) :
    formatNat n = [48] ∨ ∃ c t, formatNat n = c :: t ∧ c ≠ 48 := by
  unfold formatNat
  split
  · exact .inl rfl
  · rename_i hn
    right
    have hne : Nat.digits 10 n ≠ [] := Nat.digits_ne_nil_iff_ne_zero.mpr hn
    have hlast := Nat.getLast_digit_ne_zero 10 hn
    have hlt : (Nat.digits 10 n).getLast hne < 10 :=
      Nat.digits_lt_base (by decide) (List.getLast_mem hne)
    refine ⟨.ofNat (48 + (Nat.digits 10 n).getLast hne), (Nat.digits 10 n).dropLast.reverse.map
      fun d => .ofNat (48 + d), ?_, ?_⟩
    · have hsplit : (Nat.digits 10 n).reverse =
          (Nat.digits 10 n).getLast hne :: (Nat.digits 10 n).dropLast.reverse := by
        rw [← List.reverse_concat, List.dropLast_append_getLast]
      rw [hsplit, List.map_cons]
    · generalize (Nat.digits 10 n).getLast hne = d at hlast hlt
      have hall : ∀ d < 10, d ≠ 0 → UInt8.ofNat (48 + d) ≠ 48 := by decide
      exact hall d hlt hlast

theorem foldlM_digits {t : GoString} (ht : ∀ c ∈ t, Byte.isDigit c = true) :
    t.foldlM LitState.next (.number .digits) = some (.number .digits) := by
  induction t with
  | nil => rfl
  | cons c t ih =>
    obtain ⟨hc, ht⟩ := List.forall_mem_cons.mp ht
    have hnext : (LitState.number .digits).next c = some (.number .digits) := by
      rw [LitState.next, NumState.next]
      simp only [if_pos hc, Option.map_some]
    rw [List.foldlM_cons, hnext]
    exact ih ht

theorem isLiteral_formatNat (n : ℕ) : IsLiteral (formatNat n) ∧ IsLiteral (45 :: formatNat n) := by
  have hdigits : ∀ c ∈ formatNat n, Byte.isDigit c = true := fun c => isDigit_of_mem_formatNat
  rcases formatNat_cases n with h | ⟨c, t, h, hc⟩
  · rw [h]
    exact ⟨⟨48, [], .number .zero, .number .zero, rfl, rfl, rfl, rfl⟩,
      ⟨45, [48], .number .minus, .number .zero, rfl, rfl, rfl, rfl⟩⟩
  · rw [h] at hdigits ⊢
    obtain ⟨hdigit, ht⟩ := List.forall_mem_cons.mp hdigits
    have hstart : ∀ c : UInt8, c ≠ 48 → Byte.isDigit c = true → c ≠ 34 ∧ c ≠ 45 :=
      Byte.forall_of_ofNat (by decide +kernel)
    obtain ⟨h34, h45⟩ := hstart c hc hdigit
    constructor
    · refine ⟨c, t, .number .digits, .number .digits, rfl, ?_, foldlM_digits ht, rfl⟩
      rw [LitState.start, if_neg h34, if_neg h45, if_neg hc, if_pos hdigit]
    · refine ⟨45, c :: t, .number .minus, .number .digits, rfl, rfl, ?_, rfl⟩
      have hnext : (LitState.number .minus).next c = some (.number .digits) := by
        rw [LitState.next, NumState.next]
        simp only [if_neg hc, if_pos hdigit, Option.map_some]
      rw [List.foldlM_cons, hnext]
      exact foldlM_digits ht

theorem isLiteral_formatInt (i : ℤ) : IsLiteral (formatInt i) := by
  unfold formatInt
  split
  · exact (isLiteral_formatNat _).2
  · exact (isLiteral_formatNat _).1

theorem parseDecimal_formatNat (n : ℕ) : parseDecimal (formatNat n) = some n := by
  obtain ⟨c, t, hcons, -⟩ := formatNat_cons n
  have hne : formatNat n ≠ [] := by
    rw [hcons]
    exact List.cons_ne_nil c t
  have hdigits : (formatNat n).all Byte.isDigit = true :=
    List.all_eq_true.mpr fun c => isDigit_of_mem_formatNat
  rw [parseDecimal, if_pos ⟨hne, hdigits⟩, parseDigits_formatNat]

theorem parseInt_formatInt (i : ℤ) : parseInt (formatInt i) = some i := by
  unfold formatInt
  split
  · rw [parseInt, List.head?_cons, if_pos rfl, List.tail_cons, parseDecimal_formatNat,
      Option.map_some]
    congr 1
    omega
  · have hhead : ¬(formatNat i.natAbs).head? = some Byte.minus := by
      obtain ⟨c, t, hcons, hdigit⟩ := formatNat_cons i.natAbs
      rw [hcons]
      intro h
      rw [Option.some.inj h] at hdigit
      cases hdigit
    rw [parseInt, if_neg hhead, parseDecimal_formatNat, Option.map_some]
    congr 1
    omega

def integers : Floats ℤ := ⟨parseInt, formatInt, isLiteral_formatInt⟩

theorem literalDoc_formatInt (i : ℤ) : literalDoc integers (formatInt i) = some (.number i) := by
  have hparse := parseInt_formatInt i
  have hne : ∀ raw, parseInt raw = none → formatInt i ≠ raw := by
    rintro raw hraw rfl
    rw [hparse] at hraw
    cases hraw
  have hhead : (formatInt i).head? ≠ some 34 := by
    obtain ⟨c, t, hcons, hdigit⟩ := formatNat_cons i.natAbs
    unfold formatInt
    split
    · exact fun h => absurd (Option.some.inj h) (by decide)
    · rw [hcons]
      intro h
      rw [Option.some.inj h] at hdigit
      cases hdigit
  rw [literalDoc, if_neg hhead, if_neg (hne _ (by decide)), if_neg (hne _ (by decide)),
    if_neg (hne _ (by decide))]
  exact congrArg (Option.map Doc.number) hparse

end Go.JsonText
