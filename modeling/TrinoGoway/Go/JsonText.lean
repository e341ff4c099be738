import TrinoGoway.Go.Json

/-! JSON texts as trees of literals: a reader that takes a value off the front of a text, and
layouts of a tree as a text. Literals are kept as they are written. -/
namespace Go.JsonText

open Go Json

/-! ### Literals -/

/-- Where a string literal stands; `hex` counts the digits to come after the next one. -/
inductive StrState
  | plain
  | escaped
  | hex (left : ℕ)
  | closed

def StrState.next : StrState → UInt8 → Option StrState
  | plain, c =>
    if c = 34 then some closed
    else if c = 92 then some escaped
    else if c < 32 then none
    else some plain
  | escaped, c =>
    if c = 117 then some (hex 3) else if (unescape c).isSome then some plain else none
  | hex left, c =>
    if (Json.hexDigit c).isSome then some (if left = 0 then plain else hex (left - 1)) else none
  | closed, _ => none

/-- Where a literal stands; `word` has the rest of `true`, `false` or `null`. -/
inductive LitState
  | string (q : StrState)
  | number (n : NumState)
  | word (rest : GoString)

namespace LitState

def start (c : UInt8) : Option LitState :=
  if c = 34 then some (string .plain)
  else if c = 45 then some (number .minus)
  else if c = 48 then some (number .zero)
  else if Byte.isDigit c then some (number .digits)
  else if c = 116 then some (word (str "rue"))
  else if c = 102 then some (word (str "alse"))
  else if c = 110 then some (word (str "ull"))
  else none

def next : LitState → UInt8 → Option LitState
  | string q, c => (q.next c).map string
  | number n, c => (n.next c).map number
  | word [], _ => none
  | word (x :: rest), c => if c = x then some (word rest) else none

def isComplete : LitState → Bool
  | string .closed => true
  | string _ => false
  | number n => n.isComplete
  | word rest => rest.isEmpty

end LitState

/-- The longest front of a text that goes on with a literal, the state after it, and the rest. -/
def munch : LitState → GoString → GoString × LitState × GoString
  | st, [] => ([], st, [])
  | st, c :: s =>
    match st.next c with
    | some st' =>
      let (raw, e, r) := munch st' s
      (c :: raw, e, r)
    | none => ([], st, c :: s)

def readLiteral : GoString → Option (GoString × GoString)
  | [] => none
  | c :: s =>
    match LitState.start c with
    | none => none
    | some st =>
      let (raw, e, r) := munch st s
      if e.isComplete then some (c :: raw, r) else none

def IsLiteral (raw : GoString) : Prop :=
  ∃ c s st e, raw = c :: s ∧ LitState.start c = some st ∧ s.foldlM LitState.next st = some e ∧
    e.isComplete = true

def IsString (raw : GoString) : Prop := IsLiteral raw ∧ raw.head? = some 34

def Stops (r : GoString) : Prop :=
  ∀ c ∈ r.head?, isSpace c = true ∨ c = 44 ∨ c = 58 ∨ c = 93 ∨ c = 125

theorem foldlM_cons_eq_some {σ : Type} {next : σ → UInt8 → Option σ} {st e : σ} {c : UInt8}
    {s : GoString} (h : (c :: s).foldlM next st = some e) :
    ∃ st', next st c = some st' ∧ s.foldlM next st' = some e := by
  rw [List.foldlM_cons] at h
  exact Option.bind_eq_some_iff.mp h

theorem munch_spec {st : LitState} {t raw r : GoString} {e : LitState}
    (h : munch st t = (raw, e, r)) : t = raw ++ r ∧ raw.foldlM LitState.next st = some e := by
  induction t generalizing st raw with
  | nil =>
    cases h
    exact ⟨rfl, rfl⟩
  | cons c s ih =>
    unfold munch at h
    cases hnext : st.next c with
    | none =>
      rw [hnext] at h
      cases h
      exact ⟨rfl, rfl⟩
    | some st' =>
      rw [hnext] at h
      cases h
      obtain ⟨htext, hrun⟩ := ih rfl
      refine ⟨congrArg (c :: ·) htext, ?_⟩
      rw [List.foldlM_cons, hnext]
      exact hrun

theorem munch_append {st e : LitState} {raw r : GoString}
    (hrun : raw.foldlM LitState.next st = some e) (hr : ∀ c ∈ r.head?, e.next c = none) :
    munch st (raw ++ r) = (raw, e, r) := by
  induction raw generalizing st with
  | nil =>
    obtain rfl := Option.some.inj hrun
    cases r with
    | nil => rfl
    | cons c s =>
      rw [List.nil_append, munch, hr c rfl]
  | cons c s ih =>
    obtain ⟨st', hnext, hrun⟩ := foldlM_cons_eq_some hrun
    rw [List.cons_append, munch, hnext]
    simp only [ih hrun]

theorem NumState.next_of_stops {n : NumState} {c : UInt8}
    (hc : isSpace c = true ∨ c = 44 ∨ c = 58 ∨ c = 93 ∨ c = 125) : n.next c = none := by
  have hspace : isSpace c = true → c = 32 ∨ c = 9 ∨ c = 10 ∨ c = 13 := by
    simp [isSpace, or_assoc]
  have hcases : c = 32 ∨ c = 9 ∨ c = 10 ∨ c = 13 ∨ c = 44 ∨ c = 58 ∨ c = 93 ∨ c = 125 := by
    rcases hc with hc | hc
    · rcases hspace hc with h | h | h | h <;> simp [h]
    · rcases hc with h | h | h | h <;> simp [h]
  rcases hcases with rfl | rfl | rfl | rfl | rfl | rfl | rfl | rfl <;> cases n <;> rfl

theorem LitState.next_of_complete {e : LitState} (he : e.isComplete = true) {r : GoString}
    (hr : Stops r) : ∀ c ∈ r.head?, e.next c = none := by
  intro c hc
  cases e with
  | string q =>
    cases q with
    | closed => rfl
    | plain => cases he
    | escaped => cases he
    | hex left => cases he
  | number n =>
    rw [LitState.next, NumState.next_of_stops (hr c hc)]
    rfl
  | word rest =>
    cases rest with
    | nil => rfl
    | cons x rest => cases he

theorem readLiteral_append {raw r : GoString} (h : IsLiteral raw) (hr : Stops r) :
    readLiteral (raw ++ r) = some (raw, r) := by
  obtain ⟨c, s, st, e, rfl, hstart, hrun, he⟩ := h
  rw [List.cons_append, readLiteral, hstart]
  simp only [munch_append hrun (e.next_of_complete he hr), he, if_true]

theorem isLiteral_of_read {t raw r : GoString} (h : readLiteral t = some (raw, r)) :
    IsLiteral raw ∧ t = raw ++ r := by
  cases t with
  | nil => cases h
  | cons c s =>
    dsimp only [readLiteral] at h
    cases hstart : LitState.start c with
    | none =>
      rw [hstart] at h
      cases h
    | some st =>
      rw [hstart] at h
      dsimp only at h
      have hmunch : munch st s = ((munch st s).1, (munch st s).2.1, (munch st s).2.2) := rfl
      obtain ⟨htext, hrun⟩ := munch_spec hmunch
      split at h
      next he =>
        cases h
        exact ⟨⟨c, _, st, _, rfl, hstart, hrun, he⟩, congrArg (c :: ·) htext⟩
      next => cases h

/-- A literal does not start with space, or as a container starts or ends. -/
theorem IsLiteral.head {raw : GoString} (h : IsLiteral raw) :
    ∃ c s, raw = c :: s ∧ isSpace c = false ∧ c ≠ 91 ∧ c ≠ 123 ∧ c ≠ 93 ∧ c ≠ 125 := by
  obtain ⟨c, s, st, e, rfl, hstart, -, -⟩ := h
  have hbytes : ∀ b : UInt8, (LitState.start b).isSome = true →
      isSpace b = false ∧ b ≠ 91 ∧ b ≠ 123 ∧ b ≠ 93 ∧ b ≠ 125 :=
    Byte.forall_of_ofNat (by decide +kernel)
  exact ⟨c, s, rfl, hbytes c (by rw [hstart]; rfl)⟩

/-! ### Trees -/

inductive Kind
  | array
  | object
  deriving DecidableEq

namespace Kind

def opening : Kind → UInt8
  | array => 91
  | object => 123

def closing : Kind → UInt8
  | array => 93
  | object => 125

def ofOpening (c : UInt8) : Option Kind :=
  if c = 91 then some array else if c = 123 then some object else none

@[simp] theorem ofOpening_opening (k : Kind) : ofOpening k.opening = some k := by
  cases k <;> rfl

end Kind

/-- A value without the space between its parts. Children of an object have their name, as it is
written; children of an array have the empty text for it. -/
inductive JTree
  | literal (raw : GoString)
  | node (kind : Kind) (children : List (GoString × JTree))

def NameOk : Kind → GoString → Prop
  | .array, name => name = []
  | .object, name => IsString name

inductive JTree.WF : JTree → Prop
  | literal {raw : GoString} : IsLiteral raw → WF (.literal raw)
  | node {kind : Kind} {cs : List (GoString × JTree)} :
      (∀ c ∈ cs, NameOk kind c.1) → (∀ c ∈ cs, WF c.2) → WF (.node kind cs)

/-! ### Reading -/

def skipSpace (t : GoString) : GoString := t.dropWhile isSpace

def readName : Kind → GoString → Option (GoString × GoString)
  | .array, t => some ([], t)
  | .object, t =>
    let t := skipSpace t
    if t.head? = some 34 then
      match readLiteral t with
      | none => none
      | some (name, r) =>
        match skipSpace r with
        | [] => none
        | c :: r => if c = 58 then some (name, r) else none
    else none

section Children

variable {α : Type} (val : GoString → Option (α × GoString)) (kind : Kind)

/-- The children up to the end of the container, at least one; `val` reads a value. -/
def readChildren : ℕ → GoString → Option (List (GoString × α) × GoString)
  | 0, _ => none
  | n + 1, t =>
    match readName kind t with
    | none => none
    | some (name, r) =>
      match val r with
      | none => none
      | some (v, r) =>
        match skipSpace r with
        | [] => none
        | c :: r =>
          if c = 44 then (readChildren n r).map fun x => ((name, v) :: x.1, x.2)
          else if c = kind.closing then some ([(name, v)], r)
          else none

def readContainer (n : ℕ) (t : GoString) : Option (List (GoString × α) × GoString) :=
  match skipSpace t with
  | [] => none
  | c :: r => if c = kind.closing then some ([], r) else readChildren val kind n t

end Children

/-- The value at the front of a text, and the rest. Each level and each child takes a byte, so the
length of the text is enough for the first argument. -/
def readValue : ℕ → GoString → Option (JTree × GoString)
  | 0, _ => none
  | n + 1, t =>
    match skipSpace t with
    | [] => none
    | c :: s =>
      match Kind.ofOpening c with
      | some kind => (readContainer (readValue n) kind n s).map fun x => (.node kind x.1, x.2)
      | none => (readLiteral (c :: s)).map fun x => (.literal x.1, x.2)

def readText (t : GoString) : Option JTree :=
  match readValue t.length t with
  | none => none
  | some (s, r) => if skipSpace r = [] then some s else none

def valid (t : GoString) : Bool := (readText t).isSome

/-! ### What is read is well formed -/

theorem nameOk_of_readName {kind : Kind} {t name r : GoString}
    (h : readName kind t = some (name, r)) : NameOk kind name := by
  cases kind with
  | array =>
    cases h
    rfl
  | object =>
    dsimp only [readName] at h
    split at h
    next hhead =>
      cases hlit : readLiteral (skipSpace t) with
      | none =>
        rw [hlit] at h
        cases h
      | some x =>
        obtain ⟨raw, r'⟩ := x
        rw [hlit] at h
        dsimp only at h
        obtain ⟨hraw, htext⟩ := isLiteral_of_read hlit
        have hname : name = raw := by
          split at h
          · cases h
          · split at h
            · exact (congrArg Prod.fst (Option.some.inj h)).symm
            · cases h
        obtain ⟨c, s, hcons, -⟩ := hraw.head
        rw [htext, hcons] at hhead
        rw [hname]
        exact ⟨hraw, by rw [hcons]; exact hhead⟩
    next => cases h

theorem forall_of_readChildren {α : Type} {val : GoString → Option (α × GoString)} {kind : Kind}
    {P : α → Prop} (hval : ∀ t v r, val t = some (v, r) → P v) {n : ℕ} {t r : GoString}
    {cs : List (GoString × α)} (h : readChildren val kind n t = some (cs, r)) :
    ∀ c ∈ cs, NameOk kind c.1 ∧ P c.2 := by
  induction n generalizing t cs with
  | zero => cases h
  | succ n ih =>
    dsimp only [readChildren] at h
    cases hname : readName kind t with
    | none =>
      rw [hname] at h
      cases h
    | some x =>
      obtain ⟨name, r₁⟩ := x
      rw [hname] at h
      dsimp only at h
      cases hv : val r₁ with
      | none =>
        rw [hv] at h
        cases h
      | some y =>
        obtain ⟨v, r₂⟩ := y
        rw [hv] at h
        dsimp only at h
        have hfirst : NameOk kind name ∧ P v := ⟨nameOk_of_readName hname, hval _ _ _ hv⟩
        split at h
        · cases h
        · split at h
          · obtain ⟨⟨cs', r'⟩, hcs, heq⟩ := Option.map_eq_some_iff.mp h
            cases heq
            exact List.forall_mem_cons.mpr ⟨hfirst, ih hcs⟩
          · split at h
            · cases h
              exact List.forall_mem_singleton.mpr hfirst
            · cases h

theorem wf_of_readValue {n : ℕ} {t r : GoString} {s : JTree} (h : readValue n t = some (s, r)) :
    s.WF := by
  induction n generalizing t s r with
  | zero => cases h
  | succ n ih =>
    dsimp only [readValue] at h
    split at h
    · cases h
    · split at h
      next kind _ =>
        obtain ⟨⟨cs, r'⟩, hcs, heq⟩ := Option.map_eq_some_iff.mp h
        cases heq
        have hall : ∀ c ∈ cs, NameOk kind c.1 ∧ c.2.WF := by
          unfold readContainer at hcs
          split at hcs
          · cases hcs
          · split at hcs
            · cases hcs
              exact fun c hc => absurd hc List.not_mem_nil
            · exact forall_of_readChildren (fun _ _ _ => ih) hcs
        exact .node (fun c hc => (hall c hc).1) fun c hc => (hall c hc).2
      next =>
        obtain ⟨⟨raw, r'⟩, hraw, heq⟩ := Option.map_eq_some_iff.mp h
        cases heq
        exact .literal (isLiteral_of_read hraw).1

theorem wf_of_readText {t : GoString} {s : JTree} (h : readText t = some s) : s.WF := by
  unfold readText at h
  split at h
  · cases h
  next hread =>
    split at h
    · cases h
      exact wf_of_readValue hread
    · cases h

/-! ### Layouts -/

def Spaces (t : GoString) : Prop := ∀ c ∈ t, isSpace c = true

/-- The space that a text of a tree has, by the depth of nesting for the space between lines. -/
structure Layout where
  newline : ℕ → GoString
  colon : GoString
  newline_spaces : ∀ d, Spaces (newline d)
  colon_spaces : Spaces colon

def compact : Layout where
  newline _ := []
  colon := []
  newline_spaces _ _ hc := absurd hc List.not_mem_nil
  colon_spaces _ hc := absurd hc List.not_mem_nil

/-- `json.Indent` with the empty prefix and two spaces. -/
def indented : Layout where
  newline d := Byte.newline :: List.replicate (2 * d) Byte.space
  colon := [Byte.space]
  newline_spaces d c hc := by
    rcases List.mem_cons.mp hc with rfl | hc
    · rfl
    · rw [List.eq_of_mem_replicate hc]
      rfl
  colon_spaces c hc := by
    rw [List.mem_singleton.mp hc]
    rfl

section Layout

variable (w : Layout) (kind : Kind)

def childText : Kind → GoString × GoString → GoString
  | .array, c => c.2
  | .object, c => c.1 ++ Byte.colon :: (w.colon ++ c.2)

def moreChildren (d : ℕ) : List (GoString × GoString) → GoString
  | [] => []
  | c :: cs => Byte.comma :: (w.newline d ++ (childText w kind c ++ moreChildren d cs))

def layOut (d : ℕ) : List (GoString × GoString) → GoString
  | [] => [kind.opening, kind.closing]
  | c :: cs =>
    kind.opening :: (w.newline (d + 1) ++ (childText w kind c ++ (moreChildren w kind (d + 1) cs ++
      (w.newline d ++ [kind.closing]))))

end Layout

mutual

def JTree.print (w : Layout) : ℕ → JTree → GoString
  | _, .literal raw => raw
  | d, .node kind cs => layOut w kind d (printAll w (d + 1) cs)

def printAll (w : Layout) : ℕ → List (GoString × JTree) → List (GoString × GoString)
  | _, [] => []
  | d, (name, s) :: cs => (name, s.print w d) :: printAll w d cs

end

theorem printAll_eq (w : Layout) (d : ℕ) (cs : List (GoString × JTree)) :
    printAll w d cs = cs.map fun c => (c.1, c.2.print w d) := by
  induction cs with
  | nil => rw [printAll, List.map_nil]
  | cons c cs ih => rw [printAll, ih, List.map_cons]

theorem skipSpace_append {ws : GoString} (hws : Spaces ws) (t : GoString) :
    skipSpace (ws ++ t) = skipSpace t :=
  List.dropWhile_append_of_pos hws

theorem skipSpace_cons {c : UInt8} (hc : isSpace c = false) (t : GoString) :
    skipSpace (c :: t) = c :: t := by
  simp [skipSpace, hc]

theorem skipSpace_to {ws : GoString} (hws : Spaces ws) {c : UInt8} (hc : isSpace c = false)
    (t : GoString) : skipSpace (ws ++ c :: t) = c :: t := by
  rw [skipSpace_append hws, skipSpace_cons hc]

theorem Kind.not_space (k : Kind) : isSpace k.opening = false ∧ isSpace k.closing = false := by
  cases k <;> exact ⟨rfl, rfl⟩

theorem stops_comma (t : GoString) : Stops (Byte.comma :: t) := by
  intro c hc
  obtain rfl := Option.some.inj hc
  exact Or.inr (Or.inl rfl)

theorem stops_colon (t : GoString) : Stops (Byte.colon :: t) := by
  intro c hc
  obtain rfl := Option.some.inj hc
  exact Or.inr (Or.inr (Or.inl rfl))

theorem stops_closing {ws : GoString} (hws : Spaces ws) (kind : Kind) (t : GoString) :
    Stops (ws ++ kind.closing :: t) := by
  intro c hc
  cases ws with
  | nil =>
    obtain rfl := Option.some.inj hc
    cases kind with
    | array => exact Or.inr (Or.inr (Or.inr (Or.inl rfl)))
    | object => exact Or.inr (Or.inr (Or.inr (Or.inr rfl)))
  | cons x ws =>
    obtain rfl := Option.some.inj hc
    exact Or.inl (hws x List.mem_cons_self)

theorem readName_childText (w : Layout) {kind : Kind} {name : GoString} (hname : NameOk kind name)
    {ws : GoString} (hws : Spaces ws) (text r : GoString) :
    ∃ ws', Spaces ws' ∧
      readName kind (ws ++ (childText w kind (name, text) ++ r)) =
        some (name, ws' ++ (text ++ r)) := by
  cases kind with
  | array =>
    obtain rfl : name = [] := hname
    exact ⟨ws, hws, rfl⟩
  | object =>
    obtain ⟨hlit, hhead⟩ := hname
    refine ⟨w.colon, w.colon_spaces, ?_⟩
    obtain ⟨c, s, rfl, hspace, -⟩ := hlit.head
    have hskip : skipSpace (ws ++ (childText w .object (c :: s, text) ++ r)) =
        c :: s ++ Byte.colon :: (w.colon ++ (text ++ r)) := by
      simp only [childText, List.cons_append, List.append_assoc]
      rw [skipSpace_to hws hspace]
    have hread := readLiteral_append hlit (stops_colon (w.colon ++ (text ++ r)))
    have hcolon : skipSpace (Byte.colon :: (w.colon ++ (text ++ r))) =
      Byte.colon :: (w.colon ++ (text ++ r)) := skipSpace_cons rfl _
    have hquote : (c :: s ++ Byte.colon :: (w.colon ++ (text ++ r))).head? = some 34 := hhead
    dsimp only [readName]
    rw [hskip, if_pos hquote, hread]
    dsimp only
    rw [hcolon]
    rfl

def Starts (t : GoString) : Prop :=
  ∃ c s, t = c :: s ∧ isSpace c = false ∧ c ≠ 93 ∧ c ≠ 125

theorem IsLiteral.starts {raw : GoString} (h : IsLiteral raw) : Starts raw := by
  obtain ⟨c, s, hraw, hspace, -, -, hends⟩ := h.head
  exact ⟨c, s, hraw, hspace, hends⟩

theorem starts_childText (w : Layout) {kind : Kind} {name text : GoString}
    (hname : NameOk kind name) (htext : Starts text) : Starts (childText w kind (name, text)) := by
  cases kind with
  | array => exact htext
  | object =>
    obtain ⟨c, s, rfl, hc⟩ := hname.1.starts
    exact ⟨c, _, rfl, hc⟩

section ReadChildren

variable {α β : Type} (val : GoString → Option (α × GoString)) {kind : Kind}
  (text : β → GoString) (value : β → α)

/-- A reader that reads back the texts of the children reads back the children. -/
theorem readChildren_layOut (w : Layout) (d : ℕ) {c : GoString × β} {cs : List (GoString × β)}
    (hval : ∀ c' ∈ c :: cs, ∀ ws r, Spaces ws → Stops r →
      val (ws ++ (text c'.2 ++ r)) = some (value c'.2, r))
    (hnames : ∀ c' ∈ c :: cs, NameOk kind c'.1) {ws ws' : GoString} (hws : Spaces ws)
    (hws' : Spaces ws') {n : ℕ} (hn : cs.length < n) (r : GoString) :
    readChildren val kind n
        (ws ++ (childText w kind (c.1, text c.2) ++
          (moreChildren w kind d (cs.map fun c => (c.1, text c.2)) ++
            (ws' ++ kind.closing :: r)))) =
      some ((c :: cs).map fun c => (c.1, value c.2), r) := by
  induction cs generalizing c ws n with
  | nil =>
    obtain ⟨n, rfl⟩ : ∃ m, n = m + 1 := ⟨n - 1, by omega⟩
    obtain ⟨ws₁, hws₁, hname⟩ := readName_childText w (hnames c List.mem_cons_self) hws (text c.2)
      (ws' ++ kind.closing :: r)
    have hread := hval c List.mem_cons_self ws₁ _ hws₁ (stops_closing hws' kind r)
    have hskip := skipSpace_to hws' kind.not_space.2 r
    have hcomma : kind.closing ≠ 44 := by cases kind <;> decide
    rw [List.map_nil, moreChildren, List.nil_append]
    dsimp only [readChildren]
    rw [hname]
    dsimp only
    rw [hread]
    dsimp only
    rw [hskip]
    simp only [if_neg hcomma, if_true]
    rfl
  | cons c' cs ih =>
    obtain ⟨n, rfl⟩ : ∃ m, n = m + 1 := ⟨n - 1, by omega⟩
    rw [List.length_cons] at hn
    have hrest := ih (fun x hx => hval x (List.mem_cons_of_mem _ hx))
      (fun x hx => hnames x (List.mem_cons_of_mem _ hx)) (w.newline_spaces d)
      (show cs.length < n by omega)
    have hmore : moreChildren w kind d ((c' :: cs).map fun c => (c.1, text c.2)) ++
          (ws' ++ kind.closing :: r) =
        Byte.comma :: (w.newline d ++ (childText w kind (c'.1, text c'.2) ++
          (moreChildren w kind d (cs.map fun c => (c.1, text c.2)) ++
            (ws' ++ kind.closing :: r)))) := by
      rw [List.map_cons, moreChildren]
      simp only [List.cons_append, List.append_assoc]
    generalize w.newline d ++ (childText w kind (c'.1, text c'.2) ++ _) = rest at hrest hmore
    obtain ⟨ws₁, hws₁, hname⟩ := readName_childText w (hnames c List.mem_cons_self) hws (text c.2)
      (Byte.comma :: rest)
    have hread := hval c List.mem_cons_self ws₁ _ hws₁ (stops_comma rest)
    have hskip : skipSpace (Byte.comma :: rest) = Byte.comma :: rest := skipSpace_cons rfl rest
    rw [hmore]
    dsimp only [readChildren]
    rw [hname]
    dsimp only
    rw [hread]
    dsimp only
    rw [hskip]
    simp only [if_true, hrest, Option.map_some, List.map_cons]

theorem readContainer_layOut (w : Layout) (d : ℕ) {cs : List (GoString × β)}
    (hval : ∀ c ∈ cs, ∀ ws r, Spaces ws → Stops r →
      val (ws ++ (text c.2 ++ r)) = some (value c.2, r))
    (hnames : ∀ c ∈ cs, NameOk kind c.1) (hstarts : ∀ c ∈ cs, Starts (text c.2)) {n : ℕ}
    (hn : cs.length ≤ n) (r : GoString) :
    ∃ t, layOut w kind d (cs.map fun c => (c.1, text c.2)) ++ r = kind.opening :: t ∧
      readContainer val kind n t = some (cs.map fun c => (c.1, value c.2), r) := by
  cases cs with
  | nil =>
    refine ⟨kind.closing :: r, rfl, ?_⟩
    rw [readContainer, skipSpace_cons kind.not_space.2]
    simp only [if_true]
    rfl
  | cons c cs =>
    have hread := readChildren_layOut val text value w (d + 1) hval hnames
      (w.newline_spaces (d + 1)) (w.newline_spaces d) (show cs.length < n from hn) r
    refine ⟨w.newline (d + 1) ++ (childText w kind (c.1, text c.2) ++
        (moreChildren w kind (d + 1) (cs.map fun c => (c.1, text c.2)) ++
          (w.newline d ++ kind.closing :: r))), ?_, ?_⟩
    · rw [List.map_cons, layOut]
      simp only [List.cons_append, List.append_assoc, List.nil_append]
    · obtain ⟨x, t, htext, hspace, h93, h125⟩ := starts_childText w
        (hnames c List.mem_cons_self) (hstarts c List.mem_cons_self)
      have hclosing : x ≠ kind.closing := by
        cases kind
        · exact h93
        · exact h125
      rw [readContainer, hread, htext, List.cons_append,
        skipSpace_to (w.newline_spaces (d + 1)) hspace]
      dsimp only
      rw [if_neg hclosing]

end ReadChildren

theorem layOut_length (w : Layout) (kind : Kind) (d : ℕ) (cs : List (GoString × GoString)) :
    cs.length < (layOut w kind d cs).length ∧
      ∀ c ∈ cs, c.2.length < (layOut w kind d cs).length := by
  have hchild : ∀ c : GoString × GoString, c.2.length ≤ (childText w kind c).length := by
    intro c
    cases kind with
    | array => exact Nat.le_refl _
    | object =>
      simp only [childText, List.length_append, List.length_cons]
      omega
  have hmore : ∀ cs : List (GoString × GoString),
      cs.length ≤ (moreChildren w kind (d + 1) cs).length ∧
        ∀ c ∈ cs, c.2.length ≤ (moreChildren w kind (d + 1) cs).length := by
    intro cs
    induction cs with
    | nil => exact ⟨Nat.le_refl _, fun c hc => absurd hc List.not_mem_nil⟩
    | cons c cs ih =>
      have hc := hchild c
      simp only [moreChildren, List.length_cons, List.length_append]
      refine ⟨by omega, List.forall_mem_cons.mpr ⟨by omega, ?_⟩⟩
      intro c' hc'
      have hrest := ih.2 c' hc'
      omega
  cases cs with
  | nil => exact ⟨Nat.succ_pos _, fun c hc => absurd hc List.not_mem_nil⟩
  | cons c cs =>
    have hc := hchild c
    have hcs := hmore cs
    simp only [layOut, List.length_cons, List.length_append, List.length_nil]
    refine ⟨by omega, List.forall_mem_cons.mpr ⟨by omega, ?_⟩⟩
    intro c' hc'
    have hrest := hcs.2 c' hc'
    omega

theorem starts_print (w : Layout) (d : ℕ) {s : JTree} (hs : s.WF) : Starts (s.print w d) := by
  cases hs with
  | literal hraw =>
    rw [JTree.print]
    exact hraw.starts
  | @node kind cs hnames hcs =>
    rw [JTree.print]
    have hopening : kind.opening ≠ 93 ∧ kind.opening ≠ 125 := by cases kind <;> decide
    cases hall : printAll w (d + 1) cs with
    | nil => exact ⟨_, _, rfl, kind.not_space.1, hopening⟩
    | cons c cs' => exact ⟨_, _, rfl, kind.not_space.1, hopening⟩

/-- A tree is read back from its text, whatever the layout, and the rest is left. -/
theorem readValue_print (w : Layout) {s : JTree} (hs : s.WF) (d : ℕ) {n : ℕ}
    (hn : (s.print w d).length ≤ n) {ws r : GoString} (hws : Spaces ws) (hr : Stops r) :
    readValue n (ws ++ (s.print w d ++ r)) = some (s, r) := by
  induction hs generalizing d n ws r with
  | @literal raw hraw =>
    rw [JTree.print] at hn ⊢
    obtain ⟨c, t, rfl, hspace, h91, h123, -⟩ := hraw.head
    obtain ⟨n, rfl⟩ : ∃ m, n = m + 1 := ⟨n - 1, by rw [List.length_cons] at hn; omega⟩
    have hread := readLiteral_append hraw hr
    have hkind : Kind.ofOpening c = none := by
      rw [Kind.ofOpening, if_neg h91, if_neg h123]
    rw [readValue, List.cons_append, skipSpace_to hws hspace]
    dsimp only
    rw [hkind]
    dsimp only
    rw [← List.cons_append, hread]
    rfl
  | @node kind cs hnames hcs ih =>
    rw [JTree.print, printAll_eq] at hn ⊢
    obtain ⟨hlen, hlens⟩ := layOut_length w kind d (cs.map fun c => (c.1, c.2.print w (d + 1)))
    rw [List.length_map] at hlen
    obtain ⟨n, rfl⟩ : ∃ m, n = m + 1 := ⟨n - 1, by omega⟩
    have hval : ∀ c ∈ cs, ∀ ws r, Spaces ws → Stops r →
        readValue n (ws ++ (c.2.print w (d + 1) ++ r)) = some (c.2, r) := by
      intro c hc ws r hws hr
      have hlenc := hlens _ (List.mem_map.mpr ⟨c, hc, rfl⟩)
      exact ih c hc (d + 1) (by dsimp only at hlenc; omega) hws hr
    obtain ⟨t, htext, hread⟩ := readContainer_layOut (readValue n) (fun s => s.print w (d + 1)) id
      w d hval hnames (fun c hc => starts_print w (d + 1) (hcs c hc))
      (show cs.length ≤ n by omega) r
    rw [readValue, htext, skipSpace_to hws kind.not_space.1]
    dsimp only
    rw [Kind.ofOpening_opening]
    dsimp only
    rw [hread]
    simp

theorem Spaces.nil : Spaces [] := fun _ hc => absurd hc List.not_mem_nil

theorem Spaces.skipSpace {ws : GoString} (h : Spaces ws) : skipSpace ws = [] := by
  have hskip := skipSpace_append h []
  rw [List.append_nil] at hskip
  exact hskip

theorem Spaces.stops {ws : GoString} (h : Spaces ws) : Stops ws :=
  fun c hc => Or.inl (h c (List.mem_of_mem_head? hc))

theorem readText_print (w : Layout) {s : JTree} (hs : s.WF) (d : ℕ) {ws : GoString}
    (hws : Spaces ws) : readText (s.print w d ++ ws) = some s := by
  have hlen : (s.print w d).length ≤ (s.print w d ++ ws).length := by
    rw [List.length_append]
    omega
  have hread : readValue (s.print w d ++ ws).length (s.print w d ++ ws) = some (s, ws) :=
    readValue_print w hs d hlen Spaces.nil hws.stops
  rw [readText, hread]
  simp only [hws.skipSpace, if_true]

theorem readText_print_self (w : Layout) {s : JTree} (hs : s.WF) (d : ℕ) :
    readText (s.print w d) = some s := by
  have hread := readText_print w hs d Spaces.nil
  rw [List.append_nil] at hread
  exact hread

theorem readText_literal {raw : GoString} (h : IsLiteral raw) :
    readText raw = some (.literal raw) := by
  have hread := readText_print_self compact (.literal h) 0
  rw [JTree.print] at hread
  exact hread

theorem readText_nil : readText [] = none := by
  rw [readText, List.length_nil, readValue]

/-! ### The members of an object as they are written -/

/-- The text of the value at the front of a text, and the rest. -/
def rawValue (n : ℕ) (t : GoString) : Option (GoString × GoString) :=
  let t := skipSpace t
  (readValue n t).map fun x => (t.take (t.length - x.2.length), x.2)

def rawMembers (t : GoString) : Option (List (GoString × GoString)) :=
  match skipSpace t with
  | [] => none
  | c :: s =>
    if c = Kind.object.opening then
      (readContainer (rawValue t.length) .object t.length s).map Prod.fst
    else none

theorem rawValue_print (w : Layout) {s : JTree} (hs : s.WF) (d : ℕ) {n : ℕ}
    (hn : (s.print w d).length ≤ n) {ws r : GoString} (hws : Spaces ws) (hr : Stops r) :
    rawValue n (ws ++ (s.print w d ++ r)) = some (s.print w d, r) := by
  obtain ⟨c, t, htext, hspace, -⟩ := starts_print w d hs
  have hskip : skipSpace (ws ++ (s.print w d ++ r)) = s.print w d ++ r := by
    rw [htext, List.cons_append, skipSpace_to hws hspace]
  have hread : readValue n (s.print w d ++ r) = some (s, r) :=
    readValue_print w hs d hn Spaces.nil hr
  have htake : (s.print w d ++ r).take ((s.print w d ++ r).length - r.length) = s.print w d := by
    rw [List.length_append, Nat.add_sub_cancel]
    exact List.take_left
  rw [rawValue, hskip, hread, Option.map_some, htake]

theorem rawMembers_print (w : Layout) {cs : List (GoString × JTree)}
    (hs : (JTree.node .object cs).WF) (d : ℕ) (r : GoString) :
    rawMembers ((JTree.node .object cs).print w d ++ r) =
      some (cs.map fun c => (c.1, c.2.print w (d + 1))) := by
  cases hs with
  | node hnames hcs =>
    rw [JTree.print, printAll_eq]
    obtain ⟨hlen, hlens⟩ := layOut_length w .object d (cs.map fun c => (c.1, c.2.print w (d + 1)))
    rw [List.length_map] at hlen
    generalize htotal : (layOut w .object d (cs.map fun c => (c.1, c.2.print w (d + 1))) ++
      r).length = n
    have hn : (layOut w .object d (cs.map fun c => (c.1, c.2.print w (d + 1)))).length ≤ n := by
      rw [← htotal, List.length_append]
      omega
    have hval : ∀ c ∈ cs, ∀ ws r, Spaces ws → Stops r →
        rawValue n (ws ++ (c.2.print w (d + 1) ++ r)) = some (c.2.print w (d + 1), r) := by
      intro c hc ws r hws hr
      have hlenc : (c.2.print w (d + 1)).length < _ := hlens _ (List.mem_map.mpr ⟨c, hc, rfl⟩)
      exact rawValue_print w (hcs c hc) (d + 1) (by omega) hws hr
    obtain ⟨t, htext, hread⟩ := readContainer_layOut (rawValue n) (fun s => s.print w (d + 1))
      (fun s => s.print w (d + 1)) w d hval hnames
      (fun c hc => starts_print w (d + 1) (hcs c hc)) (show cs.length ≤ n by omega) r
    rw [rawMembers, htotal, htext, skipSpace_cons Kind.object.not_space.1]
    simp only [if_true, hread, Option.map_some]

end Go.JsonText
