import TrinoGoway.Go.Basic

/-! `encoding/json`: the scanner as a machine over bytes, and string literals. -/
namespace Go.Json

open Go

inductive Value
  | null
  | bool (b : Bool)
  | number
  | string (s : GoString)
  | array (items : List Value)
  | object (members : List (GoString × Value))

/-- A piece of a string literal: a plain byte or a `\u` escape. -/
inductive Piece
  | byte (b : UInt8)
  | escape (u : ℕ)

section Strings

def replacement : GoString := [239, 191, 189]

def encodeRune (r : ℕ) : GoString :=
  if r < 0x80 then [.ofNat r]
  else if r < 0x800 then [.ofNat (0xC0 + r / 64), .ofNat (0x80 + r % 64)]
  else if 0xD800 ≤ r ∧ r < 0xE000 then replacement
  else if r < 0x10000 then
    [.ofNat (0xE0 + r / 4096), .ofNat (0x80 + r / 64 % 64), .ofNat (0x80 + r % 64)]
  else
    [.ofNat (0xF0 + r / 262144), .ofNat (0x80 + r / 4096 % 64), .ofNat (0x80 + r / 64 % 64),
      .ofNat (0x80 + r % 64)]

private def isByteIn (lo hi : UInt8) : Option Piece → Bool
  | some (.byte b) => lo ≤ b && b ≤ hi
  | _ => false

/-- How many bytes of `rest` complete the rune that starts with `b`; none if it is malformed. -/
def runeTail (b : UInt8) (rest : List Piece) : Option ℕ :=
  let second lo hi := isByteIn lo hi rest[0]?
  let third := isByteIn 0x80 0xBF rest[1]?
  let fourth := isByteIn 0x80 0xBF rest[2]?
  if b < 0x80 then some 0
  else if b < 0xC2 then none
  else if b < 0xE0 then if second 0x80 0xBF then some 1 else none
  else if b < 0xF0 then
    let lo := if b = 0xE0 then 0xA0 else 0x80
    let hi := if b = 0xED then 0x9F else 0xBF
    if second lo hi && third then some 2 else none
  else if b < 0xF5 then
    let lo := if b = 0xF0 then 0x90 else 0x80
    let hi := if b = 0xF4 then 0x8F else 0xBF
    if second lo hi && third && fourth then some 3 else none
  else none

def tailLength (b : UInt8) : ℕ :=
  if b < 0x80 then 0 else if b < 0xE0 then 1 else if b < 0xF0 then 2 else 3

def Piece.isCont : Piece → Bool
  | byte b => 0x80 ≤ b && b ≤ 0xBF
  | escape _ => false

private theorem isCont_of_isByteIn {lo hi : UInt8} (hlo : 0x80 ≤ lo) (hhi : hi ≤ 0xBF)
    {p : Option Piece} (h : isByteIn lo hi p) : ∃ q, p = some q ∧ q.isCont = true := by
  cases p with
  | none => cases h
  | some q =>
    cases q with
    | escape u => cases h
    | byte b =>
      obtain ⟨hb, hb'⟩ := Bool.and_eq_true_iff.mp h
      have hcont : 0x80 ≤ b ∧ b ≤ 0xBF :=
        ⟨UInt8.le_trans hlo (of_decide_eq_true hb), UInt8.le_trans (of_decide_eq_true hb') hhi⟩
      exact ⟨.byte b, rfl, by simpa [Piece.isCont] using hcont⟩

/-- A well-formed rune is as long as its first byte says, and is found by the continuation bytes
that belong to it, whatever follows. -/
theorem runeTail_of_agree {b : UInt8} {l l' : List Piece} {n : ℕ} (h : runeTail b l = some n)
    (hl : ∀ i < n, l'[i]? = l[i]?) :
    n = tailLength b ∧ runeTail b l' = some n ∧
      ∀ i < n, ∃ q, l[i]? = some q ∧ q.isCont = true := by
  unfold runeTail at h ⊢
  unfold tailLength
  by_cases h₁ : b < 0x80
  · simp only [if_pos h₁] at h ⊢
    obtain rfl := Option.some.inj h
    exact ⟨rfl, rfl, fun i hi => absurd hi (Nat.not_lt_zero i)⟩
  simp only [if_neg h₁] at h ⊢
  by_cases h₂ : b < 0xC2
  · rw [if_pos h₂] at h
    cases h
  rw [if_neg h₂] at h ⊢
  by_cases h₃ : b < 0xE0
  · rw [if_pos h₃] at h
    rw [if_pos h₃, if_pos h₃]
    obtain ⟨hsecond, hn⟩ := Option.ite_none_right_eq_some.mp h
    obtain rfl := Option.some.inj hn
    rw [hl 0 (by omega), if_pos hsecond]
    refine ⟨rfl, rfl, fun i hi => ?_⟩
    obtain rfl : i = 0 := by omega
    exact isCont_of_isByteIn (by decide) (by decide) hsecond
  rw [if_neg h₃] at h
  rw [if_neg h₃, if_neg h₃]
  by_cases h₄ : b < 0xF0
  · rw [if_pos h₄] at h
    rw [if_pos h₄, if_pos h₄]
    obtain ⟨hbytes, hn⟩ := Option.ite_none_right_eq_some.mp h
    obtain rfl := Option.some.inj hn
    rw [hl 0 (by omega), hl 1 (by omega), if_pos hbytes]
    obtain ⟨hsecond, hthird⟩ := Bool.and_eq_true_iff.mp hbytes
    refine ⟨rfl, rfl, fun i hi => ?_⟩
    obtain rfl | rfl : i = 0 ∨ i = 1 := by omega
    · refine isCont_of_isByteIn ?_ ?_ hsecond
      · split <;> decide
      · split <;> decide
    · exact isCont_of_isByteIn (by decide) (by decide) hthird
  rw [if_neg h₄] at h
  rw [if_neg h₄, if_neg h₄]
  split at h
  next h₅ =>
    rw [if_pos h₅]
    obtain ⟨hbytes, hn⟩ := Option.ite_none_right_eq_some.mp h
    obtain rfl := Option.some.inj hn
    rw [hl 0 (by omega), hl 1 (by omega), hl 2 (by omega), if_pos hbytes]
    obtain ⟨hfirst, hfourth⟩ := Bool.and_eq_true_iff.mp hbytes
    obtain ⟨hsecond, hthird⟩ := Bool.and_eq_true_iff.mp hfirst
    refine ⟨rfl, rfl, fun i hi => ?_⟩
    obtain rfl | rfl | rfl : i = 0 ∨ i = 1 ∨ i = 2 := by omega
    · refine isCont_of_isByteIn ?_ ?_ hsecond
      · split <;> decide
      · split <;> decide
    · exact isCont_of_isByteIn (by decide) (by decide) hthird
    · exact isCont_of_isByteIn (by decide) (by decide) hfourth
  next => cases h

theorem runeTail_eq_some {b : UInt8} {rest : List Piece} {n : ℕ} (h : runeTail b rest = some n) :
    n = tailLength b ∧ n ≤ rest.length := by
  obtain ⟨hlength, -, hcont⟩ := runeTail_of_agree h fun _ _ => rfl
  refine ⟨hlength, Nat.le_of_not_lt fun hlt => ?_⟩
  obtain ⟨q, hq, -⟩ := hcont rest.length hlt
  rw [List.getElem?_eq_none (Nat.le_refl _)] at hq
  cases hq

def surrogatePair (hi lo : ℕ) : Option ℕ :=
  if 0xD800 ≤ hi ∧ hi < 0xDC00 ∧ 0xDC00 ≤ lo ∧ lo < 0xE000 then
    some ((hi - 0xD800) * 1024 + (lo - 0xDC00) + 0x10000)
  else none

/-- `unquoteBytes`: malformed bytes and lone surrogates become U+FFFD. The first argument counts
the pieces that still belong to the rune before them. -/
def unquote : ℕ → List Piece → GoString
  | _, [] => []
  | n + 1, .byte b :: ps => b :: unquote n ps
  | n + 1, .escape _ :: ps => unquote n ps
  | 0, .byte b :: ps =>
    match runeTail b ps with
    | some n => b :: unquote n ps
    | none => replacement ++ unquote 0 ps
  | 0, .escape u :: ps =>
    match ps.head? with
    | some (.escape v) =>
      match surrogatePair u v with
      | some r => encodeRune r ++ unquote 1 ps
      | none => encodeRune u ++ unquote 0 ps
    | _ => encodeRune u ++ unquote 0 ps

end Strings

/-- An open container; items and members are collected in reverse. -/
inductive Frame
  | array (items : List Value)
  | object (members : List (GoString × Value))
  | member (members : List (GoString × Value)) (key : GoString)

/-- Where a number stands, by its last byte. -/
inductive NumState
  | minus
  | zero
  | digits
  | point
  | fraction
  | exponent
  | exponentSign
  | exponentDigits

inductive Mode
  | value
  /-- after `[` -/
  | valueOrClose
  | key
  /-- after an opening brace -/
  | keyOrClose
  | colon (key : GoString)
  | afterValue
  | done (v : Value)
  | literal (rest : GoString) (v : Value)
  | number (n : NumState)
  | string (asKey : Bool) (acc : List Piece)
  | backslash (asKey : Bool) (acc : List Piece)
  /-- inside `\u`, with the digits still to come -/
  | hex (asKey : Bool) (acc : List Piece) (left : ℕ) (u : ℕ)

structure State where
  mode : Mode
  stack : List Frame

def maxNestingDepth : ℕ := 10000

def isSpace (b : UInt8) : Bool :=
  b == Byte.space || b == Byte.tab || b == Byte.newline || b == Byte.carriageReturn

namespace State

def complete (v : Value) : List Frame → State
  | [] => ⟨.done v, []⟩
  | .array items :: st => ⟨.afterValue, .array (v :: items) :: st⟩
  | .member members key :: st => ⟨.afterValue, .object ((key, v) :: members) :: st⟩
  | .object members :: st => ⟨.afterValue, .object members :: st⟩

def completeString (asKey : Bool) (acc : List Piece) (st : List Frame) : State :=
  let s := unquote 0 acc.reverse
  if asKey then ⟨.colon s, st⟩ else complete (.string s) st

private def push (mode : Mode) (f : Frame) (st : List Frame) : Option State :=
  if st.length < maxNestingDepth then some ⟨mode, f :: st⟩ else none

def beginValue (b : UInt8) (st : List Frame) : Option State :=
  if b = 123 then push .keyOrClose (.object []) st
  else if b = 91 then push .valueOrClose (.array []) st
  else if b = 34 then some ⟨.string false [], st⟩
  else if b = 45 then some ⟨.number .minus, st⟩
  else if b = 48 then some ⟨.number .zero, st⟩
  else if Byte.isDigit b then some ⟨.number .digits, st⟩
  else if b = 116 then some ⟨.literal (str "rue") (.bool true), st⟩
  else if b = 102 then some ⟨.literal (str "alse") (.bool false), st⟩
  else if b = 110 then some ⟨.literal (str "ull") .null, st⟩
  else none

def beginKey (b : UInt8) (st : List Frame) : Option State :=
  if b = 34 then some ⟨.string true [], st⟩ else none

def endValue (b : UInt8) : List Frame → Option State
  | .array items :: st =>
    if isSpace b then some ⟨.afterValue, .array items :: st⟩
    else if b = 44 then some ⟨.value, .array items :: st⟩
    else if b = 93 then some (complete (.array items.reverse) st)
    else none
  | .object members :: st =>
    if isSpace b then some ⟨.afterValue, .object members :: st⟩
    else if b = 44 then some ⟨.key, .object members :: st⟩
    else if b = 125 then some (complete (.object members.reverse) st)
    else none
  | _ => none

end State

def NumState.next (n : NumState) (b : UInt8) : Option NumState :=
  let exp := b = 101 ∨ b = 69
  match n with
  | minus => if b = 48 then some zero else if Byte.isDigit b then some digits else none
  | zero => if b = 46 then some point else if exp then some exponent else none
  | digits =>
    if Byte.isDigit b then some digits
    else if b = 46 then some point
    else if exp then some exponent
    else none
  | point => if Byte.isDigit b then some fraction else none
  | fraction => if Byte.isDigit b then some fraction else if exp then some exponent else none
  | exponent =>
    if b = 43 ∨ b = 45 then some exponentSign
    else if Byte.isDigit b then some exponentDigits
    else none
  | exponentSign | exponentDigits => if Byte.isDigit b then some exponentDigits else none

def NumState.isComplete : NumState → Bool
  | zero | digits | fraction | exponentDigits => true
  | minus | point | exponent | exponentSign => false

def unescape (b : UInt8) : Option UInt8 :=
  if b = 98 then some 8
  else if b = 102 then some 12
  else if b = 110 then some 10
  else if b = 114 then some 13
  else if b = 116 then some 9
  else if b = 92 ∨ b = 47 ∨ b = 34 then some b
  else none

def hexDigit (b : UInt8) : Option ℕ :=
  if Byte.isDigit b then some (b.toNat - 48)
  else if 97 ≤ b ∧ b ≤ 102 then some (b.toNat - 87)
  else if 65 ≤ b ∧ b ≤ 70 then some (b.toNat - 55)
  else none

def State.step (s : State) (b : UInt8) : Option State :=
  match s.mode with
  | .value => if isSpace b then some s else State.beginValue b s.stack
  | .valueOrClose =>
    if isSpace b then some s
    else if b = 93 then State.endValue b s.stack
    else State.beginValue b s.stack
  | .key => if isSpace b then some s else State.beginKey b s.stack
  | .keyOrClose =>
    if isSpace b then some s
    else if b = 125 then State.endValue b s.stack
    else State.beginKey b s.stack
  | .colon key =>
    if isSpace b then some s
    else if b = 58 then
      match s.stack with
      | .object members :: st => some ⟨.value, .member members key :: st⟩
      | _ => none
    else none
  | .afterValue => State.endValue b s.stack
  | .done _ => if isSpace b then some s else none
  | .literal rest v =>
    match rest with
    | c :: rest' =>
      if b = c then
        some (if rest' = [] then State.complete v s.stack else ⟨.literal rest' v, s.stack⟩)
      else none
    | [] => none
  | .number n =>
    match n.next b with
    | some n' => some ⟨.number n', s.stack⟩
    | none =>
      -- the byte is not part of the number: it is looked at again after it
      if n.isComplete then
        let s' := State.complete .number s.stack
        match s'.mode with
        | .done _ => if isSpace b then some s' else none
        | _ => State.endValue b s'.stack
      else none
  | .string asKey acc =>
    if b = 34 then some (State.completeString asKey acc s.stack)
    else if b = 92 then some ⟨.backslash asKey acc, s.stack⟩
    else if b < 32 then none
    else some ⟨.string asKey (.byte b :: acc), s.stack⟩
  | .backslash asKey acc =>
    if b = 117 then some ⟨.hex asKey acc 4 0, s.stack⟩
    else (unescape b).map fun c => ⟨.string asKey (.byte c :: acc), s.stack⟩
  | .hex asKey acc left u =>
    (hexDigit b).map fun d =>
      if left ≤ 1 then ⟨.string asKey (.escape (u * 16 + d) :: acc), s.stack⟩
      else ⟨.hex asKey acc (left - 1) (u * 16 + d), s.stack⟩

def State.result (s : State) : Option Value :=
  match s.mode, s.stack with
  | .done v, _ => some v
  | .number n, [] => if n.isComplete then some .number else none
  | _, _ => none

def parse (data : GoString) : Option Value :=
  (data.foldlM State.step ⟨.value, []⟩).bind State.result

/-- Does an object key select the struct field with this tag? Case is ignored. -/
def keyMatches (tag key : GoString) : Bool := equalFold tag key

end Go.Json
