import TrinoGoway.SqlMeta.Truncation

/-! Statements as they are written, piece by piece: the names of tables and the text around them.
A table is read where the scan expects one and its name is read to its end; everything else that is
read is a name which strays. -/
namespace TrinoGoway.SqlMeta

open Go

namespace Sql

/-! ### Words and names -/

inductive Identifier
  | bare (w : GoString) (hne : w ≠ []) (hw : ∀ c ∈ w, isIdentChar c)
  | quoted (text : GoString) (hne : text ≠ [])

namespace Identifier

def bytes : Identifier → GoString
  | bare w _ _ => w
  | quoted text _ => quotedIdent text

def token : Identifier → Token
  | bare w _ _ => ⟨w, false⟩
  | quoted text _ => ⟨text, true⟩

def text : Identifier → GoString
  | bare w _ _ => w.map Byte.toLower
  | quoted text _ => text

theorem partText_token (i : Identifier) : partText i.token = i.text := by
  cases i <;> rfl

theorem text_ne_nil (i : Identifier) : i.text ≠ [] := by
  cases i with
  | quoted text hne => exact hne
  | bare w hne hw => exact fun h => hne (List.map_eq_nil_iff.mp h)

end Identifier

structure Dot where
  before : Gap
  behind : Gap

def Dot.bytes (d : Dot) : GoString := d.before.bytes ++ 46 :: d.behind.bytes

inductive QualifiedName
  | one (table : Identifier)
  | two (schema : Identifier) (dot : Dot) (table : Identifier)
  | three (catalog : Identifier) (dot : Dot) (schema : Identifier) (dot' : Dot) (table : Identifier)

namespace QualifiedName

def bytes : QualifiedName → GoString
  | one t => t.bytes
  | two s d t => s.bytes ++ (d.bytes ++ t.bytes)
  | three c d s d' t => c.bytes ++ (d.bytes ++ (s.bytes ++ (d'.bytes ++ t.bytes)))

def first : QualifiedName → Identifier
  | one t => t
  | two s _ _ => s
  | three c _ _ _ _ => c

def more : QualifiedName → List Identifier
  | one _ => []
  | two _ _ t => [t]
  | three _ _ s _ t => [s, t]

def resolve (defaultCatalog defaultSchema : GoString) : QualifiedName → Name
  | one t => ⟨defaultCatalog, defaultSchema, t.text⟩
  | two s _ t => ⟨defaultCatalog, s.text, t.text⟩
  | three c _ s _ t => ⟨c.text, s.text, t.text⟩

def moreTokens (n : QualifiedName) : List Token :=
  n.more.flatMap fun i => [⟨str ".", false⟩, i.token]

def ref (n : QualifiedName) : RawRef := ⟨n.first.text, n.more.map Identifier.text⟩

end QualifiedName

/-! ### Pieces -/

inductive Piece
  | word (s : GoString)
  /-- the `FROM` of an expression -/
  | operator (s : GoString)
  | table (n : QualifiedName)
  | text (s : GoString)

def Piece.bytes : Piece → GoString
  | word s => s
  | operator s => s
  | table n => n.bytes
  | text s => s

def bytesOf (ps : List Piece) : GoString := ps.flatMap Piece.bytes

def tablesOf (ps : List Piece) : List QualifiedName :=
  ps.filterMap fun
    | .table n => some n
    | _ => none

/-- Identifier characters on both sides: the texts would be read as one word. -/
def glued (s t : GoString) : Bool := s.getLast?.any isIdentChar && t.head?.any isIdentChar

/-- Behind the text `pre`, no word and no name goes on into what stands around it. -/
def separated (pre : GoString) : List Piece → Bool
  | [] => true
  | .text s :: ps => separated (pre ++ s) ps
  | p :: ps => !glued pre p.bytes && !glued p.bytes (bytesOf ps) && separated (pre ++ p.bytes) ps

structure Word (keyword : GoString) where
  bytes : GoString
  spelled : upper bytes = keyword

theorem Word.ne_nil {keyword : GoString} (w : Word keyword) (h : keyword ≠ []) :
    w.bytes ≠ [] := by
  intro hnil
  have hspelled := w.spelled
  rw [hnil] at hspelled
  exact h hspelled.symm

def Word.SELECT : Word (str "SELECT") := ⟨str "SELECT", rfl⟩

def Word.FROM : Word (str "FROM") := ⟨str "FROM", rfl⟩

def blank : Gap := [.blank 32 rfl]

/-- Text that SQL reads to its end: no literal, quoted identifier or comment is left open. -/
structure Text where
  bytes : GoString
  closed : (sqlMode bytes).isCode

inductive Alias
  | none
  | plain (g : Gap) (i : Identifier)
  | as (g : Gap) (w : Word (str "AS")) (g' : Gap) (i : Identifier)

def Alias.pieces : Alias → List Piece
  | none => []
  | plain g i => [.text g.bytes, .word i.bytes]
  | as g w g' i => [.text g.bytes, .word w.bytes, .text g'.bytes, .word i.bytes]

end Sql

open Sql

/-! ### Tables that are read, and names that stray -/

/-- In the tokens that are kept, the table behind the text `pre` is read as it is written: a table
is expected there, its first identifier is taken for one, and its name ends where it ends. -/
structure Stands (kept : List Token) (pre : GoString) (n : QualifiedName) : Prop where
  expected : (placeAfter .apart (tokenize pre)).Takes n.first.token
  whole : ∃ rest, kept = tokenize pre ++ n.first.token :: (n.moreTokens ++ rest) ∧
    (readParts rest).1 = []

theorem readParts_more (is : List Identifier) (rest : List Token) :
    (readParts ((is.flatMap fun i => [⟨str ".", false⟩, i.token]) ++ rest)).1 =
      is.map Identifier.text ++ (readParts rest).1 := by
  induction is with
  | nil => rfl
  | cons i is ih =>
    have hdot (toks : List Token) : (readParts (⟨str ".", false⟩ :: i.token :: toks)).1 =
        i.text :: (readParts toks).1 := by
      rw [readParts, if_pos rfl, i.partText_token]
    rw [List.flatMap_cons, List.append_assoc]
    exact (hdot _).trans (congrArg _ ih)

theorem nameAt_name (n : QualifiedName) {rest : List Token} (h : (readParts rest).1 = []) :
    nameAt n.first.token (n.moreTokens ++ rest) = n.ref := by
  rw [nameAt, n.first.partText_token, QualifiedName.moreTokens, readParts_more, h, List.append_nil]
  rfl

theorem Stands.named {kept : List Token} {pre : GoString} {n : QualifiedName}
    (h : Stands kept pre n) : Named .apart kept n.ref := by
  obtain ⟨rest, hkept, hrest⟩ := h.whole
  exact ⟨tokenize pre, n.first.token, _, hkept, h.expected, (nameAt_name n hrest).symm⟩

namespace Sql

def Identifier.mode : Identifier → Mode
  | .bare w _ _ => .word w
  | .quoted text _ => .quotedEnd .double text

def Identifier.Ends (i : Identifier) (rest : GoString) : Prop :=
  ∀ c ∈ rest.head?, i.mode.continues c = false

theorem not_continues_of_isMark {c : UInt8} (h : isMark c) (m : Mode) : m.continues c = false := by
  simp only [isMark, Bool.or_eq_true, beq_iff_eq] at h
  cases m with
  | quotedEnd d text => cases d <;> rcases h with ((rfl | rfl) | rfl) | rfl <;> rfl
  | _ => rcases h with ((rfl | rfl) | rfl) | rfl <;> rfl

/-- A mark ends a text that the tokenizer has read to its end. -/
theorem tokenize_mark {s : GoString} (hs : (tokenizerMode s).isCode) {c : UInt8} (hc : isMark c)
    (rest : GoString) :
    tokenize (s ++ c :: rest) = tokenize s ++ ⟨[c], false⟩ :: tokenize rest := by
  have hmark : (scanner true).output (tokenizerMode s) (c :: rest) =
      (tokenizerMode s).pending ++ ⟨[c], false⟩ :: tokenize rest := by
    rw [Transducer.output_cons, step_enter hs (not_continues_of_isMark hc _), enter_mark hc,
      tokenize_eq_output, List.append_assoc]
    rfl
  rw [(tokenize_append s (c :: rest)).2, (tokenize_append s []).1, hmark, List.append_assoc]

def QualifiedName.Ends : QualifiedName → GoString → Prop
  | .one t => t.Ends
  | .two _ _ t => t.Ends
  | .three _ _ _ _ t => t.Ends

def QualifiedName.tokens (n : QualifiedName) : List Token := n.first.token :: n.moreTokens

end Sql

end TrinoGoway.SqlMeta
