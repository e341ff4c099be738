import TrinoGoway.SqlMeta.Subqueries

/-! Queries with named queries before them and with expressions that have a `FROM` of their own, and
whether every table that is reported for them is one. -/
namespace TrinoGoway.SqlMeta

open Go Sql

namespace Sql

/-! ### The grammar -/

/-- Text of expressions, in which SQL reads no word `FROM` or `JOIN`. -/
structure ExprText extends Text where
  plain : ∀ t ∈ (scanner false).output .code bytes, t.isWord [str "FROM", str "JOIN"] = false

inductive Expr
  | text (t : ExprText)
  | seq (left right : Expr)
  /-- `EXTRACT(field FROM e)` -/
  | EXTRACT (w : Word (str "EXTRACT")) (g : Gap) (field : ExprText) (w' : Word (str "FROM"))
      (e : Expr)
  /-- `TRIM(spec FROM e)` -/
  | TRIM (w : Word (str "TRIM")) (g : Gap) (spec : Expr) (w' : Word (str "FROM")) (e : Expr)
  /-- `left IS DISTINCT FROM right`, or with `NOT` -/
  | DISTINCT (left : Expr) (w : Word (str "IS")) (g : Gap)
      (negated : Option (Word (str "NOT") × Gap)) (w' : Word (str "DISTINCT")) (g' : Gap)
      (w'' : Word (str "FROM")) (right : Expr)

def Expr.pieces : Expr → List Piece
  | text t => [.text t.bytes]
  | seq left right => left.pieces ++ right.pieces
  | EXTRACT w g field w' e =>
    .word w.bytes :: .text (g.bytes ++ str "(") :: .text field.bytes :: .operator w'.bytes ::
      (e.pieces ++ [.text (str ")")])
  | TRIM w g spec w' e =>
    .word w.bytes :: .text (g.bytes ++ str "(") :: (spec.pieces ++ .operator w'.bytes ::
      (e.pieces ++ [.text (str ")")]))
  | DISTINCT left w g negated w' g' w'' right =>
    left.pieces ++ .word w.bytes :: .text g.bytes ::
      ((match negated with
        | none => []
        | some (not, g'') => [.word not.bytes, .text g''.bytes]) ++
      .word w'.bytes :: .text g'.bytes :: .operator w''.bytes :: right.pieces)

inductive OnClause
  | none
  | ON (w : Word (str "ON")) (e : Expr)
  | USING (w : Word (str "USING")) (columns : ExprText)

def OnClause.pieces : OnClause → List Piece
  | none => []
  | ON w e => .word w.bytes :: e.pieces
  | USING w columns => [.word w.bytes, .text columns.bytes]

inductive FromClause
  | table (g : Gap) (n : QualifiedName) (shortName : Alias) (g' : Gap)
  | list (left right : FromClause)
  | join (left : FromClause) (kind : ExprText) (w : Word (str "JOIN")) (right : FromClause)
      (on : OnClause)

def FromClause.pieces : FromClause → List Piece
  | table g n shortName g' => .text g.bytes :: .table n :: (shortName.pieces ++ [.text g'.bytes])
  | list left right => left.pieces ++ .text (str ",") :: right.pieces
  | join left kind w right on =>
    left.pieces ++ .text kind.bytes :: .word w.bytes :: (right.pieces ++ on.pieces)

structure SelectQuery where
  word : Word (str "SELECT")
  items : Expr
  source : Option (Word (str "FROM") × FromClause)
  tail : Expr

def SelectQuery.pieces (q : SelectQuery) : List Piece :=
  .word q.word.bytes :: (q.items.pieces ++
    ((match q.source with
      | none => []
      | some (w, clause) => .word w.bytes :: clause.pieces) ++ q.tail.pieces))

structure Cte where
  g : Gap
  name : Identifier
  /-- the list of columns, if there is one -/
  columns : ExprText
  word : Word (str "AS")
  g' : Gap
  lead : Gap
  body : SelectQuery
  g'' : Gap

def Cte.pieces (c : Cte) : List Piece :=
  .text c.g.bytes :: .word c.name.bytes :: .text c.columns.bytes :: .word c.word.bytes ::
    .text (c.g'.bytes ++ str "(" ++ c.lead.bytes) :: (c.body.pieces ++
      [.text (str ")" ++ c.g''.bytes)])

structure WithClause where
  word : Word (str "WITH")
  isRecursive : Option (Gap × Word (str "RECURSIVE"))
  first : Cte
  more : List Cte

def WithClause.pieces (c : WithClause) : List Piece :=
  .word c.word.bytes ::
    ((match c.isRecursive with
      | none => []
      | some (g, w) => [.text g.bytes, .word w.bytes]) ++
    (c.first.pieces ++ c.more.flatMap fun cte => .text (str ",") :: cte.pieces))

def queryPieces (lead : Gap) (ctes : Option WithClause) (main : SelectQuery) : List Piece :=
  .text lead.bytes :: ((match ctes with
    | none => []
    | some c => c.pieces) ++ main.pieces)

structure Query where
  lead : Gap
  ctes : Option WithClause
  main : SelectQuery
  separated : separated [] (queryPieces lead ctes main) = true

namespace Query

def pieces (q : Query) : List Piece := queryPieces q.lead q.ctes q.main

def bytes (q : Query) : GoString := bytesOf q.pieces

end Query

end Sql

/-! ### Operands -/

/-- The names in the list at the head of the tokens: until the list ends or another one begins. -/
def heads : Place → List Token → List RawRef
  | _, [] => []
  | p, t :: toks =>
    if p.Takes t then nameAt t toks :: heads .named toks
    else if (p.step t).2 = .apart ∨ (p ≠ .expecting ∧ (p.step t).2 = .expecting) then []
    else heads (p.step t).2 toks

/-- The name stands at the head of the operand of an expression, behind its `FROM`, or in a list
that goes on from there. -/
def HeadsOperand (kept : List Token) (ps : List Piece) (ref : RawRef) : Prop :=
  ∃ qs w rs behind, ps = qs ++ .operator w :: rs ∧
    kept = tokenize (bytesOf qs) ++ ⟨w, false⟩ :: behind ∧
    placeAfter .apart (tokenize (bytesOf qs) ++ [⟨w, false⟩]) = .expecting ∧
    ref ∈ heads .expecting behind

theorem named_of_mem_heads {p : Place} {toks : List Token} {ref : RawRef}
    (h : ref ∈ heads p toks) : Named p toks ref := by
  induction toks generalizing p with
  | nil => cases h
  | cons t toks ih =>
    rw [named_cons]
    rw [heads] at h
    split at h
    next htakes =>
      rcases List.mem_cons.mp h with rfl | h
      · exact .inl ⟨htakes, rfl⟩
      · rw [step_of_takes htakes]
        exact .inr (ih h)
    next =>
      split at h
      · cases h
      · exact .inr (ih h)

theorem HeadsOperand.named {kept : List Token} {ps : List Piece} {ref : RawRef}
    (h : HeadsOperand kept ps ref) : Named .apart kept ref := by
  obtain ⟨qs, w, rs, behind, -, rfl, hplace, hmem⟩ := h
  obtain ⟨pre, t, post, rfl, htakes, href⟩ := named_of_mem_heads hmem
  refine ⟨tokenize (bytesOf qs) ++ [⟨w, false⟩] ++ pre, t, post, by simp, ?_, href⟩
  rwa [placeAfter_append, hplace]

section Samples

def plain (s : GoString) (h : (sqlMode s).isCode ∧ ((scanner false).output .code s).all
    fun t => !t.isWord [str "FROM", str "JOIN"]) : ExprText where
  bytes := s
  closed := h.1
  plain t ht := by simpa using List.all_eq_true.mp h.2 t ht

end Samples

end TrinoGoway.SqlMeta
