import TrinoGoway.SqlMeta.Alike
import TrinoGoway.SqlMeta.Tables

/-! Statements with a list of named queries before the main statement, and the type that the
analysis gives them. -/
namespace TrinoGoway.SqlMeta

open Go Sql

/-! ### The grammar -/

def level : ℕ → List Token → Option ℕ
  | d, [] => some d
  | d, t :: toks =>
    if t.text = str "(" then level (d + 1) toks
    else if t.text = str ")" then if d = 0 then none else level (d - 1) toks
    else level d toks

namespace Sql

/-- The body of a named query. SQL reads it to its end, and finds every parenthesis with its
partner. -/
structure Body extends Text where
  balanced : level 0 (((scanner false).output .code bytes).filter fun t => !t.quoted) = some 0

structure Column where
  g : Gap
  name : Identifier
  g' : Gap

def Column.bytes (c : Column) : GoString := c.g.bytes ++ (c.name.bytes ++ c.g'.bytes)

structure Columns where
  g : Gap
  first : Column
  more : List Column

def Columns.bytes (cs : Columns) : GoString :=
  cs.g.bytes ++ 40 :: (cs.first.bytes ++ ((cs.more.flatMap fun c => 44 :: c.bytes) ++ [41]))

structure NamedQuery where
  g : Gap
  name : Identifier
  columns : Option Columns
  g' : Gap
  word : Word (str "AS")
  lead : Gap
  body : Body
  g'' : Gap
  separated : columns = none → glued name.bytes (g'.bytes ++ word.bytes) = false

namespace NamedQuery

def bytes (q : NamedQuery) : GoString :=
  q.g.bytes ++ (q.name.bytes ++ ((q.columns.elim [] Columns.bytes) ++ (q.g'.bytes ++
    (q.word.bytes ++ (q.lead.bytes ++ 40 :: (q.body.bytes ++ 41 :: q.g''.bytes))))))

end NamedQuery

inductive MainVerb
  | SELECT
  | INSERT
  | UPDATE
  | DELETE
  | MERGE
  | VALUES
  deriving DecidableEq

def MainVerb.text : MainVerb → GoString
  | SELECT => str "SELECT"
  | INSERT => str "INSERT"
  | UPDATE => str "UPDATE"
  | DELETE => str "DELETE"
  | MERGE => str "MERGE"
  | VALUES => str "VALUES"

def MainVerb.category : MainVerb → Category
  | SELECT | VALUES => .read
  | INSERT | UPDATE | DELETE | MERGE => .write

structure WithStatement where
  lead : Gap
  word : Word (str "WITH")
  isRecursive : Option (Gap × Word (str "RECURSIVE"))
  first : NamedQuery
  more : List NamedQuery
  main : MainVerb
  word' : Word main.text
  /-- what follows the word of the main statement -/
  rest : GoString
  separated : glued word.bytes (match isRecursive with
      | none => first.bytes
      | some (g, w) => g.bytes ++ w.bytes) = false ∧
    (∀ g w, isRecursive = some (g, w) → glued w.bytes first.bytes = false) ∧
    glued word'.bytes rest = false

namespace WithStatement

def queries (st : WithStatement) : List NamedQuery := st.first :: st.more

def list (st : WithStatement) : GoString :=
  (match st.isRecursive with
    | none => []
    | some (g, w) => g.bytes ++ w.bytes) ++
    (st.first.bytes ++ st.more.flatMap fun q => 44 :: q.bytes)

def bytes (st : WithStatement) : GoString :=
  st.lead.bytes ++ (st.word.bytes ++ (st.list ++ (st.word'.bytes ++ st.rest)))

end WithStatement

end Sql

/-! ### Keywords outside of parentheses -/

section Scan

variable {d : ℕ} {kw : GoString}

end Scan

/-! ### The tokens of the list -/

def Sql.Columns.tokens (cs : Columns) : List Token :=
  ⟨str "(", false⟩ :: cs.first.name.token ::
    ((cs.more.flatMap fun c => [⟨str ",", false⟩, c.name.token]) ++ [⟨str ")", false⟩])

def Sql.NamedQuery.tokens (q : NamedQuery) : List Token :=
  q.name.token :: (q.columns.elim [] Columns.tokens ++
    ⟨q.word.bytes, false⟩ :: ⟨str "(", false⟩ :: (tokenize q.body.bytes ++ [⟨str ")", false⟩]))

def Passed (toks : List Token) : Prop := mainAfterWith 0 toks = none ∧ depthAfter 0 toks = 0

theorem mainAfterWith_passed {toks : List Token} (h : Passed toks) (rest : List Token) :
    mainAfterWith 0 (toks ++ rest) = mainAfterWith 0 rest := by
  rw [mainAfterWith_append, h.1, h.2]
  rfl

theorem Passed.append {xs ys : List Token} (hx : Passed xs) (hy : Passed ys) :
    Passed (xs ++ ys) := by
  refine ⟨?_, ?_⟩
  · rw [mainAfterWith_passed hx, hy.1]
  · rw [depthAfter_append, hx.2, hy.2]

section Statement

variable (st : WithStatement)

def Sql.WithStatement.tokens : List Token :=
  (match st.isRecursive with
    | none => []
    | some (_, w) => [⟨w.bytes, false⟩]) ++
    (st.first.tokens ++ st.more.flatMap fun q => ⟨str ",", false⟩ :: q.tokens)

variable {st}

end Statement

section Samples

end Samples

end TrinoGoway.SqlMeta
