import TrinoGoway.SqlMeta.Tables

/-! Whether `IF EXISTS` and `IF NOT EXISTS` change what is read of a statement about a table. The
word `IF` stands where a table is expected, and is taken for one. -/
namespace TrinoGoway.SqlMeta

open Go Sql

inductive TableVerb
  | CREATE
  | DROP
  | ALTER

namespace TableVerb

def text : TableVerb → GoString
  | CREATE => str "CREATE"
  | DROP => str "DROP"
  | ALTER => str "ALTER"

def plain (v : TableVerb) : GoString := v.text ++ str " TABLE "

def clause : TableVerb → GoString
  | CREATE => str "IF NOT EXISTS "
  | DROP => str "IF EXISTS "
  | ALTER => str "IF EXISTS "

/-- The place behind the clause: `NOT` or `EXISTS` is taken for an alias of the table `IF`. -/
def place : TableVerb → Place
  | CREATE => .apart
  | DROP => .aliased
  | ALTER => .aliased

end TableVerb

/-! ### The sets of a result -/

inductive View
  | catalogs
  | schemas
  | catalogSchemas
  | tables

namespace View

def entry : View → Name → Option GoString
  | catalogs, n => if n.catalog = [] then none else some n.catalog
  | schemas, n => if n.schema = [] then none else some n.schema
  | catalogSchemas, n =>
    if n.catalog ≠ [] ∧ n.schema ≠ [] then some (n.catalog ++ str "." ++ n.schema) else none
  | tables, n => some (joinName n)

def entries : View → QueryMeta → List GoString
  | catalogs, m => m.catalogs
  | schemas, m => m.schemas
  | catalogSchemas, m => m.catalogSchemas
  | tables, m => m.tables

end View

section Views

variable (lower : GoString → GoString) (defaultCatalog defaultSchema : GoString)

variable {lower defaultCatalog defaultSchema}

end Views

/-! ### The tokens -/

section Results

variable (lower : GoString → GoString) (defaultCatalog defaultSchema : GoString)

theorem Sql.QualifiedName.Ends.take {n : QualifiedName} {tail : GoString} (h : n.Ends tail)
    (k : ℕ) :
    n.Ends (tail.take k) := by
  have hhead : ∀ c ∈ (tail.take k).head?, c ∈ tail.head? := by
    intro c hc
    cases k with
    | zero => simp at hc
    | succ k =>
      cases tail with
      | nil => simp at hc
      | cons d tail => exact hc
  cases n with
  | one t => exact fun c hc => h c (hhead c hc)
  | two s d t => exact fun c hc => h c (hhead c hc)
  | three c d s d' t => exact fun c hc => h c (hhead c hc)

variable {n : QualifiedName} {tail : GoString}

end Results

end TrinoGoway.SqlMeta
