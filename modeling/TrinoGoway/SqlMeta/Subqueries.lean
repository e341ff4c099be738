import TrinoGoway.SqlMeta.Tables

/-! Queries over tables and nested queries: whether the tables are reported at every depth. -/
namespace TrinoGoway.SqlMeta

open Go Sql

namespace Sql

/-! ### The grammar -/

inductive Condition
  | none
  | ON (w : Word (str "ON")) (e : Text)
  | USING (w : Word (str "USING")) (columns : Text)

def Condition.pieces : Condition → List Piece
  | none => []
  | ON w e => [.word w.bytes, .text e.bytes]
  | USING w columns => [.word w.bytes, .text columns.bytes]

/-- What stands behind `FROM`. Commas and joins are combined in any order, and a query in
parentheses may itself have a source. -/
inductive Source
  | table (g : Gap) (n : QualifiedName) (shortName : Alias) (g' : Gap)
  /-- a query in parentheses without a source -/
  | values (g lead : Gap) (w : Word (str "SELECT")) (items : Text) (shortName : Alias) (g' : Gap)
  | subquery (g lead : Gap) (w : Word (str "SELECT")) (items : Text) (w' : Word (str "FROM"))
      (inner : Source) (tail : Text) (shortName : Alias) (g' : Gap)
  | list (left right : Source)
  /-- `kind` is what stands before `JOIN`, such as `LEFT OUTER` -/
  | join (left : Source) (kind : Text) (w : Word (str "JOIN")) (right : Source)
      (condition : Condition)

def Source.pieces : Source → List Piece
  | table g n shortName g' => .text g.bytes :: .table n :: (shortName.pieces ++ [.text g'.bytes])
  | values g lead w items shortName g' =>
    .text (g.bytes ++ str "(" ++ lead.bytes) :: .word w.bytes :: .text items.bytes ::
      .text (str ")") :: (shortName.pieces ++ [.text g'.bytes])
  | subquery g lead w items w' inner tail shortName g' =>
    .text (g.bytes ++ str "(" ++ lead.bytes) :: .word w.bytes :: .text items.bytes ::
      .word w'.bytes :: (inner.pieces ++
        .text tail.bytes :: .text (str ")") :: (shortName.pieces ++ [.text g'.bytes]))
  | list left right => left.pieces ++ .text (str ",") :: right.pieces
  | join left kind w right condition =>
    left.pieces ++ .text kind.bytes :: .word w.bytes :: (right.pieces ++ condition.pieces)

/-- The pieces of a query, of which `items` stands before `FROM` and `tail` behind the source. -/
def selectPieces (g : Gap) (w : Word (str "SELECT")) (items : Text) (w' : Word (str "FROM"))
    (source : Source) (tail : Text) : List Piece :=
  .text g.bytes :: .word w.bytes :: .text items.bytes :: .word w'.bytes ::
    (source.pieces ++ [.text tail.bytes])

structure Select where
  lead : Gap
  word : Word (str "SELECT")
  items : Text
  word' : Word (str "FROM")
  source : Source
  tail : Text
  separated : separated [] (selectPieces lead word items word' source tail) = true

def Select.pieces (q : Select) : List Piece :=
  selectPieces q.lead q.word q.items q.word' q.source q.tail

def Select.bytes (q : Select) : GoString := bytesOf q.pieces

def Source.tables : Source → List QualifiedName
  | table _ n _ _ => [n]
  | values _ _ _ _ _ _ => []
  | subquery _ _ _ _ _ inner _ _ _ => inner.tables
  | list left right => left.tables ++ right.tables
  | join left _ _ right _ => left.tables ++ right.tables

/-! ### Their tables -/

@[simp] theorem tablesOf_nil : tablesOf [] = [] := rfl

@[simp] theorem tablesOf_append (ps qs : List Piece) :
    tablesOf (ps ++ qs) = tablesOf ps ++ tablesOf qs := List.filterMap_append

@[simp] theorem tablesOf_word (s : GoString) (ps : List Piece) :
    tablesOf (.word s :: ps) = tablesOf ps := rfl

@[simp] theorem tablesOf_text (s : GoString) (ps : List Piece) :
    tablesOf (.text s :: ps) = tablesOf ps := rfl

@[simp] theorem tablesOf_table (n : QualifiedName) (ps : List Piece) :
    tablesOf (.table n :: ps) = n :: tablesOf ps := rfl

@[simp] theorem tablesOf_alias (a : Alias) : tablesOf a.pieces = [] := by
  cases a <;> rfl

@[simp] theorem tablesOf_condition (c : Condition) : tablesOf c.pieces = [] := by
  cases c <;> rfl

end Sql

/-! ### What is reported -/

/-- Behind a parenthesis and an alias, a comma leads to no list of tables. -/
theorem placeAfter_behind_subquery {p : Place} (hdotted : p ≠ .dotted) (hrenamed : p ≠ .renamed)
    {shortName : Token} (hname : shortName.isAnchor = false) :
    placeAfter p [⟨str ")", false⟩, shortName, ⟨str ",", false⟩] = .apart := by
  have hclose : (p.step ⟨str ")", false⟩).2 = .apart := by
    cases p with
    | dotted => exact absurd rfl hdotted
    | renamed => exact absurd rfl hrenamed
    | _ => rfl
  have hpass : (Place.step .apart shortName).2 = .apart := by simp [Place.step, Place.pass, hname]
  rw [placeAfter_cons, hclose, placeAfter_cons, hpass]
  rfl

section Samples

def bare (w : GoString) (hne : w ≠ []) (h : w.all isIdentChar) : Identifier :=
  .bare w hne (List.all_eq_true.mp h)

end Samples

end TrinoGoway.SqlMeta
