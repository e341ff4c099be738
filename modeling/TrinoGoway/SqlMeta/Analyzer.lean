import TrinoGoway.Go.Basic

/-! What SQL analysis reports, and the analyzer that reports nothing. -/
namespace TrinoGoway.SqlMeta

open Go

inductive Category
  | read
  | write
  | ddl
  | dml
  | explain
  | other
  deriving DecidableEq

structure QueryMeta where
  queryType : GoString := []
  category : Category
  catalogs : List GoString := []
  schemas : List GoString := []
  catalogSchemas : List GoString := []
  tables : List GoString := []
  parseOK : Bool
  deriving DecidableEq

def emptyMeta : QueryMeta := { category := .other, parseOK := false }

/-- `sqlmeta.SQLAnalyzer`: the arguments are the SQL text and the default catalog and schema. -/
abbrev SQLAnalyzer := GoString → GoString → GoString → QueryMeta

def noop : SQLAnalyzer := fun _ _ _ => emptyMeta

end TrinoGoway.SqlMeta
