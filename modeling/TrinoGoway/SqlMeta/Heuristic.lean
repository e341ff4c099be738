import TrinoGoway.SqlMeta.Analyzer
import Mathlib.Data.List.Dedup
import Mathlib.Data.List.Sort

/-! `sqlmeta.Heuristic`. The scanning loops of the source walk over the text by an index; here
they walk over the rest of the text. Unquoted tokens are ASCII, so that their case mapping is
the one of bytes; the mapping of other texts, `strings.ToLower`, is the parameter `lower`. -/
namespace TrinoGoway.SqlMeta

open Go

structure Token where
  text : GoString
  quoted : Bool := false
  deriving DecidableEq

/-- `strings.ToUpper`, of an ASCII text. -/
def upper (s : GoString) : GoString := s.map Byte.toUpper

def isIdentChar (c : UInt8) : Bool := c == Byte.underscore || Byte.isAlpha c || Byte.isDigit c

/-- The marks that are tokens of their own: `.`, `(`, `)` and `,`. -/
def isMark (c : UInt8) : Bool := c == 46 || c == 40 || c == 41 || c == 44

abbrev backquote : UInt8 := 96

def skipLine (s : GoString) : GoString := s.dropWhile (· ≠ Byte.newline)

def skipBlock : GoString → GoString
  | 42 :: 47 :: s => s
  | _ :: s => skipBlock s
  | [] => []

def skipLiteral : GoString → GoString
  | 39 :: 39 :: s => skipLiteral s
  | 39 :: s => s
  | _ :: s => skipLiteral s
  | [] => []

/-- `scanDelimited`, after the opening delimiter: the inner text, and the text behind it. -/
def scanDelimited (opening closing : UInt8) : GoString → GoString × GoString
  | [] => ([], [])
  | [c] => if c = closing then ([], []) else ([c], [])
  | c :: d :: s =>
    if c = closing then
      if opening = closing ∧ d = closing then
        let (text, rest) := scanDelimited opening closing s
        (closing :: text, rest)
      else ([], d :: s)
    else
      let (text, rest) := scanDelimited opening closing (d :: s)
      (c :: text, rest)

/-- The loop of `tokenize`; every turn takes a byte or more, so the length of the text is enough
for the first argument. -/
def tokenizeFrom : ℕ → GoString → List Token
  | 0, _ => []
  | _ + 1, [] => []
  | n + 1, c :: s =>
    if c = Byte.minus ∧ s.head? = some Byte.minus then tokenizeFrom n (skipLine s.tail)
    else if c = Byte.slash ∧ s.head? = some 42 then tokenizeFrom n (skipBlock s.tail)
    else if c = Byte.quote then tokenizeFrom n (skipLiteral s)
    else if c = Byte.doubleQuote then
      let (text, rest) := scanDelimited Byte.doubleQuote Byte.doubleQuote s
      ⟨text, true⟩ :: tokenizeFrom n rest
    else if c = backquote then
      let (text, rest) := scanDelimited backquote backquote s
      ⟨text, true⟩ :: tokenizeFrom n rest
    else if c = Byte.openBracket then
      let (text, rest) := scanDelimited Byte.openBracket Byte.closeBracket s
      ⟨text, true⟩ :: tokenizeFrom n rest
    else if isMark c then ⟨[c], false⟩ :: tokenizeFrom n s
    else if isIdentChar c then
      ⟨c :: s.takeWhile isIdentChar, false⟩ :: tokenizeFrom n (s.dropWhile isIdentChar)
    else tokenizeFrom n s

def tokenize (sql : GoString) : List Token := tokenizeFrom sql.length sql

/-! ### Statement classification -/

def statementKeywords : List GoString :=
  [str "SELECT", str "INSERT", str "UPDATE", str "DELETE", str "MERGE", str "CREATE", str "DROP",
    str "ALTER", str "TRUNCATE", str "EXPLAIN", str "SHOW", str "DESCRIBE", str "USE", str "CALL",
    str "SET", str "RESET", str "GRANT", str "REVOKE", str "COMMENT", str "ANALYZE", str "REFRESH",
    str "VALUES", str "PREPARE", str "EXECUTE", str "DEALLOCATE", str "START", str "COMMIT",
    str "ROLLBACK"]

def isStatementKeyword (kw : GoString) : Bool := kw ∈ statementKeywords

def keywordAt : List Token → GoString
  | [] => []
  | t :: toks => if t.quoted then keywordAt toks else upper t.text

def mainAfterWith : ℕ → List Token → Option GoString
  | _, [] => none
  | depth, t :: toks =>
    if t.text = str "(" then mainAfterWith (depth + 1) toks
    else if t.text = str ")" then mainAfterWith (depth - 1) toks
    else if depth ≠ 0 ∨ t.quoted then mainAfterWith depth toks
    else if isStatementKeyword (upper t.text) then some (upper t.text)
    else mainAfterWith depth toks

def statementType (toks : List Token) : Option GoString :=
  let first := keywordAt toks
  if first = str "EXPLAIN" then some (str "EXPLAIN")
  else if first = str "WITH" then some ((mainAfterWith 0 toks.tail).getD (str "SELECT"))
  else if isStatementKeyword first then some first
  else none

def categoryFor (queryType : GoString) : Category :=
  if queryType ∈ [str "SELECT", str "VALUES", str "DESCRIBE", str "SHOW"] then .read
  else if queryType ∈ [str "INSERT", str "UPDATE", str "DELETE", str "MERGE", str "TRUNCATE"] then
    .write
  else if queryType ∈
      [str "CREATE", str "DROP", str "ALTER", str "COMMENT", str "REFRESH", str "ANALYZE"] then .ddl
  else if queryType = str "EXPLAIN" then .explain
  else .other

/-! ### Table references -/

def tableKeywords : List GoString := [str "FROM", str "JOIN", str "INTO", str "UPDATE", str "TABLE"]

def refStopKeywords : List GoString :=
  [str "WHERE", str "ON", str "USING", str "GROUP", str "ORDER", str "HAVING", str "LIMIT",
    str "UNION", str "INTERSECT", str "EXCEPT", str "AS", str "SET", str "VALUES", str "SELECT",
    str "WITH", str "LEFT", str "RIGHT", str "INNER", str "OUTER", str "CROSS", str "FULL",
    str "NATURAL", str "AND", str "OR", str "OFFSET", str "FETCH", str "WINDOW", str "QUALIFY",
    str "TABLESAMPLE"]

structure RawRef where
  first : GoString
  more : List GoString := []
  deriving DecidableEq

def RawRef.parts (r : RawRef) : List GoString := r.first :: r.more

def partText (t : Token) : GoString := if t.quoted then t.text else t.text.map Byte.toLower

/-- The loop of `readRef`: the parts after dots, and the tokens behind them. -/
def readParts : List Token → List GoString × List Token
  | dot :: next :: toks =>
    if dot.text = str "." then
      let (parts, rest) := readParts toks
      (partText next :: parts, rest)
    else ([], dot :: next :: toks)
  | toks => ([], toks)

def readRef : List Token → Option (RawRef × List Token)
  | [] => none
  | first :: toks =>
    if ¬ first.quoted ∧ (first.text = str "(" ∨ first.text = str "," ∨ first.text = str ")" ∨
        upper first.text ∈ refStopKeywords) then none
    else
      let (parts, rest) := readParts toks
      some (⟨partText first, parts⟩, rest)

def skipAlias : List Token → List Token
  | [] => []
  | t :: toks =>
    if ¬ t.quoted ∧ upper t.text = str "AS" then toks.tail
    else if t.text = str "," ∨ t.text = str "(" ∨ t.text = str ")" ∨ t.text = str "." then t :: toks
    else if ¬ t.quoted ∧ (upper t.text ∈ refStopKeywords ∨ upper t.text ∈ tableKeywords) then
      t :: toks
    else toks

def nextIs (text : GoString) (toks : List Token) : Bool :=
  match toks with
  | [] => false
  | t :: _ => t.text = text

/-- The comma-separated references at an anchor, and the tokens behind them. Every turn takes a
token, so their number is enough for the first argument. -/
def collectRefs : ℕ → List Token → List RawRef × List Token
  | 0, toks => ([], toks)
  | n + 1, toks =>
    match readRef toks with
    | none => ([], toks)
    | some (ref, rest) =>
      let rest := skipAlias rest
      if nextIs (str ",") rest then
        if nextIs (str "(") rest.tail then ([ref], rest.tail)
        else
          let (refs, rest) := collectRefs n rest.tail
          (ref :: refs, rest)
      else ([ref], rest)

def skipOnly (toks : List Token) : List Token :=
  toks.dropWhile fun t => ¬ t.quoted ∧ upper t.text = str "ONLY"

/-- The loop of `extractTableRefs`; the number of tokens is enough for the first argument. -/
def extractFrom : ℕ → List Token → List RawRef
  | 0, _ => []
  | _ + 1, [] => []
  | n + 1, t :: toks =>
    if t.quoted ∨ upper t.text ∉ tableKeywords then extractFrom n toks
    else
      let toks := skipOnly toks
      if nextIs (str "(") toks then extractFrom n toks
      else
        let (refs, rest) := collectRefs toks.length toks
        refs ++ extractFrom n rest

def extractTableRefs (toks : List Token) : List RawRef := extractFrom toks.length toks

/-! ### Qualification -/

structure Name where
  catalog : GoString
  schema : GoString
  table : GoString
  deriving DecidableEq

def lexLe : GoString → GoString → Bool
  | [], _ => true
  | _ :: _, [] => false
  | a :: s, b :: t => a < b || (a == b && lexLe s t)

/-- A `stringSet` to which the strings have been added, sorted: empty strings are ignored. -/
def sortedSet (ss : List GoString) : List GoString :=
  ((ss.filter (· ≠ [])).dedup).insertionSort fun s t => lexLe s t

theorem mem_sortedSet {s : GoString} {ss : List GoString} :
    s ∈ sortedSet ss ↔ s ∈ ss ∧ s ≠ [] := by
  unfold sortedSet
  rw [List.mem_insertionSort, List.mem_dedup, List.mem_filter, decide_eq_true_eq]

theorem nodup_sortedSet (ss : List GoString) : (sortedSet ss).Nodup :=
  (List.perm_insertionSort _ _).nodup_iff.mpr (List.nodup_dedup _)

def joinName (n : Name) : GoString :=
  join ((if n.catalog ≠ [] then [n.catalog] else []) ++
    (if n.schema ≠ [] then [n.schema] else []) ++ [n.table]) (str ".")

section Analyze

variable (lower : GoString → GoString)

def qualify (ref : RawRef) (defaultCatalog defaultSchema : GoString) : Name :=
  let dc := lower (trimSpace defaultCatalog)
  let ds := lower (trimSpace defaultSchema)
  match ref.parts.reverse with
  | [t] => ⟨dc, ds, t⟩
  | [t, s] => ⟨dc, s, t⟩
  | t :: s :: c :: _ => ⟨c, s, t⟩
  | [] => ⟨dc, ds, []⟩

def qualifyAll (refs : List RawRef) (defaultCatalog defaultSchema : GoString) : List Name :=
  (refs.map fun ref => qualify lower ref defaultCatalog defaultSchema).filter (·.table ≠ [])

def metaOf (queryType : GoString) (names : List Name) : QueryMeta where
  queryType := queryType
  category := categoryFor queryType
  catalogs := sortedSet (names.map (·.catalog))
  schemas := sortedSet (names.map (·.schema))
  catalogSchemas := sortedSet ((names.filter fun n => n.catalog ≠ [] ∧ n.schema ≠ []).map fun n =>
    n.catalog ++ str "." ++ n.schema)
  tables := sortedSet (names.map joinName)
  parseOK := true

def analyzeTokens (toks : List Token) (defaultCatalog defaultSchema : GoString) : QueryMeta :=
  if toks = [] then emptyMeta
  else
    match statementType toks with
    | none => emptyMeta
    | some queryType =>
      metaOf queryType (qualifyAll lower (extractTableRefs toks) defaultCatalog defaultSchema)

def defaultMaxBodyBytes : ℤ := 256 * 1024

structure Heuristic where
  maxBodyBytes : ℤ

def newHeuristic (maxBodyBytes : ℤ) : Heuristic :=
  ⟨if maxBodyBytes ≤ 0 then defaultMaxBodyBytes else maxBodyBytes⟩

namespace Heuristic

def limit (h : Heuristic) : ℕ :=
  (if h.maxBodyBytes ≤ 0 then defaultMaxBodyBytes else h.maxBodyBytes).toNat

/-- `AnalyzeWithTruncation`: the result, and whether the text was cut at the limit. -/
def analyzeWithTruncation (h : Heuristic) (sql defaultCatalog defaultSchema : GoString) :
    QueryMeta × Bool :=
  (analyzeTokens lower (tokenize (sql.take h.limit)) defaultCatalog defaultSchema,
    h.limit < sql.length)

def analyze (h : Heuristic) : SQLAnalyzer := fun sql defaultCatalog defaultSchema =>
  (h.analyzeWithTruncation lower sql defaultCatalog defaultSchema).1

variable {lower}

theorem analyze_of_le {h : Heuristic} {sql : GoString} (hfit : sql.length ≤ h.limit)
    (defaultCatalog defaultSchema : GoString) :
    h.analyze lower sql defaultCatalog defaultSchema =
      analyzeTokens lower (tokenize sql) defaultCatalog defaultSchema := by
  unfold analyze analyzeWithTruncation
  rw [List.take_of_length_le hfit]

end Heuristic

end Analyze

example : (Heuristic.mk 0).analyze (fun s => s.map Byte.toLower)
    (str "SELECT 'x' FROM a.B, \"C\" AS d JOIN e ON 1 = 1 -- FROM f") (str " Hive ") (str "s") =
    { queryType := str "SELECT", category := .read, catalogs := [str "hive"],
      schemas := [str "a", str "s"], catalogSchemas := [str "hive.a", str "hive.s"],
      tables := [str "hive.a.b", str "hive.s.C", str "hive.s.e"], parseOK := true } := by
  decide +kernel

end TrinoGoway.SqlMeta
