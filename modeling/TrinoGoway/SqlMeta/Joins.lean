import TrinoGoway.SqlMeta.Coherence
import TrinoGoway.SqlMeta.Layout
import TrinoGoway.SqlMeta.Reader

/-! Statements over named tables and joins: the grammar, the names that a statement refers to, and
that the analysis reports exactly these. -/
namespace TrinoGoway.SqlMeta

open Go

/-! ### The grammar -/

/-- A part of a table's name, or an alias. -/
inductive Part
  | bare (w : GoString) (hne : w ≠ []) (hw : ∀ c ∈ w, isIdentChar c)
      (hkw : upper w ∉ refStopKeywords ∧ upper w ∉ tableKeywords ∧ upper w ≠ str "ONLY")
  | quoted (text : GoString) (hne : text ≠ [])
      (hmark : text ≠ str "." ∧ text ≠ str "(" ∧ text ≠ str ")" ∧ text ≠ str ",")

def Part.text : Part → GoString
  | bare w _ _ _ => w.map Byte.toLower
  | quoted text _ _ => text

def Part.lexeme : Part → Lexeme
  | bare w hne hw _ => .word w hne hw
  | quoted text _ _ => .ident .double text

inductive TableName
  | one (table : Part)
  | two (schema table : Part)
  | three (catalog schema table : Part)

def TableName.resolve (defaultCatalog defaultSchema : GoString) : TableName → Name
  | one t => ⟨defaultCatalog, defaultSchema, t.text⟩
  | two s t => ⟨defaultCatalog, s.text, t.text⟩
  | three c s t => ⟨c.text, s.text, t.text⟩

def dot : Lexeme := .mark 46 rfl

def comma : Lexeme := .mark 44 rfl

def keyword (w : GoString) (h : w ≠ [] ∧ w.all isIdentChar) : Lexeme :=
  .word w h.1 (List.all_eq_true.mp h.2)

def TableName.lexemes : TableName → List Lexeme
  | one t => [t.lexeme]
  | two s t => [s.lexeme, dot, t.lexeme]
  | three c s t => [c.lexeme, dot, s.lexeme, dot, t.lexeme]

inductive Alias
  | none
  | plain (p : Part)
  | as (p : Part)

def Alias.lexemes : Alias → List Lexeme
  | none => []
  | plain p => [p.lexeme]
  | as p => [keyword (str "AS") (by decide), p.lexeme]

structure Table where
  name : TableName
  shortName : Alias

def Table.lexemes (t : Table) : List Lexeme := t.name.lexemes ++ t.shortName.lexemes

/-- Text in which no word announces a table. -/
structure PlainText where
  lexemes : List Lexeme
  plain : ∀ w hne hw, .word w hne hw ∈ lexemes → upper w ∉ tableKeywords

inductive JoinWord
  | INNER
  | LEFT
  | RIGHT
  | FULL
  | OUTER
  | CROSS
  | NATURAL

def JoinWord.text : JoinWord → GoString
  | INNER => str "INNER"
  | LEFT => str "LEFT"
  | RIGHT => str "RIGHT"
  | FULL => str "FULL"
  | OUTER => str "OUTER"
  | CROSS => str "CROSS"
  | NATURAL => str "NATURAL"

def JoinWord.lexeme (k : JoinWord) : Lexeme := keyword k.text (by cases k <;> decide)

inductive Condition
  | none
  | ON (text : PlainText)
  | USING (text : PlainText)

def Condition.lexemes : Condition → List Lexeme
  | none => []
  | ON text => keyword (str "ON") (by decide) :: text.lexemes
  | USING text => keyword (str "USING") (by decide) :: text.lexemes

structure Join where
  kind : List JoinWord
  table : Table
  condition : Condition

def Join.lexemes (j : Join) : List Lexeme :=
  j.kind.map JoinWord.lexeme ++
    keyword (str "JOIN") (by decide) :: (j.table.lexemes ++ j.condition.lexemes)

inductive TailWord
  | SELECT
  | SET
  | VALUES
  | WHERE
  | GROUP
  | HAVING
  | ORDER
  | LIMIT
  | OFFSET

def TailWord.text : TailWord → GoString
  | SELECT => str "SELECT"
  | SET => str "SET"
  | VALUES => str "VALUES"
  | WHERE => str "WHERE"
  | GROUP => str "GROUP"
  | HAVING => str "HAVING"
  | ORDER => str "ORDER"
  | LIMIT => str "LIMIT"
  | OFFSET => str "OFFSET"

/-- What may follow the joins: nothing, or a word and text. -/
inductive Tail
  | none
  | some (word : TailWord) (text : PlainText)

def Tail.lexemes : Tail → List Lexeme
  | none => []
  | some k text => keyword k.text (by cases k <;> decide) :: text.lexemes

inductive Target
  | FROM (first : Table) (more : List Table)
  | INTO (table : Table)
  | UPDATE (table : Table)

def Target.lexemes : Target → List Lexeme
  | FROM first more =>
    keyword (str "FROM") (by decide) ::
      (first.lexemes ++ more.flatMap fun t => comma :: t.lexemes)
  | INTO t => keyword (str "INTO") (by decide) :: t.lexemes
  | UPDATE t => keyword (str "UPDATE") (by decide) :: t.lexemes

def Target.tables : Target → List Table
  | FROM first more => first :: more
  | INTO t => [t]
  | UPDATE t => [t]

structure Clause where
  target : Target
  joins : List Join
  tail : Tail

def Clause.lexemes (c : Clause) : List Lexeme :=
  c.target.lexemes ++ (c.joins.flatMap Join.lexemes ++ c.tail.lexemes)

def Clause.tables (c : Clause) : List Table := c.target.tables ++ c.joins.map Join.table

inductive Verb
  | SELECT
  | DELETE
  | INSERT

def Verb.text : Verb → GoString
  | SELECT => str "SELECT"
  | DELETE => str "DELETE"
  | INSERT => str "INSERT"

/-- A statement begins with a verb and text, or with the table of an update. -/
inductive Statement
  | query (verb : Verb) (text : PlainText) (clauses : List Clause)
  | update (table : Table) (joins : List Join) (tail : Tail) (clauses : List Clause)

def Statement.clauses : Statement → List Clause
  | query _ _ clauses => clauses
  | update t joins tail clauses => ⟨.UPDATE t, joins, tail⟩ :: clauses

def Statement.lexemes (st : Statement) : List Lexeme :=
  (match st with
    | query verb text _ => keyword verb.text (by cases verb <;> decide) :: text.lexemes
    | update _ _ _ _ => []) ++ st.clauses.flatMap Clause.lexemes

def Statement.names (st : Statement) (defaultCatalog defaultSchema : GoString) : List Name :=
  (st.clauses.flatMap Clause.tables).map fun t => t.name.resolve defaultCatalog defaultSchema

/-! ### Tokens -/

def tokensOf (ls : List Lexeme) : List Token := ls.flatMap Lexeme.tokens

theorem tokensOf_append (ls ls' : List Lexeme) :
    tokensOf (ls ++ ls') = tokensOf ls ++ tokensOf ls' := List.flatMap_append

def Part.token : Part → Token
  | .bare w _ _ _ => ⟨upper w, false⟩
  | .quoted text _ _ => ⟨text, true⟩

theorem tokens_part (p : Part) : p.lexeme.tokens = [p.token] := by
  cases p <;> rfl

theorem partText_token (p : Part) : partText p.token = p.text := by
  cases p with
  | quoted text hne hmark => rfl
  | bare w hne hw hkw => exact partText_folded ⟨w, false⟩

theorem upper_ne_mark {w : GoString} (hw : ∀ c ∈ w, isIdentChar c) {d : UInt8} (hd : isMark d) :
    upper w ≠ [d] := by
  intro heq
  have hw' := (upper_eq_mark hd).mp heq
  have hident := hw d (by rw [hw']; simp)
  rw [isMark_of_isIdentChar hident] at hd
  cases hd

theorem token_ne_mark (p : Part) : p.token.text ≠ str "." ∧ p.token.text ≠ str "(" ∧
    p.token.text ≠ str ")" ∧ p.token.text ≠ str "," := by
  cases p with
  | quoted text hne hmark => exact hmark
  | bare w hne hw hkw =>
    exact ⟨upper_ne_mark hw (d := 46) rfl, upper_ne_mark hw (d := 40) rfl,
      upper_ne_mark hw (d := 41) rfl, upper_ne_mark hw (d := 44) rfl⟩

theorem not_isWord_token (p : Part) : p.token.isWord refStopKeywords = false ∧
    p.token.isAnchor = false ∧ p.token.isWord [str "ONLY"] = false := by
  cases p with
  | quoted text hne hmark => exact ⟨rfl, rfl, rfl⟩
  | bare w hne hw hkw =>
    simpa [Token.isAnchor, Token.isWord, Part.token, upper_upper] using hkw

theorem text_ne_nil (p : Part) : p.text ≠ [] := by
  cases p with
  | quoted text hne hmark => exact hne
  | bare w hne hw hkw =>
    intro h
    exact hne (List.map_eq_nil_iff.mp h)

/-! ### One pass -/

/-- From each of the places `ps` the scan reads `rs` in the lexemes and comes to one of `qs`. -/
def Reads (ps qs : List Place) (ls : List Lexeme) (rs : List Reading) : Prop :=
  ∀ p ∈ ps, ∃ q ∈ qs, reader.run p (tokensOf ls) = (rs, q)

instance (ps qs : List Place) (ls : List Lexeme) (rs : List Reading) :
    Decidable (Reads ps qs ls rs) := inferInstanceAs (Decidable (∀ p ∈ ps, _))

section Reads

variable {ps qs ss : List Place} {ls ls' : List Lexeme} {rs rs' : List Reading}

theorem Reads.append (h : Reads ps qs ls rs) (h' : Reads qs ss ls' rs') :
    Reads ps ss (ls ++ ls') (rs ++ rs') := by
  intro p hp
  obtain ⟨q, hq, hrun⟩ := h p hp
  obtain ⟨s, hs, hrun'⟩ := h' q hq
  refine ⟨s, hs, ?_⟩
  rw [tokensOf_append, Transducer.run_append]
  simp only [hrun, hrun']

theorem Reads.mono (h : Reads ps qs ls rs) (hsub : qs ⊆ ss) : Reads ps ss ls rs := by
  intro p hp
  obtain ⟨q, hq, hrun⟩ := h p hp
  exact ⟨q, hsub hq, hrun⟩

theorem Reads.flatMap {α : Type} {f : α → List Lexeme} {g : α → List Reading}
    (h : ∀ a, Reads ps ps (f a) (g a)) (as : List α) :
    Reads ps ps (as.flatMap f) (as.flatMap g) := by
  induction as with
  | nil => exact fun p hp => ⟨p, hp, rfl⟩
  | cons a as ih => exact (h a).append ih

theorem Reads.of_step {l : Lexeme} {t : Token} {q : Place} (hl : l.tokens = [t])
    (h : ∀ p ∈ ps, p.step t = (rs, q)) : Reads ps [q] [l] rs := by
  intro p hp
  have htoks : tokensOf [l] = [t] := by rw [tokensOf, List.flatMap_singleton, hl]
  refine ⟨q, List.mem_singleton_self q, ?_⟩
  rw [htoks, Transducer.run_singleton]
  exact h p hp

end Reads

def TableName.ref : TableName → RawRef
  | .one t => ⟨t.text, []⟩
  | .two s t => ⟨s.text, [t.text]⟩
  | .three c s t => ⟨c.text, [s.text, t.text]⟩

def RawRef.readings (r : RawRef) : List Reading := .first r.first :: r.more.map .more

def readingsOf (ts : List Table) : List Reading := ts.flatMap fun t => t.name.ref.readings

theorem reads_first (p : Part) :
    Reads [.expecting, .listed] [.named] [p.lexeme] [.first p.text] := by
  obtain ⟨hstop, -, honly⟩ := not_isWord_token p
  obtain ⟨-, hopen, hclose, hcomma⟩ := token_ne_mark p
  have hname : p.token.isNone = false := by simp [Token.isNone, hstop, hopen, hclose, hcomma]
  refine .of_step (tokens_part p) ?_
  intro q hq
  rw [← partText_token]
  refine step_of_takes ⟨?_, hname⟩
  rcases List.mem_pair.mp hq with rfl | rfl
  · exact .inl ⟨rfl, honly⟩
  · exact .inr rfl

theorem reads_more (p : Part) : Reads [.named] [.named] [dot, p.lexeme] [.more p.text] := by
  have hdot : Reads [.named] [.dotted] [dot] [] := by decide
  refine hdot.append (.of_step (tokens_part p) ?_)
  intro q hq
  obtain rfl := List.mem_singleton.mp hq
  rw [← partText_token]
  rfl

theorem reads_name (n : TableName) :
    Reads [.expecting, .listed] [.named] n.lexemes n.ref.readings := by
  cases n with
  | one t => exact reads_first t
  | two s t => exact (reads_first s).append (reads_more t)
  | three c s t => exact (reads_first c).append ((reads_more s).append (reads_more t))

theorem step_named_part (p : Part) : Place.step .named p.token = ([], .aliased) := by
  obtain ⟨hstop, hanchor, -⟩ := not_isWord_token p
  obtain ⟨hdot, hopen, hclose, hcomma⟩ := token_ne_mark p
  have has : p.token.isWord [str "AS"] = false := by
    rw [Bool.eq_false_iff, ne_eq, isWord_singleton]
    rintro ⟨hquoted, htext⟩
    have hmem : str "AS" ∈ refStopKeywords := by decide
    simp [Token.isWord, hquoted, htext, hmem] at hstop
  simp [Place.step, hdot, has, hcomma, hopen, hclose, hstop, hanchor]

theorem reads_alias (a : Alias) : Reads [.named] [.named, .aliased] a.lexemes [] := by
  cases a with
  | none => decide
  | plain p =>
    refine (Reads.of_step (tokens_part p) ?_).mono (List.subset_cons_self _ _)
    intro q hq
    obtain rfl := List.mem_singleton.mp hq
    exact step_named_part p
  | as p =>
    have has : Reads [.named] [.renamed] [keyword (str "AS") (by decide)] [] := by decide
    refine (has.append (.of_step (tokens_part p) ?_)).mono (List.subset_cons_self _ _)
    intro q hq
    obtain rfl := List.mem_singleton.mp hq
    rfl

theorem reads_table (t : Table) :
    Reads [.expecting, .listed] [.named, .aliased] t.lexemes t.name.ref.readings := by
  simpa [Table.lexemes] using (reads_name t.name).append (reads_alias t.shortName)

/-! ### Clauses and statements

A keyword that ends a list does so from each of these places. -/

def settled : List Place := [.apart, .named, .aliased]

theorem apart_subset_settled : [.apart] ⊆ settled := by decide

theorem reads_tables {l : Lexeme} (h : Reads settled [.expecting, .listed] [l] []) (first : Table)
    (more : List Table) :
    Reads settled settled (l :: (first.lexemes ++ more.flatMap fun t => comma :: t.lexemes))
      (readingsOf (first :: more)) := by
  have hcomma : Reads [.named, .aliased] [.expecting, .listed] [comma] [] := by decide
  have hmore := Reads.flatMap (fun t => hcomma.append (reads_table t)) more
  exact (h.append ((reads_table first).append hmore)).mono (List.subset_cons_self _ _)

theorem run_plain {toks : List Token} (h : ∀ t ∈ toks, t.isAnchor = false) :
    reader.run .apart toks = ([], .apart) := by
  induction toks with
  | nil => rfl
  | cons t toks ih =>
    rw [List.forall_mem_cons] at h
    have hstep : reader.step .apart t = ([], .apart) := by
      change ([], Place.pass t) = _
      rw [Place.pass, h.1, if_neg Bool.false_ne_true]
    rw [Transducer.run_cons, hstep, ih h.2, List.append_nil]

theorem reads_text (text : PlainText) : Reads [.apart] [.apart] text.lexemes [] := by
  intro p hp
  obtain rfl := List.mem_singleton.mp hp
  refine ⟨.apart, hp, run_plain ?_⟩
  intro t ht
  obtain ⟨l, hl, htl⟩ := List.mem_flatMap.mp ht
  cases l with
  | literal text => cases htl
  | op c hc => cases htl
  | ident d text => rw [List.mem_singleton.mp htl]; rfl
  | bracketed text htext => rw [List.mem_singleton.mp htl]; rfl
  | word w hne hw =>
    rw [List.mem_singleton.mp htl]
    refine not_isAnchor_of_text ?_
    rw [upper_upper]
    exact text.plain w hne hw hl
  | mark c hc =>
    rw [List.mem_singleton.mp htl]
    refine not_isAnchor_of_text ?_
    simp only [isMark, Bool.or_eq_true, beq_iff_eq] at hc
    rcases hc with ((rfl | rfl) | rfl) | rfl <;> decide

theorem reads_words {l : Lexeme} (h : Reads settled [.apart] [l] []) (text : PlainText) :
    Reads settled settled (l :: text.lexemes) [] :=
  (h.append (reads_text text)).mono apart_subset_settled

theorem reads_target (g : Target) : Reads settled settled g.lexemes (readingsOf g.tables) := by
  cases g with
  | FROM first more => exact reads_tables (by decide) first more
  | INTO t => simpa [Target.lexemes, Target.tables] using reads_tables (by decide) t []
  | UPDATE t => simpa [Target.lexemes, Target.tables] using reads_tables (by decide) t []

theorem reads_condition (c : Condition) : Reads settled settled c.lexemes [] := by
  cases c with
  | none => decide
  | ON text => exact reads_words (by decide) text
  | USING text => exact reads_words (by decide) text

theorem reads_tail (t : Tail) : Reads settled settled t.lexemes [] := by
  cases t with
  | none => decide
  | some k text => exact reads_words (by cases k <;> decide) text

theorem reads_kind (ks : List JoinWord) : Reads settled settled (ks.map JoinWord.lexeme) [] := by
  induction ks with
  | nil => decide
  | cons k ks ih =>
    have hword : Reads settled settled [k.lexeme] [] := by cases k <;> decide
    exact hword.append ih

theorem reads_join (j : Join) : Reads settled settled j.lexemes (readingsOf [j.table]) := by
  have htable := reads_tables (l := keyword (str "JOIN") (by decide)) (by decide) j.table []
  have h := (reads_kind j.kind).append (htable.append (reads_condition j.condition))
  simpa [Join.lexemes] using h

theorem reads_clause (c : Clause) : Reads settled settled c.lexemes (readingsOf c.tables) := by
  have h := (reads_target c.target).append ((Reads.flatMap reads_join c.joins).append
    (reads_tail c.tail))
  simpa [Clause.lexemes, Clause.tables, readingsOf, List.flatMap_map] using h

theorem reads_verb (verb : Verb) :
    Reads [.apart] [.apart] [keyword verb.text (by cases verb <;> decide)] [] := by
  cases verb <;> decide

theorem reads_statement (st : Statement) :
    Reads [.apart] settled st.lexemes (readingsOf (st.clauses.flatMap Clause.tables)) := by
  have hclauses := Reads.flatMap reads_clause st.clauses
  rw [readingsOf, List.flatMap_assoc]
  cases st with
  | query verb text clauses =>
    have hstart := ((reads_verb verb).append (reads_text text)).mono apart_subset_settled
    exact hstart.append hclauses
  | update t joins tail clauses => exact fun p hp => hclauses p (apart_subset_settled hp)

theorem gather_readings (r : RawRef) {rs : List Reading} (h : (gather rs).1 = []) :
    gather (r.readings ++ rs) = ([], r :: (gather rs).2) := by
  have hmore (parts : List GoString) :
      gather (parts.map .more ++ rs) = (parts, (gather rs).2) := by
    induction parts with
    | nil => exact Prod.ext h rfl
    | cons part parts ih => rw [List.map_cons, List.cons_append, gather, ih]
  rw [RawRef.readings, List.cons_append, gather, hmore]

theorem gather_readingsOf (ts : List Table) :
    gather (readingsOf ts) = ([], ts.map fun t => t.name.ref) := by
  induction ts with
  | nil => rfl
  | cons t ts ih =>
    rw [readingsOf, List.flatMap_cons]
    change gather (_ ++ readingsOf ts) = _
    rw [gather_readings _ (by rw [ih]), ih]
    rfl

theorem extract_statement (st : Statement) :
    extractTableRefs (tokensOf st.lexemes) =
      (st.clauses.flatMap Clause.tables).map fun t => t.name.ref := by
  obtain ⟨q, -, hrun⟩ := reads_statement st .apart (List.mem_singleton_self _)
  rw [extractTableRefs_eq, readFrom, Transducer.output, hrun]
  change (gather (_ ++ [])).2 = _
  rw [List.append_nil, gather_readingsOf]

theorem statementType_statement (st : Statement) :
    ∃ q, statementType (tokensOf st.lexemes) = some q := by
  cases st with
  | query verb text clauses => cases verb <;> exact ⟨_, rfl⟩
  | update t joins tail clauses => exact ⟨_, rfl⟩

theorem qualify_ref (lower : GoString → GoString) (n : TableName)
    (defaultCatalog defaultSchema : GoString) :
    qualify lower n.ref defaultCatalog defaultSchema =
      n.resolve (lower (trimSpace defaultCatalog)) (lower (trimSpace defaultSchema)) := by
  cases n <;> rfl

theorem resolve_table_ne_nil (n : TableName) (dc ds : GoString) : (n.resolve dc ds).table ≠ [] := by
  cases n with
  | one t => exact text_ne_nil t
  | two s t => exact text_ne_nil t
  | three c s t => exact text_ne_nil t

theorem qualifyAll_refs (lower : GoString → GoString) (ts : List Table)
    (defaultCatalog defaultSchema : GoString) :
    qualifyAll lower (ts.map fun t => t.name.ref) defaultCatalog defaultSchema =
      ts.map fun t =>
        t.name.resolve (lower (trimSpace defaultCatalog)) (lower (trimSpace defaultSchema)) := by
  unfold qualifyAll
  rw [List.map_map, List.filter_eq_self.mpr]
  · exact List.map_congr_left fun t _ => qualify_ref lower t.name _ _
  · intro n hn
    obtain ⟨t, -, rfl⟩ := List.mem_map.mp hn
    simp only [Function.comp, qualify_ref]
    exact decide_eq_true (resolve_table_ne_nil _ _ _)

/-- The sets of a result are those of the names. -/
structure Reports (m : QueryMeta) (names : List Name) : Prop where
  tables : ∀ s, s ∈ m.tables ↔ ∃ n ∈ names, s = joinName n
  catalogs : ∀ s, s ∈ m.catalogs ↔ s ≠ [] ∧ ∃ n ∈ names, s = n.catalog
  schemas : ∀ s, s ∈ m.schemas ↔ s ≠ [] ∧ ∃ n ∈ names, s = n.schema
  catalogSchemas : ∀ s, s ∈ m.catalogSchemas ↔
    ∃ n ∈ names, n.catalog ≠ [] ∧ n.schema ≠ [] ∧ s = n.catalog ++ str "." ++ n.schema
  nodup : m.tables.Nodup ∧ m.catalogs.Nodup ∧ m.schemas.Nodup ∧ m.catalogSchemas.Nodup

theorem reports_metaOf (queryType : GoString) {names : List Name} (h : ∀ n ∈ names, n.table ≠ []) :
    Reports (metaOf queryType names) names where
  tables s := by
    rw [metaOf, mem_sortedSet, List.mem_map]
    constructor
    · rintro ⟨⟨n, hn, rfl⟩, -⟩
      exact ⟨n, hn, rfl⟩
    · rintro ⟨n, hn, rfl⟩
      exact ⟨⟨n, hn, rfl⟩, joinName_ne_nil (h n hn)⟩
  catalogs s := by
    rw [metaOf, mem_sortedSet, List.mem_map, and_comm]
    simp only [eq_comm]
  schemas s := by
    rw [metaOf, mem_sortedSet, List.mem_map, and_comm]
    simp only [eq_comm]
  catalogSchemas s := by
    rw [metaOf, mem_sortedSet, List.mem_map]
    constructor
    · rintro ⟨⟨n, hn, rfl⟩, -⟩
      obtain ⟨hn, hne⟩ := List.mem_filter.mp hn
      rw [decide_eq_true_eq] at hne
      exact ⟨n, hn, hne.1, hne.2, rfl⟩
    · rintro ⟨n, hn, hc, hs, rfl⟩
      refine ⟨⟨n, List.mem_filter.mpr ⟨hn, decide_eq_true ⟨hc, hs⟩⟩, rfl⟩, ?_⟩
      simp [hc]
  nodup := ⟨nodup_sortedSet _, nodup_sortedSet _, nodup_sortedSet _, nodup_sortedSet _⟩

/-- What the extraction finds in the tokens of the lexemes is reported for a rendering that fits. -/
theorem reports_of_renders {ls : List Lexeme} {ts : List Table} {queryType sql : GoString}
    (htype : statementType (tokensOf ls) = some queryType)
    (hrefs : extractTableRefs (tokensOf ls) = ts.map fun t => t.name.ref)
    (hsql : Renders none ls sql) {h : Heuristic} (hfit : sql.length ≤ h.limit)
    (lower : GoString → GoString) (defaultCatalog defaultSchema : GoString) :
    Reports (h.analyze lower sql defaultCatalog defaultSchema) (ts.map fun t =>
      t.name.resolve (lower (trimSpace defaultCatalog)) (lower (trimSpace defaultSchema))) := by
  have hne : tokensOf ls ≠ [] := by
    intro hnil
    rw [hnil] at htype
    cases htype
  rw [analyze_of_renders hsql hfit]
  change Reports (analyzeTokens lower (tokensOf ls) defaultCatalog defaultSchema) _
  unfold analyzeTokens
  rw [if_neg hne, htype]
  dsimp only
  rw [hrefs, qualifyAll_refs]
  refine reports_metaOf queryType ?_
  intro n hn
  obtain ⟨t, -, rfl⟩ := List.mem_map.mp hn
  exact resolve_table_ne_nil _ _ _

/-- The analysis of a rendering that fits reports exactly the names of the statement's tables. -/
theorem joins_exact {st : Statement} {sql : GoString} (hsql : Renders none st.lexemes sql)
    {h : Heuristic} (hfit : sql.length ≤ h.limit) (lower : GoString → GoString)
    (defaultCatalog defaultSchema : GoString) :
    Reports (h.analyze lower sql defaultCatalog defaultSchema)
      (st.names (lower (trimSpace defaultCatalog)) (lower (trimSpace defaultSchema))) := by
  obtain ⟨q, hq⟩ := statementType_statement st
  exact reports_of_renders hq (extract_statement st) hsql hfit lower _ _

section Samples

def wordText (w : GoString) (h : w ≠ [] ∧ w.all isIdentChar ∧ upper w ∉ tableKeywords) :
    PlainText where
  lexemes := [keyword w ⟨h.1, h.2.1⟩]
  plain w' hne hw hmem := by
    obtain rfl := Lexeme.word.inj (List.mem_singleton.mp hmem)
    exact h.2.2

def barePart (w : GoString) (h : w ≠ [] ∧ w.all isIdentChar ∧ upper w ∉ refStopKeywords ∧
    upper w ∉ tableKeywords ∧ upper w ≠ str "ONLY") : Part :=
  .bare w h.1 (List.all_eq_true.mp h.2.1) h.2.2

def selectFrom : Statement :=
  .query .SELECT (wordText (str "a") (by decide))
    [⟨.FROM ⟨.one (barePart (str "u") (by decide)), .none⟩ [], [], .none⟩]

/-- The statement `SELECT a FROM u x, h."T" LEFT JOIN w AS y ON b`. -/
def selectJoined : Statement :=
  .query .SELECT (wordText (str "a") (by decide))
    [⟨.FROM ⟨.one (barePart (str "u") (by decide)), .plain (barePart (str "x") (by decide))⟩
        [⟨.two (barePart (str "h") (by decide)) (.quoted (str "T") (by decide) (by decide)),
          .none⟩],
      [⟨[.LEFT], ⟨.one (barePart (str "w") (by decide)), .as (barePart (str "y") (by decide))⟩,
        .ON (wordText (str "b") (by decide))⟩], .none⟩]

theorem renders_selectFrom : Renders none selectFrom.lexemes (str "SELECT a FROM u") :=
  .cons (s := str "SELECT") (t := str " a FROM u") [] (by simp) rfl
    (.cons (s := str "a") (t := str " FROM u") [.blank 32 rfl] (by simp) rfl
      (.cons (s := str "FROM") (t := str " u") [.blank 32 rfl] (by simp) rfl
        (.cons (s := str "u") (t := []) [.blank 32 rfl] (by simp) rfl (.nil []))))

theorem renders_selectJoined : Renders none selectJoined.lexemes
    (str "SELECT a FROM u x, h.\"T\" LEFT JOIN w AS y ON b") :=
  .cons (s := str "SELECT") [] (by simp) rfl
    (.cons (s := str "a") [.blank 32 rfl] (by simp) rfl
      (.cons (s := str "FROM") [.blank 32 rfl] (by simp) rfl
        (.cons (s := str "u") [.blank 32 rfl] (by simp) rfl
          (.cons (s := str "x") [.blank 32 rfl] (by simp) rfl
            (.mark rfl
              (.cons (s := str "h") [.blank 32 rfl] (by simp) rfl
                (.mark rfl
                  (.cons (s := str "\"T\"") [] (fun _ p hp => by cases hp; exact id) rfl
                    (.cons (s := str "LEFT") [.blank 32 rfl] (by simp) rfl
                      (.cons (s := str "JOIN") [.blank 32 rfl] (by simp) rfl
                        (.cons (s := str "w") [.blank 32 rfl] (by simp) rfl
                          (.cons (s := str "AS") [.blank 32 rfl] (by simp) rfl
                            (.cons (s := str "y") [.blank 32 rfl] (by simp) rfl
                              (.cons (s := str "ON") [.blank 32 rfl] (by simp) rfl
                                (.cons (s := str "b") (t := []) [.blank 32 rfl] (by simp) rfl
                                  (.nil []))))))))))))))))

end Samples

theorem joins_exact_selectJoined :
    Reports ((Heuristic.mk 0).analyze id (str "SELECT a FROM u x, h.\"T\" LEFT JOIN w AS y ON b")
        (str "c") (str "s"))
      (selectJoined.names (id (trimSpace (str "c"))) (id (trimSpace (str "s")))) :=
  joins_exact renders_selectJoined (by decide) id (str "c") (str "s")

/-- Beyond the limit of the analysis, the table is not seen. -/
theorem table_beyond_limit :
    Renders none selectFrom.lexemes (str "SELECT a FROM u") ∧
      ¬ Reports ((Heuristic.mk 8).analyze id (str "SELECT a FROM u") [] [])
        (selectFrom.names (id (trimSpace [])) (id (trimSpace []))) := by
  refine ⟨renders_selectFrom, ?_⟩
  intro h
  have hmem := (h.tables (str "u")).mpr ⟨⟨[], [], str "u"⟩, by decide, by decide⟩
  exact absurd hmem (by decide +kernel)

end TrinoGoway.SqlMeta
