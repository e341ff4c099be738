import TrinoGoway.SqlMeta.Heuristic

/-! What a result of the analysis says: its lists agree with each other and with the references
that were found, and its table names tell references apart as far as their dots allow. -/
namespace TrinoGoway.SqlMeta

open Go

/-! ### Sorted sets -/

theorem lexLe_total (s t : GoString) : lexLe s t ∨ lexLe t s := by
  induction s generalizing t with
  | nil => exact .inl rfl
  | cons a s ih =>
    cases t with
    | nil => exact .inr rfl
    | cons b t =>
      simp only [lexLe, Bool.or_eq_true, Bool.and_eq_true, decide_eq_true_eq, beq_iff_eq]
      rcases Nat.lt_trichotomy a.toNat b.toNat with h | h | h
      · exact .inl (.inl h)
      · obtain rfl := UInt8.toNat_inj.mp h
        exact (ih t).imp (fun hst => .inr ⟨rfl, hst⟩) fun hts => .inr ⟨rfl, hts⟩
      · exact .inr (.inl h)

theorem lexLe_trans {s t u : GoString} (hst : lexLe s t) (htu : lexLe t u) : lexLe s u := by
  induction s generalizing t u with
  | nil => rfl
  | cons a s ih =>
    cases t with
    | nil => cases hst
    | cons b t =>
      cases u with
      | nil => cases htu
      | cons c u =>
        simp only [lexLe, Bool.or_eq_true, Bool.and_eq_true, decide_eq_true_eq, beq_iff_eq]
          at hst htu ⊢
        rcases hst with hab | ⟨rfl, hst⟩
        · rcases htu with hbc | ⟨rfl, -⟩
          · exact .inl (UInt8.lt_trans hab hbc)
          · exact .inl hab
        · rcases htu with hbc | ⟨rfl, htu⟩
          · exact .inl hbc
          · exact .inr ⟨rfl, ih hst htu⟩

def LexLt (s t : GoString) : Prop := lexLe s t ∧ s ≠ t

theorem pairwise_sortedSet (ss : List GoString) : (sortedSet ss).Pairwise LexLt := by
  have htotal : Std.Total fun s t : GoString => lexLe s t = true := ⟨lexLe_total⟩
  have htrans : IsTrans GoString fun s t => lexLe s t = true := ⟨fun _ _ _ => lexLe_trans⟩
  have hsorted : (sortedSet ss).Pairwise fun s t => lexLe s t = true :=
    List.pairwise_insertionSort _ _
  exact hsorted.and (nodup_sortedSet ss)

theorem ne_nil_of_mem_sortedSet {s : GoString} {ss : List GoString} (h : s ∈ sortedSet ss) :
    s ≠ [] := (mem_sortedSet.mp h).2

/-! ### Agreement -/

structure Lists (m : QueryMeta) (n : Name) : Prop where
  catalog : n.catalog ≠ [] → n.catalog ∈ m.catalogs
  schema : n.schema ≠ [] → n.schema ∈ m.schemas
  pair : n.catalog ≠ [] → n.schema ≠ [] → n.catalog ++ str "." ++ n.schema ∈ m.catalogSchemas
  table : joinName n ∈ m.tables

/-- A result that names a statement and the tables `names`. -/
structure Coherent (m : QueryMeta) (names : List Name) : Prop where
  keyword : m.queryType ∈ statementKeywords
  category : m.category = categoryFor m.queryType
  increasing : ∀ l ∈ [m.catalogs, m.schemas, m.catalogSchemas, m.tables], l.Pairwise LexLt
  ne_nil : ∀ l ∈ [m.catalogs, m.schemas, m.catalogSchemas, m.tables], ∀ s ∈ l, s ≠ []
  pairs : ∀ p ∈ m.catalogSchemas, ∃ c ∈ m.catalogs, ∃ s ∈ m.schemas, p = c ++ str "." ++ s
  lists : ∀ n ∈ names, n.table ≠ [] → Lists m n

theorem joinName_ne_nil {n : Name} (h : n.table ≠ []) : joinName n ≠ [] := by
  unfold joinName
  by_cases hc : n.catalog = [] <;> by_cases hs : n.schema = [] <;> simp [join, hc, hs, h]

theorem lists_metaOf (queryType : GoString) {names : List Name} {n : Name} (hn : n ∈ names)
    (htable : n.table ≠ []) : Lists (metaOf queryType names) n where
  catalog hc := mem_sortedSet.mpr ⟨List.mem_map_of_mem hn, hc⟩
  schema hs := mem_sortedSet.mpr ⟨List.mem_map_of_mem hn, hs⟩
  pair hc hs := by
    refine mem_sortedSet.mpr ⟨?_, by simp [hc]⟩
    exact List.mem_map.mpr ⟨n, List.mem_filter.mpr ⟨hn, decide_eq_true ⟨hc, hs⟩⟩, rfl⟩
  table := mem_sortedSet.mpr ⟨List.mem_map_of_mem hn, joinName_ne_nil htable⟩

theorem pairs_metaOf (queryType : GoString) (names : List Name) :
    ∀ p ∈ (metaOf queryType names).catalogSchemas, ∃ c ∈ (metaOf queryType names).catalogs,
      ∃ s ∈ (metaOf queryType names).schemas, p = c ++ str "." ++ s := by
  intro p hp
  obtain ⟨hmem, -⟩ := mem_sortedSet.mp hp
  obtain ⟨n, hn, rfl⟩ := List.mem_map.mp hmem
  obtain ⟨hn, hparts⟩ := List.mem_filter.mp hn
  rw [decide_eq_true_eq] at hparts
  exact ⟨n.catalog, mem_sortedSet.mpr ⟨List.mem_map_of_mem hn, hparts.1⟩,
    n.schema, mem_sortedSet.mpr ⟨List.mem_map_of_mem hn, hparts.2⟩, rfl⟩

theorem mainAfterWith_keyword_mem {depth : ℕ} {toks : List Token} {kw : GoString}
    (h : mainAfterWith depth toks = some kw) : kw ∈ statementKeywords := by
  induction toks generalizing depth with
  | nil => cases h
  | cons t toks ih =>
    simp only [mainAfterWith] at h
    split at h
    · exact ih h
    · split at h
      · exact ih h
      · split at h
        · exact ih h
        · split at h
          · rename_i hkw
            obtain rfl := Option.some.inj h
            exact of_decide_eq_true hkw
          · exact ih h

theorem statementType_mem {toks : List Token} {kw : GoString} (h : statementType toks = some kw) :
    kw ∈ statementKeywords := by
  simp only [statementType] at h
  split at h
  · obtain rfl := Option.some.inj h
    decide
  · split at h
    · obtain rfl := Option.some.inj h
      cases hmain : mainAfterWith 0 toks.tail with
      | none => decide
      | some kw => exact mainAfterWith_keyword_mem hmain
    · split at h
      · rename_i hkw
        obtain rfl := Option.some.inj h
        exact of_decide_eq_true hkw
      · cases h

theorem coherent_metaOf {queryType : GoString} (hkw : queryType ∈ statementKeywords)
    (names : List Name) : Coherent (metaOf queryType (names.filter (·.table ≠ []))) names where
  keyword := hkw
  category := rfl
  increasing := by
    simp only [List.forall_mem_cons, List.not_mem_nil, false_implies, implies_true, and_true]
    exact ⟨pairwise_sortedSet _, pairwise_sortedSet _, pairwise_sortedSet _, pairwise_sortedSet _⟩
  ne_nil := by
    simp only [List.forall_mem_cons, List.not_mem_nil, false_implies, implies_true, and_true]
    exact ⟨fun _ => ne_nil_of_mem_sortedSet, fun _ => ne_nil_of_mem_sortedSet,
      fun _ => ne_nil_of_mem_sortedSet, fun _ => ne_nil_of_mem_sortedSet⟩
  pairs := pairs_metaOf _ _
  lists n hn htable :=
    lists_metaOf _ (List.mem_filter.mpr ⟨hn, decide_eq_true htable⟩) htable

/-- **Coherence.** For every text, limit and defaults, a result is empty or names a statement, and
then its lists are sorted, agree with each other and hold what the references resolve to. -/
theorem analyze_coherent (lower : GoString → GoString) (h : Heuristic)
    (sql defaultCatalog defaultSchema : GoString) :
    ((h.analyze lower sql defaultCatalog defaultSchema).parseOK = false →
      h.analyze lower sql defaultCatalog defaultSchema = emptyMeta) ∧
    ((h.analyze lower sql defaultCatalog defaultSchema).parseOK = true →
      Coherent (h.analyze lower sql defaultCatalog defaultSchema)
        ((extractTableRefs (tokenize (sql.take h.limit))).map fun ref =>
          qualify lower ref defaultCatalog defaultSchema)) := by
  unfold Heuristic.analyze Heuristic.analyzeWithTruncation analyzeTokens
  dsimp only
  split
  · exact ⟨fun _ => rfl, nofun⟩
  · split
    · exact ⟨fun _ => rfl, nofun⟩
    · rename_i queryType htype
      exact ⟨nofun, fun _ => coherent_metaOf (statementType_mem htype) _⟩

/-! ### Names and their dots -/

/-- Where a text is joined from two parts with a separator, the number of separators in the first
part says where it ends. -/
theorem append_cons_inj_of_count {α : Type*} [BEq α] [LawfulBEq α] {sep : α} {s s' t t' : List α}
    (hcount : s.count sep = s'.count sep) (h : s ++ sep :: t = s' ++ sep :: t') :
    s = s' ∧ t = t' := by
  rcases List.append_eq_append_iff.mp h with ⟨u, rfl, hu⟩ | ⟨u, rfl, hu⟩
  · cases u with
    | nil => simpa using hu
    | cons a u =>
      obtain ⟨rfl, -⟩ := List.cons.inj hu
      rw [List.count_append, List.count_cons_self] at hcount
      omega
  · cases u with
    | nil => simpa using hu.symm
    | cons a u =>
      obtain ⟨rfl, -⟩ := List.cons.inj hu
      rw [List.count_append, List.count_cons_self] at hcount
      omega

/-- The names have the same leading parts, with as many dots in each. -/
structure Name.Alike (n n' : Name) : Prop where
  catalog : n.catalog = [] ↔ n'.catalog = []
  schema : n.schema = [] ↔ n'.schema = []
  catalogDots : n.catalog.count Byte.period = n'.catalog.count Byte.period
  schemaDots : n.schema.count Byte.period = n'.schema.count Byte.period

def leading (part rest : GoString) : GoString := if part = [] then rest else part ++ 46 :: rest

theorem joinName_eq (n : Name) : joinName n = leading n.catalog (leading n.schema n.table) := by
  unfold joinName leading
  by_cases hc : n.catalog = [] <;> by_cases hs : n.schema = [] <;> simp [join, hc, hs] <;> rfl

theorem leading_inj {part part' rest rest' : GoString} (hnil : part = [] ↔ part' = [])
    (hdots : part.count Byte.period = part'.count Byte.period)
    (h : leading part rest = leading part' rest') : part = part' ∧ rest = rest' := by
  unfold leading at h
  by_cases hpart : part = []
  · rw [if_pos hpart, if_pos (hnil.mp hpart)] at h
    exact ⟨hpart.trans (hnil.mp hpart).symm, h⟩
  · rw [if_neg hpart, if_neg fun h' => hpart (hnil.mpr h')] at h
    exact append_cons_inj_of_count hdots h

theorem joinName_inj {n n' : Name} (h : joinName n = joinName n') : n = n' ↔ n.Alike n' := by
  constructor
  · rintro rfl
    exact ⟨Iff.rfl, Iff.rfl, rfl, rfl⟩
  · intro halike
    rw [joinName_eq, joinName_eq] at h
    obtain ⟨hcatalog, hrest⟩ := leading_inj halike.catalog halike.catalogDots h
    obtain ⟨hschema, htable⟩ := leading_inj halike.schema halike.schemaDots hrest
    cases n
    cases n'
    simp_all

/-- **What an entry tells.** Two references with the same entry, whatever the defaults they are
resolved with, are the same table exactly if they have the same leading parts, with as many dots in
each. -/
theorem same_entry_same_table_iff (lower : GoString → GoString) {ref ref' : RawRef}
    {defaultCatalog defaultSchema defaultCatalog' defaultSchema' : GoString}
    (h : joinName (qualify lower ref defaultCatalog defaultSchema) =
      joinName (qualify lower ref' defaultCatalog' defaultSchema')) :
    qualify lower ref defaultCatalog defaultSchema =
        qualify lower ref' defaultCatalog' defaultSchema' ↔
      (qualify lower ref defaultCatalog defaultSchema).Alike
        (qualify lower ref' defaultCatalog' defaultSchema') :=
  joinName_inj h

theorem same_entry_same_table_iff_orders :
    qualify id ⟨str "s", [str "t"]⟩ (str "c") [] = qualify id ⟨str "t", []⟩ (str "c") (str "s") ↔
      (qualify id ⟨str "s", [str "t"]⟩ (str "c") []).Alike
        (qualify id ⟨str "t", []⟩ (str "c") (str "s")) :=
  same_entry_same_table_iff id (by decide)

/-- A quoted name with a dot has the entry of a name with a schema. -/
theorem quoted_dot_same_entry :
    ((Heuristic.mk 0).analyze id (str "SELECT 1 FROM \"a.b\"") [] []).tables =
        ((Heuristic.mk 0).analyze id (str "SELECT 1 FROM a.b") [] []).tables ∧
      extractTableRefs (tokenize (str "SELECT 1 FROM \"a.b\"")) = [⟨str "a.b", []⟩] ∧
      extractTableRefs (tokenize (str "SELECT 1 FROM a.b")) = [⟨str "a", [str "b"]⟩] ∧
      qualify id ⟨str "a.b", []⟩ [] [] ≠ qualify id ⟨str "a", [str "b"]⟩ [] [] := by
  decide +kernel

end TrinoGoway.SqlMeta
