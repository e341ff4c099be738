import TrinoGoway.SqlMeta.Lexemes
import TrinoGoway.SqlMeta.Reader

/-! Whether the contents of string literals influence the analysis. What a literal is, is decided
by SQL, where square brackets are operators; the tokenizer takes them for quotes. -/
namespace TrinoGoway.SqlMeta

open Go

def sqlMode (sql : GoString) : Mode := ((scanner false).run .code sql).2

def tokenizerMode (sql : GoString) : Mode := ((scanner true).run .code sql).2

def emitted (sql : GoString) : List Token := ((scanner true).run .code sql).1

def Mode.OpensLiteral (m : Mode) : Prop := m.isCode ∧ m.continues Byte.quote = false

/-- `SameButLiterals m s s'`: read from mode `m` on as SQL, the texts are equal except for the
contents of their closed string literals. -/
inductive SameButLiterals : Mode → GoString → GoString → Prop
  | nil {m : Mode} : SameButLiterals m [] []
  | byte {m : Mode} {s s' : GoString} (c : UInt8)
      (h : SameButLiterals ((scanner false).step m c).2 s s') :
      SameButLiterals m (c :: s) (c :: s')
  | literal {m : Mode} {s s' : GoString} (text text' : GoString) (hm : m.OpensLiteral)
      (hs : s.head? ≠ some Byte.quote) (h : SameButLiterals .literalQuote s s') :
      SameButLiterals m (Byte.quote :: (double Byte.quote text ++ Byte.quote :: s))
        (Byte.quote :: (double Byte.quote text' ++ Byte.quote :: s'))

/-- The analysis of the text stays the same, whatever its literals contain. -/
def LiteralsIgnored (sql : GoString) : Prop :=
  ∀ sql', SameButLiterals .code sql sql' → ∀ (h : Heuristic) (lower : GoString → GoString)
    (defaultCatalog defaultSchema : GoString), sql.length ≤ h.limit → sql'.length ≤ h.limit →
      h.analyze lower sql defaultCatalog defaultSchema =
        h.analyze lower sql' defaultCatalog defaultSchema

/-- The first word is there, and no statement begins with it. -/
def Unrecognised (toks : List Token) : Prop :=
  (∃ t ∈ toks, t.quoted = false) ∧ statementType toks = none

/-- Every closed literal begins where the tokenizer, too, is outside comments, literals and quoted
identifiers, or behind a first word with which no statement begins. -/
def Harmless (sql : GoString) : Prop :=
  ∀ pre text post, sql = pre ++ Byte.quote :: (double Byte.quote text ++ Byte.quote :: post) →
    (sqlMode pre).OpensLiteral → post.head? ≠ some Byte.quote →
      (tokenizerMode pre).isCode ∨ Unrecognised (emitted pre)

/-! ### Statements that are not recognised -/

theorem keywordAt_append {toks : List Token} (h : ∃ t ∈ toks, t.quoted = false)
    (more : List Token) : keywordAt (toks ++ more) = keywordAt toks := by
  induction toks with
  | nil => simp at h
  | cons t toks ih =>
    simp only [List.cons_append, keywordAt]
    split
    · rename_i hq
      apply ih
      obtain ⟨t', ht', hq'⟩ := h
      rcases List.mem_cons.mp ht' with rfl | ht'
      · rw [hq'] at hq
        cases hq
      · exact ⟨t', ht', hq'⟩
    · rfl

theorem keywordAt_of_quoted {toks : List Token} (h : ∀ t ∈ toks, t.quoted = true)
    (more : List Token) : keywordAt (toks ++ more) = keywordAt more := by
  induction toks with
  | nil => rfl
  | cons t toks ih =>
    rw [List.forall_mem_cons] at h
    simp only [List.cons_append, keywordAt, h.1, if_true, ih h.2]

theorem keywordAt_eq_nil {toks : List Token} (h : ∀ t ∈ toks, t.quoted = true) :
    keywordAt toks = [] := by
  rw [← List.append_nil toks, keywordAt_of_quoted h]
  rfl

theorem statementType_eq_none_iff (toks : List Token) :
    statementType toks = none ↔
      keywordAt toks ≠ str "EXPLAIN" ∧ keywordAt toks ≠ str "WITH" ∧
        isStatementKeyword (keywordAt toks) = false := by
  unfold statementType
  dsimp only
  split
  · simp_all
  · split
    · simp_all
    · split <;> simp_all

theorem statementType_append {toks : List Token} (h : ∃ t ∈ toks, t.quoted = false)
    (more : List Token) : statementType (toks ++ more) = none ↔ statementType toks = none := by
  rw [statementType_eq_none_iff, statementType_eq_none_iff, keywordAt_append h]

theorem analyzeTokens_of_unrecognised {toks more : List Token} (h : Unrecognised toks)
    (lower : GoString → GoString) (defaultCatalog defaultSchema : GoString) :
    analyzeTokens lower (toks ++ more) defaultCatalog defaultSchema = emptyMeta := by
  have hnone := (statementType_append h.1 more).mpr h.2
  unfold analyzeTokens
  rw [hnone]
  split <;> rfl

/-! ### Texts without harm -/

/-- `Harmless` for a text that is read from the mode `m` of the SQL lexer and the mode `k` of the
tokenizer on, which has emitted `toks`. -/
def HarmlessFrom (m k : Mode) (toks : List Token) (s : GoString) : Prop :=
  ∀ pre text post, s = pre ++ Byte.quote :: (double Byte.quote text ++ Byte.quote :: post) →
    ((scanner false).run m pre).2.OpensLiteral → post.head? ≠ some Byte.quote →
      ((scanner true).run k pre).2.isCode ∨ Unrecognised (toks ++ ((scanner true).run k pre).1)

theorem HarmlessFrom.byte {m k : Mode} {toks : List Token} {c : UInt8} {s : GoString}
    (h : HarmlessFrom m k toks (c :: s)) :
    HarmlessFrom ((scanner false).step m c).2 ((scanner true).step k c).2
      (toks ++ ((scanner true).step k c).1) s := by
  intro pre text post hs hm hpost
  have hs' : c :: s =
      (c :: pre) ++ Byte.quote :: (double Byte.quote text ++ Byte.quote :: post) := by
    rw [hs]
    rfl
  have hlit := h (c :: pre) text post hs' hm hpost
  rw [Transducer.run_cons] at hlit
  rw [List.append_assoc]
  exact hlit

theorem HarmlessFrom.literal {m k : Mode} {toks : List Token} {text s : GoString}
    (h : HarmlessFrom m k toks (Byte.quote :: (double Byte.quote text ++ Byte.quote :: s))) :
    HarmlessFrom
      ((scanner false).run m (Byte.quote :: (double Byte.quote text ++ [Byte.quote]))).2
      ((scanner true).run k (Byte.quote :: (double Byte.quote text ++ [Byte.quote]))).2
      (toks ++ ((scanner true).run k (Byte.quote :: (double Byte.quote text ++ [Byte.quote]))).1)
      s := by
  intro pre text' post hs hm hpost
  have hs' : Byte.quote :: (double Byte.quote text ++ Byte.quote :: s) =
      (Byte.quote :: (double Byte.quote text ++ [Byte.quote])) ++ pre ++
        Byte.quote :: (double Byte.quote text' ++ Byte.quote :: post) := by
    rw [hs]
    simp
  have hlit := h _ text' post hs'
  rw [Transducer.run_append, Transducer.run_append] at hlit
  rw [List.append_assoc]
  exact hlit hm hpost

/-- After a quote, an SQL lexer is in code only if the quote may have ended a literal; and the
tokenizer awaits another quote only after a quote. -/
def Aligned (m k : Mode) : Prop := k = .literalQuote → m.isCode → m = .literalQuote

theorem eq_quote_of_literalQuote {brackets : Bool} {k : Mode} {c : UInt8}
    (h : ((scanner brackets).step k c).2 = .literalQuote) : c = Byte.quote := by
  by_cases hk : k.isCode ∧ ¬ k.continues c
  · rw [step_enter hk.1 (Bool.eq_false_iff.mpr hk.2)] at h
    simp only [enter] at h
    split_ifs at h
  · have hadvance : (scanner brackets).step k c = advance k c := if_neg hk
    rw [hadvance] at h
    cases k <;> grind [advance]

theorem eq_literalQuote_of_quote {brackets : Bool} {m : Mode}
    (h : ((scanner brackets).step m Byte.quote).2.isCode) :
    ((scanner brackets).step m Byte.quote).2 = .literalQuote := by
  cases m with
  | literal => rfl
  | quoted d text => cases d <;> cases h
  | quotedEnd d text => cases d <;> cases h
  | _ => cases h

theorem continues_quote {m : Mode} (h : m.continues Byte.quote) : m = .literalQuote := by
  cases m with
  | literalQuote => rfl
  | quotedEnd d text => cases d <;> cases h
  | _ => cases h

theorem aligned_step (m k : Mode) (c : UInt8) :
    Aligned ((scanner false).step m c).2 ((scanner true).step k c).2 := by
  intro hk hm
  obtain rfl := eq_quote_of_literalQuote hk
  exact eq_literalQuote_of_quote hm

theorem run_whole_literal {brackets : Bool} {m : Mode} (hm : m.OpensLiteral) (text : GoString) :
    (scanner brackets).run m (Byte.quote :: (double Byte.quote text ++ [Byte.quote])) =
      (m.pending, .literalQuote) := by
  have hopen : (scanner brackets).run .code
      (Byte.quote :: (double Byte.quote text ++ [Byte.quote])) =
        (scanner brackets).run .literal (double Byte.quote text ++ [Byte.quote]) := rfl
  rw [run_of_not_continues hm.1 hm.2, hopen, run_literal, List.append_nil]

theorem output_whole_literal {brackets : Bool} {m : Mode} (hm : m.OpensLiteral)
    (text s : GoString) :
    (scanner brackets).output m (Byte.quote :: (double Byte.quote text ++ Byte.quote :: s)) =
      m.pending ++ (scanner brackets).output .literalQuote s := by
  have hsplit : Byte.quote :: (double Byte.quote text ++ Byte.quote :: s) =
      (Byte.quote :: (double Byte.quote text ++ [Byte.quote])) ++ s := by simp
  rw [hsplit, Transducer.output_append, run_whole_literal hm]

/-- Behind `toks` the two outputs are the same, or both begin with enough to be rejected. -/
def Agree (toks out out' : List Token) : Prop :=
  out = out' ∨ ∃ more, Unrecognised (toks ++ more) ∧ more <+: out ∧ more <+: out'

theorem Agree.append {toks first out out' : List Token} (h : Agree (toks ++ first) out out') :
    Agree toks (first ++ out) (first ++ out') := by
  rcases h with rfl | ⟨more, hun, hpre, hpre'⟩
  · exact .inl rfl
  · refine .inr ⟨first ++ more, ?_, ?_, ?_⟩
    · rw [← List.append_assoc]
      exact hun
    · exact (List.prefix_append_right_inj first).mpr hpre
    · exact (List.prefix_append_right_inj first).mpr hpre'

theorem Agree.analyzeTokens_eq {out out' : List Token} (h : Agree [] out out')
    (lower : GoString → GoString) (defaultCatalog defaultSchema : GoString) :
    analyzeTokens lower out defaultCatalog defaultSchema =
      analyzeTokens lower out' defaultCatalog defaultSchema := by
  rcases h with rfl | ⟨more, hun, ⟨rest, rfl⟩, ⟨rest', rfl⟩⟩
  · rfl
  · rw [List.nil_append] at hun
    rw [analyzeTokens_of_unrecognised hun, analyzeTokens_of_unrecognised hun]

theorem output_of_sameButLiterals {m : Mode} {s s' : GoString} (h : SameButLiterals m s s')
    {k : Mode} {toks : List Token} (hk : Aligned m k) (hs : HarmlessFrom m k toks s) :
    Agree toks ((scanner true).output k s) ((scanner true).output k s') := by
  induction h generalizing k toks with
  | nil => exact .inl rfl
  | @byte m s s' c h ih =>
    rw [Transducer.output_cons, Transducer.output_cons]
    exact (ih (aligned_step m k c) hs.byte).append
  | @literal m s s' text text' hm hpost h ih =>
    rcases hs [] text s rfl hm hpost with hcode | hun
    · have hopens : k.OpensLiteral := by
        refine ⟨hcode, Bool.eq_false_iff.mpr ?_⟩
        intro hquote
        have hm' := hk (continues_quote hquote) hm.1
        rw [hm'] at hm
        cases hm.2
      have hrest := hs.literal
      rw [run_whole_literal hm, run_whole_literal hopens] at hrest
      rw [output_whole_literal hopens, output_whole_literal hopens]
      exact (ih (fun _ _ => rfl) hrest).append
    · exact .inr ⟨[], hun, List.nil_prefix, List.nil_prefix⟩

theorem literalsIgnored_of_harmless {sql : GoString} (hsql : Harmless sql) :
    LiteralsIgnored sql := by
  intro sql' hsame h lower defaultCatalog defaultSchema hfit hfit'
  rw [Heuristic.analyze_of_le hfit, Heuristic.analyze_of_le hfit', tokenize_eq_output,
    tokenize_eq_output]
  have hfrom : HarmlessFrom .code .code [] sql := hsql
  exact (output_of_sameButLiterals hsame (fun h _ => h) hfrom).analyzeTokens_eq _ _ _

/-! ### Texts with harm -/

theorem SameButLiterals.refl (m : Mode) (s : GoString) : SameButLiterals m s s := by
  induction s generalizing m with
  | nil => exact .nil
  | cons c s ih => exact .byte c (ih _)

theorem SameButLiterals.append {m : Mode} {pre s s' : GoString}
    (h : SameButLiterals ((scanner false).run m pre).2 s s') :
    SameButLiterals m (pre ++ s) (pre ++ s') := by
  induction pre generalizing m with
  | nil => exact h
  | cons c pre ih => exact .byte c (ih h)

def filled (pre post text : GoString) : GoString :=
  pre ++ Byte.quote :: (double Byte.quote text ++ Byte.quote :: post)

theorem sameButLiterals_filled {pre post : GoString} (hpre : (sqlMode pre).OpensLiteral)
    (hpost : post.head? ≠ some Byte.quote) (text text' : GoString) :
    SameButLiterals .code (filled pre post text) (filled pre post text') :=
  SameButLiterals.append (.literal text text' hpre hpost (.refl _ _))

/-- Inside what is not code for the tokenizer, a literal can bring it back to code. -/
theorem exists_closing {k : Mode} (hk : k.isCode = false) :
    ∃ closing toks, Byte.quote ∉ closing ∧ (∀ t ∈ toks, t.quoted = true) ∧
      (scanner true).run k (Byte.quote :: closing) = (toks, .code) := by
  cases k with
  | line => exact ⟨[Byte.newline], [], by decide, by simp, rfl⟩
  | block => exact ⟨[42, Byte.slash], [], by decide, by simp, rfl⟩
  | blockStar => exact ⟨[42, Byte.slash], [], by decide, by simp, rfl⟩
  | literal => exact ⟨[Byte.space], [], by decide, by simp, rfl⟩
  | quoted d text =>
    refine ⟨[d.byte, Byte.space], [⟨text ++ [Byte.quote], true⟩], ?_, by simp, ?_⟩
    · cases d <;> decide
    · cases d <;> rfl
  | bracket text =>
    exact ⟨[Byte.closeBracket], [⟨text ++ [Byte.quote], true⟩], by decide, by simp, rfl⟩
  | _ => cases hk

theorem double_of_not_mem {d : UInt8} {text : GoString} (h : d ∉ text) : double d text = text := by
  induction text with
  | nil => rfl
  | cons c text ih =>
    rw [List.mem_cons, not_or] at h
    unfold double at ih ⊢
    rw [List.flatMap_cons, ih h.2, if_neg (Ne.symm h.1)]
    rfl

/-- The tokens of a filled text: those before the literal, quoted ones, those of its contents
behind what closes, and others. -/
theorem tokenize_filled {pre closing text : GoString} {toks toks' : List Token} (post : GoString)
    (hclosing : Byte.quote ∉ closing) (htext : Byte.quote ∉ text)
    (hrun : (scanner true).run (tokenizerMode pre) (Byte.quote :: closing) = (toks, .code))
    (hrun' : (scanner true).run .code text = (toks', .code)) :
    ∃ more, tokenize (filled pre post (closing ++ text)) =
      emitted pre ++ (toks ++ (toks' ++ more)) := by
  have hnot : Byte.quote ∉ closing ++ text := by simp [hclosing, htext]
  have hsplit : filled pre post (closing ++ text) =
      pre ++ ((Byte.quote :: closing) ++ (text ++ Byte.quote :: post)) := by
    unfold filled
    rw [double_of_not_mem hnot]
    simp
  refine ⟨(scanner true).output .code (Byte.quote :: post), ?_⟩
  rw [tokenize_eq_output, hsplit, Transducer.output_append, Transducer.output_append]
  change emitted pre ++ (((scanner true).run (tokenizerMode pre) (Byte.quote :: closing)).1 ++
    (scanner true).output
      ((scanner true).run (tokenizerMode pre) (Byte.quote :: closing)).2 _) = _
  rw [hrun, Transducer.output_append, hrun']

theorem exists_limit (n : ℕ) : ∃ h : Heuristic, n ≤ h.limit := by
  refine ⟨⟨n + 1⟩, ?_⟩
  have hpos : ¬ ((n : ℤ) + 1 ≤ 0) := by omega
  simp only [Heuristic.limit, if_neg hpos]
  omega

/-- If the literals of a text are ignored, all fillings give the same. -/
theorem analyzeTokens_filled {pre post text : GoString} (h : LiteralsIgnored (filled pre post text))
    (hpre : (sqlMode pre).OpensLiteral) (hpost : post.head? ≠ some Byte.quote) (text' : GoString)
    (lower : GoString → GoString) (defaultCatalog defaultSchema : GoString) :
    analyzeTokens lower (tokenize (filled pre post text')) defaultCatalog defaultSchema =
      analyzeTokens lower (tokenize (filled pre post text)) defaultCatalog defaultSchema := by
  obtain ⟨heuristic, hlimit⟩ :=
    exists_limit ((filled pre post text).length + (filled pre post text').length)
  have hfit : (filled pre post text).length ≤ heuristic.limit := by omega
  have hfit' : (filled pre post text').length ≤ heuristic.limit := by omega
  have heq := h _ (sameButLiterals_filled hpre hpost text text') heuristic lower defaultCatalog
    defaultSchema hfit hfit'
  rw [Heuristic.analyze_of_le hfit, Heuristic.analyze_of_le hfit'] at heq
  exact heq.symm

theorem queryType_of_keyword {toks more : List Token} {kw : GoString}
    (h : ∀ t ∈ toks, t.quoted = true) (hkw : isStatementKeyword (upper kw))
    (lower : GoString → GoString) (defaultCatalog defaultSchema : GoString) :
    (analyzeTokens lower (toks ++ ⟨kw, false⟩ :: more) defaultCatalog defaultSchema).queryType =
      upper kw := by
  have hfirst : keywordAt (toks ++ ⟨kw, false⟩ :: more) = upper kw := keywordAt_of_quoted h _
  have hwith : upper kw ≠ str "WITH" := by
    intro heq
    rw [heq] at hkw
    exact absurd hkw (by decide)
  have htype : statementType (toks ++ ⟨kw, false⟩ :: more) = some (upper kw) := by
    unfold statementType
    simp only [hfirst, if_neg hwith, hkw, if_true]
    split
    · rename_i heq
      rw [heq]
    · rfl
  unfold analyzeTokens
  rw [htype, if_neg (by simp)]
  rfl

theorem mem_tables {toks : List Token} {x : GoString} (hx : x ≠ [])
    (htype : statementType toks ≠ none) (href : ⟨x, []⟩ ∈ extractTableRefs toks) :
    x ∈ (analyzeTokens id toks [] []).tables := by
  obtain ⟨queryType, htype⟩ := Option.ne_none_iff_exists'.mp htype
  have hne : toks ≠ [] := by
    rintro rfl
    cases href
  have hname : (⟨[], [], x⟩ : Name) ∈ qualifyAll id (extractTableRefs toks) [] [] := by
    refine List.mem_filter.mpr ⟨List.mem_map.mpr ⟨_, href, rfl⟩, ?_⟩
    exact decide_eq_true hx
  unfold analyzeTokens
  rw [if_neg hne, htype]
  refine mem_sortedSet.mpr ⟨List.mem_map.mpr ⟨_, hname, ?_⟩, hx⟩
  simp [joinName, join]

def paren : Token := ⟨str "(", false⟩

theorem run_word_paren {x : GoString} (hx : x ≠ []) (hident : ∀ c ∈ x, isIdentChar c) :
    (scanner true).run .code (x ++ str " ( ") = ([⟨x, false⟩, paren], .code) := by
  obtain ⟨c, x, rfl⟩ := List.exists_cons_of_ne_nil hx
  rw [List.forall_mem_cons] at hident
  have hword : (scanner true).run .code (c :: x) = ([], .word (c :: x)) := by
    rw [Transducer.run_cons, step_enter rfl rfl, enter_ident hident.1]
    simp only [run_word _ hident.2]
    rfl
  rw [Transducer.run_append, hword]
  rfl

/-- A token behind a dot or behind `AS` is taken unseen, but never two in a row. So the reference to
`x` is found, whatever comes before the two parentheses. -/
theorem mem_extractTableRefs_injected {pre more : List Token} {x : GoString}
    (hlower : x.map Byte.toLower = x) (hplain : upper x ∉ refStopKeywords)
    (honly : upper x ≠ str "ONLY") (hmark : x ≠ str "(" ∧ x ≠ str "," ∧ x ≠ str ")") :
    ⟨x, []⟩ ∈ extractTableRefs
      (pre ++ paren :: paren :: ⟨str "FROM", false⟩ :: ⟨x, false⟩ :: paren :: more) := by
  have hplace (p : Place) : placeAfter p [paren, paren, ⟨str "FROM", false⟩] = .expecting := by
    cases p <;> rfl
  refine mem_extractTableRefs_iff.mpr ⟨pre ++ [paren, paren, ⟨str "FROM", false⟩], ⟨x, false⟩,
    paren :: more, by simp, ?_, ?_⟩
  · rw [placeAfter_append, hplace]
    simp [Place.Takes, Token.isNone, Token.isWord, honly, hmark, hplain]
  · have hparts : readParts (paren :: more) = ([], paren :: more) :=
      readParts_of_not_dot (by decide) more
    simp [nameAt, hparts, partText, hlower]

/-- Behind quoted tokens a literal can supply the first word of the statement. -/
theorem queryType_filled {pre : GoString} (post : GoString)
    (hk : (tokenizerMode pre).isCode = false) (hquoted : ∀ t ∈ emitted pre, t.quoted = true)
    (kw : GoString) (hkw : isStatementKeyword (upper kw)) (hquote : Byte.quote ∉ kw ++ [Byte.space])
    (hrun' : (scanner true).run .code (kw ++ [Byte.space]) = ([⟨kw, false⟩], .code)) :
    ∃ text, (analyzeTokens id (tokenize (filled pre post text)) [] []).queryType = upper kw := by
  obtain ⟨closing, toks, hclosing, htoks, hrun⟩ := exists_closing hk
  obtain ⟨more, hmore⟩ := tokenize_filled post hclosing hquote hrun hrun'
  refine ⟨closing ++ (kw ++ [Byte.space]), ?_⟩
  rw [hmore, ← List.append_assoc]
  refine queryType_of_keyword ?_ hkw id [] []
  intro t ht
  rcases List.mem_append.mp ht with ht | ht
  · exact hquoted t ht
  · exact htoks t ht

def longWord (n : ℕ) : GoString := List.replicate (n + 1) 120

theorem upper_longWord (n : ℕ) : upper (longWord n) = List.replicate (n + 1) 88 :=
  List.map_replicate

theorem map_toLower_longWord (n : ℕ) : (longWord n).map Byte.toLower = longWord n :=
  List.map_replicate

theorem upper_longWord_not_mem (n : ℕ) {ws : List GoString}
    (h : ws.all fun w => w.head? ≠ some 88) : upper (longWord n) ∉ ws := by
  intro hmem
  have hhead := List.all_eq_true.mp h _ hmem
  rw [upper_longWord, List.replicate_succ] at hhead
  simp at hhead

theorem longWord_ne (n : ℕ) {w : GoString} (h : w.head? ≠ some 120) : longWord n ≠ w := by
  rintro rfl
  exact h rfl

/-- Behind the beginning of a statement a literal can supply a reference to any such word. -/
theorem isIdentChar_longWord (n : ℕ) : ∀ c ∈ longWord n, isIdentChar c := by
  intro c hc
  rw [List.eq_of_mem_replicate hc]
  rfl

theorem exists_unquoted {ts : List Token} (h : statementType ts ≠ none) :
    ∃ t ∈ ts, t.quoted = false := by
  by_contra hnone
  have hquoted : ∀ t ∈ ts, t.quoted = true := by
    intro t ht
    by_contra hq
    exact hnone ⟨t, ht, by simpa using hq⟩
  rw [Ne, statementType_eq_none_iff, keywordAt_eq_nil hquoted] at h
  exact h (by decide)

def injection (n : ℕ) : GoString :=
  str "( ( FROM " ++ (longWord n ++ str " ( ")

theorem run_injection (n : ℕ) : (scanner true).run .code (injection n) =
    ([paren, paren, ⟨str "FROM", false⟩, ⟨longWord n, false⟩, paren], .code) := by
  have hfrom : (scanner true).run .code (str "( ( FROM ") =
      ([paren, paren, ⟨str "FROM", false⟩], .code) := rfl
  unfold injection
  rw [Transducer.run_append, hfrom,
    run_word_paren (longWord_ne n (by decide)) (isIdentChar_longWord n)]
  rfl

theorem quote_not_mem_injection (n : ℕ) : Byte.quote ∉ injection n := by
  intro hmem
  rcases List.mem_append.mp hmem with hmem | hmem
  · exact absurd hmem (by decide)
  · rcases List.mem_append.mp hmem with hmem | hmem
    · exact absurd (isIdentChar_longWord n _ hmem) (by decide)
    · exact absurd hmem (by decide)

theorem longWord_mem_tables {pre : GoString} (post : GoString)
    (hk : (tokenizerMode pre).isCode = false) (htype : statementType (emitted pre) ≠ none)
    (n : ℕ) :
    ∃ text, longWord n ∈ (analyzeTokens id (tokenize (filled pre post text)) [] []).tables := by
  obtain ⟨closing, toks, hclosing, -, hrun⟩ := exists_closing hk
  obtain ⟨more, hmore⟩ :=
    tokenize_filled post hclosing (quote_not_mem_injection n) hrun (run_injection n)
  have honly : upper (longWord n) ≠ str "ONLY" := by
    intro heq
    have hnot : upper (longWord n) ∉ [str "ONLY"] := upper_longWord_not_mem n (by decide)
    exact hnot (List.mem_singleton.mpr heq)
  refine ⟨closing ++ injection n, mem_tables (longWord_ne n (by decide)) ?_ ?_⟩
  · rw [hmore, Ne, statementType_append (exists_unquoted htype)]
    exact htype
  · rw [hmore, ← List.append_assoc]
    exact mem_extractTableRefs_injected (map_toLower_longWord n)
      (upper_longWord_not_mem n (by decide)) honly
      ⟨longWord_ne n (by decide), longWord_ne n (by decide), longWord_ne n (by decide)⟩

/-- A body's literals are ignored, whatever they contain, exactly if it is harmless. -/
theorem literals_ignored_iff (sql : GoString) : LiteralsIgnored sql ↔ Harmless sql := by
  constructor
  · intro h pre text post hsql hpre hpost
    have hsql' : sql = filled pre post text := hsql
    subst hsql'
    by_contra hnot
    rw [not_or] at hnot
    have hk : (tokenizerMode pre).isCode = false := by simpa using hnot.1
    have hsame := fun text' => analyzeTokens_filled h hpre hpost text' id [] []
    by_cases htype : statementType (emitted pre) = none
    · have hquoted : ∀ t ∈ emitted pre, t.quoted = true := by
        intro t ht
        by_contra hq
        exact hnot.2 ⟨⟨t, ht, by simpa using hq⟩, htype⟩
      obtain ⟨text₁, h₁⟩ := queryType_filled post hk hquoted (str "SELECT") rfl (by decide) rfl
      obtain ⟨text₂, h₂⟩ := queryType_filled post hk hquoted (str "DELETE") rfl (by decide) rfl
      rw [hsame] at h₁ h₂
      exact absurd (h₁.symm.trans h₂) (by decide)
    · -- a word longer than all tables that are reported
      obtain ⟨text', hmem⟩ := longWord_mem_tables post hk htype
        (analyzeTokens id (tokenize (filled pre post text)) [] []).tables.flatten.length
      rw [hsame] at hmem
      have hlen := (List.sublist_flatten_of_mem hmem).length_le
      rw [longWord, List.length_replicate] at hlen
      omega
  · exact literalsIgnored_of_harmless

/-- A literal in an array constructor that closes the bracket, and then names a table. -/
theorem literal_in_array_leaks :
    SameButLiterals .code (filled (str "SELECT ARRAY[") (str "] FROM t") (str "a"))
        (filled (str "SELECT ARRAY[") (str "] FROM t") (str "] FROM secret ")) ∧
      ((Heuristic.mk 0).analyze id
        (filled (str "SELECT ARRAY[") (str "] FROM t") (str "a")) [] []).tables = [str "t"] ∧
      ((Heuristic.mk 0).analyze id
        (filled (str "SELECT ARRAY[") (str "] FROM t") (str "] FROM secret ")) [] []).tables =
          [str "secret"] := by
  refine ⟨sameButLiterals_filled ⟨rfl, rfl⟩ (by decide) _ _, ?_, ?_⟩ <;> decide +kernel

end TrinoGoway.SqlMeta
