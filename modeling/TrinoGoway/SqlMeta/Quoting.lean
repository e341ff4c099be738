import Mathlib.Algebra.GroupWithZero.Nat
import TrinoGoway.SqlMeta.Alike
import TrinoGoway.SqlMeta.Tables

/-! Whether the texts of double-quoted identifiers influence the analysis. Keywords are recognised
in unquoted tokens only, but marks are in all; and as the tokenizer takes square brackets for
quotes, it may end a token inside an identifier. -/
namespace TrinoGoway.SqlMeta

open Go List Sql

def Mode.OpensIdent (m : Mode) : Prop := m.isCode ∧ m.continues Byte.doubleQuote = false

instance (m : Mode) : Decidable m.OpensIdent := inferInstanceAs (Decidable (_ ∧ _))

structure Change where
  pre : GoString
  text : GoString
  text' : GoString

/-- `Requoted pre changes s s'`: behind the text `pre`, the bodies go on with `s` and `s'`, which
are equal except for the texts inside double-quoted identifiers. Where one begins, is decided by
SQL. -/
inductive Requoted : GoString → List Change → GoString → GoString → Prop
  | nil {pre : GoString} : Requoted pre [] [] []
  | byte {pre s s' : GoString} {changes : List Change} (c : UInt8)
      (h : Requoted (pre ++ [c]) changes s s') : Requoted pre changes (c :: s) (c :: s')
  | ident {pre s s' : GoString} {changes : List Change} (text text' : GoString)
      (hpre : (sqlMode pre).OpensIdent) (htext : text ≠ []) (htext' : text' ≠ [])
      (hs : s.head? ≠ some Byte.doubleQuote)
      (h : Requoted (pre ++ quotedIdent text) changes s s') :
      Requoted pre (⟨pre, text, text'⟩ :: changes) (quotedIdent text ++ s) (quotedIdent text' ++ s')

/-- The texts are equal except for changed identifiers inside. -/
inductive Varies (changes : List Change) : GoString → GoString → Prop
  | nil : Varies changes [] []
  | byte {s s' : GoString} (c : UInt8) (h : Varies changes s s') :
      Varies changes (c :: s) (c :: s')
  | ident {s s' : GoString} {x : Change} (hx : x ∈ changes) (h : Varies changes s s') :
      Varies changes (quotedIdent x.text ++ s) (quotedIdent x.text' ++ s')

/-- Parts of names that are equal except for changed identifiers: such a part is one, or it was
written in square brackets and has some inside. -/
def SamePart (changes : List Change) (part part' : GoString) : Prop :=
  (∃ x ∈ changes, part = x.text ∧ part' = x.text') ∨ Varies changes part part'

def refParts (sql : GoString) : List (List GoString) :=
  (extractTableRefs (tokenize sql)).map RawRef.parts

/-- The bodies are of the same type and have the same references, except for the parts that come
from the changed identifiers. -/
def TreatedAlike (changes : List Change) (sql sql' : GoString) : Prop :=
  (∀ (h : Heuristic) (lower : GoString → GoString) (defaultCatalog defaultSchema : GoString),
    sql.length ≤ h.limit → sql'.length ≤ h.limit →
      (h.analyze lower sql defaultCatalog defaultSchema).parseOK =
          (h.analyze lower sql' defaultCatalog defaultSchema).parseOK ∧
        (h.analyze lower sql defaultCatalog defaultSchema).queryType =
          (h.analyze lower sql' defaultCatalog defaultSchema).queryType ∧
        (h.analyze lower sql defaultCatalog defaultSchema).category =
          (h.analyze lower sql' defaultCatalog defaultSchema).category) ∧
    Forall₂ (Forall₂ (SamePart changes)) (refParts sql) (refParts sql')

/-- The identifier is a token of its own, and either text is overlooked behind what stands before
it; or it stands in square brackets, which neither text closes. -/
def Change.Unread (x : Change) : Prop :=
  (tokenizerMode x.pre).OpensIdent ∧
      Overlooked (tokenize x.pre) ⟨x.text, true⟩ ⟨x.text', true⟩ ∨
    (∃ inside, tokenizerMode x.pre = .bracket inside) ∧
      Byte.closeBracket ∉ x.text ∧ Byte.closeBracket ∉ x.text'

/-! ### The tokens of the two bodies -/

section Tokens

variable {changes : List Change} {P : GoString → GoString → Prop}

theorem Varies.refl (s : GoString) : Varies changes s s := by
  induction s with
  | nil => exact .nil
  | cons c s ih => exact .byte c ih

theorem Varies.append {s s' r r' : GoString} (hs : Varies changes s s')
    (hr : Varies changes r r') : Varies changes (s ++ r) (s' ++ r') := by
  induction hs with
  | nil => exact hr
  | byte c _ ih => exact .byte c ih
  | ident hx _ ih =>
    rw [append_assoc, append_assoc]
    exact .ident hx ih

theorem SamePart.refl (part : GoString) : SamePart changes part part := .inr (.refl part)

theorem Requoted.same {pre : GoString} (s : GoString) : Requoted pre [] s s := by
  induction s generalizing pre with
  | nil => exact .nil
  | cons c s ih => exact .byte c ih

theorem requoted_append {lead s s' : GoString} (pre : GoString)
    (h : Requoted (lead ++ pre) changes s s') : Requoted lead changes (pre ++ s) (pre ++ s') := by
  induction pre generalizing lead with
  | nil => simpa using h
  | cons c pre ih => exact .byte c (ih (by simpa using h))

theorem requoted_one (pre text text' post : GoString) (htext : text ≠ []) (htext' : text' ≠ [])
    (hpre : (sqlMode pre).OpensIdent) (hpost : post.head? ≠ some Byte.doubleQuote) :
    Requoted [] [⟨pre, text, text'⟩] (pre ++ (quotedIdent text ++ post))
      (pre ++ (quotedIdent text' ++ post)) :=
  requoted_append pre (.ident text text' hpre htext htext' hpost (.same post))

theorem TwoRuns.append_same (hP : ∀ part, P part part) {toks out out' : List Token}
    (both : List Token) (h : TwoRuns P (toks ++ both) out out') :
    TwoRuns P toks (both ++ out) (both ++ out') := by
  induction both generalizing toks with
  | nil => simpa using h
  | cons t both ih =>
    refine .cons ⟨.refl toks t, rfl, fun _ => rfl, hP _⟩ (ih ?_)
    simpa using h

theorem run_append_true (pre s : GoString) :
    emitted (pre ++ s) = emitted pre ++ ((scanner true).run (tokenizerMode pre) s).1 ∧
      tokenizerMode (pre ++ s) = ((scanner true).run (tokenizerMode pre) s).2 := by
  unfold emitted tokenizerMode
  rw [Transducer.run_append]
  exact ⟨rfl, rfl⟩

theorem run_ident {m : Mode} (hm : m.OpensIdent) (text : GoString) :
    (scanner true).run m (quotedIdent text) = (m.pending, .quotedEnd .double text) := by
  have hopen : ∀ brackets, (scanner brackets).run m (quotedIdent text) =
      (m.pending ++ ((scanner brackets).run .code (quotedIdent text)).1,
        ((scanner brackets).run .code (quotedIdent text)).2) :=
    fun _ => run_of_not_continues hm.1 hm.2 _
  rw [hopen, run_quotedIdent, append_nil]

theorem mem_quotedIdent {text : GoString} {c : UInt8} (h : c ∈ quotedIdent text) :
    c = Byte.doubleQuote ∨ c ∈ text := by
  have hdouble : c ∈ double Byte.doubleQuote text → c = Byte.doubleQuote ∨ c ∈ text := by
    intro hc
    simp only [double, mem_flatMap] at hc
    grind
  simp only [quotedIdent, mem_cons, mem_append, not_mem_nil, or_false] at h
  tauto

theorem run_inside (inside : GoString) {s : GoString} (h : Byte.closeBracket ∉ s) :
    (scanner true).run (.bracket inside) s = ([], .bracket (inside ++ s)) := by
  induction s generalizing inside with
  | nil => rw [Transducer.run_nil, append_nil]
  | cons c s ih =>
    rw [mem_cons, not_or] at h
    rw [Transducer.run_cons, step_inside rfl]
    simp only [advance, if_neg (Ne.symm h.1), ih _ h.2, append_assoc]
    rfl

theorem overlooked_of_length {text text' : GoString} (h : 2 ≤ text.length)
    (h' : 2 ≤ text'.length) (toks : List Token) : Overlooked toks ⟨text, true⟩ ⟨text', true⟩ := by
  have halike : Alike (fun _ _ => True) ⟨text, true⟩ ⟨text', true⟩ := by
    refine ⟨rfl, fun hq => Bool.noConfusion hq, fun d _ => iff_of_false ?_ ?_, trivial⟩
    · rintro rfl
      simp at h'
    · rintro rfl
      simp at h
  exact (halike.counterpart toks).toOverlooked

/-- The modes that the tokenizer is in before `s`, in the two bodies. -/
inductive Paired (changes : List Change) (toks : List Token) (s : GoString) : Mode → Mode → Prop
  | same (k : Mode) : Paired changes toks s k k
  | ident {x : Change} (hx : x ∈ changes)
      (hover : Overlooked toks ⟨x.text, true⟩ ⟨x.text', true⟩)
      (hs : s.head? ≠ some Byte.doubleQuote) :
      Paired changes toks s (.quotedEnd .double x.text) (.quotedEnd .double x.text')
  | bracket {inside inside' : GoString} (hvaries : Varies changes inside inside')
      (hlen : 2 ≤ inside.length) (hlen' : 2 ≤ inside'.length) :
      Paired changes toks s (.bracket inside) (.bracket inside')

section Paired

variable {toks : List Token} {s : GoString}

theorem Counterpart.of_overlooked {text text' : GoString}
    (h : Overlooked toks ⟨text, true⟩ ⟨text', true⟩) (hpart : P text text') :
    Counterpart P toks ⟨text, true⟩ ⟨text', true⟩ :=
  ⟨h, rfl, fun hq => Bool.noConfusion hq, hpart⟩

theorem Paired.finish {k k' : Mode} (h : Paired changes toks [] k k') :
    TwoRuns (SamePart changes) toks k.pending k'.pending := by
  cases h with
  | same k => simpa using TwoRuns.append_same SamePart.refl k.pending .nil
  | ident hx hover _ => exact .cons (.of_overlooked hover (.inl ⟨_, hx, rfl, rfl⟩)) .nil
  | bracket hvaries hlen hlen' =>
    exact .cons (.of_overlooked (overlooked_of_length hlen hlen' toks) (.inr hvaries)) .nil

theorem Paired.eq_of_opensIdent {k k' : Mode} {text : GoString}
    (h : Paired changes toks (quotedIdent text ++ s) k k') (hk : k.OpensIdent) : k' = k := by
  cases h with
  | same k => rfl
  | ident _ _ hs => exact absurd rfl hs
  | bracket => cases hk.1

/-- A byte that both bodies have leads from paired modes to paired ones. -/
theorem Paired.step {k k' : Mode} {c : UInt8} (h : Paired changes toks (c :: s) k k')
    {out out' : List Token}
    (hrest : Paired changes (toks ++ ((scanner true).step k c).1) s ((scanner true).step k c).2
        ((scanner true).step k' c).2 →
      TwoRuns (SamePart changes) (toks ++ ((scanner true).step k c).1) out out') :
    TwoRuns (SamePart changes) toks (((scanner true).step k c).1 ++ out)
      (((scanner true).step k' c).1 ++ out') := by
  cases h with
  | same k => exact .append_same .refl _ (hrest (.same _))
  | @ident x hx hover hs =>
    have hcont (text : GoString) : (Mode.quotedEnd .double text).continues c = false := by
      refine decide_eq_false ?_
      rintro rfl
      exact hs rfl
    rw [step_enter rfl (hcont _)] at hrest ⊢
    rw [step_enter rfl (hcont _)] at hrest ⊢
    refine .cons (.of_overlooked hover (.inl ⟨x, hx, rfl, rfl⟩)) (.append_same .refl _ ?_)
    simpa [Mode.pending] using hrest (.same _)
  | @bracket inside inside' hvaries hlen hlen' =>
    rw [step_inside rfl] at hrest ⊢
    rw [step_inside rfl] at hrest ⊢
    simp only [advance] at hrest ⊢
    by_cases hclose : c = Byte.closeBracket
    · simp only [if_pos hclose] at hrest ⊢
      refine .cons (.of_overlooked (overlooked_of_length hlen hlen' toks) (.inr hvaries)) ?_
      exact hrest (.same _)
    · simp only [if_neg hclose, append_nil, nil_append] at hrest ⊢
      have hlonger (t : GoString) (ht : 2 ≤ t.length) : 2 ≤ (t ++ [c]).length := by
        rw [length_append]
        omega
      exact hrest
        (.bracket (hvaries.append (.refl [c])) (hlonger _ hlen) (hlonger _ hlen'))

end Paired

/-- The tokenizer goes on with tokens that have the same part in the analysis. -/
theorem Requoted.twoRuns {all : List Change} {pre s s' : GoString}
    (h : Requoted pre changes s s') (hall : changes ⊆ all) (hunread : ∀ x ∈ changes, x.Unread)
    {k' : Mode} (hk : Paired all (emitted pre) s (tokenizerMode pre) k') :
    TwoRuns (SamePart all) (emitted pre) ((scanner true).output (tokenizerMode pre) s)
      ((scanner true).output k' s') := by
  induction h generalizing k' with
  | nil => exact hk.finish
  | @byte pre s s' changes c h ih =>
    rw [Transducer.output_cons, Transducer.output_cons]
    refine hk.step fun hnext => ?_
    obtain ⟨hemit, hmode⟩ := run_append_true pre [c]
    rw [Transducer.run_singleton] at hemit hmode
    rw [hemit, hmode] at ih
    exact ih hall hunread hnext
  | @ident pre s s' changes text text' hpre htext htext' hs h ih =>
    obtain ⟨hx, hall⟩ := cons_subset.mp hall
    rw [forall_mem_cons] at hunread
    obtain ⟨hemit, hmode⟩ := run_append_true pre (quotedIdent text)
    rw [Transducer.output_append, Transducer.output_append]
    rcases hunread.1 with ⟨hopens, hover⟩ | ⟨⟨inside, hinside⟩, hclose, hclose'⟩
    · -- the identifier is a token of its own, which is still held back
      dsimp only at hopens hover
      rw [(tokenize_append pre []).1] at hover
      rw [hk.eq_of_opensIdent hopens, run_ident hopens, run_ident hopens]
      rw [run_ident hopens] at hemit hmode
      rw [hemit, hmode] at ih
      exact .append_same .refl _ (ih hall hunread.2 (.ident hx hover hs))
    · -- both stand in brackets, which go on
      have hnot {t : GoString} (ht : Byte.closeBracket ∉ t) :
          Byte.closeBracket ∉ quotedIdent t := by
        intro hmem
        rcases mem_quotedIdent hmem with hquote | hmem
        · cases hquote
        · exact ht hmem
      obtain ⟨inside', hk', hvaries⟩ :
          ∃ inside', k' = .bracket inside' ∧ Varies all inside inside' := by
        rw [hinside] at hk
        cases hk with
        | same => exact ⟨inside, rfl, .refl inside⟩
        | bracket hvaries => exact ⟨_, rfl, hvaries⟩
      rw [hinside, run_inside inside (hnot hclose)] at hemit hmode
      rw [hemit, hmode, append_nil] at ih
      rw [hk', hinside, run_inside inside (hnot hclose), run_inside inside' (hnot hclose')]
      refine ih hall hunread.2 (.bracket (hvaries.append ?_) ?_ ?_)
      · simpa using Varies.ident hx .nil
      · simp [quotedIdent]
        omega
      · simp [quotedIdent]
        omega

end Tokens

/-! ### The type of a statement -/

theorem analyzeTokens_type {toks toks' : List Token} (hlen : toks.length = toks'.length)
    (htype : statementType toks' = statementType toks) (lower : GoString → GoString)
    (defaultCatalog defaultSchema : GoString) :
    (analyzeTokens lower toks defaultCatalog defaultSchema).parseOK =
        (analyzeTokens lower toks' defaultCatalog defaultSchema).parseOK ∧
      (analyzeTokens lower toks defaultCatalog defaultSchema).queryType =
        (analyzeTokens lower toks' defaultCatalog defaultSchema).queryType ∧
      (analyzeTokens lower toks defaultCatalog defaultSchema).category =
        (analyzeTokens lower toks' defaultCatalog defaultSchema).category := by
  have hnil : toks' = [] ↔ toks = [] := by
    rw [← length_eq_zero_iff, ← hlen, length_eq_zero_iff]
  unfold analyzeTokens
  simp only [htype, hnil]
  split
  · exact ⟨rfl, rfl, rfl⟩
  · split <;> exact ⟨rfl, rfl, rfl⟩

theorem Requoted.treatedAlike {changes : List Change} {sql sql' : GoString}
    (h : Requoted [] changes sql sql') (hunread : ∀ x ∈ changes, x.Unread) :
    TreatedAlike changes sql sql' := by
  have hruns : TwoRuns (SamePart changes) [] (tokenize sql) (tokenize sql') := by
    rw [tokenize_eq_output, tokenize_eq_output]
    exact h.twoRuns (fun _ => id) hunread (.same .code)
  constructor
  · intro g lower defaultCatalog defaultSchema hfit hfit'
    rw [Heuristic.analyze_of_le hfit, Heuristic.analyze_of_le hfit']
    exact analyzeTokens_type hruns.length_eq hruns.statementType_eq _ _ _
  · unfold refParts
    rw [forall₂_map_left_iff, forall₂_map_right_iff]
    exact hruns.extractTableRefs_parts

/-! ### Continuations that tell two texts apart -/

theorem tokenize_ident {pre post : GoString} (hpre : (tokenizerMode pre).OpensIdent)
    (hpost : post.head? ≠ some Byte.doubleQuote) (text : GoString) :
    tokenize (pre ++ (quotedIdent text ++ post)) =
      tokenize pre ++ ⟨text, true⟩ :: tokenize post := by
  have hclosed : ∀ c ∈ post.head?, (Mode.quotedEnd .double text).continues c = false := by
    intro c hc
    refine decide_eq_false ?_
    rintro rfl
    exact hpost hc
  rw [(tokenize_append pre _).2, (tokenize_append pre []).1, Transducer.output_append,
    run_ident hpre, output_of_not_continues rfl hclosed, tokenize_eq_output, append_assoc]
  rfl

section Counts

def Reading.isFirst : Reading → Bool
  | .first _ => true
  | .more _ => false

def SameCounts (rs rs' : List Reading) : Prop :=
  rs.length = rs'.length ∧ rs.countP Reading.isFirst = rs'.countP Reading.isFirst

instance (rs rs' : List Reading) : Decidable (SameCounts rs rs') :=
  inferInstanceAs (Decidable (_ ∧ _))

theorem counts_gather (rs : List Reading) :
    (gather rs).1.length + ((gather rs).2.map (·.parts.length)).sum = rs.length ∧
      (gather rs).2.length = rs.countP Reading.isFirst := by
  induction rs with
  | nil => exact ⟨rfl, rfl⟩
  | cons r rs ih =>
    cases r with
    | first part =>
      have hparts : (RawRef.mk part (gather rs).1).parts.length = (gather rs).1.length + 1 := rfl
      simp only [gather, hparts, Reading.isFirst, length_nil, map_cons, sum_cons, length_cons,
        countP_cons, if_true]
      omega
    | more part =>
      simp only [gather, Reading.isFirst, length_cons, countP_cons]
      simp only [Bool.false_eq_true, if_false]
      omega

theorem sameCounts_append {rs us us' : List Reading} :
    SameCounts (rs ++ us) (rs ++ us') ↔ SameCounts us us' := by
  simp only [SameCounts, length_append, countP_append, Nat.add_left_cancel_iff]

theorem sameCounts_of_refParts {P : GoString → GoString → Prop} {sql sql' : GoString}
    (h : Forall₂ (Forall₂ P) (refParts sql) (refParts sql')) :
    SameCounts (reader.output .apart (tokenize sql)) (reader.output .apart (tokenize sql')) := by
  have hfst (toks : List Token) : (gather (reader.output .apart toks)).1 = [] :=
    congrArg Prod.fst (readFrom_eq .apart toks)
  have hparts : (refParts sql).map length = (refParts sql').map length := by
    rw [← forall₂_eq_eq_eq, forall₂_map_left_iff, forall₂_map_right_iff]
    exact h.imp fun _ _ hparts => hparts.length_eq
  have hcounts := counts_gather (reader.output .apart (tokenize sql))
  have hcounts' := counts_gather (reader.output .apart (tokenize sql'))
  rw [hfst] at hcounts hcounts'
  simp only [refParts, extractTableRefs_eq, map_map] at hparts
  have hrefs := congrArg length hparts
  have hsum := congrArg sum hparts
  rw [length_map, length_map] at hrefs
  constructor
  · rw [← hcounts.1, ← hcounts'.1]
    exact congrArg _ hsum
  · rw [← hcounts.2, ← hcounts'.2]
    exact hrefs

def nextWords : List (List Token) :=
  [[], [⟨str "b", false⟩], [⟨str ",", false⟩, ⟨str "b", false⟩]]

theorem place_eq_of_sameCounts {p : Place} {text text' : GoString}
    (h : ∀ toks ∈ nextWords, SameCounts (reader.output p (⟨text, true⟩ :: toks))
      (reader.output p (⟨text', true⟩ :: toks))) :
    (p.step ⟨text', true⟩).2 = (p.step ⟨text, true⟩).2 := by
  simp only [reader_output_cons] at h
  -- where a table is expected, only a parenthesis is none
  have hbegin (text : GoString) : Place.begin ⟨text, true⟩ = ([], .apart) ∨
      Place.begin ⟨text, true⟩ = ([.first text], .named) := by
    unfold Place.begin
    split
    · exact .inl rfl
    · exact .inr rfl
  have hexpected (hp : ∀ text, p.step ⟨text, true⟩ = Place.begin ⟨text, true⟩) :
      (p.step ⟨text', true⟩).2 = (p.step ⟨text, true⟩).2 := by
    have hnone := (h [] mem_cons_self).1
    rw [hp, hp] at hnone ⊢
    rcases hbegin text with ht | ht <;> rcases hbegin text' with ht' | ht' <;>
      rw [ht, ht'] at hnone ⊢
    · cases hnone
    · cases hnone
  -- behind a name or an alias, nothing is read
  have hbehind (places : List Place)
      (hp : ∀ text, ∃ q ∈ places, p.step ⟨text, true⟩ = ([], q))
      (hdiffer : ∀ q ∈ places, ∀ q' ∈ places, (∀ toks ∈ nextWords,
        SameCounts (reader.output q toks) (reader.output q' toks)) → q' = q) :
      (p.step ⟨text', true⟩).2 = (p.step ⟨text, true⟩).2 := by
    obtain ⟨q, hq, hstep⟩ := hp text
    obtain ⟨q', hq', hstep'⟩ := hp text'
    rw [hstep, hstep'] at h ⊢
    exact hdiffer q hq q' hq' h
  cases p with
  | apart => rfl
  | dotted => rfl
  | renamed => rfl
  | listed => exact hexpected fun _ => rfl
  | expecting => exact hexpected fun _ => rfl
  | aliased =>
    refine hbehind [.listed, .apart] (fun text => ?_) (by decide +kernel)
    by_cases hcomma : text = str ","
    · exact ⟨.listed, by simp, by simp [Place.step, hcomma]⟩
    · refine ⟨.apart, by simp, ?_⟩
      simp [Place.step, hcomma, Place.pass, Token.isAnchor, Token.isWord]
  | named =>
    refine hbehind [.dotted, .listed, .apart, .aliased] (fun text => ?_) (by decide +kernel)
    simp only [Place.step, Place.pass, Token.isAnchor, Token.isWord, Bool.not_true, Bool.false_and,
      Bool.false_eq_true, if_false, or_false]
    split_ifs <;> simp

end Counts

section Depth

theorem mainAfterWith_of_not_keyword {t : Token} (h : isStatementKeyword (upper t.text) = false)
    (d : ℕ) (toks : List Token) :
    mainAfterWith d (t :: toks) = mainAfterWith (depthAt d t) toks := by
  rw [mainAfterWith_cons, if_neg (by simp [h])]

/-- Behind closing parentheses, an `INSERT` is found if they close all that are open. -/
theorem mainAfterWith_closing (d m : ℕ) :
    mainAfterWith d (replicate m ⟨str ")", false⟩ ++ [⟨str "INSERT", false⟩]) =
      if d ≤ m then some (str "INSERT") else none := by
  induction m generalizing d with
  | zero =>
    rw [replicate_zero, nil_append, mainAfterWith_cons]
    cases d with
    | zero => rfl
    | succ d => rfl
  | succ m ih =>
    rw [replicate_succ, cons_append, mainAfterWith_of_not_keyword (by decide)]
    change mainAfterWith (d - 1) _ = _
    rw [ih]
    exact if_congr (by omega) rfl rfl

def closingInsert (m : ℕ) : GoString :=
  str " WITH" ++ 44 :: (replicate m 41 ++ str " INSERT")

theorem tokenize_closingInsert (m : ℕ) :
    tokenize (closingInsert m) = ⟨str "WITH", false⟩ :: ⟨str ",", false⟩ ::
      (replicate m ⟨str ")", false⟩ ++ [⟨str "INSERT", false⟩]) := by
  have hclosing : tokenize (replicate m 41 ++ str " INSERT") =
      replicate m ⟨str ")", false⟩ ++ [⟨str "INSERT", false⟩] := by
    induction m with
    | zero => decide
    | succ m ih =>
      have hmark := tokenize_mark (s := []) rfl (c := 41) rfl (replicate m 41 ++ str " INSERT")
      rw [replicate_succ, replicate_succ, cons_append, cons_append, ← ih]
      exact hmark
  have hmark := tokenize_mark (s := str " WITH") (by decide) (c := 44) rfl
    (replicate m 41 ++ str " INSERT")
  rw [closingInsert, hmark, hclosing]
  rfl

theorem statementType_closingInsert {toks : List Token} (hne : toks ≠ [])
    (hfirst : (∀ u ∈ toks, u.quoted = true) ∨ keywordAt toks = str "WITH")
    (hnone : NoneOutside 0 toks.tail) (text : GoString) (m : ℕ) :
    statementType (toks ++ ⟨text, true⟩ :: tokenize (closingInsert m)) =
      some (if depthAt (depthAfter 0 toks.tail) ⟨text, true⟩ ≤ m then str "INSERT"
        else str "SELECT") := by
  have hword : keywordAt (toks ++ ⟨text, true⟩ :: tokenize (closingInsert m)) = str "WITH" := by
    rcases hfirst with hall | hwith
    · rw [keywordAt_of_quoted hall, tokenize_closingInsert]
      rfl
    · have hword : ∃ u ∈ toks, u.quoted = false := by
        by_contra hall
        rw [keywordAt_eq_nil (by simpa using hall)] at hwith
        cases hwith
      rw [keywordAt_append hword, hwith]
  have hmain : mainAfterWith 0 (toks ++ ⟨text, true⟩ :: tokenize (closingInsert m)).tail =
      if depthAt (depthAfter 0 toks.tail) ⟨text, true⟩ ≤ m then some (str "INSERT") else none := by
    rw [tail_append_of_ne_nil hne, mainAfterWith_append, mainAfterWith_eq_none_iff.mpr hnone,
      Option.none_or, mainAfterWith_cons, if_neg (by simp), tokenize_closingInsert,
      mainAfterWith_of_not_keyword (by decide), mainAfterWith_of_not_keyword (by decide)]
    exact mainAfterWith_closing _ m
  rw [statementType, hword, hmain, if_neg (by decide), if_pos rfl]
  split <;> rfl

end Depth

theorem TreatedAlike.statementType_eq {changes : List Change} {sql sql' : GoString}
    (h : TreatedAlike changes sql sql') {kw kw' : GoString}
    (hkw : statementType (tokenize sql) = some kw)
    (hkw' : statementType (tokenize sql') = some kw') : kw = kw' := by
  obtain ⟨g, hg⟩ := exists_limit (sql.length + sql'.length)
  have htype {sql kw : GoString} (hkw : statementType (tokenize sql) = some kw) :
      (analyzeTokens id (tokenize sql) [] []).queryType = kw := by
    have hne : tokenize sql ≠ [] := by
      intro hnil
      rw [hnil] at hkw
      cases hkw
    rw [analyzeTokens, if_neg hne, hkw]
    rfl
  have hsame := (h.1 g id [] [] (by omega) (by omega)).2.1
  rwa [Heuristic.analyze_of_le (by omega), Heuristic.analyze_of_le (by omega), htype hkw,
    htype hkw'] at hsame

/-- Texts that make no difference, whatever follows, are overlooked. -/
theorem overlooked_of_treatedAlike {changes : List Change} {pre text text' : GoString}
    (hpre : (tokenizerMode pre).OpensIdent)
    (h : ∀ post : GoString, post.head? ≠ some Byte.doubleQuote →
      TreatedAlike changes (pre ++ (quotedIdent text ++ post))
        (pre ++ (quotedIdent text' ++ post))) :
    Overlooked (tokenize pre) ⟨text, true⟩ ⟨text', true⟩ := by
  constructor
  · refine place_eq_of_sameCounts fun toks htoks => ?_
    obtain ⟨post, hpost, hnext⟩ : ∃ post : GoString,
        post.head? ≠ some Byte.doubleQuote ∧ tokenize post = toks := by
      simp only [nextWords, mem_cons, not_mem_nil, or_false] at htoks
      rcases htoks with rfl | rfl | rfl
      · exact ⟨[], by decide, rfl⟩
      · exact ⟨str " b", by decide, by decide⟩
      · exact ⟨str ", b", by decide, by decide⟩
    have hcounts := sameCounts_of_refParts (h post hpost).2
    rw [tokenize_ident hpre hpost, tokenize_ident hpre hpost, Transducer.output_append,
      Transducer.output_append, sameCounts_append, hnext] at hcounts
    exact hcounts
  · intro hne hfirst hnone
    by_contra hdiffer
    let m := min (depthAt (depthAfter 0 (tokenize pre).tail) ⟨text, true⟩)
      (depthAt (depthAfter 0 (tokenize pre).tail) ⟨text', true⟩)
    have hpost : (closingInsert m).head? ≠ some Byte.doubleQuote := by
      change some 32 ≠ _
      decide
    have htype (text : GoString) := statementType_closingInsert hne hfirst hnone text m
    simp only [← tokenize_ident hpre hpost] at htype
    have hsame := (h _ hpost).statementType_eq (htype text) (htype text')
    have hwords : str "INSERT" ≠ str "SELECT" := by decide
    split_ifs at hsame <;> first | exact hwords hsame | exact hwords hsame.symm | omega

/-- **Quoted identifiers.** Bodies that differ in the texts of double-quoted identifiers are treated
alike if each changed identifier is overlooked or stands in square brackets that go on behind it.
Where the identifier is a token of its own, there is no weaker condition on what stands before
it. -/
theorem quoted_as_data (changes : List Change) (sql sql' : GoString) :
    (Requoted [] changes sql sql' → (∀ x ∈ changes, x.Unread) → TreatedAlike changes sql sql') ∧
    ∀ pre text text' : GoString, text ≠ [] → text' ≠ [] → (sqlMode pre).OpensIdent →
      (tokenizerMode pre).OpensIdent →
        (Overlooked (tokenize pre) ⟨text, true⟩ ⟨text', true⟩ ↔
          ∀ post : GoString, post.head? ≠ some Byte.doubleQuote →
            TreatedAlike [⟨pre, text, text'⟩] (pre ++ (quotedIdent text ++ post))
              (pre ++ (quotedIdent text' ++ post))) := by
  refine ⟨fun h => h.treatedAlike, ?_⟩
  intro pre text text' htext htext' hsql hpre
  refine ⟨fun hover post hpost => ?_, overlooked_of_treatedAlike hpre⟩
  refine (requoted_one pre text text' post htext htext' hsql hpost).treatedAlike ?_
  rw [forall_mem_singleton]
  exact .inl ⟨hpre, hover⟩

/-- An alias that looks like a dot joins the words around it to one name, one that looks like a
parenthesis hides the statement behind a list of named queries, and a subscript that closes the
brackets for the tokenizer has its own tables. -/
theorem quoted_mark_is_read :
    Requoted [] [⟨str "SELECT 1 FROM a ", str "x", str "."⟩] (str "SELECT 1 FROM a \"x\" b")
        (str "SELECT 1 FROM a \".\" b") ∧
      refParts (str "SELECT 1 FROM a \"x\" b") = [[str "a"]] ∧
      refParts (str "SELECT 1 FROM a \".\" b") = [[str "a", str "b"]] ∧
    Requoted [] [⟨str "WITH t AS (SELECT 1 AS ", str "x", str "("⟩]
        (str "WITH t AS (SELECT 1 AS \"x\") DELETE FROM u")
        (str "WITH t AS (SELECT 1 AS \"(\") DELETE FROM u") ∧
      ((Heuristic.mk 0).analyze id (str "WITH t AS (SELECT 1 AS \"x\") DELETE FROM u") []
        []).category = .write ∧
      ((Heuristic.mk 0).analyze id (str "WITH t AS (SELECT 1 AS \"(\") DELETE FROM u") []
        []).category = .read ∧
    Requoted [] [⟨str "SELECT m[", str "x", str "] FROM secret "⟩] (str "SELECT m[\"x\"] FROM t")
        (str "SELECT m[\"] FROM secret \"] FROM t") ∧
      refParts (str "SELECT m[\"x\"] FROM t") = [[str "t"]] ∧
      refParts (str "SELECT m[\"] FROM secret \"] FROM t") = [[str "secret"]] := by
  refine ⟨?_, by decide, by decide, ?_, by decide +kernel, by decide +kernel, ?_, by decide +kernel,
    by decide +kernel⟩
  · exact requoted_one (str "SELECT 1 FROM a ") (str "x") (str ".") (str " b") (by decide)
      (by decide) (by decide) (by decide)
  · exact requoted_one (str "WITH t AS (SELECT 1 AS ") (str "x") (str "(") (str ") DELETE FROM u")
      (by decide) (by decide) (by decide) (by decide)
  · exact requoted_one (str "SELECT m[") (str "x") (str "] FROM secret ") (str "] FROM t")
      (by decide)
      (by decide) (by decide) (by decide)

end TrinoGoway.SqlMeta
