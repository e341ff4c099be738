import TrinoGoway.SqlMeta.Extraction
import TrinoGoway.SqlMeta.IndexedTokens

/-! The loops of `extractTableRefs` by index, for every list of tokens, and what the scanner as a
whole makes of its input: it moves on with every turn and stays inside. -/
namespace TrinoGoway.SqlMeta.Indexed

open Go
open Loop (Fault Turn At)

structure CaseMapping where
  toUpper : GoString → GoString
  toLower : GoString → GoString

/-- The mapping of ASCII texts; the unquoted tokens of the tokenizer are such. -/
def ascii : CaseMapping := ⟨upper, List.map Byte.toLower⟩

section Extractor

variable (F : CaseMapping) (toks : List Token)

def partText (t : Token) : GoString := if t.quoted then t.text else F.toLower t.text

/-- `i < n && toks[i].text == text` -/
def textIs (i : ℕ) (text : GoString) : Except Fault Bool :=
  if i < toks.length then do
    let t ← Loop.get toks i
    return t.text = text
  else return false

def onlyTurn (i : ℕ) : Except Fault (Turn ℕ) :=
  if i < toks.length then do
    let t ← Loop.get toks i
    return if ¬t.quoted ∧ F.toUpper t.text = str "ONLY" then .again (i + 1) else .leave i
  else return .leave i

def partsTurn (s : List GoString × ℕ) : Except Fault (Turn (List GoString × ℕ)) :=
  if s.2 + 1 < toks.length then do
    let dot ← Loop.get toks s.2
    if dot.text = str "." then
      let next ← Loop.get toks (s.2 + 1)
      return .again (s.1 ++ [partText F next], s.2 + 2)
    else return .leave s
  else return .leave s

def EndsRefs (t : Token) : Prop :=
  ¬t.quoted ∧ (t.text = str "(" ∨ t.text = str "," ∨ t.text = str ")" ∨
    F.toUpper t.text ∈ refStopKeywords)

instance (t : Token) : Decidable (EndsRefs F t) := by
  unfold EndsRefs
  infer_instance

def readRef (idx : ℕ) : Except Fault (Option (RawRef × ℕ)) :=
  if idx ≥ toks.length then return none
  else do
    let first ← Loop.get toks idx
    if EndsRefs F first then return none
    else
      let (parts, i) ← Loop.run (partsTurn F toks) (toks.length + 1) ([], idx + 1)
      return some (⟨partText F first, parts⟩, i)

def skipAlias (i : ℕ) : Except Fault ℕ :=
  if i ≥ toks.length then return i
  else do
    let t ← Loop.get toks i
    if ¬t.quoted ∧ F.toUpper t.text = str "AS" then
      return if i + 1 < toks.length then i + 2 else i + 1
    else if t.text = str "," ∨ t.text = str "(" ∨ t.text = str ")" ∨ t.text = str "." then return i
    else if ¬t.quoted ∧ (F.toUpper t.text ∈ refStopKeywords ∨ F.toUpper t.text ∈ tableKeywords) then
      return i
    else return i + 1

structure Extract where
  pos : ℕ
  refs : List RawRef

def listTurn (s : Extract) : Except Fault (Turn Extract) :=
  if s.pos < toks.length then do
    match ← readRef F toks s.pos with
    | none => return .leave s
    | some (ref, next) =>
      let i ← skipAlias F toks next
      let comma ← textIs toks i (str ",")
      if comma then
        let subquery ← textIs toks (i + 1) (str "(")
        return if subquery then .leave ⟨i + 1, s.refs ++ [ref]⟩ else .again ⟨i + 1, s.refs ++ [ref]⟩
      else return .leave ⟨i, s.refs ++ [ref]⟩
  else return .leave s

def extractTurn (s : Extract) : Except Fault (Turn Extract) :=
  if s.pos < toks.length then do
    let t ← Loop.get toks s.pos
    if t.quoted ∨ F.toUpper t.text ∉ tableKeywords then return .again { s with pos := s.pos + 1 }
    else
      let i ← Loop.run (onlyTurn F toks) (toks.length + 1) (s.pos + 1)
      let subquery ← textIs toks i (str "(")
      if subquery then return .again { s with pos := i }
      else
        let s' ← Loop.run (listTurn F toks) (toks.length + 1) { s with pos := i }
        return .again s'
  else return .leave s

def extractTableRefs : Except Fault (List RawRef) := do
  let s ← Loop.run (extractTurn F toks) (toks.length + 1) ⟨0, []⟩
  return s.refs

end Extractor

section ExtractorSpec

variable {F : CaseMapping} {toks rest : List Token} {i : ℕ}

theorem partText_ascii (t : Token) : partText ascii t = SqlMeta.partText t := rfl

theorem textIs_eq (h : At toks i rest) (text : GoString) :
    textIs toks i text = .ok (nextIs text rest) := by
  cases rest with
  | nil =>
    have hend := h.eq_length
    rw [textIs, if_neg (by omega)]
    rfl
  | cons t rest =>
    rw [textIs, if_pos h.lt, h.get_eq]
    rfl

theorem run_onlyTurn (h : At toks i rest) :
    ∃ j r, Loop.run (onlyTurn F toks) (toks.length + 1) i = .ok j ∧ At toks j r ∧ r <:+ rest ∧
      (F = ascii → r = skipOnly rest) := by
  let isOnly : Token → Bool := fun t => ¬t.quoted ∧ F.toUpper t.text = str "ONLY"
  have hloop : ∃ j, Loop.run (onlyTurn F toks) (toks.length + 1) i = .ok j ∧
      At toks j (rest.dropWhile isOnly) := by
    refine Loop.total_at (List.dropWhile isOnly) (fun k r hr => ?_) h
    cases r with
    | nil =>
      have hend := hr.eq_length
      rw [onlyTurn, if_neg (by omega)]
      exact .inr ⟨k, rfl, hr⟩
    | cons t r =>
      rw [onlyTurn, if_pos hr.lt, hr.get_eq, Loop.ok_bind]
      by_cases honly : ¬t.quoted ∧ F.toUpper t.text = str "ONLY"
      · have hpass : isOnly t = true := decide_eq_true honly
        rw [if_pos honly]
        refine .inl ⟨k + 1, r, rfl, hr.next, by simp, ?_⟩
        rw [List.dropWhile_cons_of_pos hpass]
      · have hstop : ¬isOnly t = true := fun h => honly (of_decide_eq_true h)
        rw [if_neg honly]
        refine .inr ⟨k, rfl, ?_⟩
        rw [List.dropWhile_cons_of_neg hstop]
        exact hr
  obtain ⟨j, hrun, hj⟩ := hloop
  refine ⟨j, _, hrun, hj, List.dropWhile_suffix _, ?_⟩
  rintro rfl
  rfl

theorem run_partsTurn (h : At toks i rest) :
    ∃ parts j r, Loop.run (partsTurn F toks) (toks.length + 1) ([], i) = .ok (parts, j) ∧
      At toks j r ∧ r <:+ rest ∧ (F = ascii → readParts rest = (parts, r)) := by
  obtain ⟨⟨parts, j⟩, hrun, r, hj, hsuffix, hread⟩ : ∃ t : List GoString × ℕ,
      Loop.run (partsTurn F toks) (toks.length + 1) ([], i) = .ok t ∧
      ∃ r, At toks t.2 r ∧ r <:+ rest ∧ (F = ascii → readParts rest = (t.1, r)) := by
    refine Loop.total
      (fun t => ∃ r, At toks t.2 r ∧ r <:+ rest ∧
        (F = ascii → readParts rest = (t.1 ++ (readParts r).1, (readParts r).2)))
      _ (fun t => toks.length - t.2) ?_ ⟨rest, h, List.suffix_refl _, fun _ => rfl⟩ (by omega)
    rintro ⟨parts, k⟩ ⟨r, hr, hsuffix, hread⟩
    dsimp only at hr hread ⊢
    have hlen := hr.length
    match r, hr with
    | [], hr =>
      refine .inr ⟨(parts, k), ?_, [], hr, hsuffix, by simpa [readParts] using hread⟩
      rw [partsTurn, if_neg (by simp at hlen ⊢; omega)]
      rfl
    | [t], hr =>
      refine .inr ⟨(parts, k), ?_, [t], hr, hsuffix, by simpa [readParts] using hread⟩
      rw [partsTurn, if_neg (by simp at hlen ⊢; omega)]
      rfl
    | dot :: next :: r, hr =>
      have hlt := hr.next.lt
      rw [partsTurn, if_pos hlt, hr.get_eq, hr.next.get_eq, Loop.ok_bind, Loop.ok_bind]
      by_cases hdot : dot.text = str "."
      · refine .inl ⟨(parts ++ [partText F next], k + 2), by simp [hdot],
          ⟨r, hr.next.next, ?_, ?_⟩, by dsimp only; omega⟩
        · exact ((List.suffix_cons next r).trans (List.suffix_cons dot _)).trans hsuffix
        · rintro rfl
          simpa [readParts, hdot, partText_ascii] using hread rfl
      · refine .inr ⟨(parts, k), by simp [hdot], dot :: next :: r, hr, hsuffix, ?_⟩
        simpa [readParts, hdot] using hread
  exact ⟨parts, j, r, hrun, hj, hsuffix, hread⟩

/-- `readRef` reads within the tokens; a reference takes one or more of them. -/
theorem readRef_cases (h : At toks i rest) :
    (readRef F toks i = .ok none ∧ (F = ascii → SqlMeta.readRef rest = none)) ∨
      ∃ ref j r, readRef F toks i = .ok (some (ref, j)) ∧ At toks j r ∧ r.length < rest.length ∧
        (F = ascii → SqlMeta.readRef rest = some (ref, r)) := by
  cases rest with
  | nil =>
    have hend := h.eq_length
    refine .inl ⟨?_, fun _ => rfl⟩
    rw [readRef, if_pos (by omega)]
    rfl
  | cons first rest =>
    have hlt := h.lt
    rw [readRef, if_neg (by omega), h.get_eq, Loop.ok_bind]
    by_cases hends : EndsRefs F first
    · refine .inl ⟨by simp [hends], ?_⟩
      rintro rfl
      exact if_pos hends
    · obtain ⟨parts, j, r, hrun, hj, hsuffix, hread⟩ := run_partsTurn (F := F) h.next
      refine .inr ⟨⟨partText F first, parts⟩, j, r, by simp [hends, hrun], hj, ?_, ?_⟩
      · have hlen := hsuffix.length_le
        rw [List.length_cons]
        omega
      · rintro rfl
        have hrest : SqlMeta.readRef (first :: rest) = _ := if_neg hends
        rw [hrest, hread rfl]
        rfl

theorem skipAlias_eq (h : At toks i rest) :
    ∃ j r, skipAlias F toks i = .ok j ∧ At toks j r ∧ r <:+ rest ∧
      (F = ascii → r = SqlMeta.skipAlias rest) := by
  cases rest with
  | nil =>
    have hend := h.eq_length
    refine ⟨i, [], ?_, h, List.suffix_refl _, fun _ => rfl⟩
    rw [skipAlias, if_pos (by omega)]
    rfl
  | cons t rest =>
    have hlt := h.lt
    rw [skipAlias, if_neg (by omega), h.get_eq, Loop.ok_bind]
    by_cases has : ¬t.quoted ∧ F.toUpper t.text = str "AS"
    · rw [if_pos has]
      have hlen := h.next.length
      cases rest with
      | nil =>
        refine ⟨i + 1, [], ?_, h.next, List.nil_suffix, ?_⟩
        · rw [if_neg (by simp at hlen; omega)]
          rfl
        · rintro rfl
          exact (if_pos has).symm
      | cons name rest =>
        refine ⟨i + 2, rest, ?_, h.next.next, ?_, ?_⟩
        · rw [if_pos h.next.lt]
          rfl
        · exact (List.suffix_cons name rest).trans (List.suffix_cons t _)
        · rintro rfl
          exact (if_pos has).symm
    rw [if_neg has]
    by_cases hmark : t.text = str "," ∨ t.text = str "(" ∨ t.text = str ")" ∨ t.text = str "."
    · refine ⟨i, t :: rest, by simp [hmark], h, List.suffix_refl _, ?_⟩
      rintro rfl
      exact ((if_neg has).trans (if_pos hmark)).symm
    rw [if_neg hmark]
    by_cases hword : ¬t.quoted ∧
        (F.toUpper t.text ∈ refStopKeywords ∨ F.toUpper t.text ∈ tableKeywords)
    · refine ⟨i, t :: rest, by simp [hword], h, List.suffix_refl _, ?_⟩
      rintro rfl
      exact ((if_neg has).trans ((if_neg hmark).trans (if_pos hword))).symm
    · refine ⟨i + 1, rest, ?_, h.next, List.suffix_cons t rest, ?_⟩
      · rw [if_neg hword]
        rfl
      · rintro rfl
        exact ((if_neg has).trans ((if_neg hmark).trans (if_neg hword))).symm

/-- One turn of the loop over a list of references: a reference is added and the loop goes on behind
a comma, or the list is over. -/
theorem listTurn_cases (h : At toks i rest) (refs : List RawRef) :
    (∃ ref j r, listTurn F toks ⟨i, refs⟩ = .ok (.again ⟨j, refs ++ [ref]⟩) ∧ At toks j r ∧
      r.length < rest.length ∧
      (F = ascii → refsAt rest = (ref :: (refsAt r).1, (refsAt r).2))) ∨
    ∃ added j r, listTurn F toks ⟨i, refs⟩ = .ok (.leave ⟨j, refs ++ added⟩) ∧ At toks j r ∧
      r.length + added.length ≤ rest.length ∧ (F = ascii → refsAt rest = (added, r)) := by
  have hstop : ∀ {t : Except Fault (Turn Extract)}, t = .ok (.leave ⟨i, refs⟩) →
      (F = ascii → SqlMeta.readRef rest = none) →
      ∃ added j r, t = .ok (.leave ⟨j, refs ++ added⟩) ∧ At toks j r ∧
        r.length + added.length ≤ rest.length ∧ (F = ascii → refsAt rest = (added, r)) := by
    rintro t rfl hread
    refine ⟨[], i, rest, by rw [List.append_nil], h, Nat.le_refl _, fun hF => ?_⟩
    exact refsAt_of_none (hread hF)
  by_cases hlt : i < toks.length
  · rw [listTurn, if_pos hlt]
    rcases readRef_cases (F := F) h with ⟨hnone, hread⟩ | ⟨ref, j, r, hsome, hj, hless, hread⟩
    · rw [hnone]
      exact .inr (hstop rfl hread)
    · rw [hsome]
      obtain ⟨k, r', halias, hk, hsuffix, hskip⟩ := skipAlias_eq (F := F) hj
      have hle := hsuffix.length_le
      simp only [Loop.ok_bind, halias, textIs_eq hk]
      cases r' with
      | nil =>
        refine .inr ⟨[ref], k, [], rfl, hk, by simp; omega, fun hF => ?_⟩
        rw [refsAt_of_some (hread hF), ← hskip hF]
        rfl
      | cons t r' =>
        rw [List.length_cons] at hle
        simp only [textIs_eq hk.next]
        cases hcomma : nextIs (str ",") (t :: r') with
        | false =>
          refine .inr ⟨[ref], k, t :: r', rfl, hk, by simp; omega, fun hF => ?_⟩
          rw [refsAt_of_some (hread hF), ← hskip hF, hcomma]
          rfl
        | true =>
          cases hsub : nextIs (str "(") r' with
          | false =>
            refine .inl ⟨ref, k + 1, r', rfl, hk.next, by omega, fun hF => ?_⟩
            rw [refsAt_of_some (hread hF), ← hskip hF, hcomma, List.tail_cons, hsub]
            rfl
          | true =>
            refine .inr ⟨[ref], k + 1, r', rfl, hk.next, by simp; omega, fun hF => ?_⟩
            rw [refsAt_of_some (hread hF), ← hskip hF, hcomma, List.tail_cons, hsub]
            rfl
  · have hnil : rest = [] := by
      have hlen := h.length
      exact List.length_eq_zero_iff.mp (by omega)
    subst hnil
    rw [listTurn, if_neg hlt]
    exact .inr (hstop rfl fun _ => rfl)

theorem run_listTurn (h : At toks i rest) (refs : List RawRef) :
    ∃ added j r, Loop.run (listTurn F toks) (toks.length + 1) ⟨i, refs⟩ =
        .ok ⟨j, refs ++ added⟩ ∧ At toks j r ∧ r.length + added.length ≤ rest.length ∧
      (F = ascii → refsAt rest = (added, r)) := by
  obtain ⟨t, hrun, added, r, htext, ht, hlen, hrefs⟩ : ∃ t : Extract,
      Loop.run (listTurn F toks) (toks.length + 1) ⟨i, refs⟩ = .ok t ∧
      ∃ added r, t.refs = refs ++ added ∧ At toks t.pos r ∧
        r.length + added.length ≤ rest.length ∧ (F = ascii → refsAt rest = (added, r)) := by
    refine Loop.total
      (fun t => ∃ added r, t.refs = refs ++ added ∧ At toks t.pos r ∧
        r.length + added.length ≤ rest.length ∧
        (F = ascii → refsAt rest = (added ++ (refsAt r).1, (refsAt r).2)))
      _ (fun t => toks.length - t.pos) ?_
      ⟨[], rest, by simp, h, Nat.le_refl _, fun _ => rfl⟩ (by omega)
    rintro ⟨k, _⟩ ⟨added, r, rfl, hr, hle, hrefs⟩
    dsimp only at hr ⊢
    have hk := hr.length
    rcases listTurn_cases (F := F) hr (refs ++ added) with
      ⟨ref, j, r', hturn, hj, hless, hmore⟩ | ⟨last, j, r', hturn, hj, hless, hmore⟩
    · have hj' := hj.length
      refine .inl ⟨_, hturn, ⟨added ++ [ref], r', by simp, hj, by simp; omega, fun hF => ?_⟩, by
        dsimp only
        omega⟩
      rw [hrefs hF, hmore hF]
      simp
    · refine .inr ⟨_, hturn, added ++ last, r', by simp, hj, by simp; omega, fun hF => ?_⟩
      rw [hrefs hF, hmore hF]
  obtain ⟨j, _⟩ := t
  subst htext
  exact ⟨added, j, r, hrun, ht, hlen, hrefs⟩

/-- One turn of the main loop: the position moves on, and no more references are added than tokens
are passed. -/
theorem extractTurn_eq {t : Token} (h : At toks i (t :: rest)) (refs : List RawRef) :
    ∃ added j r, extractTurn F toks ⟨i, refs⟩ = .ok (.again ⟨j, refs ++ added⟩) ∧ At toks j r ∧
      r.length + added.length ≤ rest.length ∧
      (F = ascii →
        SqlMeta.extractTableRefs (t :: rest) = added ++ SqlMeta.extractTableRefs r) := by
  rw [extractTurn, if_pos h.lt, h.get_eq, Loop.ok_bind]
  by_cases hother : t.quoted ∨ F.toUpper t.text ∉ tableKeywords
  · refine ⟨[], i + 1, rest, by simp [hother], h.next, Nat.le_refl _, ?_⟩
    rintro rfl
    exact extractTableRefs_of_not_anchor hother rest
  rw [if_neg hother]
  obtain ⟨hquoted, hanchor⟩ := not_or.mp hother
  obtain ⟨k, r, honly, hk, hsuffix, hskip⟩ := run_onlyTurn (F := F) h.next
  have hle := hsuffix.length_le
  simp only [honly, Loop.ok_bind, textIs_eq hk]
  cases hsub : nextIs (str "(") r with
  | true =>
    refine ⟨[], k, r, by simp, hk, by simpa using hle, ?_⟩
    rintro rfl
    rw [extractTableRefs_of_anchor (by simpa using hquoted) (not_not.mp hanchor), ← hskip rfl,
      if_pos hsub, List.nil_append]
  | false =>
    obtain ⟨added, j, r', hrun, hj, hless, hrefs⟩ := run_listTurn (F := F) hk refs
    refine ⟨added, j, r', by simp [hrun], hj, by omega, ?_⟩
    rintro rfl
    rw [extractTableRefs_of_anchor (by simpa using hquoted) (not_not.mp hanchor), ← hskip rfl,
      if_neg (by simp [hsub]), hrefs rfl]

/-- The indexed extractor ends, for every list of tokens and every mapping of case. -/
theorem extractTableRefs_spec (F : CaseMapping) (toks : List Token) :
    ∃ refs, extractTableRefs F toks = .ok refs ∧ refs.length ≤ toks.length ∧
      (F = ascii → refs = SqlMeta.extractTableRefs toks) := by
  obtain ⟨t, hrun, hlen, hrefs⟩ : ∃ t : Extract,
      Loop.run (extractTurn F toks) (toks.length + 1) ⟨0, []⟩ = .ok t ∧
        t.refs.length ≤ toks.length ∧ (F = ascii → t.refs = SqlMeta.extractTableRefs toks) := by
    refine Loop.total
      (fun t => ∃ r, At toks t.pos r ∧ t.refs.length ≤ t.pos ∧
        (F = ascii → t.refs ++ SqlMeta.extractTableRefs r = SqlMeta.extractTableRefs toks))
      _ (fun t => toks.length - t.pos) ?_ ⟨toks, At.start toks, Nat.le_refl 0, fun _ => rfl⟩
      (by omega)
    rintro ⟨k, refs⟩ ⟨r, hr, hle, heq⟩
    dsimp only at hr hle heq ⊢
    have hk := hr.length
    cases r with
    | nil =>
      rw [List.length_nil] at hk
      refine .inr ⟨⟨k, refs⟩, ?_, by dsimp only; omega, by simpa using heq⟩
      rw [extractTurn, if_neg (by dsimp only; omega)]
      rfl
    | cons t r =>
      obtain ⟨added, j, r', hturn, hj, hless, hfrom⟩ := extractTurn_eq (F := F) hr refs
      have hj' := hj.length
      rw [List.length_cons] at hk
      refine .inl ⟨⟨j, refs ++ added⟩, hturn, ⟨r', hj, ?_, fun hF => ?_⟩, by dsimp only; omega⟩
      · dsimp only
        rw [List.length_append]
        omega
      · rw [List.append_assoc, ← heq hF, hfrom hF]
  refine ⟨t.refs, ?_, hlen, hrefs⟩
  rw [extractTableRefs, hrun]
  rfl

theorem onlyTurn_eq {t : Token} (h : At toks i (t :: rest)) :
    onlyTurn F toks i = .ok (.again (i + 1)) ∨ onlyTurn F toks i = .ok (.leave i) := by
  rw [onlyTurn, if_pos h.lt, h.get_eq, Loop.ok_bind]
  split
  · exact .inl rfl
  · exact .inr rfl

end ExtractorSpec

/-! ### Progress -/

theorem tokenizeTurn_advances (sql : GoString) :
    Loop.Advances (tokenizeTurn sql) Scan.pos sql.length := by
  rintro ⟨i, toks⟩ hi
  change i < sql.length at hi
  obtain ⟨c, s, h⟩ := At.of_lt hi
  obtain ⟨ts, j, rest, hturn, hj, hless, -, -⟩ := tokenizeTurn_eq h toks
  have hi' := h.length
  have hj' := hj.length
  rw [List.length_cons] at hi'
  refine ⟨_, hturn, ?_, ?_⟩ <;> dsimp only [Turn.state] <;> omega

theorem extractTurn_advances (F : CaseMapping) (toks : List Token) :
    Loop.Advances (extractTurn F toks) Extract.pos toks.length := by
  rintro ⟨i, refs⟩ hi
  change i < toks.length at hi
  obtain ⟨t, rest, h⟩ := At.of_lt hi
  obtain ⟨added, j, r, hturn, hj, hless, -⟩ := extractTurn_eq (F := F) h refs
  have hi' := h.length
  have hj' := hj.length
  rw [List.length_cons] at hi'
  refine ⟨_, hturn, ?_, ?_⟩ <;> dsimp only [Turn.state] <;> omega

theorem onlyTurn_advances (F : CaseMapping) (toks : List Token) :
    Loop.AdvancesAgain (onlyTurn F toks) id toks.length := by
  intro i hi
  obtain ⟨t, rest, h⟩ := At.of_lt hi
  rcases onlyTurn_eq (F := F) h with hturn | hturn
  · refine ⟨_, hturn, Nat.le_succ i, hi, ?_⟩
    rintro s' ⟨⟩
    exact Nat.lt_succ_self i
  · refine ⟨_, hturn, Nat.le_refl i, Nat.le_of_lt hi, ?_⟩
    rintro s' ⟨⟩

theorem listTurn_advances (F : CaseMapping) (toks : List Token) :
    Loop.AdvancesAgain (listTurn F toks) Extract.pos toks.length := by
  rintro ⟨i, refs⟩ hi
  change i < toks.length at hi
  have h := At.of_le (Nat.le_of_lt hi)
  have hi' := h.length
  rcases listTurn_cases (F := F) h refs with
    ⟨ref, j, r, hturn, hj, hless, -⟩ | ⟨added, j, r, hturn, hj, hless, -⟩
  · have hj' := hj.length
    refine ⟨_, hturn, ?_, hj.1, ?_⟩
    · dsimp only [Turn.state]
      omega
    · rintro s' ⟨⟩
      dsimp only
      omega
  · have hj' := hj.length
    refine ⟨_, hturn, ?_, hj.1, ?_⟩
    · dsimp only [Turn.state]
      omega
    · rintro s' ⟨⟩

theorem readRef_inRange (F : CaseMapping) (toks : List Token) (i : ℕ) :
    (∃ r, readRef F toks i = .ok r) ∧ ∃ j, skipAlias F toks i = .ok j := by
  by_cases hi : i ≤ toks.length
  · have h := At.of_le hi
    obtain ⟨j, r, halias, -⟩ := skipAlias_eq (F := F) h
    refine ⟨?_, j, halias⟩
    rcases readRef_cases (F := F) h with ⟨hread, -⟩ | ⟨ref, j, r, hread, -⟩
    · exact ⟨_, hread⟩
    · exact ⟨_, hread⟩
  · have hge : i ≥ toks.length := by omega
    refine ⟨⟨none, ?_⟩, i, ?_⟩
    · rw [readRef, if_pos hge]
      rfl
    · rw [skipAlias, if_pos hge]
      rfl

/-- The turn that finds no `ONLY`, and the one that finds no reference, leave their loops where they
stand: behind `FROM` there is neither in `FROM WHERE`. -/
theorem turns_that_stay :
    let toks : List Token := [⟨str "FROM", false⟩, ⟨str "WHERE", false⟩]
    onlyTurn ascii toks 1 = .ok (.leave 1) ∧ ¬Loop.Advances (onlyTurn ascii toks) id toks.length ∧
      listTurn ascii toks ⟨1, []⟩ = .ok (.leave ⟨1, []⟩) ∧
      ¬Loop.Advances (listTurn ascii toks) Extract.pos toks.length := by
  have honly : onlyTurn ascii [⟨str "FROM", false⟩, ⟨str "WHERE", false⟩] 1 = .ok (.leave 1) := rfl
  have hlist : listTurn ascii [⟨str "FROM", false⟩, ⟨str "WHERE", false⟩] ⟨1, []⟩ =
      .ok (.leave ⟨1, []⟩) := rfl
  refine ⟨honly, fun h => ?_, hlist, fun h => ?_⟩
  · obtain ⟨t, hturn, hlt, -⟩ := h 1 (by decide)
    rw [honly] at hturn
    cases hturn
    exact Nat.lt_irrefl 1 hlt
  · obtain ⟨t, hturn, hlt, -⟩ := h ⟨1, []⟩ (by decide)
    rw [hlist] at hturn
    cases hturn
    exact Nat.lt_irrefl 1 hlt

/-- The scanner makes progress inside its input. The main loops move on with every turn, the two
inner loops of the extractor with every turn but their last. -/
theorem scanner_advances :
    (∀ sql : GoString, Loop.Advances (tokenizeTurn sql) Scan.pos sql.length ∧
      ∃ toks, tokenize sql = .ok toks ∧ toks.length ≤ sql.length) ∧
    ∀ (F : CaseMapping) (toks : List Token),
      Loop.Advances (extractTurn F toks) Extract.pos toks.length ∧
      Loop.AdvancesAgain (onlyTurn F toks) id toks.length ∧
      Loop.AdvancesAgain (listTurn F toks) Extract.pos toks.length ∧
      (∀ i, (∃ r, readRef F toks i = .ok r) ∧ ∃ j, skipAlias F toks i = .ok j) ∧
      ∃ refs, extractTableRefs F toks = .ok refs ∧ refs.length ≤ toks.length := by
  constructor
  · intro sql
    obtain ⟨hrun, hlen⟩ := tokenize_eq sql
    exact ⟨tokenizeTurn_advances sql, _, hrun, hlen⟩
  · intro F toks
    obtain ⟨refs, hrun, hlen, -⟩ := extractTableRefs_spec F toks
    exact ⟨extractTurn_advances F toks, onlyTurn_advances F toks, listTurn_advances F toks,
      readRef_inRange F toks, refs, hrun, hlen⟩

end TrinoGoway.SqlMeta.Indexed
