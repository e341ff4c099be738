import TrinoGoway.Lib.Loop
import TrinoGoway.SqlMeta.Scanner

/-! The loops of the tokenizer as they stand in the source, by index: every access is checked and
every loop has a bound on its turns. The tokens are those of the loops over the rest of the text,
so no access is out of range and no loop goes on for ever. -/
namespace TrinoGoway.SqlMeta.Indexed

open Go
open Loop (Fault Turn At)

section Tokenizer

variable (sql : GoString)

/-- `guard && i+1 < n && sql[i+1] == b` -/
def andNext (guard : Bool) (i : ℕ) (b : UInt8) : Except Fault Bool :=
  if guard ∧ i + 1 < sql.length then do
    let c ← Loop.get sql (i + 1)
    return c == b
  else return false

def lineTurn (i : ℕ) : Except Fault (Turn ℕ) :=
  if i < sql.length then do
    let c ← Loop.get sql i
    return if c ≠ Byte.newline then .again (i + 1) else .leave i
  else return .leave i

def blockTurn (i : ℕ) : Except Fault (Turn ℕ) :=
  if i + 1 < sql.length then do
    let c ← Loop.get sql i
    if c ≠ 42 then return .again (i + 1)
    else
      let d ← Loop.get sql (i + 1)
      return if d ≠ Byte.slash then .again (i + 1) else .leave i
  else return .leave i

def literalTurn (i : ℕ) : Except Fault (Turn ℕ) :=
  if i < sql.length then do
    let c ← Loop.get sql i
    if c = Byte.quote then
      let doubled ← andNext sql true i Byte.quote
      return if doubled then .again (i + 2) else .leave (i + 1)
    else return .again (i + 1)
  else return .leave i

def delimitedTurn (opening closing : UInt8) (s : GoString × ℕ) :
    Except Fault (Turn (GoString × ℕ)) :=
  if s.2 < sql.length then do
    let ch ← Loop.get sql s.2
    if ch = closing then
      let doubled ← andNext sql (opening = closing) s.2 closing
      return if doubled then .again (s.1 ++ [closing], s.2 + 2) else .leave (s.1, s.2 + 1)
    else return .again (s.1 ++ [ch], s.2 + 1)
  else return .leave s

def scanDelimited (start : ℕ) (opening closing : UInt8) : Except Fault (GoString × ℕ) :=
  Loop.run (delimitedTurn sql opening closing) (sql.length + 1) ([], start + 1)

def wordTurn (i : ℕ) : Except Fault (Turn ℕ) :=
  if i < sql.length then do
    let c ← Loop.get sql i
    return if isIdentChar c then .again (i + 1) else .leave i
  else return .leave i

structure Scan where
  pos : ℕ
  toks : List Token

def delimited (s : Scan) (opening closing : UInt8) : Except Fault (Turn Scan) := do
  let (id, next) ← scanDelimited sql s.pos opening closing
  return .again ⟨next, s.toks ++ [⟨id, true⟩]⟩

def tokenizeTurn (s : Scan) : Except Fault (Turn Scan) :=
  if s.pos < sql.length then do
    let c ← Loop.get sql s.pos
    let dashes ← andNext sql (c = Byte.minus) s.pos Byte.minus
    let comment ← andNext sql (c = Byte.slash) s.pos 42
    if dashes then
      let i ← Loop.run (lineTurn sql) (sql.length + 1) (s.pos + 2)
      return .again { s with pos := i }
    else if comment then
      let i ← Loop.run (blockTurn sql) (sql.length + 1) (s.pos + 2)
      return .again { s with pos := if i + 2 > sql.length then sql.length else i + 2 }
    else if c = Byte.quote then
      let i ← Loop.run (literalTurn sql) (sql.length + 1) (s.pos + 1)
      return .again { s with pos := i }
    else if c = Byte.doubleQuote then delimited sql s Byte.doubleQuote Byte.doubleQuote
    else if c = backquote then delimited sql s backquote backquote
    else if c = Byte.openBracket then delimited sql s Byte.openBracket Byte.closeBracket
    else if isMark c then return .again ⟨s.pos + 1, s.toks ++ [⟨[c], false⟩]⟩
    else if isIdentChar c then
      let i ← Loop.run (wordTurn sql) (sql.length + 1) s.pos
      let word ← Loop.slice sql s.pos i
      return .again ⟨i, s.toks ++ [⟨word, false⟩]⟩
    else return .again { s with pos := s.pos + 1 }
  else return .leave s

def tokenize : Except Fault (List Token) := do
  let s ← Loop.run (tokenizeTurn sql) (sql.length + 1) ⟨0, []⟩
  return s.toks

end Tokenizer

section TokenizerSpec

variable {sql s : GoString} {c : UInt8} {i : ℕ}

theorem andNext_eq (h : At sql i (c :: s)) (guard : Bool) (b : UInt8) :
    andNext sql guard i b = .ok (decide (guard ∧ s.head? = some b)) := by
  have hlen := h.next.length
  cases guard with
  | false => simp [andNext]
  | true =>
    cases s with
    | nil =>
      rw [List.length_nil] at hlen
      rw [andNext, if_neg (by omega)]
      rfl
    | cons d s =>
      rw [andNext, if_pos ⟨rfl, h.next.lt⟩, h.next.get_eq]
      simp [BEq.beq]

theorem run_lineTurn (h : At sql i s) :
    ∃ j, Loop.run (lineTurn sql) (sql.length + 1) i = .ok j ∧ At sql j (skipLine s) := by
  refine Loop.total_at skipLine (fun k r hr => ?_) h
  cases r with
  | nil =>
    have hend := hr.eq_length
    rw [lineTurn, if_neg (by omega)]
    exact .inr ⟨k, rfl, hr⟩
  | cons c r =>
    rw [lineTurn, if_pos hr.lt, hr.get_eq]
    by_cases hc : c = Byte.newline
    · refine .inr ⟨k, by simp [hc], ?_⟩
      rw [skipLine, List.dropWhile_cons_of_neg (by simp [hc])]
      exact hr
    · refine .inl ⟨k + 1, r, by simp [hc], hr.next, by simp, ?_⟩
      rw [skipLine, skipLine, List.dropWhile_cons_of_pos (by simp [hc])]

theorem run_wordTurn (h : At sql i s) :
    ∃ j, Loop.run (wordTurn sql) (sql.length + 1) i = .ok j ∧
      At sql j (s.dropWhile isIdentChar) := by
  refine Loop.total_at (List.dropWhile isIdentChar) (fun k r hr => ?_) h
  cases r with
  | nil =>
    have hend := hr.eq_length
    rw [wordTurn, if_neg (by omega)]
    exact .inr ⟨k, rfl, hr⟩
  | cons c r =>
    rw [wordTurn, if_pos hr.lt, hr.get_eq, Loop.ok_bind]
    by_cases hc : isIdentChar c = true
    · rw [if_pos hc]
      refine .inl ⟨k + 1, r, rfl, hr.next, by simp, ?_⟩
      rw [List.dropWhile_cons_of_pos hc]
    · rw [if_neg hc]
      refine .inr ⟨k, rfl, ?_⟩
      rw [List.dropWhile_cons_of_neg hc]
      exact hr

theorem run_literalTurn (h : At sql i s) :
    ∃ j, Loop.run (literalTurn sql) (sql.length + 1) i = .ok j ∧ At sql j (skipLiteral s) := by
  refine Loop.total_at skipLiteral (fun k r hr => ?_) h
  cases r with
  | nil =>
    have hend := hr.eq_length
    rw [literalTurn, if_neg (by omega)]
    exact .inr ⟨k, rfl, hr⟩
  | cons c r =>
    rw [literalTurn, if_pos hr.lt, hr.get_eq, Loop.ok_bind]
    by_cases hc : c = Byte.quote
    · subst hc
      rw [if_pos rfl, andNext_eq hr, Loop.ok_bind]
      cases r with
      | nil => exact .inr ⟨k + 1, rfl, hr.next⟩
      | cons d r =>
        by_cases hd : d = Byte.quote
        · subst hd
          have hlt : r.length < (Byte.quote :: Byte.quote :: r).length := by
            rw [List.length_cons, List.length_cons]
            omega
          exact .inl ⟨k + 2, r, rfl, hr.next.next, hlt, by simp [skipLiteral]⟩
        · refine .inr ⟨k + 1, by simp [hd], ?_⟩
          rw [skipLiteral]
          · exact hr.next
          · simpa using hd
    · rw [if_neg hc]
      refine .inl ⟨k + 1, r, rfl, hr.next, by simp, ?_⟩
      rw [skipLiteral] <;> simp_all

/-- The text from the end mark of a block comment on, or the last byte if there is none. -/
def blockRest : GoString → GoString
  | 42 :: 47 :: s => 42 :: 47 :: s
  | _ :: d :: s => blockRest (d :: s)
  | s => s

theorem skipBlock_eq (s : GoString) : skipBlock s = (blockRest s).drop 2 := by
  induction s using blockRest.induct with
  | case1 s => rfl
  | case2 c d s hcd ih =>
    have hopen : ∀ t, c = 42 → d :: s = 47 :: t → False :=
      fun t hc hd => hcd hc (List.cons.inj hd).1
    rw [skipBlock.eq_2 c (d :: s) hopen, blockRest.eq_2 c d s hcd, ih]
  | case3 s h₁ h₂ =>
    cases s with
    | nil => rfl
    | cons c s =>
      cases s with
      | nil => rw [skipBlock] <;> simp [skipBlock, blockRest]
      | cons d s => exact (h₂ c d s rfl).elim

theorem run_blockTurn (h : At sql i s) :
    ∃ j, Loop.run (blockTurn sql) (sql.length + 1) i = .ok j ∧ At sql j (blockRest s) := by
  refine Loop.total_at blockRest (fun k r hr => ?_) h
  have hlen := hr.length
  match r, hr with
  | [], hr =>
    rw [blockTurn, if_neg (by simp at hlen; omega)]
    exact .inr ⟨k, rfl, hr⟩
  | [c], hr =>
    rw [blockTurn, if_neg (by simp at hlen; omega)]
    exact .inr ⟨k, rfl, by simpa [blockRest] using hr⟩
  | c :: d :: r, hr =>
    rw [blockTurn, if_pos hr.next.lt, hr.get_eq, hr.next.get_eq, Loop.ok_bind, Loop.ok_bind]
    by_cases hcd : c = 42 ∧ d = 47
    · obtain ⟨rfl, rfl⟩ := hcd
      exact .inr ⟨k, rfl, by rw [blockRest]; exact hr⟩
    · refine .inl ⟨k + 1, d :: r, ?_, hr.next, by simp, ?_⟩
      · by_cases hc : c = 42
        · have hd : d ≠ 47 := fun hd => hcd ⟨hc, hd⟩
          simp [hc, hd]
        · simp [hc]
      · rw [blockRest.eq_2]
        grind

/-- What has been read and what is still to be read make up the result. -/
def Scanned (opening closing : UInt8) (whole : GoString × GoString) (text r : GoString) : Prop :=
  text ++ (SqlMeta.scanDelimited opening closing r).1 = whole.1 ∧
    (SqlMeta.scanDelimited opening closing r).2 = whole.2

/-- One turn of the loop over a delimited identifier: a byte is read, or the identifier is over. -/
theorem delimitedTurn_cases {opening closing : UInt8} {whole : GoString × GoString}
    {text : GoString} (h : At sql i s) (hscan : Scanned opening closing whole text s) :
    (∃ text' j r, delimitedTurn sql opening closing (text, i) = .ok (.again (text', j)) ∧
      At sql j r ∧ i < j ∧ Scanned opening closing whole text' r) ∨
    ∃ j, delimitedTurn sql opening closing (text, i) = .ok (.leave (whole.1, j)) ∧
      At sql j whole.2 := by
  obtain ⟨htext, hrest⟩ := hscan
  cases s with
  | nil =>
    have hend := h.eq_length
    obtain rfl : text = whole.1 := by simpa [SqlMeta.scanDelimited] using htext
    refine .inr ⟨i, ?_, hrest ▸ h⟩
    rw [delimitedTurn, if_neg (by simp [hend])]
    rfl
  | cons ch r =>
    rw [delimitedTurn, if_pos h.lt, h.get_eq, Loop.ok_bind, andNext_eq h]
    by_cases hclose : ch = closing
    · subst hclose
      by_cases hdouble : opening = ch ∧ r.head? = some ch
      · obtain ⟨rfl, hhead⟩ := hdouble
        obtain ⟨t, rfl⟩ := List.head?_eq_some_iff.mp hhead
        refine .inl ⟨text ++ [opening], i + 2, t, by simp, h.next.next, by omega, ?_⟩
        simpa [Scanned, SqlMeta.scanDelimited] using And.intro htext hrest
      · rw [scanDelimited_closing (Decidable.not_and_iff_or_not.mp hdouble)] at htext hrest
        obtain rfl : text = whole.1 := by simpa using htext
        refine .inr ⟨i + 1, ?_, hrest ▸ h.next⟩
        by_cases hopen : opening = ch
        · have hhead : r.head? ≠ some ch := fun hh => hdouble ⟨hopen, hh⟩
          simp [hopen, hhead]
        · simp [hopen]
    · rw [scanDelimited_other hclose] at htext hrest
      refine .inl ⟨text ++ [ch], i + 1, r, by simp [hclose], h.next, by omega, ?_, hrest⟩
      rw [List.append_assoc]
      exact htext

theorem scanDelimited_eq (opening closing : UInt8) (h : At sql i (c :: s)) :
    ∃ j, scanDelimited sql i opening closing =
        .ok ((SqlMeta.scanDelimited opening closing s).1, j) ∧
      At sql j (SqlMeta.scanDelimited opening closing s).2 := by
  have hrun : ∃ t : GoString × ℕ, scanDelimited sql i opening closing = .ok t ∧
      t.1 = (SqlMeta.scanDelimited opening closing s).1 ∧
      At sql t.2 (SqlMeta.scanDelimited opening closing s).2 := by
    refine Loop.total
      (fun t => ∃ r, At sql t.2 r ∧
        Scanned opening closing (SqlMeta.scanDelimited opening closing s) t.1 r)
      _ (fun t => sql.length - t.2) ?_ ⟨s, h.next, rfl, rfl⟩ (by omega)
    rintro ⟨text, k⟩ ⟨r, hr, hscan⟩
    rcases delimitedTurn_cases hr hscan with ⟨text', j, r', hturn, hj, hlt, hscan'⟩ | ⟨j, hturn, hj⟩
    · have hle := hj.1
      exact .inl ⟨(text', j), hturn, ⟨r', hj, hscan'⟩, by dsimp only; omega⟩
    · exact .inr ⟨_, hturn, rfl, hj⟩
  obtain ⟨⟨text, j⟩, hrun, rfl, hj⟩ := hrun
  exact ⟨j, hrun, hj⟩

theorem delimited_eq (opening closing : UInt8) (h : At sql i (c :: s)) (toks : List Token) :
    ∃ j, delimited sql ⟨i, toks⟩ opening closing =
        .ok (.again ⟨j, toks ++ [⟨(SqlMeta.scanDelimited opening closing s).1, true⟩]⟩) ∧
      At sql j (SqlMeta.scanDelimited opening closing s).2 := by
  obtain ⟨j, hscan, hj⟩ := scanDelimited_eq opening closing h
  refine ⟨j, ?_, hj⟩
  rw [delimited, hscan]
  rfl

/-- One turn of the main loop: the position moves on, at most one token is added, and the tokens
are those of `tokenizeFrom`. -/
theorem tokenizeTurn_eq (h : At sql i (c :: s)) (toks : List Token) :
    ∃ ts j rest, tokenizeTurn sql ⟨i, toks⟩ = .ok (.again ⟨j, toks ++ ts⟩) ∧ At sql j rest ∧
      rest.length ≤ s.length ∧ ts.length ≤ 1 ∧
      ∀ n, tokenizeFrom (n + 1) (c :: s) = ts ++ tokenizeFrom n rest := by
  rw [tokenizeTurn, if_pos h.lt, h.get_eq, Loop.ok_bind]
  simp only [andNext_eq h, Loop.ok_bind, decide_eq_true_eq, tokenizeFrom]
  by_cases hdash : c = Byte.minus ∧ s.head? = some Byte.minus
  · obtain ⟨t, rfl⟩ := List.head?_eq_some_iff.mp hdash.2
    obtain ⟨j, hrun, hj⟩ := run_lineTurn h.next.next
    have hlen := length_skipLine_le t
    refine ⟨[], j, skipLine t, ?_, hj, by simp; omega, Nat.zero_le _, fun n => by simp [hdash]⟩
    simp [hdash, hrun]
  simp only [if_neg hdash]
  by_cases hblock : c = Byte.slash ∧ s.head? = some 42
  · obtain ⟨t, rfl⟩ := List.head?_eq_some_iff.mp hblock.2
    obtain ⟨j, hrun, hj⟩ := run_blockTurn h.next.next
    have hlen := length_skipBlock_le t
    refine ⟨[], if j + 2 > sql.length then sql.length else j + 2, skipBlock t, ?_, ?_,
      by simp; omega, Nat.zero_le _, fun n => by simp [hblock]⟩
    · simp [hblock, hrun]
    · rw [skipBlock_eq]
      exact hj.drop_two
  simp only [if_neg hblock]
  by_cases hquote : c = Byte.quote
  · obtain ⟨j, hrun, hj⟩ := run_literalTurn h.next
    refine ⟨[], j, skipLiteral s, ?_, hj, length_skipLiteral_le s, Nat.zero_le _,
      fun n => by simp [hquote]⟩
    simp [hquote, hrun]
  simp only [if_neg hquote]
  by_cases hdouble : c = Byte.doubleQuote
  · obtain ⟨j, hturn, hj⟩ := delimited_eq Byte.doubleQuote Byte.doubleQuote h toks
    exact ⟨[⟨(SqlMeta.scanDelimited Byte.doubleQuote Byte.doubleQuote s).1, true⟩], j, _,
      by rw [if_pos hdouble, hturn], hj, length_scanDelimited_le _ _ _, Nat.le_refl 1,
      fun n => by simp [hdouble]⟩
  simp only [if_neg hdouble]
  by_cases hback : c = backquote
  · obtain ⟨j, hturn, hj⟩ := delimited_eq backquote backquote h toks
    exact ⟨[⟨(SqlMeta.scanDelimited backquote backquote s).1, true⟩], j, _,
      by rw [if_pos hback, hturn], hj, length_scanDelimited_le _ _ _, Nat.le_refl 1,
      fun n => by simp [hback]⟩
  simp only [if_neg hback]
  by_cases hbracket : c = Byte.openBracket
  · obtain ⟨j, hturn, hj⟩ := delimited_eq Byte.openBracket Byte.closeBracket h toks
    exact ⟨[⟨(SqlMeta.scanDelimited Byte.openBracket Byte.closeBracket s).1, true⟩], j, _,
      by rw [if_pos hbracket, hturn], hj, length_scanDelimited_le _ _ _, Nat.le_refl 1,
      fun n => by simp [hbracket]⟩
  simp only [if_neg hbracket]
  by_cases hmark : isMark c = true
  · exact ⟨[⟨[c], false⟩], i + 1, s, by simp [hmark], h.next, Nat.le_refl _, Nat.le_refl 1,
      fun n => by simp [hmark]⟩
  simp only [if_neg hmark]
  by_cases hword : isIdentChar c = true
  · obtain ⟨j, hrun, hj⟩ := run_wordTurn h
    rw [List.dropWhile_cons_of_pos hword] at hj
    have hslice : Loop.slice sql i j = .ok (c :: s.takeWhile isIdentChar) := by
      refine At.slice_eq ?_ hj
      rw [List.cons_append, List.takeWhile_append_dropWhile]
      exact h
    have hlen := (s.dropWhile_suffix isIdentChar).length_le
    exact ⟨[⟨c :: s.takeWhile isIdentChar, false⟩], j, _, by simp [hword, hrun, hslice], hj, hlen,
      Nat.le_refl 1, fun n => by simp [hword]⟩
  exact ⟨[], i + 1, s, by simp [hword], h.next, Nat.le_refl _, Nat.zero_le _,
    fun n => by simp [hword]⟩

theorem tokenizeFrom_fuel {n m : ℕ} (hn : s.length ≤ n) (hm : s.length ≤ m) :
    tokenizeFrom n s = tokenizeFrom m s := by
  rw [tokenizeFrom_eq_output hn, tokenizeFrom_eq_output hm]

/-- The indexed tokenizer ends, and its tokens are those of the one over the rest of the text. -/
theorem tokenize_eq (sql : GoString) :
    tokenize sql = .ok (SqlMeta.tokenize sql) ∧ (SqlMeta.tokenize sql).length ≤ sql.length := by
  obtain ⟨t, hrun, htoks, hlen⟩ : ∃ t : Scan,
      Loop.run (tokenizeTurn sql) (sql.length + 1) ⟨0, []⟩ = .ok t ∧
        t.toks = SqlMeta.tokenize sql ∧ t.toks.length ≤ sql.length := by
    refine Loop.total
      (fun t => ∃ rest, At sql t.pos rest ∧ t.toks.length ≤ t.pos ∧
        t.toks ++ tokenizeFrom rest.length rest = SqlMeta.tokenize sql)
      _ (fun t => sql.length - t.pos) ?_ ⟨sql, At.start sql, Nat.le_refl 0, rfl⟩ (by omega)
    rintro ⟨k, toks⟩ ⟨rest, hrest, hle, heq⟩
    dsimp only at hrest hle heq ⊢
    cases rest with
    | nil =>
      have hend := hrest.eq_length
      refine .inr ⟨⟨k, toks⟩, ?_, by simpa [tokenizeFrom] using heq, by dsimp only; omega⟩
      rw [tokenizeTurn, if_neg (by simp [hend])]
      rfl
    | cons c rest =>
      obtain ⟨ts, j, rest', hturn, hj, hless, hone, hfrom⟩ := tokenizeTurn_eq hrest toks
      have hk := hrest.length
      have hj' := hj.length
      rw [List.length_cons] at hk heq
      refine .inl ⟨⟨j, toks ++ ts⟩, hturn, ⟨rest', hj, ?_, ?_⟩, ?_⟩
      · dsimp only
        rw [List.length_append]
        omega
      · rw [List.append_assoc, ← heq, hfrom, tokenizeFrom_fuel hless (Nat.le_refl _)]
      · dsimp only
        omega
  refine ⟨?_, htoks ▸ hlen⟩
  rw [tokenize, hrun, ← htoks]
  rfl

end TokenizerSpec

end TrinoGoway.SqlMeta.Indexed
