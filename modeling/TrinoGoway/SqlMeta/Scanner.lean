import TrinoGoway.Lib.Transducer
import TrinoGoway.SqlMeta.Heuristic

/-! The tokenizer as a machine that reads byte by byte. The loops inside `tokenize` become modes,
and a look at the next byte becomes a mode in which that byte is awaited. -/
namespace TrinoGoway.SqlMeta

open Go

inductive Delimiter
  | double
  | back
  deriving DecidableEq

def Delimiter.byte : Delimiter → UInt8
  | double => Byte.doubleQuote
  | back => backquote

inductive Mode
  | code
  /-- after a minus, which may begin a line comment -/
  | dash
  /-- after a slash, which may begin a block comment -/
  | slash
  | line
  | block
  | blockStar
  | literal
  /-- after a quote in a literal, which ends it unless another quote follows -/
  | literalQuote
  | quoted (d : Delimiter) (text : GoString)
  /-- after a delimiter in a quoted identifier, which ends it unless it is doubled -/
  | quotedEnd (d : Delimiter) (text : GoString)
  | bracket (text : GoString)
  | word (text : GoString)
  deriving DecidableEq

namespace Mode

/-- The token that a mode holds back; at the end of the text it is emitted. -/
def pending : Mode → List Token
  | quoted _ text => [⟨text, true⟩]
  | quotedEnd _ text => [⟨text, true⟩]
  | bracket text => [⟨text, true⟩]
  | word text => [⟨text, false⟩]
  | _ => []

def isCode : Mode → Bool
  | code | dash | slash | literalQuote | quotedEnd _ _ | word _ => true
  | _ => false

/-- The byte belongs to what the mode has begun. -/
def continues : Mode → UInt8 → Bool
  | dash, c => c = Byte.minus
  | slash, c => c = 42
  | literalQuote, c => c = Byte.quote
  | quotedEnd d _, c => c = d.byte
  | word _, c => isIdentChar c
  | _, _ => false

end Mode

/-- The mode after a byte that starts something new, and the token it is. `brackets` says whether
square brackets quote an identifier, as they do for `tokenize`. -/
def enter (brackets : Bool) (c : UInt8) : List Token × Mode :=
  if c = Byte.minus then ([], .dash)
  else if c = Byte.slash then ([], .slash)
  else if c = Byte.quote then ([], .literal)
  else if c = Byte.doubleQuote then ([], .quoted .double [])
  else if c = backquote then ([], .quoted .back [])
  else if brackets ∧ c = Byte.openBracket then ([], .bracket [])
  else if isMark c then ([⟨[c], false⟩], .code)
  else if isIdentChar c then ([], .word [c])
  else ([], .code)

def advance : Mode → UInt8 → List Token × Mode
  | .dash, _ => ([], .line)
  | .slash, _ => ([], .block)
  | .line, c => ([], if c = Byte.newline then .code else .line)
  | .block, c => ([], if c = 42 then .blockStar else .block)
  | .blockStar, c => ([], if c = Byte.slash then .code else if c = 42 then .blockStar else .block)
  | .literal, c => ([], if c = Byte.quote then .literalQuote else .literal)
  | .literalQuote, _ => ([], .literal)
  | .quoted d text, c => ([], if c = d.byte then .quotedEnd d text else .quoted d (text ++ [c]))
  | .quotedEnd d text, _ => ([], .quoted d (text ++ [d.byte]))
  | .bracket text, c =>
    if c = Byte.closeBracket then ([⟨text, true⟩], .code) else ([], .bracket (text ++ [c]))
  | .word text, c => ([], .word (text ++ [c]))
  | .code, _ => ([], .code)

def scanner (brackets : Bool) : Transducer Mode UInt8 Token where
  step m c :=
    if m.isCode ∧ ¬ m.continues c then
      (m.pending ++ (enter brackets c).1, (enter brackets c).2)
    else advance m c
  finish := Mode.pending

variable {brackets : Bool}

theorem step_enter {m : Mode} {c : UInt8} (hm : m.isCode) (hc : m.continues c = false) :
    (scanner brackets).step m c = (m.pending ++ (enter brackets c).1, (enter brackets c).2) :=
  if_pos ⟨hm, by simp [hc]⟩

theorem step_continue {m : Mode} {c : UInt8} (hc : m.continues c) :
    (scanner brackets).step m c = advance m c :=
  if_neg fun h => h.2 hc

theorem step_inside {m : Mode} {c : UInt8} (hm : m.isCode = false) :
    (scanner brackets).step m c = advance m c :=
  if_neg fun h => by simp [hm] at h

@[simp] theorem enter_newline : enter brackets Byte.newline = ([], .code) := by
  cases brackets <;> rfl

/-- A mode that the next byte does not continue only has its token to emit. -/
theorem output_of_not_continues {m : Mode} {s : GoString} (hm : m.isCode)
    (hs : ∀ c ∈ s.head?, m.continues c = false) :
    (scanner brackets).output m s = m.pending ++ (scanner brackets).output .code s := by
  cases s with
  | nil =>
    change m.pending = m.pending ++ []
    rw [List.append_nil]
  | cons c s =>
    have hc := hs c rfl
    rw [Transducer.output_cons, Transducer.output_cons, step_enter hm hc, step_enter rfl rfl]
    simp only [List.append_assoc]
    rfl

/-! ### The loops of `tokenize` -/

theorem output_line (s : GoString) :
    (scanner brackets).output .line s = (scanner brackets).output .code (skipLine s) := by
  induction s with
  | nil => rfl
  | cons c s ih =>
    rw [Transducer.output_cons, step_inside rfl]
    by_cases hc : c = Byte.newline
    · subst hc
      have hskip : skipLine (Byte.newline :: s) = Byte.newline :: s := by simp [skipLine]
      rw [hskip, Transducer.output_cons, step_enter rfl rfl, enter_newline]
      rfl
    · have hskip : skipLine (c :: s) = skipLine s := by simp [skipLine, hc]
      rw [hskip, ← ih]
      simp [advance, hc]

theorem output_block (s : GoString) :
    (scanner brackets).output .block s = (scanner brackets).output .code (skipBlock s) ∧
      (scanner brackets).output .blockStar s =
        (scanner brackets).output .code (skipBlock (42 :: s)) := by
  induction s with
  | nil => exact ⟨rfl, rfl⟩
  | cons c s ih =>
    obtain ⟨hblock, hstar⟩ := ih
    rw [Transducer.output_cons, Transducer.output_cons, step_inside rfl, step_inside rfl]
    by_cases hstar' : c = 42
    · subst hstar'
      have hskip : skipBlock (42 :: 42 :: s) = skipBlock (42 :: s) := by
        rw [skipBlock]
        intro t _ h
        cases h
      rw [hskip, ← hstar]
      exact ⟨rfl, rfl⟩
    · have hskip : skipBlock (c :: s) = skipBlock s := by
        rw [skipBlock]
        intro t h
        exact absurd h hstar'
      rw [hskip, ← hblock]
      constructor
      · simp [advance, hstar']
      · by_cases hslash : c = Byte.slash
        · subst hslash
          rfl
        · have hskip' : skipBlock (42 :: c :: s) = skipBlock (c :: s) := by
            rw [skipBlock]
            intro t _ h
            exact absurd (List.cons.inj h).1 hslash
          rw [hskip', hskip, ← hblock]
          simp [advance, hslash, hstar']

theorem output_literal (s : GoString) :
    (scanner brackets).output .literal s = (scanner brackets).output .code (skipLiteral s) := by
  induction s using skipLiteral.induct with
  | case1 s ih =>
    rw [Transducer.output_cons, Transducer.output_cons, skipLiteral, ← ih]
    rfl
  | case2 s hs =>
    have hnext : ∀ c ∈ s.head?, Mode.literalQuote.continues c = false := by
      intro c hc
      cases s with
      | nil => cases hc
      | cons d s =>
        obtain rfl := Option.some.inj hc
        have hd : d ≠ Byte.quote := by
          intro h
          exact hs s (by rw [h])
        simp [Mode.continues, hd]
    have hskip : skipLiteral (39 :: s) = s := by
      rw [skipLiteral]
      exact hs
    rw [hskip, Transducer.output_cons]
    exact output_of_not_continues rfl hnext
  | case3 c s h₁ h₂ ih =>
    have hc : c ≠ Byte.quote := fun h => h₂ h
    have hskip : skipLiteral (c :: s) = skipLiteral s := by
      rw [skipLiteral]
      · exact h₁
      · exact h₂
    rw [hskip, ← ih, Transducer.output_cons, step_inside rfl]
    simp [advance, hc]
  | case4 => rfl

theorem scanDelimited_other {opening closing c : UInt8} (hc : c ≠ closing) (s : GoString) :
    scanDelimited opening closing (c :: s) =
      (c :: (scanDelimited opening closing s).1, (scanDelimited opening closing s).2) := by
  cases s with
  | nil => simp [scanDelimited, hc]
  | cons d s => simp [scanDelimited, hc]

theorem scanDelimited_doubled (d : UInt8) (s : GoString) :
    scanDelimited d d (d :: d :: s) =
      (d :: (scanDelimited d d s).1, (scanDelimited d d s).2) := by
  simp [scanDelimited]

theorem scanDelimited_closing {opening closing : UInt8} {s : GoString}
    (h : opening ≠ closing ∨ s.head? ≠ some closing) :
    scanDelimited opening closing (closing :: s) = ([], s) := by
  cases s with
  | nil => simp [scanDelimited]
  | cons d s =>
    have hne : ¬ (opening = closing ∧ d = closing) := by
      rintro ⟨rfl, rfl⟩
      simp at h
    simp [scanDelimited, hne]

theorem output_quoted (d : Delimiter) (text s : GoString) :
    (scanner brackets).output (.quoted d text) s =
        ⟨text ++ (scanDelimited d.byte d.byte s).1, true⟩ ::
          (scanner brackets).output .code (scanDelimited d.byte d.byte s).2 ∧
      (scanner brackets).output (.quotedEnd d text) s =
        ⟨text ++ (scanDelimited d.byte d.byte (d.byte :: s)).1, true⟩ ::
          (scanner brackets).output .code (scanDelimited d.byte d.byte (d.byte :: s)).2 := by
  induction s generalizing text with
  | nil => simp [scanDelimited, scanner, Transducer.output_nil, Mode.pending]
  | cons c s ih =>
    by_cases hc : c = d.byte
    · subst hc
      have hend : (Mode.quotedEnd d text).continues d.byte := by simp [Mode.continues]
      constructor
      · rw [Transducer.output_cons, step_inside rfl]
        simp only [advance, if_true, List.nil_append]
        exact (ih text).2
      · rw [Transducer.output_cons, step_continue hend, scanDelimited_doubled]
        simp only [advance, List.nil_append, (ih (text ++ [d.byte])).1, List.append_assoc]
        rfl
    · have hend : ∀ c' ∈ (c :: s).head?, (Mode.quotedEnd d text).continues c' = false := by
        simp [Mode.continues, hc]
      constructor
      · rw [Transducer.output_cons, step_inside rfl, scanDelimited_other hc]
        simp only [advance, if_neg hc, List.nil_append, (ih (text ++ [c])).1, List.append_assoc]
        rfl
      · rw [output_of_not_continues rfl hend, scanDelimited_closing (.inr (by simpa using hc))]
        simp [Mode.pending]

theorem output_bracket (text s : GoString) :
    (scanner brackets).output (.bracket text) s =
      ⟨text ++ (scanDelimited Byte.openBracket Byte.closeBracket s).1, true⟩ ::
        (scanner brackets).output .code
          (scanDelimited Byte.openBracket Byte.closeBracket s).2 := by
  induction s generalizing text with
  | nil => simp [scanDelimited, scanner, Transducer.output_nil, Mode.pending]
  | cons c s ih =>
    rw [Transducer.output_cons, step_inside rfl]
    by_cases hc : c = Byte.closeBracket
    · subst hc
      rw [scanDelimited_closing (.inl (by decide))]
      simp [advance]
    · rw [scanDelimited_other hc]
      simp only [advance, if_neg hc, List.nil_append, ih, List.append_assoc]
      rfl

theorem output_word (text s : GoString) :
    (scanner brackets).output (.word text) s =
      ⟨text ++ s.takeWhile isIdentChar, false⟩ ::
        (scanner brackets).output .code (s.dropWhile isIdentChar) := by
  induction s generalizing text with
  | nil => simp [scanner, Transducer.output_nil, Mode.pending]
  | cons c s ih =>
    by_cases hc : isIdentChar c
    · have hcont : (Mode.word text).continues c := hc
      rw [Transducer.output_cons, step_continue hcont, List.takeWhile_cons_of_pos hc,
        List.dropWhile_cons_of_pos hc]
      simp only [advance, List.nil_append, ih, List.append_assoc]
      rfl
    · have hstop : ∀ c' ∈ (c :: s).head?, (Mode.word text).continues c' = false := by
        simpa [Mode.continues] using hc
      rw [output_of_not_continues rfl hstop, List.takeWhile_cons_of_neg hc,
        List.dropWhile_cons_of_neg hc]
      simp [Mode.pending]

/-- A mode that holds nothing back and awaits one byte. -/
theorem output_awaiting {m m' : Mode} {next : UInt8} (hm : m.isCode) (hpending : m.pending = [])
    (hnext : ∀ c, m.continues c = decide (c = next)) (hgo : advance m next = ([], m'))
    (s : GoString) :
    (scanner brackets).output m s =
      if s.head? = some next then (scanner brackets).output m' s.tail
      else (scanner brackets).output .code s := by
  split
  · rename_i hhead
    obtain ⟨s', rfl⟩ := List.head?_eq_some_iff.mp hhead
    have hcont : m.continues next := by simp [hnext]
    rw [Transducer.output_cons, step_continue hcont, hgo]
    rfl
  · rename_i hhead
    have hstop : ∀ c ∈ s.head?, m.continues c = false := by
      intro c hc
      rw [hnext]
      exact decide_eq_false fun heq => hhead (heq ▸ hc)
    rw [output_of_not_continues hm hstop, hpending, List.nil_append]

theorem output_dash (s : GoString) :
    (scanner brackets).output .dash s =
      if s.head? = some Byte.minus then (scanner brackets).output .line s.tail
      else (scanner brackets).output .code s :=
  output_awaiting rfl rfl (fun _ => rfl) rfl s

theorem output_slash (s : GoString) :
    (scanner brackets).output .slash s =
      if s.head? = some 42 then (scanner brackets).output .block s.tail
      else (scanner brackets).output .code s :=
  output_awaiting rfl rfl (fun _ => rfl) rfl s

/-! ### All loops take the text to an end of it -/

theorem length_skipLine_le (s : GoString) : (skipLine s).length ≤ s.length :=
  s.dropWhile_suffix _ |>.length_le

theorem length_skipBlock_le (s : GoString) : (skipBlock s).length ≤ s.length := by
  induction s using skipBlock.induct <;> grind [skipBlock]

theorem length_skipLiteral_le (s : GoString) : (skipLiteral s).length ≤ s.length := by
  induction s using skipLiteral.induct <;> grind [skipLiteral]

theorem length_scanDelimited_le (opening closing : UInt8) (s : GoString) :
    (scanDelimited opening closing s).2.length ≤ s.length := by
  induction s using scanDelimited.induct opening closing <;> grind [scanDelimited]

/-- The tokenizer and the machine agree, as long as the fuel lasts. -/
theorem tokenizeFrom_eq_output {n : ℕ} {s : GoString} (hn : s.length ≤ n) :
    tokenizeFrom n s = (scanner true).output .code s := by
  induction n generalizing s with
  | zero =>
    cases s with
    | nil => rfl
    | cons c s => simp at hn
  | succ n ih =>
    cases s with
    | nil => rfl
    | cons c s =>
      have hs : s.length ≤ n := by simpa using hn
      have htail : s.tail.length ≤ n := by
        rw [List.length_tail]
        omega
      rw [Transducer.output_cons, step_enter rfl rfl]
      unfold tokenizeFrom
      simp only [enter, Mode.pending, List.nil_append]
      by_cases h₁ : c = Byte.minus
      · subst h₁
        simp only [true_and, if_true, List.nil_append, output_dash, output_line]
        split
        · exact ih ((length_skipLine_le _).trans htail)
        · exact ih hs
      by_cases h₂ : c = Byte.slash
      · subst h₂
        simp only [h₁, false_and, true_and, if_true, if_false, List.nil_append, output_slash,
          (output_block s.tail).1]
        split
        · exact ih ((length_skipBlock_le _).trans htail)
        · exact ih hs
      by_cases h₃ : c = Byte.quote
      · subst h₃
        simp only [h₁, h₂, false_and, if_true, if_false, List.nil_append]
        rw [output_literal]
        exact ih ((length_skipLiteral_le _).trans hs)
      simp only [h₁, h₂, h₃, false_and, if_false]
      by_cases h₄ : c = Byte.doubleQuote
      · subst h₄
        simp only [if_true, List.nil_append]
        rw [(output_quoted _ _ _).1, ih ((length_scanDelimited_le _ _ _).trans hs)]
        rfl
      by_cases h₅ : c = backquote
      · subst h₅
        simp only [h₄, if_true, if_false, List.nil_append]
        rw [(output_quoted _ _ _).1, ih ((length_scanDelimited_le _ _ _).trans hs)]
        rfl
      by_cases h₆ : c = Byte.openBracket
      · subst h₆
        simp only [h₄, h₅, if_true, if_false, and_self, List.nil_append]
        rw [output_bracket, ih ((length_scanDelimited_le _ _ _).trans hs)]
        rfl
      simp only [h₄, h₅, h₆, and_false, if_false]
      split
      · rw [ih hs]
        rfl
      · split
        · have hdrop := (s.dropWhile_suffix isIdentChar).length_le
          rw [output_word, ih (hdrop.trans hs)]
          rfl
        · rw [ih hs]
          rfl

theorem tokenize_eq_output (sql : GoString) : tokenize sql = (scanner true).output .code sql :=
  tokenizeFrom_eq_output (Nat.le_refl _)

end TrinoGoway.SqlMeta
