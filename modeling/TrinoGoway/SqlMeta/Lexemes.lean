import TrinoGoway.SqlMeta.Scanner

/-! SQL texts as renderings of lexemes: what stands between lexemes, how they are spelled, and
what the tokenizer makes of them. -/
namespace TrinoGoway.SqlMeta

open Go

def isBlank (c : UInt8) : Bool :=
  c == 9 || c == 10 || c == 11 || c == 12 || c == 13 || c == 32

/-- A piece of what may stand between lexemes. -/
inductive Separator
  | blank (c : UInt8) (h : isBlank c)
  | block (text : GoString) (h : ¬ [42, Byte.slash] <:+: text)
  | line (text : GoString) (h : Byte.newline ∉ text)

def Separator.bytes : Separator → GoString
  | blank c _ => [c]
  | block text _ => Byte.slash :: 42 :: (text ++ [42, Byte.slash])
  | line text _ => Byte.minus :: Byte.minus :: (text ++ [Byte.newline])

abbrev Gap := List Separator

def Gap.bytes (g : Gap) : GoString := g.flatMap Separator.bytes

def isOp (c : UInt8) : Bool :=
  !isIdentChar c && !isMark c && c != Byte.quote && c != Byte.doubleQuote && c != backquote &&
    c != Byte.openBracket

inductive Lexeme
  | word (w : GoString) (hne : w ≠ []) (hw : ∀ c ∈ w, isIdentChar c)
  | ident (d : Delimiter) (text : GoString)
  /-- square brackets with what they enclose, up to the first closing bracket -/
  | bracketed (text : GoString) (h : Byte.closeBracket ∉ text)
  | literal (text : GoString)
  | mark (c : UInt8) (h : isMark c)
  | op (c : UInt8) (h : isOp c)

def double (d : UInt8) (text : GoString) : GoString :=
  text.flatMap fun c => if c = d then [d, d] else [c]

def quotedIdent (text : GoString) : GoString :=
  Byte.doubleQuote :: (double Byte.doubleQuote text ++ [Byte.doubleQuote])

namespace Lexeme

/-- The letters of a word may be written in upper or lower case. -/
def Spelled : Lexeme → GoString → Prop
  | word w _ _, s => upper s = upper w
  | ident d text, s => s = d.byte :: (double d.byte text ++ [d.byte])
  | bracketed text _, s => s = Byte.openBracket :: (text ++ [Byte.closeBracket])
  | literal text, s => s = Byte.quote :: (double Byte.quote text ++ [Byte.quote])
  | mark c _, s => s = [c]
  | op c _, s => s = [c]

/-- The lexemes cannot stand next to each other with nothing between them. -/
def Glues : Lexeme → Lexeme → Prop
  | word _ _ _, word _ _ _ => True
  | ident d _, ident d' _ => d = d'
  | literal _, literal _ => True
  | op c _, op c' _ => (c = Byte.minus ∧ c' = Byte.minus) ∨ (c = Byte.slash ∧ c' = 42)
  | _, _ => False

def tokens : Lexeme → List Token
  | word w _ _ => [⟨upper w, false⟩]
  | ident _ text => [⟨text, true⟩]
  | bracketed text _ => [⟨text, true⟩]
  | literal _ => []
  | mark c _ => [⟨[c], false⟩]
  | op _ _ => []

end Lexeme

/-- `Renders prev ls s`: behind the lexeme `prev`, if any, the text `s` spells the lexemes `ls`
with gaps around them; a gap may be empty where the lexemes at its sides do not glue. The text may
end in a line comment. -/
inductive Renders : Option Lexeme → List Lexeme → GoString → Prop
  | nil {prev : Option Lexeme} (g : Gap) : Renders prev [] g.bytes
  | comment {prev : Option Lexeme} (g : Gap) {text : GoString} (htext : Byte.newline ∉ text) :
      Renders prev [] (g.bytes ++ Byte.minus :: Byte.minus :: text)
  | cons {prev : Option Lexeme} {l : Lexeme} {ls : List Lexeme} {s t : GoString} (g : Gap)
      (hgap : g = [] → ∀ p ∈ prev, ¬ p.Glues l) (hl : l.Spelled s) (ht : Renders (some l) ls t) :
      Renders prev (l :: ls) (g.bytes ++ (s ++ t))

theorem Renders.mark {prev : Option Lexeme} {c : UInt8} (hc : isMark c) {ls : List Lexeme}
    {t : GoString} (ht : Renders (some (.mark c hc)) ls t) :
    Renders prev (.mark c hc :: ls) (c :: t) := by
  refine .cons (s := [c]) [] ?_ rfl ht
  intro _ p _
  cases p <;> exact id

def Token.folded (t : Token) : Token := if t.quoted then t else ⟨upper t.text, false⟩

/-! ### Letters -/

theorem isIdentChar_toUpper (c : UInt8) : isIdentChar (Byte.toUpper c) = isIdentChar c := by
  unfold Byte.toUpper
  split
  · simp only [isIdentChar, Byte.isAlpha, Byte.isUpper, Byte.isLower, Byte.isDigit] at *
    grind
  · rfl

theorem toUpper_toUpper (c : UInt8) : Byte.toUpper (Byte.toUpper c) = Byte.toUpper c := by
  simp only [Byte.toUpper, Byte.isLower]
  grind

@[simp] theorem upper_upper (s : GoString) : upper (upper s) = upper s := by
  unfold upper
  rw [List.map_map]
  exact List.map_congr_left fun c _ => toUpper_toUpper c

theorem isIdentChar_of_upper_eq {s w : GoString} (h : upper s = upper w)
    (hw : ∀ c ∈ w, isIdentChar c) : ∀ c ∈ s, isIdentChar c := by
  intro c hc
  have hmem : Byte.toUpper c ∈ upper w := by
    rw [← h]
    exact List.mem_map_of_mem hc
  obtain ⟨c', hc', heq⟩ := List.mem_map.mp hmem
  rw [← isIdentChar_toUpper, ← heq, isIdentChar_toUpper]
  exact hw c' hc'

/-! ### Single runs of the scanner -/

section Runs

variable {brackets : Bool}

theorem run_of_not_continues {m : Mode} {c : UInt8} (hm : m.isCode) (hc : m.continues c = false)
    (s : GoString) :
    (scanner brackets).run m (c :: s) =
      (m.pending ++ ((scanner brackets).run .code (c :: s)).1,
        ((scanner brackets).run .code (c :: s)).2) := by
  rw [Transducer.run_cons, Transducer.run_cons, step_enter hm hc, step_enter rfl rfl]
  simp only [List.append_assoc]
  rfl

theorem run_line {text : GoString} (h : Byte.newline ∉ text) :
    (scanner brackets).run .line (text ++ [Byte.newline]) = ([], .code) := by
  induction text with
  | nil => rfl
  | cons c text ih =>
    rw [List.mem_cons, not_or] at h
    rw [List.cons_append, Transducer.run_cons, step_inside rfl]
    simp only [advance, if_neg (Ne.symm h.1), ih h.2, List.append_nil]

/-- The invariant of the block comment: from `blockStar` no slash may come next. -/
theorem run_block {text : GoString} (h : ¬ [42, Byte.slash] <:+: text) :
    (scanner brackets).run .block (text ++ [42, Byte.slash]) = ([], .code) ∧
      (text.head? ≠ some Byte.slash →
        (scanner brackets).run .blockStar (text ++ [42, Byte.slash]) = ([], .code)) := by
  induction text with
  | nil => exact ⟨rfl, fun _ => rfl⟩
  | cons c text ih =>
    have htext : ¬ [42, Byte.slash] <:+: text := fun hi =>
      h (hi.trans (List.suffix_cons c text).isInfix)
    obtain ⟨hblock, hstar⟩ := ih htext
    by_cases hc : c = 42
    · subst hc
      have hhead : text.head? ≠ some Byte.slash := by
        intro hh
        obtain ⟨rest, rfl⟩ := List.head?_eq_some_iff.mp hh
        exact h (List.prefix_append [42, Byte.slash] rest).isInfix
      rw [List.cons_append, Transducer.run_cons, Transducer.run_cons, step_inside rfl,
        step_inside rfl]
      have hs := hstar hhead
      constructor
      · simp [advance, hs]
      · intro _
        have hne : (42 : UInt8) ≠ Byte.slash := by decide
        simp [advance, hs, hne]
    · rw [List.cons_append, Transducer.run_cons, Transducer.run_cons, step_inside rfl,
        step_inside rfl]
      constructor
      · simp [advance, hc, hblock]
      · intro hslash
        have hne : c ≠ Byte.slash := by simpa using hslash
        simp [advance, hc, hne, hblock]

theorem run_literal (text : GoString) :
    (scanner brackets).run .literal (double Byte.quote text ++ [Byte.quote]) =
      ([], .literalQuote) := by
  induction text with
  | nil => rfl
  | cons c text ih =>
    unfold double at ih ⊢
    rw [List.flatMap_cons, List.append_assoc]
    by_cases hc : c = Byte.quote
    · rw [if_pos hc, List.cons_append, List.cons_append, List.nil_append, Transducer.run_cons,
        Transducer.run_cons, step_inside rfl]
      change ([] ++ ([] ++ _), _) = _
      exact ih
    · rw [if_neg hc, List.cons_append, List.nil_append, Transducer.run_cons, step_inside rfl]
      simp only [advance, if_neg hc, ih, List.append_nil]

theorem run_quoted (d : Delimiter) (acc text : GoString) :
    (scanner brackets).run (.quoted d acc) (double d.byte text ++ [d.byte]) =
      ([], .quotedEnd d (acc ++ text)) := by
  induction text generalizing acc with
  | nil =>
    rw [double, List.flatMap_nil, List.nil_append, Transducer.run_singleton, step_inside rfl]
    simp [advance]
  | cons c text ih =>
    unfold double at ih ⊢
    rw [List.flatMap_cons, List.append_assoc]
    by_cases hc : c = d.byte
    · have hend : (Mode.quotedEnd d acc).continues d.byte := by simp [Mode.continues]
      rw [if_pos hc, List.cons_append, List.cons_append, List.nil_append, Transducer.run_cons,
        step_inside rfl]
      simp only [advance, if_true]
      rw [Transducer.run_cons, step_continue hend]
      simp only [advance, ih, List.append_nil, List.append_assoc, hc]
      rfl
    · rw [if_neg hc, List.cons_append, List.nil_append, Transducer.run_cons, step_inside rfl]
      simp only [advance, if_neg hc, ih, List.append_nil, List.append_assoc]
      rfl

theorem run_quotedIdent (text : GoString) :
    (scanner brackets).run .code (quotedIdent text) = ([], .quotedEnd .double text) := by
  have hopen : (scanner brackets).run .code (quotedIdent text) =
      (scanner brackets).run (.quoted .double [])
        (double Delimiter.double.byte text ++ [Delimiter.double.byte]) := rfl
  rw [hopen, run_quoted, List.nil_append]

theorem run_bracket (acc : GoString) {text : GoString} (h : Byte.closeBracket ∉ text) :
    (scanner brackets).run (.bracket acc) (text ++ [Byte.closeBracket]) =
      ([⟨acc ++ text, true⟩], .code) := by
  induction text generalizing acc with
  | nil =>
    rw [List.nil_append, Transducer.run_singleton, step_inside rfl, List.append_nil]
    rfl
  | cons c text ih =>
    rw [List.mem_cons, not_or] at h
    rw [List.cons_append, Transducer.run_cons, step_inside rfl]
    simp only [advance, if_neg (Ne.symm h.1), ih _ h.2, List.nil_append, List.append_assoc]
    rfl

theorem run_word (acc : GoString) {text : GoString} (h : ∀ c ∈ text, isIdentChar c) :
    (scanner brackets).run (.word acc) text = ([], .word (acc ++ text)) := by
  induction text generalizing acc with
  | nil => rw [Transducer.run_nil, List.append_nil]
  | cons c text ih =>
    rw [List.forall_mem_cons] at h
    have hcont : (Mode.word acc).continues c := h.1
    rw [Transducer.run_cons, step_continue hcont]
    simp only [advance, ih _ h.2, List.append_nil, List.append_assoc]
    rfl

/-! ### What a byte begins -/

theorem enter_op {c : UInt8} (h : isOp c) (hminus : c ≠ Byte.minus) (hslash : c ≠ Byte.slash) :
    enter brackets c = ([], .code) := by
  simp only [isOp, Bool.and_eq_true, Bool.not_eq_true', bne_iff_ne] at h
  obtain ⟨⟨⟨⟨⟨hident, hmark⟩, hquote⟩, hdouble⟩, hback⟩, hopen⟩ := h
  simp [enter, hminus, hslash, hquote, hdouble, hback, hopen, hmark, hident]

theorem ne_of_isIdentChar {c d : UInt8} (hc : isIdentChar c) (hd : isIdentChar d = false) :
    c ≠ d := by
  rintro rfl
  rw [hd] at hc
  cases hc

theorem isMark_of_isIdentChar {c : UInt8} (hc : isIdentChar c) : isMark c = false := by
  have h₁ : c ≠ 46 := ne_of_isIdentChar hc rfl
  have h₂ : c ≠ 40 := ne_of_isIdentChar hc rfl
  have h₃ : c ≠ 41 := ne_of_isIdentChar hc rfl
  have h₄ : c ≠ 44 := ne_of_isIdentChar hc rfl
  simp [isMark, h₁, h₂, h₃, h₄]

theorem enter_ident {c : UInt8} (hc : isIdentChar c) : enter brackets c = ([], .word [c]) := by
  have h₁ : c ≠ Byte.minus := ne_of_isIdentChar hc rfl
  have h₂ : c ≠ Byte.slash := ne_of_isIdentChar hc rfl
  have h₃ : c ≠ Byte.quote := ne_of_isIdentChar hc rfl
  have h₄ : c ≠ Byte.doubleQuote := ne_of_isIdentChar hc rfl
  have h₅ : c ≠ backquote := ne_of_isIdentChar hc rfl
  have h₆ : c ≠ Byte.openBracket := ne_of_isIdentChar hc rfl
  simp [enter, h₁, h₂, h₃, h₄, h₅, h₆, isMark_of_isIdentChar hc, hc]

theorem enter_mark {c : UInt8} (h : isMark c) : enter brackets c = ([⟨[c], false⟩], .code) := by
  simp only [isMark, Bool.or_eq_true, beq_iff_eq] at h
  rcases h with ((rfl | rfl) | rfl) | rfl <;> cases brackets <;> rfl

theorem enter_delimiter (d : Delimiter) : enter brackets d.byte = ([], .quoted d []) := by
  cases d <;> rfl

/-! ### Gaps -/

theorem isOp_of_isBlank {c : UInt8} (h : isBlank c) :
    isOp c ∧ c ≠ Byte.minus ∧ c ≠ Byte.slash := by
  simp only [isBlank, Bool.or_eq_true, beq_iff_eq] at h
  rcases h with ((((rfl | rfl) | rfl) | rfl) | rfl) | rfl <;> decide

theorem not_continues_of_isBlank {c : UInt8} (h : isBlank c) (m : Mode) :
    m.continues c = false := by
  simp only [isBlank, Bool.or_eq_true, beq_iff_eq] at h
  cases m with
  | quotedEnd d text =>
    cases d <;> rcases h with ((((rfl | rfl) | rfl) | rfl) | rfl) | rfl <;> rfl
  | _ => rcases h with ((((rfl | rfl) | rfl) | rfl) | rfl) | rfl <;> rfl

theorem not_continues_slash (m : Mode) : m.continues Byte.slash = false := by
  cases m with
  | quotedEnd d text => cases d <;> rfl
  | _ => rfl

theorem not_continues_minus {m : Mode} (hm : m ≠ .dash) : m.continues Byte.minus = false := by
  cases m with
  | dash => exact absurd rfl hm
  | quotedEnd d text => cases d <;> rfl
  | _ => rfl

/-- A piece of a gap ends what came before it. After a minus, the first minus of a line comment
begins the comment together with it. -/
theorem run_separator {m : Mode} (hm : m.isCode) (p : Separator) :
    (scanner brackets).run m p.bytes = (m.pending, .code) := by
  cases p with
  | blank c h =>
    obtain ⟨hop, hminus, hslash⟩ := isOp_of_isBlank h
    change (scanner brackets).run m [c] = _
    rw [Transducer.run_singleton, step_enter hm (not_continues_of_isBlank h m),
      enter_op hop hminus hslash, List.append_nil]
  | block text h =>
    change (scanner brackets).run m (Byte.slash :: 42 :: (text ++ [42, Byte.slash])) = _
    have hopen : (scanner brackets).run .code (Byte.slash :: 42 :: (text ++ [42, Byte.slash])) =
        (scanner brackets).run .block (text ++ [42, Byte.slash]) := rfl
    rw [run_of_not_continues hm (not_continues_slash m), hopen, (run_block h).1, List.append_nil]
  | line text h =>
    change (scanner brackets).run m (Byte.minus :: Byte.minus :: (text ++ [Byte.newline])) = _
    by_cases hdash : m = .dash
    · subst hdash
      have hopen : (scanner brackets).run .dash
          (Byte.minus :: Byte.minus :: (text ++ [Byte.newline])) =
            (scanner brackets).run .line (text ++ [Byte.newline]) := rfl
      rw [hopen, run_line h]
      rfl
    · have hopen : (scanner brackets).run .code
          (Byte.minus :: Byte.minus :: (text ++ [Byte.newline])) =
            (scanner brackets).run .line (text ++ [Byte.newline]) := rfl
      rw [run_of_not_continues hm (not_continues_minus hdash), hopen, run_line h, List.append_nil]

theorem run_gap {m : Mode} (hm : m.isCode) (g : Gap) :
    (scanner brackets).run m g.bytes = if g = [] then ([], m) else (m.pending, .code) := by
  induction g generalizing m with
  | nil => rfl
  | cons p g ih =>
    have hrest : (scanner brackets).run .code (Gap.bytes g) = ([], .code) := by
      rw [ih rfl]
      split <;> rfl
    change (scanner brackets).run m (p.bytes ++ Gap.bytes g) = _
    rw [Transducer.run_append, run_separator hm, hrest, List.append_nil, if_neg (by simp)]

/-! ### Lexemes -/

def Lexeme.Begins : Lexeme → UInt8 → Prop
  | word _ _ _, c => isIdentChar c
  | ident d _, c => c = d.byte
  | bracketed _ _, c => c = Byte.openBracket
  | literal _, c => c = Byte.quote
  | mark c _, c' => c' = c
  | op c _, c' => c' = c

theorem begins_of_spelled {l : Lexeme} {s : GoString} (h : l.Spelled s) :
    ∃ c s', s = c :: s' ∧ l.Begins c := by
  cases l with
  | word w hne hw =>
    have hs := isIdentChar_of_upper_eq h hw
    cases s with
    | nil => exact absurd (List.map_eq_nil_iff.mp h.symm) hne
    | cons c s' => exact ⟨c, s', rfl, hs c (by simp)⟩
  | _ => exact ⟨_, _, h, rfl⟩

/-- The mode behind a lexeme goes on only with what would glue to the lexeme. -/
def Behind (l : Lexeme) (m : Mode) : Prop :=
  ∀ l' c, l'.Begins c → m.continues c → l.Glues l'

theorem behind_of_not_continues {l : Lexeme} {m : Mode} (h : ∀ c, m.continues c = false) :
    Behind l m := by
  intro l' c _ hc
  rw [h c] at hc
  cases hc

theorem byte_injective {d d' : Delimiter} (h : d.byte = d'.byte) : d = d' := by
  cases d <;> cases d' <;> first | rfl | exact absurd h (by decide)

theorem byte_ne (d : Delimiter) : d.byte ≠ Byte.quote ∧ d.byte ≠ Byte.openBracket := by
  cases d <;> decide

theorem isIdentChar_byte (d : Delimiter) : isIdentChar d.byte = false := by
  cases d <;> rfl

theorem eq_word_of_begins {l : Lexeme} {c : UInt8} (h : l.Begins c) (hc : isIdentChar c) :
    ∃ w hne hw, l = .word w hne hw := by
  cases l with
  | word w hne hw => exact ⟨w, hne, hw, rfl⟩
  | ident d text => exact absurd h (ne_of_isIdentChar hc (isIdentChar_byte d))
  | bracketed text _ => exact absurd h (ne_of_isIdentChar hc rfl)
  | literal text => exact absurd h (ne_of_isIdentChar hc rfl)
  | mark c' hmark =>
    obtain rfl : c = c' := h
    rw [isMark_of_isIdentChar hc] at hmark
    cases hmark
  | op c' hop =>
    obtain rfl : c = c' := h
    simp [isOp, hc] at hop

theorem eq_ident_of_begins {l : Lexeme} {d : Delimiter} (h : l.Begins d.byte) :
    ∃ text, l = .ident d text := by
  cases l with
  | ident d' text =>
    obtain rfl := byte_injective h
    exact ⟨text, rfl⟩
  | word w hne hw => simp [Lexeme.Begins, isIdentChar_byte] at h
  | bracketed text _ => exact absurd h (byte_ne d).2
  | literal text => exact absurd h (byte_ne d).1
  | mark c hmark =>
    obtain rfl : d.byte = c := h
    cases d <;> exact absurd hmark (by decide)
  | op c hop =>
    obtain rfl : d.byte = c := h
    cases d <;> exact absurd hop (by decide)

theorem eq_literal_of_begins {l : Lexeme} (h : l.Begins Byte.quote) :
    ∃ text, l = .literal text := by
  cases l with
  | literal text => exact ⟨text, rfl⟩
  | word w hne hw => exact absurd (show isIdentChar Byte.quote from h) (by decide)
  | ident d text => exact absurd h.symm (byte_ne d).1
  | bracketed text _ => exact absurd (show Byte.quote = Byte.openBracket from h) (by decide)
  | mark c hmark =>
    obtain rfl : Byte.quote = c := h
    exact absurd hmark (by decide)
  | op c hop =>
    obtain rfl : Byte.quote = c := h
    exact absurd hop (by decide)

theorem eq_op_of_begins {l : Lexeme} {c : UInt8} (hc : isOp c) (h : l.Begins c) :
    ∃ h', l = .op c h' := by
  cases l with
  | op c' hop =>
    obtain rfl : c = c' := h
    exact ⟨hop, rfl⟩
  | word w hne hw =>
    have hident : isIdentChar c := h
    simp [isOp, hident] at hc
  | ident d text =>
    obtain rfl : c = d.byte := h
    cases d <;> exact absurd hc (by decide)
  | bracketed text _ =>
    obtain rfl : c = Byte.openBracket := h
    exact absurd hc (by decide)
  | literal text =>
    obtain rfl : c = Byte.quote := h
    exact absurd hc (by decide)
  | mark c' hmark =>
    obtain rfl : c = c' := h
    simp [isOp, hmark] at hc

theorem folded_mark {c : UInt8} (h : isMark c) : Token.folded ⟨[c], false⟩ = ⟨[c], false⟩ := by
  simp only [isMark, Bool.or_eq_true, beq_iff_eq] at h
  rcases h with ((rfl | rfl) | rfl) | rfl <;> rfl

/-- From plain code the text gives the tokens of the lexeme, some of them held back. -/
def ReadAs (l : Lexeme) (s : GoString) : Prop :=
  ∃ toks m, (scanner true).run .code s = (toks, m) ∧ m.isCode ∧
    (toks ++ m.pending).map Token.folded = l.tokens ∧ Behind l m

theorem readAs_word {w s : GoString} (hne : w ≠ []) (hw : ∀ c ∈ w, isIdentChar c)
    (h : upper s = upper w) : ReadAs (.word w hne hw) s := by
  have hs := isIdentChar_of_upper_eq h hw
  have hspelled : (Lexeme.word w hne hw).Spelled s := h
  obtain ⟨c, s, rfl, -⟩ := begins_of_spelled hspelled
  rw [List.forall_mem_cons] at hs
  refine ⟨[], .word (c :: s), ?_, rfl, ?_, ?_⟩
  · rw [Transducer.run_cons, step_enter rfl rfl, enter_ident hs.1]
    simp only [run_word _ hs.2]
    rfl
  · change [Token.folded ⟨c :: s, false⟩] = [⟨upper w, false⟩]
    rw [← h]
    rfl
  · intro l' c' hl' hc'
    obtain ⟨w', hne', hw', rfl⟩ := eq_word_of_begins hl' hc'
    trivial

theorem readAs_ident (d : Delimiter) (text : GoString) :
    ReadAs (.ident d text) (d.byte :: (double d.byte text ++ [d.byte])) := by
  refine ⟨[], .quotedEnd d text, ?_, rfl, rfl, ?_⟩
  · rw [Transducer.run_cons, step_enter rfl rfl, enter_delimiter]
    simp only [run_quoted]
    rfl
  · intro l' c' hl' hc'
    obtain rfl : c' = d.byte := by simpa [Mode.continues] using hc'
    obtain ⟨text', rfl⟩ := eq_ident_of_begins hl'
    rfl

theorem readAs_bracketed {text : GoString} (h : Byte.closeBracket ∉ text) :
    ReadAs (.bracketed text h) (Byte.openBracket :: (text ++ [Byte.closeBracket])) := by
  have hopen : (scanner true).run .code (Byte.openBracket :: (text ++ [Byte.closeBracket])) =
      (scanner true).run (.bracket []) (text ++ [Byte.closeBracket]) := rfl
  refine ⟨[⟨text, true⟩], .code, ?_, rfl, rfl, behind_of_not_continues fun _ => rfl⟩
  rw [hopen, run_bracket _ h]
  rfl

theorem readAs_literal (text : GoString) :
    ReadAs (.literal text) (Byte.quote :: (double Byte.quote text ++ [Byte.quote])) := by
  have hopen : (scanner true).run .code
      (Byte.quote :: (double Byte.quote text ++ [Byte.quote])) =
        (scanner true).run .literal (double Byte.quote text ++ [Byte.quote]) := rfl
  refine ⟨[], .literalQuote, ?_, rfl, rfl, ?_⟩
  · rw [hopen, run_literal]
  · intro l' c' hl' hc'
    obtain rfl : c' = Byte.quote := by simpa [Mode.continues] using hc'
    obtain ⟨text', rfl⟩ := eq_literal_of_begins hl'
    trivial

theorem readAs_mark {c : UInt8} (h : isMark c) : ReadAs (.mark c h) [c] := by
  refine ⟨[⟨[c], false⟩], .code, ?_, rfl, ?_, behind_of_not_continues fun _ => rfl⟩
  · rw [Transducer.run_singleton, step_enter rfl rfl, enter_mark h]
    rfl
  · exact congrArg (fun t => [t]) (folded_mark h)

theorem readAs_op {c : UInt8} (h : isOp c) : ReadAs (.op c h) [c] := by
  unfold ReadAs
  rw [Transducer.run_singleton, step_enter rfl rfl]
  by_cases hminus : c = Byte.minus
  · subst hminus
    refine ⟨[], .dash, rfl, rfl, rfl, ?_⟩
    intro l' c' hl' hc'
    obtain rfl : c' = Byte.minus := by simpa [Mode.continues] using hc'
    obtain ⟨h', rfl⟩ := eq_op_of_begins (by decide) hl'
    exact .inl ⟨rfl, rfl⟩
  by_cases hslash : c = Byte.slash
  · subst hslash
    refine ⟨[], .slash, rfl, rfl, rfl, ?_⟩
    intro l' c' hl' hc'
    obtain rfl : c' = 42 := by simpa [Mode.continues] using hc'
    obtain ⟨h', rfl⟩ := eq_op_of_begins (by decide) hl'
    exact .inr ⟨rfl, rfl⟩
  rw [enter_op h hminus hslash]
  exact ⟨[], .code, rfl, rfl, rfl, behind_of_not_continues fun _ => rfl⟩

theorem readAs_of_spelled {l : Lexeme} {s : GoString} (h : l.Spelled s) : ReadAs l s := by
  cases l with
  | word w hne hw => exact readAs_word hne hw h
  | ident d text => exact h ▸ readAs_ident d text
  | bracketed text htext => exact h ▸ readAs_bracketed htext
  | literal text => exact h ▸ readAs_literal text
  | mark c hc => exact h ▸ readAs_mark hc
  | op c hc => exact h ▸ readAs_op hc

theorem skipLine_of_not_mem {s : GoString} (h : Byte.newline ∉ s) : skipLine s = [] := by
  induction s with
  | nil => rfl
  | cons c s ih =>
    rw [List.mem_cons, not_or] at h
    have hskip : skipLine (c :: s) = skipLine s := by simp [skipLine, Ne.symm h.1]
    rw [hskip, ih h.2]

theorem output_last_comment {m : Mode} (hm : m.isCode) {text : GoString}
    (h : Byte.newline ∉ text) :
    (scanner brackets).output m (Byte.minus :: Byte.minus :: text) = m.pending := by
  have hline : ∀ {s : GoString}, Byte.newline ∉ s → (scanner brackets).output .line s = [] := by
    intro s hs
    rw [output_line, skipLine_of_not_mem hs]
    rfl
  by_cases hdash : m = .dash
  · subst hdash
    rw [Transducer.output_cons, step_continue rfl]
    have hminus : Byte.newline ≠ Byte.minus := by decide
    exact hline (by simp [hminus, h])
  · rw [Transducer.output_cons, step_enter hm (not_continues_minus hdash)]
    change m.pending ++ [] ++ (scanner brackets).output .dash (Byte.minus :: text) = _
    rw [Transducer.output_cons, step_continue rfl]
    change m.pending ++ [] ++ ([] ++ (scanner brackets).output .line text) = _
    rw [hline h]
    simp

/-- What the scanner makes of a rendering, behind a lexeme that it has just read. -/
theorem output_of_renders {prev : Option Lexeme} {ls : List Lexeme} {s : GoString}
    (h : Renders prev ls s) {m : Mode} (hm : m.isCode)
    (hprev : ∀ c, m.continues c → ∃ p ∈ prev, Behind p m) :
    ((scanner true).output m s).map Token.folded =
      m.pending.map Token.folded ++ ls.flatMap Lexeme.tokens := by
  induction h generalizing m with
  | nil g =>
    have hend : (scanner true).output m (Gap.bytes g) = m.pending := by
      unfold Transducer.output
      rw [run_gap hm]
      split
      · rfl
      · exact List.append_nil _
    rw [hend]
    simp
  | @comment prev g text htext =>
    have hend : (scanner true).output m (Gap.bytes g ++ Byte.minus :: Byte.minus :: text) =
        m.pending := by
      rw [Transducer.output_append, run_gap hm]
      split
      · exact output_last_comment hm htext
      · rw [output_last_comment rfl htext]
        exact List.append_nil _
    rw [hend]
    simp
  | @cons prev l ls s t g hgap hl ht ih =>
    obtain ⟨c, s', rfl, hbegins⟩ := begins_of_spelled hl
    obtain ⟨toks, m', hrun, hm', htoks, hbehind⟩ := readAs_of_spelled hl
    have hrest := ih hm' fun c' _ => ⟨l, rfl, hbehind⟩
    -- behind the gap the lexeme is read as from plain code
    have hgap' : (scanner true).run m (Gap.bytes g ++ c :: s') = (m.pending ++ toks, m') := by
      rw [Transducer.run_append, run_gap hm]
      split
      · rename_i hg
        have hc : m.continues c = false := by
          rw [Bool.eq_false_iff]
          intro hc
          obtain ⟨p, hp, hpm⟩ := hprev c hc
          exact hgap hg p hp (hpm l c hbegins hc)
        rw [run_of_not_continues hm hc, hrun]
        rfl
      · rw [hrun]
    rw [← List.append_assoc, Transducer.output_append, hgap', List.map_append, hrest,
      List.flatMap_cons, ← htoks]
    simp only [List.map_append, List.append_assoc]

/-- The tokenizer finds the tokens of the lexemes, up to the case of words. -/
theorem tokenize_of_renders {ls : List Lexeme} {s : GoString} (h : Renders none ls s) :
    (tokenize s).map Token.folded = ls.flatMap Lexeme.tokens := by
  rw [tokenize_eq_output, output_of_renders h rfl]
  · rfl
  · intro c hc
    cases hc

end Runs

end TrinoGoway.SqlMeta
