import TrinoGoway.SqlMeta.Alike
import TrinoGoway.SqlMeta.Lexemes

/-! The analysis does not look at the case of words, and so depends on the lexemes of a text
only. -/
namespace TrinoGoway.SqlMeta

open Go

/-! ### Tokens -/

theorem folded_quoted (t : Token) : t.folded.quoted = t.quoted := by
  unfold Token.folded
  split
  · rfl
  · rename_i h
    exact (Bool.eq_false_iff.mpr h).symm

theorem upper_folded {t : Token} (h : t.quoted = false) : upper t.folded.text = upper t.text := by
  simp [Token.folded, h]

theorem toUpper_eq_mark {c d : UInt8} (hd : isMark d) : Byte.toUpper c = d ↔ c = d := by
  simp only [isMark, Bool.or_eq_true, beq_iff_eq] at hd
  simp only [Byte.toUpper, Byte.isLower]
  rcases hd with ((rfl | rfl) | rfl) | rfl <;> grind

theorem upper_eq_mark {s : GoString} {d : UInt8} (hd : isMark d) : upper s = [d] ↔ s = [d] := by
  match s with
  | [] => simp [upper]
  | [c] => simp [upper, toUpper_eq_mark hd]
  | c :: c' :: s => simp [upper]

theorem toLower_toUpper (c : UInt8) : Byte.toLower (Byte.toUpper c) = Byte.toLower c := by
  simp only [Byte.toUpper, Byte.isLower, Byte.toLower, Byte.isUpper]
  grind

theorem partText_folded (t : Token) : partText t.folded = partText t := by
  obtain ⟨text, quoted⟩ := t
  cases quoted with
  | true => rfl
  | false =>
    change (text.map Byte.toUpper).map Byte.toLower = text.map Byte.toLower
    rw [List.map_map]
    exact List.map_congr_left fun c _ => toLower_toUpper c

theorem alike_folded (t : Token) : Alike Eq t t.folded where
  quoted := folded_quoted t
  upper := upper_folded
  mark d hd := by
    unfold Token.folded
    split
    · rfl
    · exact upper_eq_mark hd
  part := (partText_folded t).symm

theorem analyzeTokens_folded (lower : GoString → GoString) (toks : List Token)
    (defaultCatalog defaultSchema : GoString) :
    analyzeTokens lower (toks.map Token.folded) defaultCatalog defaultSchema =
      analyzeTokens lower toks defaultCatalog defaultSchema := by
  refine analyzeTokens_alike ?_ lower defaultCatalog defaultSchema
  rw [List.forall₂_map_right_iff]
  exact List.forall₂_same.mpr fun t _ => alike_folded t

/-! ### Renderings -/

/-- A rendering that fits is analysed as the tokens of its lexemes. -/
theorem analyze_of_renders {lower : GoString → GoString} {h : Heuristic} {ls : List Lexeme}
    {sql : GoString} (hsql : Renders none ls sql) (hfit : sql.length ≤ h.limit)
    (defaultCatalog defaultSchema : GoString) :
    h.analyze lower sql defaultCatalog defaultSchema =
      analyzeTokens lower (ls.flatMap Lexeme.tokens) defaultCatalog defaultSchema := by
  rw [Heuristic.analyze_of_le hfit, ← analyzeTokens_folded, tokenize_of_renders hsql]

/-- Two renderings of the same lexemes are analysed alike, whatever their gaps and the case of
their words, if both fit. -/
theorem layout_irrelevant {ls : List Lexeme} {sql sql' : GoString} (hsql : Renders none ls sql)
    (hsql' : Renders none ls sql') {h : Heuristic} (hfit : sql.length ≤ h.limit)
    (hfit' : sql'.length ≤ h.limit) (lower : GoString → GoString)
    (defaultCatalog defaultSchema : GoString) :
    h.analyze lower sql defaultCatalog defaultSchema =
      h.analyze lower sql' defaultCatalog defaultSchema := by
  rw [analyze_of_renders hsql hfit, analyze_of_renders hsql' hfit']

def updateLexemes : List Lexeme :=
  [.word (str "UPDATE") (by decide) (List.all_eq_true.mp (by decide)),
    .word (str "t") (by decide) (List.all_eq_true.mp (by decide))]

theorem layout_irrelevant_update :
    (Heuristic.mk 0).analyze id (str "UPDATE t") [] [] =
      (Heuristic.mk 0).analyze id (str "update/* FROM ' */T\n") [] [] := by
  have h₁ : Renders none updateLexemes (str "UPDATE t") :=
    .cons (s := str "UPDATE") (t := str " t") [] (by simp) rfl
      (.cons (s := str "t") (t := []) [.blank 32 rfl] (by simp) rfl (.nil []))
  have h₂ : Renders none updateLexemes (str "update/* FROM ' */T\n") :=
    .cons (s := str "update") (t := str "/* FROM ' */T\n") [] (by simp) rfl
      (.cons (s := str "T") (t := str "\n") [.block (str " FROM ' ") (by decide)] (by simp) rfl
        (.nil [.blank 10 rfl]))
  exact layout_irrelevant h₁ h₂ (by decide) (by decide) _ _ _

end TrinoGoway.SqlMeta
