import TrinoGoway.SqlMeta.Coherence
import TrinoGoway.SqlMeta.Literals

/-! Whether a text that is cut at the limit has tables that the whole text has not. A name is
settled once two tokens are behind it: the first is then complete, and the name ends before it. -/
namespace TrinoGoway.SqlMeta

open Go

def Heuristic.kept (h : Heuristic) (sql : GoString) : List Token := tokenize (sql.take h.limit)

/-- The name that begins with the token `t`, behind `pre`, is the same in the text `whole`: it has
the same tokens up to `t`, and the name goes on there with the same parts. -/
def Complete (whole pre : List Token) (t : Token) (post : List Token) : Prop :=
  ∃ post', whole = pre ++ t :: post' ∧ (readParts post').1 = (readParts post).1

/-- A text and its continuation have the tokens in common that are complete. -/
theorem tokenize_append (pre post : GoString) :
    tokenize pre = emitted pre ++ (tokenizerMode pre).pending ∧
      tokenize (pre ++ post) = emitted pre ++ (scanner true).output (tokenizerMode pre) post := by
  constructor
  · rw [tokenize_eq_output]
    rfl
  · rw [tokenize_eq_output, Transducer.output_append]
    rfl

theorem Complete.named {whole pre post : List Token} {t : Token} (h : Complete whole pre t post)
    (htakes : (placeAfter .apart pre).Takes t) : Named .apart whole (nameAt t post) := by
  obtain ⟨post', rfl, hparts⟩ := h
  exact ⟨pre, t, post', rfl, htakes, by rw [nameAt, nameAt, hparts]⟩

end TrinoGoway.SqlMeta
