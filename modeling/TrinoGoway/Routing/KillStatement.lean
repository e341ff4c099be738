import TrinoGoway.Routing.Extract

/-! The statements that `killQueryRE` is meant for. -/
namespace TrinoGoway.Routing

open Go

def IsRun (p : UInt8 → Bool) (s : GoString) : Prop := s ≠ [] ∧ ∀ c ∈ s, p c = true

def KillID (q : GoString) : Prop :=
  ∃ d₁ d₂ d₃ w, IsRun Byte.isDigit d₁ ∧ IsRun Byte.isDigit d₂ ∧ IsRun Byte.isDigit d₃ ∧
    IsRun Byte.isWord w ∧
    q = d₁ ++ [Byte.underscore] ++ d₂ ++ [Byte.underscore] ++ d₃ ++ [Byte.underscore] ++ w

/-- The body is `KILL QUERY 'q'`, in any case and spacing, and whatever follows it. -/
def KillStatement (q body : GoString) : Prop :=
  ∃ lead kill sp query sp' rest, (∀ c ∈ lead, isSpace c = true) ∧
    kill.map Byte.toUpper = str "KILL" ∧ IsRun isSpace sp ∧
    query.map Byte.toUpper = str "QUERY" ∧ IsRun isSpace sp' ∧
    body = lead ++ (kill ++ (sp ++ (query ++ (sp' ++ Byte.quote :: (q ++ Byte.quote :: rest)))))

section Scan

theorem foldLetter_of_toUpper {l b : UInt8} (hl : l < 128) (h : Byte.toUpper b = l)
    (s : GoString) : foldLetter l (b :: s) = some s := by
  have hb : b ≠ 226 := by
    rintro rfl
    subst h
    exact absurd hl (by decide)
  unfold foldLetter
  split
  · next heq =>
    obtain ⟨rfl, -⟩ := List.cons.inj heq
    exact absurd rfl hb
  · next heq =>
    obtain ⟨rfl, rfl⟩ := List.cons.inj heq
    rw [if_pos h]
  · next heq => cases heq

theorem foldWord_of_toUpper {w k : GoString} (hw : w.all fun l => l < 128)
    (h : k.map Byte.toUpper = w) (s : GoString) : foldWord w (k ++ s) = some s := by
  induction k generalizing w with
  | nil =>
    subst h
    rfl
  | cons b k ih =>
    subst h
    rw [List.map_cons, List.all_cons, Bool.and_eq_true, decide_eq_true_eq] at hw
    rw [List.map_cons, List.cons_append, foldWord, foldLetter_of_toUpper hw.1 rfl,
      Option.bind_some]
    exact ih hw.2 rfl

private theorem span_run {p : UInt8 → Bool} {s : GoString} (hs : IsRun p s) {c : UInt8}
    (hc : p c = false) (t : GoString) :
    (s ++ c :: t).takeWhile p = s ∧ (s ++ c :: t).dropWhile p = c :: t := by
  constructor
  · rw [List.takeWhile_append_of_pos hs.2]
    simp [hc]
  · rw [List.dropWhile_append_of_pos hs.2]
    simp [hc]

theorem spaces_run {s : GoString} (hs : IsRun isSpace s) {c : UInt8} (hc : isSpace c = false)
    (t : GoString) : spaces (s ++ c :: t) = some (c :: t) := by
  obtain ⟨htake, hdrop⟩ := span_run hs hc t
  unfold spaces
  rw [htake, hdrop, if_neg (by simpa using hs.1)]

theorem digits_run {s : GoString} (hs : IsRun Byte.isDigit s) {c : UInt8}
    (hc : Byte.isDigit c = false) (t : GoString) : digits (s ++ c :: t) = some (s, c :: t) := by
  obtain ⟨htake, hdrop⟩ := span_run hs hc t
  unfold digits
  rw [htake, hdrop, if_neg (by simpa using hs.1)]

private theorem wordRun_cons {b : UInt8} (h₁ : b ≠ 197) (h₂ : b ≠ 226) (s : GoString) :
    wordRun (b :: s) =
      if Byte.isWord b then (b :: (wordRun s).1, (wordRun s).2) else ([], b :: s) := by
  rw [wordRun.eq_def]
  split
  · next heq => exact absurd (List.cons.inj heq).1 h₁
  · next heq => exact absurd (List.cons.inj heq).1 h₂
  · next heq =>
    obtain ⟨rfl, rfl⟩ := List.cons.inj heq
    rfl
  · next heq => cases heq

theorem wordRun_run {w : GoString} (hw : ∀ c ∈ w, Byte.isWord c = true) (t : GoString) :
    wordRun (w ++ Byte.quote :: t) = (w, Byte.quote :: t) := by
  induction w with
  | nil =>
    rw [List.nil_append, wordRun_cons (by decide) (by decide), if_neg (by decide)]
  | cons b w ih =>
    have hb : Byte.isWord b = true := hw b List.mem_cons_self
    have h₁ : b ≠ 197 := by
      rintro rfl
      exact absurd hb (by decide)
    have h₂ : b ≠ 226 := by
      rintro rfl
      exact absurd hb (by decide)
    rw [List.cons_append, wordRun_cons h₁ h₂, if_pos hb,
      ih fun c hc => hw c (List.mem_cons_of_mem _ hc)]

end Scan

private theorem not_isSpace_of_toUpper {b l : UInt8} (h : Byte.toUpper b = l)
    (hl : 65 ≤ l ∧ l ≤ 90) : isSpace b = false := by
  by_contra hne
  have hb : isSpace b = true := by simpa using hne
  unfold isSpace at hb
  simp only [Bool.or_eq_true, beq_iff_eq] at hb
  rcases hb with (((rfl | rfl) | rfl) | rfl) | rfl <;> subst h <;> revert hl <;> decide

theorem matchKillQuery_of_kill {q kill sp query sp' : GoString} (hq : KillID q)
    (hkill : kill.map Byte.toUpper = str "KILL") (hsp : IsRun isSpace sp)
    (hquery : query.map Byte.toUpper = str "QUERY") (hsp' : IsRun isSpace sp')
    (rest : GoString) :
    matchKillQuery
      (kill ++ (sp ++ (query ++ (sp' ++ Byte.quote :: (q ++ Byte.quote :: rest))))) = some q := by
  obtain ⟨d₁, d₂, d₃, w, h₁, h₂, h₃, hw, rfl⟩ := hq
  obtain ⟨c, query', rfl, hc⟩ : ∃ c query', query = c :: query' ∧ isSpace c = false := by
    cases query with
    | nil => cases hquery
    | cons c query' =>
      have hc : Byte.toUpper c = 81 := (List.cons.inj hquery).1
      exact ⟨c, query', rfl, not_isSpace_of_toUpper hc (by decide)⟩
  -- what is left to scan after each part of the pattern
  let t₃ := w ++ Byte.quote :: rest
  let t₂ := d₃ ++ Byte.underscore :: t₃
  let t₁ := d₂ ++ Byte.underscore :: t₂
  let t₀ := d₁ ++ Byte.underscore :: t₁
  have hid : d₁ ++ [Byte.underscore] ++ d₂ ++ [Byte.underscore] ++ d₃ ++ [Byte.underscore] ++ w ++
      Byte.quote :: rest = t₀ := by
    simp [t₀, t₁, t₂, t₃]
  have hword := wordRun_run hw.2 rest
  have hd₁ : digits t₀ = some (d₁, Byte.underscore :: t₁) := digits_run h₁ (by decide) t₁
  have hd₂ : digits t₁ = some (d₂, Byte.underscore :: t₂) := digits_run h₂ (by decide) t₂
  have hd₃ : digits t₂ = some (d₃, Byte.underscore :: t₃) := digits_run h₃ (by decide) t₃
  have hs : spaces (sp ++ (c :: query' ++ (sp' ++ Byte.quote :: t₀))) =
      some (c :: query' ++ (sp' ++ Byte.quote :: t₀)) := spaces_run hsp hc _
  have hs' : spaces (sp' ++ Byte.quote :: t₀) = some (Byte.quote :: t₀) :=
    spaces_run hsp' (by decide) t₀
  have hf := foldWord_of_toUpper (by decide) hkill
    (sp ++ (c :: query' ++ (sp' ++ Byte.quote :: t₀)))
  have hf' := foldWord_of_toUpper (by decide) hquery (sp' ++ Byte.quote :: t₀)
  rw [hid]
  unfold matchKillQuery
  simp only [hf, hs, hf', hs', literal, hd₁, hd₂, hd₃, if_true, Option.bind_eq_bind,
    Option.bind_some]
  rw [show wordRun t₃ = (w, Byte.quote :: rest) from hword]
  simp [hw.1]

theorem matchKillQuery_space {c : UInt8} (hc : isSpace c = true) (s : GoString) :
    matchKillQuery (c :: s) = none := by
  unfold isSpace at hc
  simp only [Bool.or_eq_true, beq_iff_eq] at hc
  rcases hc with (((rfl | rfl) | rfl) | rfl) | rfl <;> rfl

theorem extractKillQueryID_of_killStatement {q body : GoString} (hq : KillID q)
    (h : KillStatement q body) : extractKillQueryID body = q := by
  obtain ⟨lead, kill, sp, query, sp', rest, hlead, hkill, hsp, hquery, hsp', rfl⟩ := h
  induction lead with
  | nil =>
    have hmatch := matchKillQuery_of_kill hq hkill hsp hquery hsp' rest
    cases kill with
    | nil => cases hkill
    | cons c kill =>
      rw [List.cons_append] at hmatch
      rw [List.nil_append, List.cons_append, extractKillQueryID, hmatch]
  | cons c lead ih =>
    have hc := matchKillQuery_space (hlead c List.mem_cons_self)
      (lead ++ (kill ++ (sp ++ (query ++ (sp' ++ Byte.quote :: (q ++ Byte.quote :: rest))))))
    rw [List.cons_append, extractKillQueryID, hc]
    exact ih fun b hb => hlead b (List.mem_cons_of_mem _ hb)

end TrinoGoway.Routing
