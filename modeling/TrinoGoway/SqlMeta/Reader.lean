import TrinoGoway.Lib.Transducer
import TrinoGoway.SqlMeta.Extraction

/-! The scan for tables as a machine: where in a text a table is expected, and which name stands
there. The loops of `extractTableRefs` are nested and look ahead; the machine goes over the tokens
once, so what it does at a place depends on the tokens before it only through one of seven
states. -/
namespace TrinoGoway.SqlMeta

open Go

namespace Token

def isWord (t : Token) (words : List GoString) : Bool := !t.quoted && decide (upper t.text ∈ words)

def isAnchor (t : Token) : Bool := t.isWord tableKeywords

/-- A token where a table is expected that is none: a parenthesis, also a quoted one, a comma or a
word that ends a list. -/
def isNone (t : Token) : Bool :=
  t.text = str "(" || (!t.quoted && (t.text = str "," || t.text = str ")")) ||
    t.isWord refStopKeywords

end Token

inductive Place
  /-- outside of a list of tables -/
  | apart
  /-- behind a word that announces tables, and `ONLY`s -/
  | expecting
  /-- behind a comma of a list -/
  | listed
  /-- behind a part of a name -/
  | named
  /-- behind a dot of a name -/
  | dotted
  /-- behind the `AS` of an alias -/
  | renamed
  /-- behind an alias -/
  | aliased
  deriving DecidableEq

inductive Reading
  | first (part : GoString)
  | more (part : GoString)
  deriving DecidableEq

namespace Place

def begin (t : Token) : List Reading × Place :=
  if t.isNone then ([], apart) else ([.first (partText t)], named)

def pass (t : Token) : Place := if t.isAnchor then expecting else apart

def step : Place → Token → List Reading × Place
  | apart, t => ([], pass t)
  | expecting, t => if t.isWord [str "ONLY"] then ([], expecting) else begin t
  | listed, t => begin t
  | named, t =>
    if t.text = str "." then ([], dotted)
    else if t.isWord [str "AS"] then ([], renamed)
    else if t.text = str "," then ([], listed)
    else if t.text = str "(" ∨ t.text = str ")" ∨ t.isWord refStopKeywords ∨ t.isAnchor then
      ([], pass t)
    else ([], aliased)
  | dotted, t => ([.more (partText t)], named)
  | renamed, _ => ([], aliased)
  | aliased, t => ([], if t.text = str "," then listed else pass t)

end Place

/-- Nothing is left to be read at the end of the tokens. -/
def reader : Transducer Place Token Reading where
  step := Place.step
  finish _ := []

/-- The parts at the beginning that go on with a name, and the names that follow. -/
def gather : List Reading → List GoString × List RawRef
  | [] => ([], [])
  | .first part :: rs => ([], ⟨part, (gather rs).1⟩ :: (gather rs).2)
  | .more part :: rs => (part :: (gather rs).1, (gather rs).2)

/-- What is read from a place on: the parts that go on with a name, and the names that follow. -/
def readFrom (p : Place) (toks : List Token) : List GoString × List RawRef :=
  gather (reader.output p toks)

def placeAfter (p : Place) (toks : List Token) : Place := (reader.run p toks).2

/-! ### One pass -/

@[simp] theorem readFrom_nil (p : Place) : readFrom p [] = ([], []) := rfl

theorem reader_output_cons (p : Place) (t : Token) (toks : List Token) :
    reader.output p (t :: toks) = (p.step t).1 ++ reader.output (p.step t).2 toks :=
  reader.output_cons p t toks

@[simp] theorem placeAfter_nil (p : Place) : placeAfter p [] = p := rfl

@[simp] theorem placeAfter_cons (p : Place) (t : Token) (toks : List Token) :
    placeAfter p (t :: toks) = placeAfter (p.step t).2 toks := rfl

theorem placeAfter_append (p : Place) (xs ys : List Token) :
    placeAfter p (xs ++ ys) = placeAfter (placeAfter p xs) ys := by
  unfold placeAfter
  rw [Transducer.run_append]

section Steps

variable {p : Place} {t : Token} {toks : List Token}

theorem readFrom_of_none (h : (p.step t).1 = []) :
    readFrom p (t :: toks) = readFrom (p.step t).2 toks := by
  rw [readFrom, reader_output_cons, h]
  rfl

theorem readFrom_of_first {part : GoString} (h : (p.step t).1 = [.first part]) :
    readFrom p (t :: toks) =
      ([], ⟨part, (readFrom (p.step t).2 toks).1⟩ :: (readFrom (p.step t).2 toks).2) := by
  rw [readFrom, reader_output_cons, h]
  rfl

theorem readFrom_begin (hp : p.step t = Place.begin t) :
    readFrom p (t :: toks) =
      if t.isNone then readFrom .apart toks
      else ([], ⟨partText t, (readFrom .named toks).1⟩ :: (readFrom .named toks).2) := by
  rw [readFrom, reader_output_cons, hp, Place.begin]
  cases t.isNone with
  | true => rfl
  | false => rfl

end Steps

/-! ### The loops of the source -/

def listFrom (toks : List Token) : List RawRef :=
  if nextIs (str "(") toks then extractTableRefs toks
  else (refsAt toks).1 ++ extractTableRefs (refsAt toks).2

def aliasFrom (toks : List Token) : List RawRef :=
  if nextIs (str ",") toks then listFrom toks.tail else extractTableRefs toks

theorem isAnchor_iff {t : Token} :
    t.isAnchor = true ↔ t.quoted = false ∧ upper t.text ∈ tableKeywords := by
  simp [Token.isAnchor, Token.isWord]

theorem not_isAnchor_iff {t : Token} :
    t.isAnchor = false ↔ t.quoted ∨ upper t.text ∉ tableKeywords := by
  rw [← Bool.not_eq_true, isAnchor_iff, Classical.not_and_iff_not_or_not, Bool.not_eq_false]

theorem extractTableRefs_pass {t : Token} (h : t.isAnchor = false) (toks : List Token) :
    extractTableRefs (t :: toks) = extractTableRefs toks :=
  extractTableRefs_of_not_anchor (not_isAnchor_iff.mp h) toks

theorem not_isAnchor_of_text {t : Token} (h : upper t.text ∉ tableKeywords) :
    t.isAnchor = false := not_isAnchor_iff.mpr (.inr h)

theorem not_isAnchor_of_mark {t : Token}
    (h : t.text = str "(" ∨ t.text = str ")" ∨ t.text = str "," ∨ t.text = str ".") :
    t.isAnchor = false := by
  apply not_isAnchor_of_text
  rcases h with h | h | h | h <;> rw [h] <;> decide

theorem not_isAnchor_of_isNone {t : Token} (h : t.isNone = true) : t.isAnchor = false := by
  have hstop : ∀ w ∈ refStopKeywords, w ∉ tableKeywords := by decide
  simp only [Token.isNone, Token.isWord, Bool.or_eq_true, Bool.and_eq_true, decide_eq_true_eq] at h
  rcases h with (h | ⟨-, h | h⟩) | ⟨-, h⟩
  · exact not_isAnchor_of_mark (.inl h)
  · exact not_isAnchor_of_mark (.inr (.inr (.inl h)))
  · exact not_isAnchor_of_mark (.inr (.inl h))
  · exact not_isAnchor_of_text (hstop _ h)

theorem listFrom_of_isNone {t : Token} (h : t.isNone = true) (toks : List Token) :
    listFrom (t :: toks) = extractTableRefs toks := by
  have hpass := extractTableRefs_pass (not_isAnchor_of_isNone h) toks
  rw [listFrom]
  split
  · exact hpass
  next hopen =>
    have hread : readRef (t :: toks) = none := by
      simp only [nextIs, decide_eq_true_eq] at hopen
      simp only [Token.isNone, Token.isWord, hopen, decide_false, Bool.false_or, Bool.or_eq_true,
        Bool.and_eq_true, Bool.not_eq_true', decide_eq_true_eq] at h
      rw [readRef, if_pos]
      grind
    rw [refsAt_of_none hread]
    exact hpass

theorem listFrom_of_name {t : Token} (h : t.isNone = false) (toks : List Token) :
    listFrom (t :: toks) =
      ⟨partText t, (readParts toks).1⟩ :: aliasFrom (skipAlias (readParts toks).2) := by
  simp only [Token.isNone, Token.isWord, Bool.or_eq_false_iff, Bool.and_eq_false_iff,
    decide_eq_false_iff_not, Bool.not_eq_false'] at h
  have hopen : nextIs (str "(") (t :: toks) = false := by simp [nextIs, h.1.1]
  have hread : readRef (t :: toks) =
      some (⟨partText t, (readParts toks).1⟩, (readParts toks).2) := by
    rw [readRef, if_neg]
    grind
  rw [listFrom, if_neg (Bool.eq_false_iff.mp hopen), refsAt_of_some hread, aliasFrom, listFrom]
  split
  · split
    · rfl
    · rfl
  · rfl

theorem readParts_of_not_dot {t : Token} (h : t.text ≠ str ".") (toks : List Token) :
    readParts (t :: toks) = ([], t :: toks) := by
  cases toks with
  | nil => rfl
  | cons next toks => simp [readParts, h]

theorem isWord_singleton {t : Token} {word : GoString} :
    t.isWord [word] = true ↔ t.quoted = false ∧ upper t.text = word := by
  simp [Token.isWord]

theorem skipOnly_cons (t : Token) (toks : List Token) :
    skipOnly (t :: toks) = if t.isWord [str "ONLY"] then skipOnly toks else t :: toks := by
  by_cases h : t.isWord [str "ONLY"] = true
  · rw [if_pos h]
    exact List.dropWhile_cons_of_pos (by simpa using isWord_singleton.mp h)
  · rw [if_neg h]
    exact List.dropWhile_cons_of_neg (by simpa using mt isWord_singleton.mpr h)

theorem skipAlias_cons (t : Token) (toks : List Token) :
    skipAlias (t :: toks) =
      if t.isWord [str "AS"] then toks.tail
      else if t.text = str "," ∨ t.text = str "(" ∨ t.text = str ")" ∨ t.text = str "." ∨
          t.isWord refStopKeywords ∨ t.isAnchor then t :: toks
      else toks := by
  simp only [skipAlias, Token.isAnchor, Token.isWord, List.mem_singleton]
  grind

def sourceFrom : Place → List Token → List GoString × List RawRef
  | .apart, toks => ([], extractTableRefs toks)
  | .expecting, toks => ([], listFrom (skipOnly toks))
  | .listed, toks => ([], listFrom toks)
  | .aliased, toks => ([], aliasFrom toks)
  | .renamed, toks => ([], aliasFrom toks.tail)
  | .named, toks => ((readParts toks).1, aliasFrom (skipAlias (readParts toks).2))
  | .dotted, [] => ([], [])
  | .dotted, t :: toks =>
    (partText t :: (readParts toks).1, aliasFrom (skipAlias (readParts toks).2))

section Source

variable {t : Token} {toks : List Token}

theorem sourceFrom_pass : sourceFrom .apart (t :: toks) = sourceFrom (Place.pass t) toks := by
  unfold Place.pass
  split
  next h =>
    obtain ⟨hquoted, hword⟩ := isAnchor_iff.mp h
    simp only [sourceFrom, extractTableRefs_of_anchor hquoted hword, listFrom]
  next h => simp only [sourceFrom, extractTableRefs_pass (Bool.eq_false_iff.mpr h)]

theorem sourceFrom_begin :
    sourceFrom .listed (t :: toks) =
      if t.isNone then sourceFrom .apart toks
      else ([], ⟨partText t, (sourceFrom .named toks).1⟩ :: (sourceFrom .named toks).2) := by
  split
  next h => simp only [sourceFrom, listFrom_of_isNone h]
  next h => simp only [sourceFrom, listFrom_of_name (Bool.eq_false_iff.mpr h)]

theorem sourceFrom_aliased :
    sourceFrom .aliased (t :: toks) =
      if t.text = str "," then sourceFrom .listed toks else sourceFrom .apart (t :: toks) := by
  simp only [sourceFrom, aliasFrom, nextIs, decide_eq_true_eq, List.tail_cons]
  split <;> rfl

/-- Behind a name: a dot goes on with it, a comma with the list, and an alias may follow. -/
theorem sourceFrom_named :
    sourceFrom .named (t :: toks) =
      if t.text = str "." then sourceFrom .dotted toks
      else if t.isWord [str "AS"] then sourceFrom .renamed toks
      else if t.text = str "," then sourceFrom .listed toks
      else if t.text = str "(" ∨ t.text = str ")" ∨ t.isWord refStopKeywords ∨ t.isAnchor then
        sourceFrom .apart (t :: toks)
      else sourceFrom .aliased toks := by
  by_cases hdot : t.text = str "."
  · rw [if_pos hdot]
    have hanchor := not_isAnchor_of_mark (t := t) (.inr (.inr (.inr hdot)))
    cases toks with
    | nil =>
      have halias : aliasFrom (skipAlias [t]) = [] := by
        rw [skipAlias_cons, if_neg, if_pos (by simp [hdot]), aliasFrom, if_neg,
          extractTableRefs_pass hanchor]
        · rfl
        · simp only [nextIs, hdot]
          decide
        · rw [isWord_singleton, hdot]
          exact fun h => absurd h.2 (by decide)
      simp only [sourceFrom]
      exact congrArg _ halias
    | cons next toks => simp [sourceFrom, readParts, hdot]
  · rw [if_neg hdot]
    simp only [sourceFrom, readParts_of_not_dot hdot, skipAlias_cons]
    by_cases has : t.isWord [str "AS"] = true
    · rw [if_pos has, if_pos has]
    · rw [if_neg has, if_neg has]
      by_cases hcomma : t.text = str ","
      · rw [if_pos hcomma, if_pos (.inl hcomma), aliasFrom, if_pos (by simp [nextIs, hcomma])]
        rfl
      · rw [if_neg hcomma]
        simp only [hcomma, hdot, false_or]
        split
        · rw [aliasFrom, if_neg (by simp [nextIs, hcomma])]
        · rfl

end Source

theorem readFrom_eq (p : Place) (toks : List Token) : readFrom p toks = sourceFrom p toks := by
  induction toks generalizing p with
  | nil => cases p <;> rfl
  | cons t toks ih =>
    have hbegin {p : Place} (hp : p.step t = Place.begin t) :
        readFrom p (t :: toks) = sourceFrom .listed (t :: toks) := by
      rw [readFrom_begin hp, sourceFrom_begin, ih, ih]
    have hpass {p : Place} (hp : p.step t = ([], Place.pass t)) :
        readFrom p (t :: toks) = sourceFrom .apart (t :: toks) := by
      rw [readFrom_of_none (by rw [hp]), hp, sourceFrom_pass, ih]
    have hgoes {p q : Place} (hp : p.step t = ([], q)) :
        readFrom p (t :: toks) = sourceFrom q toks := by
      rw [readFrom_of_none (by rw [hp]), hp, ih]
    cases p with
    | apart => exact hpass rfl
    | listed => exact hbegin rfl
    | renamed => exact hgoes (p := .renamed) (q := .aliased) rfl
    | expecting =>
      have hskip := skipOnly_cons t toks
      by_cases honly : t.isWord [str "ONLY"] = true
      · rw [hgoes (p := .expecting) (q := .expecting) (if_pos honly)]
        simp only [sourceFrom, hskip, if_pos honly]
      · rw [hbegin (p := .expecting) (if_neg honly)]
        simp only [sourceFrom, hskip, if_neg honly]
    | dotted =>
      have hmore : readFrom .dotted (t :: toks) =
          (partText t :: (readFrom .named toks).1, (readFrom .named toks).2) := rfl
      rw [hmore, ih]
      rfl
    | aliased =>
      rw [sourceFrom_aliased]
      split
      next hcomma => exact hgoes (congrArg _ (if_pos hcomma))
      next hcomma => exact hpass (congrArg _ (if_neg hcomma))
    | named =>
      rw [sourceFrom_named]
      split
      next h => exact hgoes (if_pos h)
      next hdot =>
        split
        next h => exact hgoes ((if_neg hdot).trans (if_pos h))
        next has =>
          split
          next h => exact hgoes ((if_neg hdot).trans ((if_neg has).trans (if_pos h)))
          next hcomma =>
            split
            next h =>
              exact hpass ((if_neg hdot).trans ((if_neg has).trans ((if_neg hcomma).trans
                (if_pos h))))
            next h =>
              exact hgoes ((if_neg hdot).trans ((if_neg has).trans ((if_neg hcomma).trans
                (if_neg h))))

/-- The references that the loops find are the names that the machine reads. -/
theorem extractTableRefs_eq (toks : List Token) :
    extractTableRefs toks = (readFrom .apart toks).2 := by
  rw [readFrom_eq]
  rfl

/-! ### Names and places -/

def Place.Takes (p : Place) (t : Token) : Prop :=
  (p = .expecting ∧ t.isWord [str "ONLY"] = false ∨ p = .listed) ∧ t.isNone = false

instance (p : Place) (t : Token) : Decidable (p.Takes t) :=
  inferInstanceAs (Decidable (_ ∧ _))

/-- The name that begins with a token: the parts that dots join to it. -/
def nameAt (t : Token) (toks : List Token) : RawRef := ⟨partText t, (readParts toks).1⟩

/-- A name stands where a table is expected. -/
def Named (p : Place) (toks : List Token) (ref : RawRef) : Prop :=
  ∃ pre t post, toks = pre ++ t :: post ∧ (placeAfter p pre).Takes t ∧ ref = nameAt t post

section Named

variable {p : Place} {t : Token} {toks : List Token} {ref : RawRef}

theorem step_of_takes (h : p.Takes t) : p.step t = ([.first (partText t)], .named) := by
  obtain ⟨hplace, hname⟩ := h
  have hbegin : Place.begin t = ([.first (partText t)], .named) := by
    rw [Place.begin, if_neg (by simp [hname])]
  rcases hplace with ⟨rfl, honly⟩ | rfl
  · change (if _ then _ else Place.begin t) = _
    rw [if_neg (by simp [honly]), hbegin]
  · exact hbegin

theorem step_of_not_takes (h : ¬p.Takes t) :
    (p.step t).1 = [] ∨ p = .dotted ∧ p.step t = ([.more (partText t)], .named) := by
  have hbegin (hnot : t.isNone = true) : (Place.begin t).1 = [] := by
    rw [Place.begin, if_pos hnot]
  cases p with
  | apart => exact .inl rfl
  | renamed => exact .inl rfl
  | aliased => exact .inl rfl
  | dotted => exact .inr ⟨rfl, rfl⟩
  | listed =>
    left
    exact hbegin (by simpa [Place.Takes] using h)
  | expecting =>
    left
    change (if _ then _ else Place.begin t).1 = _
    split
    · rfl
    next honly => exact hbegin (by simpa [Place.Takes, honly] using h)
  | named =>
    left
    simp only [Place.step]
    split_ifs <;> rfl

theorem readFrom_named_fst (toks : List Token) : (readFrom .named toks).1 = (readParts toks).1 := by
  rw [readFrom_eq]
  rfl

theorem named_cons :
    Named p (t :: toks) ref ↔ p.Takes t ∧ ref = nameAt t toks ∨ Named (p.step t).2 toks ref := by
  constructor
  · rintro ⟨pre, t', post, hsplit, htakes, href⟩
    cases pre with
    | nil =>
      obtain ⟨rfl, rfl⟩ := List.cons.inj hsplit
      exact .inl ⟨htakes, href⟩
    | cons u pre =>
      obtain ⟨rfl, rfl⟩ := List.cons.inj hsplit
      exact .inr ⟨pre, t', post, rfl, htakes, href⟩
  · rintro (⟨htakes, href⟩ | ⟨pre, t', post, rfl, htakes, href⟩)
    · exact ⟨[], t, toks, rfl, htakes, href⟩
    · exact ⟨t :: pre, t', post, rfl, htakes, href⟩

theorem mem_readFrom_iff : ref ∈ (readFrom p toks).2 ↔ Named p toks ref := by
  induction toks generalizing p with
  | nil =>
    constructor
    · exact fun h => absurd h List.not_mem_nil
    · rintro ⟨pre, t, post, hsplit, -⟩
      simp at hsplit
  | cons t toks ih =>
    rw [named_cons]
    by_cases htakes : p.Takes t
    · have hstep := step_of_takes htakes
      rw [readFrom_of_first (by rw [hstep]), hstep, List.mem_cons, ih, readFrom_named_fst]
      exact or_congr_left ⟨fun href => ⟨htakes, href⟩, And.right⟩
    · have hrest : (readFrom p (t :: toks)).2 = (readFrom (p.step t).2 toks).2 := by
        rcases step_of_not_takes htakes with hnone | ⟨rfl, hstep⟩
        · rw [readFrom_of_none hnone]
        · rfl
      rw [hrest, ih]
      exact ⟨.inr, fun h => h.resolve_left fun h => htakes h.1⟩

/-- The references of a text are the names that stand where a table is expected. -/
theorem mem_extractTableRefs_iff : ref ∈ extractTableRefs toks ↔ Named .apart toks ref := by
  rw [extractTableRefs_eq, mem_readFrom_iff]

end Named

end TrinoGoway.SqlMeta
