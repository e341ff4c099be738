import TrinoGoway.Routing.Types

/-! Query ids in statement bodies and request paths. -/
namespace TrinoGoway.Routing

open Go

def isSpace (b : UInt8) : Bool :=
  b == Byte.tab || b == Byte.newline || b == Byte.formFeed || b == Byte.carriageReturn ||
    b == Byte.space

/-- One upper-case letter of a literal under `(?i)`; a `K` also matches the Kelvin sign. -/
def foldLetter (l : UInt8) : GoString → Option GoString
  | 226 :: 132 :: 170 :: s => if l = 75 then some s else none
  | b :: s => if Byte.toUpper b = l then some s else none
  | [] => none

def foldWord : GoString → GoString → Option GoString
  | [], s => some s
  | l :: w, s => (foldLetter l s).bind (foldWord w)

def literal (b : UInt8) : GoString → Option GoString
  | [] => none
  | c :: s => if c = b then some s else none

def spaces (s : GoString) : Option GoString :=
  if (s.takeWhile isSpace).isEmpty then none else some (s.dropWhile isSpace)

def digits (s : GoString) : Option (GoString × GoString) :=
  if (s.takeWhile Byte.isDigit).isEmpty then none
  else some (s.takeWhile Byte.isDigit, s.dropWhile Byte.isDigit)

/-- `\w*` under `(?i)`: ASCII word characters, the long s and the Kelvin sign. -/
def wordRun : GoString → GoString × GoString
  | 197 :: 191 :: s => let (w, r) := wordRun s; (197 :: 191 :: w, r)
  | 226 :: 132 :: 170 :: s => let (w, r) := wordRun s; (226 :: 132 :: 170 :: w, r)
  | b :: s => if Byte.isWord b then let (w, r) := wordRun s; (b :: w, r) else ([], b :: s)
  | [] => ([], [])

/-- `killQueryRE` at the start of `s`, with its submatch. Every repeated class is disjoint from
what follows it, so the longest repetition is the only one that can match. -/
def matchKillQuery (s : GoString) : Option GoString := do
  let s ← foldWord (str "KILL") s
  let s ← spaces s
  let s ← foldWord (str "QUERY") s
  let s ← spaces s
  let s ← literal Byte.quote s
  let (d₁, s) ← digits s
  let s ← literal Byte.underscore s
  let (d₂, s) ← digits s
  let s ← literal Byte.underscore s
  let (d₃, s) ← digits s
  let s ← literal Byte.underscore s
  let (w, s) := wordRun s
  if w = [] then none
  let _ ← literal Byte.quote s
  return d₁ ++ [Byte.underscore] ++ d₂ ++ [Byte.underscore] ++ d₃ ++ [Byte.underscore] ++ w

def extractKillQueryID : GoString → GoString
  | [] => []
  | b :: s =>
    match matchKillQuery (b :: s) with
    | some queryID => queryID
    | none => extractKillQueryID s

def queryPrefix : GoString := str "/v1/query/"

def extractQueryID (req : RouteInput) : GoString :=
  let uri := req.requestURI
  if queryPrefix.length < uri.length ∧ uri.take queryPrefix.length = queryPrefix then
    (uri.drop queryPrefix.length).takeWhile fun c => c != Byte.slash && c != Byte.question
  else []

/-- A request target on a path: with nothing after it, a longer path or a query. -/
def OnPath (path uri : GoString) : Prop :=
  uri = path ∨ ∃ c suffix, (c = Byte.slash ∨ c = Byte.question) ∧ uri = path ++ c :: suffix

def QueryURI (q uri : GoString) : Prop := OnPath (queryPrefix ++ q) uri

theorem extractQueryID_of_queryURI {q : GoString} (hq : q ≠ [])
    (hpath : ∀ c ∈ q, c ≠ Byte.slash ∧ c ≠ Byte.question)
    {req : RouteInput} (huri : QueryURI q req.requestURI) : extractQueryID req = q := by
  have hstop : ∀ c ∈ q, (c != Byte.slash && c != Byte.question) = true := by
    intro c hc
    simpa using hpath c hc
  obtain ⟨t, huri, ht⟩ : ∃ t, req.requestURI = queryPrefix ++ (q ++ t) ∧
      (t = [] ∨ ∃ c s, (c = Byte.slash ∨ c = Byte.question) ∧ t = c :: s) := by
    obtain h | ⟨c, s, hc, h⟩ := huri
    · exact ⟨[], by simpa using h, Or.inl rfl⟩
    · exact ⟨c :: s, by simpa using h, Or.inr ⟨c, s, hc, rfl⟩⟩
  have htake : (q ++ t).takeWhile (fun c => c != Byte.slash && c != Byte.question) = q := by
    rw [List.takeWhile_append_of_pos hstop]
    obtain rfl | ⟨c, s, rfl | rfl, rfl⟩ := ht
    · simp
    · simp
    · simp
  have hlen : 0 < q.length := List.length_pos_iff.mpr hq
  unfold extractQueryID
  rw [huri, if_pos ⟨by simp; omega, List.take_left⟩, List.drop_left, htake]

theorem not_separator_of_isWord {c : UInt8} (h : Byte.isWord c = true) :
    c ≠ Byte.slash ∧ c ≠ Byte.question := by
  constructor
  · rintro rfl
    exact absurd h (by decide)
  · rintro rfl
    exact absurd h (by decide)

example : extractKillQueryID (str "/* x */ kill\tQuery  '20240101_000000_00001_abc';") =
    str "20240101_000000_00001_abc" := by decide +kernel

end TrinoGoway.Routing
