import TrinoGoway.Go.Http

/-! `net/url`: escaping of the parts of a URL, its parser and its printer. -/
namespace Go.Url

open Go Http

/-! ### Escaping -/

inductive Encoding
  | path
  | queryComponent
  | fragment
  deriving DecidableEq

def shouldEscape (c : UInt8) (mode : Encoding) : Bool :=
  if Byte.isAlpha c || Byte.isDigit c || (str "-_.~").contains c then false
  else if (str "$&+,/:;=?@").contains c then
    match mode with
    | .path => c == Byte.question
    | .queryComponent => true
    | .fragment => false
  else if mode == .fragment && (str "!()*").contains c then false
  else true

def isHex (c : UInt8) : Bool := Byte.isDigit c || (65 ≤ c && c ≤ 70) || (97 ≤ c && c ≤ 102)

def unhex (c : UInt8) : UInt8 :=
  if Byte.isDigit c then c - 48 else if 97 ≤ c then c - 87 else c - 55

def upperhex (n : UInt8) : UInt8 := if n < 10 then n + 48 else n + 55

def escapeByte (mode : Encoding) (c : UInt8) : GoString :=
  if c = Byte.space ∧ mode = .queryComponent then [Byte.plus]
  else if shouldEscape c mode then [Byte.percent, upperhex (c / 16), upperhex (c % 16)]
  else [c]

def escape (s : GoString) (mode : Encoding) : GoString := s.flatMap (escapeByte mode)

def escapeError (s : GoString) : GoError := ⟨str "invalid URL escape " ++ quoted (s.take 3)⟩

def unescape (mode : Encoding) : GoString → Except GoError GoString
  | [] => .ok []
  | c :: s =>
    if c = Byte.percent then
      match s with
      | a :: b :: rest =>
        if isHex a && isHex b then (unescape mode rest).map ((unhex a * 16 + unhex b) :: ·)
        else .error (escapeError (c :: s))
      | _ => .error (escapeError (c :: s))
    else
      (unescape mode s).map
        ((if c = Byte.plus ∧ mode = .queryComponent then Byte.space else c) :: ·)

/-- Whether a text can stand as it is, in its own choice of escapes. -/
def validEncoded (s : GoString) (mode : Encoding) : Bool :=
  s.all fun c => (str "!$&'()*+,;=:@[]%").contains c || !shouldEscape c mode

section Laws

theorem unescape_cons_of_ne {mode : Encoding} {c : UInt8} (hc : c ≠ Byte.percent) (s : GoString) :
    unescape mode (c :: s) = (unescape mode s).map
      ((if c = Byte.plus ∧ mode = .queryComponent then Byte.space else c) :: ·) := by
  conv_lhs => unfold unescape
  exact if_neg hc

theorem hex_upperhex {n : UInt8} (h : n.toNat < 16) :
    isHex (upperhex n) = true ∧ unhex (upperhex n) = n := by
  have hall : ∀ m < 16, isHex (upperhex (.ofNat m)) = true ∧
      unhex (upperhex (.ofNat m)) = .ofNat m := by decide
  simpa using hall n.toNat h

theorem unescape_escapeByte (mode : Encoding) (c : UInt8) (s : GoString) :
    unescape mode (escapeByte mode c ++ s) = (unescape mode s).map (c :: ·) := by
  unfold escapeByte
  split
  · rename_i h
    have hplus : Byte.plus ≠ Byte.percent := by decide
    rw [List.singleton_append, unescape_cons_of_ne hplus, if_pos ⟨rfl, h.2⟩, h.1]
  · split
    · have hc : c.toNat < 256 := c.toNat_lt
      have hhigh := hex_upperhex (n := c / 16) (by simp; omega)
      have hlow := hex_upperhex (n := c % 16) (by simp; omega)
      have hdiv : c / 16 * 16 + c % 16 = c := by
        apply UInt8.toNat_inj.mp
        simp
        omega
      show unescape mode (Byte.percent :: upperhex (c / 16) :: upperhex (c % 16) :: s) = _
      rw [unescape, if_pos rfl]
      simp only [hhigh, hlow, Bool.and_self, if_true, hdiv]
    · rename_i hspace hesc
      have hc : c ≠ Byte.percent := by
        rintro rfl
        cases mode <;> exact hesc (by decide)
      rw [List.singleton_append, unescape_cons_of_ne hc, if_neg]
      rintro ⟨rfl, rfl⟩
      exact hesc (by decide)

/-- What is escaped for a part of the URL reads back in that part. -/
theorem unescape_escape (s : GoString) (mode : Encoding) :
    unescape mode (escape s mode) = .ok s := by
  induction s with
  | nil => rfl
  | cons c s ih =>
    rw [escape, List.flatMap_cons, unescape_escapeByte]
    unfold escape at ih
    rw [ih]
    rfl

end Laws

/-! ### Paths and fragments -/

def setPath (u : URL) (p : GoString) : Except GoError URL := do
  let path ← unescape .path p
  return { u with path, rawPath := if p = escape path .path then [] else p }

def setFragment (u : URL) (f : GoString) : Except GoError URL := do
  let fragment ← unescape .fragment f
  return { u with fragment, rawFragment := if f = escape fragment .fragment then [] else f }

/-- Printed from the raw path when it is a valid encoding of the path, else in the default way. -/
def escapedPath (u : URL) : GoString :=
  if u.rawPath ≠ [] ∧ validEncoded u.rawPath .path ∧ unescape .path u.rawPath = .ok u.path then
    u.rawPath
  else if u.path = str "*" then str "*"
  else escape u.path .path

def escapedFragment (u : URL) : GoString :=
  if u.rawFragment ≠ [] ∧ validEncoded u.rawFragment .fragment ∧
      unescape .fragment u.rawFragment = .ok u.fragment then
    u.rawFragment
  else escape u.fragment .fragment

/-! ### Query strings -/

/-- One piece of a query string; pieces that are empty, hold a semicolon or do not decode are
passed over. -/
def addPair (m : GoMap (List GoString)) (piece : GoString) : GoMap (List GoString) :=
  if piece.contains Byte.semicolon || piece.isEmpty then m
  else
    match cut Byte.equals piece with
    | (k, v) =>
      match unescape .queryComponent k, unescape .queryComponent (v.getD []) with
      | .ok key, .ok value => m.set key ((m.get? key).getD [] ++ [value])
      | _, _ => m

/-- `url.ParseQuery`: the values of each parameter, in order. -/
def parseQuery (query : GoString) : GoMap (List GoString) :=
  (split Byte.ampersand query).foldl addPair .empty

def encodePair (p : GoString × GoString) : GoString :=
  escape p.1 .queryComponent ++ Byte.equals :: escape p.2 .queryComponent

/-- `url.Values.Encode`, for pairs in the order of their keys. -/
def encodeValues (ps : List (GoString × GoString)) : GoString :=
  join (ps.map encodePair) [Byte.ampersand]

/-- The bytes that separate the pieces of a query string are escaped inside them. -/
theorem not_mem_escape {s : GoString} {c : UInt8}
    (hc : c = Byte.ampersand ∨ c = Byte.semicolon ∨ c = Byte.equals) :
    c ∉ escape s .queryComponent := by
  have hall : ∀ b : UInt8, (escapeByte .queryComponent b).all
      (fun c => c != Byte.ampersand && c != Byte.semicolon && c != Byte.equals) = true :=
    Byte.forall_of_ofNat (by decide +kernel)
  intro h
  obtain ⟨b, -, hb⟩ := List.mem_flatMap.mp h
  have hbyte := List.all_eq_true.mp (hall b) c hb
  rcases hc with rfl | rfl | rfl <;> cases hbyte

theorem not_mem_encodePair (p : GoString × GoString) {c : UInt8}
    (hc : c = Byte.ampersand ∨ c = Byte.semicolon) : c ∉ encodePair p := by
  have hescape : ∀ s, c ∉ escape s .queryComponent := fun s =>
    not_mem_escape (by rcases hc with rfl | rfl <;> simp)
  have hequals : c ≠ Byte.equals := by
    rcases hc with rfl | rfl <;> decide
  simp [encodePair, hescape, hequals]

theorem addPair_encodePair (m : GoMap (List GoString)) (p : GoString × GoString) :
    addPair m (encodePair p) = m.set p.1 ((m.get? p.1).getD [] ++ [p.2]) := by
  have hcut : cut Byte.equals (encodePair p) =
      (escape p.1 .queryComponent, some (escape p.2 .queryComponent)) := by
    unfold encodePair
    rw [cut_append (not_mem_escape (.inr (.inr rfl))), cut_cons_self, List.append_nil]
  have hkeep : ((encodePair p).contains Byte.semicolon || (encodePair p).isEmpty) = false := by
    have hsemicolon := not_mem_encodePair p (.inr rfl)
    simpa [encodePair] using hsemicolon
  unfold addPair
  rw [hkeep, hcut]
  simp [unescape_escape]

theorem parseQuery_encodeValues {ps : List (GoString × GoString)} (h : ps ≠ []) :
    parseQuery (encodeValues ps) =
      ps.foldl (fun m p => m.set p.1 ((m.get? p.1).getD [] ++ [p.2])) .empty := by
  have hsplit : split Byte.ampersand (encodeValues ps) = ps.map encodePair := by
    unfold encodeValues join
    induction ps with
    | nil => exact absurd rfl h
    | cons p ps ih =>
      have hp := split_of_not_mem (not_mem_encodePair p (.inl rfl))
      cases ps with
      | nil => simpa using hp
      | cons q ps =>
        have ih := ih (by simp)
        rw [List.map_cons] at ih ⊢
        rw [List.map_cons, List.intersperse_cons_cons, List.flatten_cons, List.flatten_cons,
          List.singleton_append, split_append, hp, ih]
        rfl
  unfold parseQuery
  rw [hsplit, List.foldl_map]
  simp only [addPair_encodePair]

/-! ### Parser and printer -/

/-- Parser and printer of what stands between `//` and the path, given the scheme: the user
information, as it is printed, and the host. -/
structure Authority where
  parse : (scheme authority : GoString) → Except GoError (GoString × GoString)
  printHost : GoString → GoString

def isCTLByte (c : UInt8) : Bool := c < 32 || c == 127

def isSchemeByte (c : UInt8) : Bool :=
  Byte.isAlpha c || Byte.isDigit c || (str "+-.").contains c

def getScheme (rawURL : GoString) : Except GoError (GoString × GoString) :=
  match rawURL.span isSchemeByte with
  | ([], 58 :: _) => .error ⟨str "missing protocol scheme"⟩
  | (c :: s, 58 :: rest) => .ok (if Byte.isAlpha c then (c :: s, rest) else ([], rawURL))
  | _ => .ok ([], rawURL)

/-- Cut off the query: what comes before it, and whether a lone `?` at the end stands for an empty
one. -/
def cutQuery (rest : GoString) : GoString × Bool × GoString :=
  match cut Byte.question rest with
  | (l, none) => (l, false, [])
  | (l, some q) => (l, q.isEmpty, q)

def empty : URL := ⟨[], [], [], [], [], [], [], [], false, false, []⟩

/-- The part of `parse` behind scheme and query, for a text that is not opaque. -/
def parseHierarchy (auth : Authority) (viaRequest : Bool) (u : URL) (rest : GoString) :
    Except GoError URL :=
  if (u.scheme ≠ [] ∨ (!viaRequest && !hasPrefix rest (str "///"))) ∧ hasPrefix rest (str "//") then
    let authority := (rest.drop 2).takeWhile (· ≠ Byte.slash)
    match auth.parse u.scheme authority with
    | .error e => .error e
    | .ok (user, host) =>
      setPath { u with user, host } ((rest.drop 2).dropWhile (· ≠ Byte.slash))
  else
    setPath { u with omitHost := u.scheme ≠ [] && hasPrefix rest [Byte.slash] } rest

/-- `parse`, for the target of a request (`viaRequest`) or any URL without its fragment. -/
def parseURL (auth : Authority) (viaRequest : Bool) (rawURL : GoString) : Except GoError URL :=
  if rawURL.any isCTLByte then .error ⟨str "net/url: invalid control character in URL"⟩
  else if viaRequest ∧ rawURL = [] then .error ⟨str "empty url"⟩
  else if rawURL = str "*" then .ok { empty with path := str "*" }
  else
    match getScheme rawURL with
    | .error e => .error e
    | .ok (scheme, afterScheme) =>
      let (rest, forceQuery, rawQuery) := cutQuery afterScheme
      let u : URL := { empty with scheme := scheme.map Byte.toLower, forceQuery, rawQuery }
      if hasPrefix rest [Byte.slash] then parseHierarchy auth viaRequest u rest
      else if scheme ≠ [] then .ok { u with opaquePart := rest }
      else if viaRequest then .error ⟨str "invalid URI for request"⟩
      else if (rest.takeWhile (· ≠ Byte.slash)).contains Byte.colon then
        .error ⟨str "first path segment in URL cannot contain colon"⟩
      else parseHierarchy auth viaRequest u rest

/-- `url.Error` about a URL that does not parse. -/
def parseError (rawURL : GoString) (e : GoError) : GoError :=
  ⟨str "parse " ++ quoted rawURL ++ str ": " ++ e.message⟩

def parse (auth : Authority) (rawURL : GoString) : Except GoError URL :=
  match cut Byte.hash rawURL with
  | (u, frag) =>
    match parseURL auth false u with
    | .error e => .error (parseError u e)
    | .ok url =>
      match frag.getD [] with
      | [] => .ok url
      | c :: f => (setFragment url (c :: f)).mapError (parseError rawURL)

def parseRequestURI (auth : Authority) (rawURL : GoString) : Except GoError URL :=
  (parseURL auth true rawURL).mapError (parseError rawURL)

def printAuthority (auth : Authority) (u : URL) : GoString :=
  let scheme := if u.scheme = [] then [] else u.scheme ++ [Byte.colon]
  if (u.scheme = [] ∧ u.host = [] ∧ u.user = []) ∨
      (u.omitHost ∧ u.host = [] ∧ u.user = []) then scheme
  else
    scheme ++ (if u.host ≠ [] ∨ u.path ≠ [] ∨ u.user ≠ [] then str "//" else []) ++ u.user ++
      (if u.host = [] then [] else auth.printHost u.host)

def printHierarchy (auth : Authority) (u : URL) : GoString :=
  if u.opaquePart ≠ [] then
    (if u.scheme = [] then [] else u.scheme ++ [Byte.colon]) ++ u.opaquePart
  else
    let path := escapedPath u
    let start := printAuthority auth u ++
      (if path ≠ [] ∧ path.head? ≠ some Byte.slash ∧ u.host ≠ [] then [Byte.slash] else [])
    -- a first segment with a colon would be read as a scheme
    let dot :=
      if start = [] ∧ (path.takeWhile (· ≠ Byte.slash)).contains Byte.colon then str "./" else []
    start ++ dot ++ path

def print (auth : Authority) (u : URL) : GoString :=
  printHierarchy auth u ++
    (if u.forceQuery ∨ u.rawQuery ≠ [] then Byte.question :: u.rawQuery else []) ++
    (if u.fragment = [] then [] else Byte.hash :: escapedFragment u)

def codec (auth : Authority) : URLCodec := ⟨parse auth, print auth⟩

end Go.Url
