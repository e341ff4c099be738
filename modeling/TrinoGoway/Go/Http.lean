import TrinoGoway.Go.Basic

/-! The parts of `net/http` the gateway relies on: header maps, server requests and cookies. -/
namespace Go.Http

open Go

def isTokenByte (b : UInt8) : Bool :=
  Byte.isDigit b || Byte.isAlpha b || (str "!#$%&'*+-.^_`|~").contains b

def isToken (s : GoString) : Bool := !s.isEmpty && s.all isTokenByte

private def canonicalBytes : Bool → GoString → GoString
  | _, [] => []
  | upper, b :: s =>
    (if upper then Byte.toUpper b else Byte.toLower b) :: canonicalBytes (b == Byte.minus) s

/-- `http.CanonicalHeaderKey`: names with other bytes are returned unchanged. -/
def canonicalHeaderKey (s : GoString) : GoString :=
  if s.all isTokenByte then canonicalBytes true s else s

section CanonicalNames

theorem toUpper_toLower (b : UInt8) : Byte.toUpper (Byte.toLower b) = Byte.toUpper b := by
  simp only [Byte.toLower, Byte.isUpper, Byte.toUpper, Byte.isLower]
  grind

theorem toLower_toUpper (b : UInt8) : Byte.toLower (Byte.toUpper b) = Byte.toLower b := by
  simp only [Byte.toLower, Byte.isUpper, Byte.toUpper, Byte.isLower]
  grind

theorem toLower_toLower (b : UInt8) : Byte.toLower (Byte.toLower b) = Byte.toLower b := by
  simp only [Byte.toLower, Byte.isUpper]
  grind

theorem toLower_eq_minus (b : UInt8) : (Byte.toLower b == Byte.minus) = (b == Byte.minus) := by
  simp only [Byte.toLower, Byte.isUpper]
  grind

theorem isTokenByte_toLower (b : UInt8) : isTokenByte (Byte.toLower b) = isTokenByte b := by
  unfold Byte.toLower
  split
  · rename_i h
    have hb : Byte.isAlpha b = true := by simp [Byte.isAlpha, h]
    have hu : Byte.isAlpha (b + 32) = true := by
      simp only [Byte.isAlpha, Byte.isUpper, Byte.isLower, Bool.or_eq_true, Bool.and_eq_true,
        decide_eq_true_eq] at h ⊢
      grind
    simp [isTokenByte, hu, hb]
  · rfl

private theorem canonicalBytes_toLower (u : Bool) (s : GoString) :
    canonicalBytes u (s.map Byte.toLower) = canonicalBytes u s := by
  induction s generalizing u with
  | nil => rfl
  | cons b s ih =>
    rw [List.map_cons, canonicalBytes, canonicalBytes, toUpper_toLower, toLower_toLower,
      toLower_eq_minus, ih]

private theorem toLower_canonicalBytes (u : Bool) (s : GoString) :
    (canonicalBytes u s).map Byte.toLower = s.map Byte.toLower := by
  induction s generalizing u with
  | nil => rfl
  | cons b s ih =>
    have hhead : Byte.toLower (if u then Byte.toUpper b else Byte.toLower b) = Byte.toLower b := by
      cases u with
      | true => exact toLower_toUpper b
      | false => exact toLower_toLower b
    rw [canonicalBytes, List.map_cons, List.map_cons, hhead, ih]

theorem all_isTokenByte_toLower (s : GoString) :
    (s.map Byte.toLower).all isTokenByte = s.all isTokenByte := by
  rw [List.all_map]
  congr 1
  funext b
  exact isTokenByte_toLower b

theorem equalFold_iff {s t : GoString} :
    equalFold s t = true ↔ s.map Byte.toLower = t.map Byte.toLower := by
  unfold equalFold
  exact beq_iff_eq

theorem equalFold_canonicalHeaderKey (s : GoString) :
    equalFold (canonicalHeaderKey s) s = true := by
  unfold canonicalHeaderKey
  rw [equalFold_iff]
  split
  · exact toLower_canonicalBytes true s
  · rfl

/-- Names made of token bytes have one canonical form exactly if they are equal up to case. -/
theorem canonicalHeaderKey_eq_iff {s t : GoString} (hs : s.all isTokenByte) :
    canonicalHeaderKey s = canonicalHeaderKey t ↔ equalFold s t = true := by
  have hsc := equalFold_iff.mp (equalFold_canonicalHeaderKey s)
  have htc := equalFold_iff.mp (equalFold_canonicalHeaderKey t)
  rw [equalFold_iff]
  constructor
  · intro h
    rw [← hsc, ← htc, h]
  · intro h
    have ht : t.all isTokenByte = true := by
      rw [← all_isTokenByte_toLower, ← h, all_isTokenByte_toLower]
      exact hs
    unfold canonicalHeaderKey
    rw [if_pos hs, if_pos ht, ← canonicalBytes_toLower, h, canonicalBytes_toLower]

theorem equalFold_of_canonicalHeaderKey_eq {s t : GoString}
    (h : canonicalHeaderKey s = canonicalHeaderKey t) : equalFold s t = true := by
  have hsc := equalFold_iff.mp (equalFold_canonicalHeaderKey s)
  have htc := equalFold_iff.mp (equalFold_canonicalHeaderKey t)
  rw [equalFold_iff, ← hsc, ← htc, h]

@[simp] theorem canonicalHeaderKey_canonicalHeaderKey (s : GoString) :
    canonicalHeaderKey (canonicalHeaderKey s) = canonicalHeaderKey s := by
  by_cases hs : s.all isTokenByte = true
  · exact ((canonicalHeaderKey_eq_iff hs).mpr (by
      rw [equalFold_iff]
      exact (equalFold_iff.mp (equalFold_canonicalHeaderKey s)).symm)).symm
  · have hself : canonicalHeaderKey s = s := if_neg hs
    rw [hself, hself]

end CanonicalNames

abbrev Header := GoMap (List GoString)

namespace Header

def get (h : Header) (name : GoString) : GoString :=
  match h.get? (canonicalHeaderKey name) with
  | some (v :: _) => v
  | _ => []

def add (h : Header) (name value : GoString) : Header :=
  let k := canonicalHeaderKey name
  GoMap.set h k ((h.get? k).getD [] ++ [value])

def del (h : Header) (name : GoString) : Header :=
  h.filterKeys fun k => k != canonicalHeaderKey name

def set (h : Header) (name value : GoString) : Header :=
  GoMap.set h (canonicalHeaderKey name) [value]

theorem get?_set (h : Header) (name value k : GoString) :
    GoMap.get? (h.set name value) k =
      if k = canonicalHeaderKey name then some [value] else GoMap.get? h k := GoMap.get?_set

theorem get?_del (h : Header) (name k : GoString) :
    GoMap.get? (h.del name) k = if k = canonicalHeaderKey name then none else GoMap.get? h k := by
  unfold del
  rw [GoMap.get?_filterKeys]
  by_cases hk : k = canonicalHeaderKey name
  · simp [hk]
  · simp [hk]

end Header

structure URL where
  scheme : GoString
  /-- the user information as it is printed, with its `@`; empty when there is none -/
  user : GoString
  host : GoString
  path : GoString
  rawPath : GoString
  rawQuery : GoString
  fragment : GoString
  /-- `Opaque`: what follows the scheme when it does not begin with a slash -/
  opaquePart : GoString := []
  omitHost : Bool := false
  forceQuery : Bool := false
  rawFragment : GoString := []
  deriving DecidableEq

structure URLCodec where
  parse : GoString → Except GoError URL
  print : URL → GoString

/-- A request as a server handler sees it. -/
structure Request where
  method : GoString
  /-- `r.URL.Path`, percent-decoded -/
  path : GoString
  /-- `r.URL.RawPath`, empty when the default encoding of `path` was sent -/
  rawPath : GoString
  /-- `r.URL.RawQuery` -/
  rawQuery : GoString
  /-- `r.URL.RequestURI()`: the escaped path, followed by the query if there is one -/
  requestURI : GoString
  header : Header
  remoteAddr : GoString
  host : GoString
  tls : Bool
  /-- `r.Form`, nil unless some handler has parsed it -/
  form : Option (GoMap (List GoString))
  /-- what reading the whole body gives -/
  body : Except GoError GoString

def trimString (s : GoString) : GoString :=
  trim (fun b => b == Byte.space || b == Byte.tab || b == Byte.newline ||
    b == Byte.carriageReturn) s

private def validCookieValueByte (b : UInt8) : Bool :=
  32 ≤ b && b < 127 && b != Byte.doubleQuote && b != Byte.semicolon && b != Byte.backslash

private def unquoteCookieValue (s : GoString) : GoString :=
  match s with
  | 34 :: rest =>
    if rest.getLast? = some Byte.doubleQuote then rest.dropLast else s
  | _ => s

private def parseCookiePart (name : GoString) (part : GoString) : Option GoString :=
  let (n, v) := cut Byte.equals (trimString part)
  let value := unquoteCookieValue (v.getD [])
  if isToken (trimString n) && trimString n == name && value.all validCookieValueByte then
    some value
  else none

/-- `r.Cookie(name)`: the value of the first well-formed cookie with that name. -/
def Request.cookie (r : Request) (name : GoString) : Option GoString :=
  let lines := (r.header.get? (str "Cookie")).getD []
  (lines.flatMap fun line => split Byte.semicolon line).findSome? (parseCookiePart name)

/-- The bytes of a cookie value that needs no quotes, such as random tokens and a colon. -/
def isPlainCookieByte (b : UInt8) : Bool := isTokenByte b || b == Byte.colon

private theorem isTokenByte_ne : ∀ b : UInt8, isTokenByte b = true →
    b ≠ Byte.equals ∧ b ≠ Byte.semicolon :=
  Byte.forall_of_ofNat (by decide +kernel)

private theorem isPlainCookieByte_ne : ∀ b : UInt8, isPlainCookieByte b = true →
    validCookieValueByte b = true ∧ b ≠ Byte.doubleQuote ∧ b ≠ Byte.semicolon ∧
      b ≠ Byte.space ∧ b ≠ Byte.tab ∧ b ≠ Byte.newline ∧ b ≠ Byte.carriageReturn :=
  Byte.forall_of_ofNat (by decide +kernel)

private theorem trimString_of_plain {s : GoString}
    (h : ∀ c ∈ s, isPlainCookieByte c = true ∨ c = Byte.equals) : trimString s = s := by
  refine trim_of_forall ?_
  intro c hc
  rcases h c hc with hc | rfl
  · obtain ⟨-, -, -, h₁, h₂, h₃, h₄⟩ := isPlainCookieByte_ne c hc
    simp [h₁, h₂, h₃, h₄]
  · decide

private theorem unquoteCookieValue_of_plain {s : GoString}
    (h : ∀ c ∈ s, isPlainCookieByte c = true) : unquoteCookieValue s = s := by
  unfold unquoteCookieValue
  split
  · exact absurd rfl (isPlainCookieByte_ne _ (h _ List.mem_cons_self)).2.1
  · rfl

/-- A cookie that is sent alone, with a plain value, is read back. -/
theorem Request.cookie_of_single {r : Request} {name value : GoString} (hname : isToken name)
    (hvalue : ∀ c ∈ value, isPlainCookieByte c = true)
    (h : r.header.get? (str "Cookie") = some [name ++ Byte.equals :: value]) :
    r.cookie name = some value := by
  have htoken : ∀ c ∈ name, isTokenByte c = true := by
    unfold isToken at hname
    exact List.all_eq_true.mp (Bool.and_eq_true_iff.mp hname).2
  have hplain : ∀ c ∈ name, isPlainCookieByte c = true := fun c hc => by
    simp [isPlainCookieByte, htoken c hc]
  have hbytes : ∀ c ∈ name ++ Byte.equals :: value,
      isPlainCookieByte c = true ∨ c = Byte.equals := by
    intro c hc
    rcases List.mem_append.mp hc with hc | hc
    · exact .inl (hplain c hc)
    · rcases List.mem_cons.mp hc with hc | hc
      · exact .inr hc
      · exact .inl (hvalue c hc)
  have hsemicolon : Byte.semicolon ∉ name ++ Byte.equals :: value := by
    intro hc
    rcases hbytes _ hc with hc | hc
    · exact (isPlainCookieByte_ne _ hc).2.2.1 rfl
    · cases hc
  have hequals : Byte.equals ∉ name := fun hc => (isTokenByte_ne _ (htoken _ hc)).1 rfl
  have hcut : cut Byte.equals (name ++ Byte.equals :: value) = (name, some value) := by
    rw [cut_append hequals, cut_cons_self, List.append_nil]
  have hpart : parseCookiePart name (name ++ Byte.equals :: value) = some value := by
    have hall : value.all validCookieValueByte = true :=
      List.all_eq_true.mpr fun c hc => (isPlainCookieByte_ne c (hvalue c hc)).1
    have htrim : trimString name = name := trimString_of_plain fun c hc => .inl (hplain c hc)
    unfold parseCookiePart
    rw [trimString_of_plain hbytes, hcut]
    simp [htrim, hname, unquoteCookieValue_of_plain hvalue, hall]
  simp [Request.cookie, h, split_of_not_mem hsemicolon, hpart]

end Go.Http
