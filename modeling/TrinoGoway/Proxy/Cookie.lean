import TrinoGoway.Gateway.Effects

/-! The `TG.OAUTH2` cookie. -/
namespace TrinoGoway.Proxy

open Go Go.Http

def cookieName : GoString := str "TG.OAUTH2"

/-- The payload that is signed. A nil list of paths is not the empty one. -/
structure UnsignedGatewayCookie where
  backend : Option GoString
  deletePaths : Option (List GoString)
  name : GoString
  payload : Option GoString
  priority : ℤ
  routingPaths : Option (List GoString)
  ts : ℤ
  ttl : GoString
  deriving DecidableEq

structure GatewayCookie extends UnsignedGatewayCookie where
  signature : GoString
  deriving DecidableEq

/-- The encodings behind a cookie: JSON, HMAC with hex, base64 and the two duration formats. The
Boolean selects the wire-compatible variant. -/
structure CookieCodec where
  sign : (secret : GoString) → UnsignedGatewayCookie → GoString
  encode : Bool → GatewayCookie → GoString
  decode : Bool → GoString → Option GatewayCookie
  formatTTL : Bool → Duration → GoString
  parseTTL : GoString → Duration

inductive CookieCheck
  | valid (deletePaths : List GoString)
  | expired
  | tampered

def validateCookie (codec : CookieCodec) (cfg : CookieConfig) (value : GoString) (now : Time) :
    CookieCheck :=
  match codec.decode cfg.wireCompat value with
  | none => .tampered
  | some gc =>
    if codec.sign cfg.secret gc.toUnsignedGatewayCookie ≠ gc.signature then .tampered
    else
      let ttl := codec.parseTTL gc.ttl
      if 0 < ttl ∧ ttl < now - Time.ofUnixMilli gc.ts then .expired
      else .valid (gc.deletePaths.getD [])

def newCookie (codec : CookieCodec) (cfg : CookieConfig) (backendURL : GoString) (now : Time) :
    GatewayCookie :=
  let unsigned : UnsignedGatewayCookie :=
    { backend := some backendURL
      deletePaths := some [str "/logout", str "/oauth2/logout"]
      name := cookieName
      payload := none
      priority := 0
      routingPaths := some [str "/oauth2", str "/logout", str "/oauth2/logout"]
      ts := now.unixMilli
      ttl := codec.formatTTL cfg.wireCompat cfg.ttl }
  { unsigned with signature := codec.sign cfg.secret unsigned }

-- `(&http.Cookie{...}).String()` for the attributes used here
private def cookieLine (value : GoString) (maxAge : ℤ) (attributes : GoString) : GoString :=
  let age :=
    if maxAge = 0 then [] else str s!"; Max-Age={max maxAge 0}"
  cookieName ++ str "=" ++ value ++ str "; Path=/" ++ age ++ attributes

/-- `issueCookie`; neither signing nor encoding can fail on these values. -/
def issueCookie (codec : CookieCodec) (cfg : CookieConfig) (h : Header) (backendURL : GoString) :
    Gw Header := do
  let now ← perform .now
  let val := codec.encode cfg.wireCompat (newCookie codec cfg backendURL now)
  let maxAge := cfg.ttl.tdiv 1000000 |>.tdiv 1000
  return h.add (str "Set-Cookie") (cookieLine val maxAge (str "; HttpOnly; SameSite=Lax"))

def deleteCookie (h : Header) : Header :=
  h.add (str "Set-Cookie") (cookieLine (str "delete") (-1) [])

/-- The cookie lifecycle on a response whose headers so far are `h`; `none` when the request
carries a tampered cookie. -/
def applyCookies (codec : CookieCodec) (cfg : CookieConfig) (h : Header) (r : Request)
    (backendURL : GoString) : Gw (Option Header) := do
  if cfg.secret = [] then return some h
  match r.cookie cookieName with
  | some value =>
    let now ← perform .now
    match validateCookie codec cfg value now with
    | .tampered => return none
    | .expired => return some (deleteCookie h)
    | .valid deletePaths =>
      if deletePaths.contains r.path then return some (deleteCookie h)
      return some h
  | none =>
    if hasPrefix r.path (str "/oauth2") then
      let h' ← issueCookie codec cfg h backendURL
      return some h'
    return some h

end TrinoGoway.Proxy
