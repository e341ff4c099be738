import TrinoGoway.Gateway.Effects

/-! The authenticators, and the identity they attach to a request. -/
namespace TrinoGoway.Auth

open Go Go.Http

structure Principal where
  /-- user name or JWT subject -/
  name : GoString
  /-- LDAP `memberOf`, or the groups claim joined with commas -/
  memberOf : GoString
  deriving DecidableEq

/-- A JWT claim, as far as the gateway looks into it. A list keeps `none` for every item that is
not a string. -/
inductive Claim
  | string (s : GoString)
  | list (items : List (Option GoString))
  | other

abbrev Claims := GoMap Claim

structure Token where
  claims : Claims
  /-- what `claims.GetSubject()` returns, whose error is ignored -/
  subject : GoString

def Claim.groups? : Claim → Option GoString
  | string s => some s
  | list items => some (join items.reduceOption (str ","))
  | other => none

def groupsClaim (claims : Claims) : GoString :=
  ([str "groups", str "memberOf"].findSome? fun key =>
    (GoMap.get? claims key).bind Claim.groups?).getD []

/-- The configured authenticator with the outside services it asks. -/
inductive Authenticator
  | noop
  /-- credentials of the `Authorization` header, and what binding them gives: `memberOf` -/
  | ldap (basicAuth : GoString → Option (GoString × GoString))
      (bind : GoString → GoString → Except GoError GoString)
  /-- verification of a raw token, once keys have been loaded -/
  | oidc (jwks : Option (GoString → Option Token))

def bearerToken (r : Request) : GoString :=
  let v := r.header.get (str "Authorization")
  if hasPrefix v (str "Bearer ") then v.drop 7 else []

/-- The principal of a request, or the text of the 401 response. -/
def Authenticator.authenticate (a : Authenticator) (r : Request) : Except GoString Principal :=
  match a with
  | noop => .ok ⟨str "anonymous", []⟩
  | ldap basicAuth bind =>
    match basicAuth (r.header.get (str "Authorization")) with
    | none => .error (str "Basic auth required")
    | some (username, password) =>
      if username = [] ∨ password = [] then .error (str "Basic auth required")
      else
        match bind username password with
        | .error _ => .error (str "invalid credentials")
        | .ok memberOf => .ok ⟨username, memberOf⟩
  | oidc jwks =>
    if bearerToken r = [] then .error (str "missing Bearer token")
    else
      match jwks with
      | none => .error (str "JWKS not available")
      | some verify =>
        match verify (bearerToken r) with
        | none => .error (str "invalid token")
        | some token => .ok ⟨token.subject, groupsClaim token.claims⟩

/-- The services that the authenticators ask, and the outcome of the first fetch of the keys. -/
structure Services where
  basicAuth : GoString → Option (GoString × GoString)
  bind : GoString → GoString → Except GoError GoString
  jwks : Except GoError (GoString → Option Token)

def buildAuthMiddleware (authType : GoString) (s : Services) : Except GoError Authenticator :=
  if authType = str "OIDC" then
    match s.jwks with
    | .error e => .error (e.wrap "auth: oidc: initial JWKS fetch: ")
    | .ok verify => .ok (.oidc (some verify))
  else if authType = str "LDAP" then .ok (.ldap s.basicAuth s.bind)
  else if authType = str "NOOP" ∨ authType = [] then .ok .noop
  else .error ⟨str "auth: unknown type " ++ quoted authType⟩

def writeUnauthorized (msg : GoString) : Gw Unit := do
  let h : Header := .empty
  let h := h.set (str "Content-Type") (str "application/json")
  let h := h.set (str "WWW-Authenticate") (str "Bearer")
  perform (.writeHeader 401 h)
  perform (.write (str "\x7b\"error\":\"" ++ msg ++ str "\"\x7d"))

end TrinoGoway.Auth
