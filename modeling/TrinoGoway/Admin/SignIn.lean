import TrinoGoway.Auth.Middleware
import TrinoGoway.Go.Url

/-! The web login over OpenID Connect: the endpoints of the gateway that take part in it, the
authenticator in front of them, and a browser that goes through it. -/
namespace TrinoGoway.Auth

open Go Go.Http Go.Url

structure OidcConfig where
  clientID : GoString
  clientSecret : GoString
  redirectURL : GoString
  scopes : List GoString

structure TokenResponse where
  idToken : GoString := []
  error : GoString := []
  errorDesc : GoString := []

def TokenResponse.errorMessage (t : TokenResponse) : GoString :=
  if t.errorDesc ≠ [] then t.error ++ str ": " ++ t.errorDesc else t.error

/-- `OIDCWebLogin`, with the services behind it. -/
structure OidcWebLogin where
  cfg : OidcConfig
  authzURL : GoString
  tokenURL : GoString
  /-- a form posted to the token endpoint: the status and the decoded answer, or the error of the
  request, of reading the answer or of decoding it -/
  post : (url form : GoString) → Except GoError (ℕ × TokenResponse)
  /-- `jwt.ParseWithClaims` with the keys of the provider -/
  parseWithClaims : GoString → Except GoError Claims

structure AuthCodeURL where
  authzURL : GoString
  /-- the parameters, by their keys in order -/
  params : List (GoString × GoString)

def AuthCodeURL.text (u : AuthCodeURL) : GoString :=
  let sep := if u.authzURL.contains Byte.question then str "&" else str "?"
  u.authzURL ++ sep ++ encodeValues u.params

def AuthCodeURL.state (u : AuthCodeURL) : GoString := (u.params.lookup (str "state")).getD []

namespace OidcWebLogin

def authCodeURL (w : OidcWebLogin) (state nonce : GoString) : AuthCodeURL where
  authzURL := w.authzURL
  params :=
    let scopes := if w.cfg.scopes = [] then [str "openid"] else w.cfg.scopes
    [(str "client_id", w.cfg.clientID), (str "nonce", nonce),
      (str "redirect_uri", w.cfg.redirectURL), (str "response_type", str "code"),
      (str "scope", join scopes (str " ")), (str "state", state)]

def tokenForm (w : OidcWebLogin) (code : GoString) : List (GoString × GoString) :=
  [(str "client_id", w.cfg.clientID)] ++
    (if w.cfg.clientSecret ≠ [] then [(str "client_secret", w.cfg.clientSecret)] else []) ++
    [(str "code", code), (str "grant_type", str "authorization_code"),
      (str "redirect_uri", w.cfg.redirectURL)]

def validateIDToken (w : OidcWebLogin) (idToken nonce : GoString) : Except GoError Unit :=
  match w.parseWithClaims idToken with
  | .error e => .error (e.wrap "auth: oidc weblogin: validate id_token: ")
  | .ok claims =>
    let got :=
      match GoMap.get? claims (str "nonce") with
      | some (.string s) => s
      | _ => []
    if nonce ≠ [] ∧ got ≠ nonce then .error ⟨str "auth: oidc weblogin: id_token nonce mismatch"⟩
    else .ok ()

def exchange (w : OidcWebLogin) (code nonce : GoString) : Except GoError GoString :=
  match w.post w.tokenURL (encodeValues (w.tokenForm code)) with
  | .error e => .error e
  | .ok (status, tr) =>
    if status ≠ 200 ∨ tr.error ≠ [] then
      .error ⟨str "auth: oidc weblogin: token endpoint failed: status " ++ str (toString status) ++
        str ": " ++ tr.errorMessage⟩
    else if tr.idToken = [] then
      .error ⟨str "auth: oidc weblogin: token response missing id_token"⟩
    else (w.validateIDToken tr.idToken nonce).map fun _ => tr.idToken

end OidcWebLogin

end TrinoGoway.Auth

namespace TrinoGoway.Admin

open Go Go.Http Go.Url Auth

/-! ### Endpoints -/

def oidcStateCookie : GoString := str "trino-gateway-oidc"
def oidcStateMaxAge : ℤ := 15 * 60
def tokenCookie : GoString := str "token"
def tokenCookieMaxAge : ℤ := 60 * 60 * 24
def uiBasePath : GoString := str "/trino-gateway"
def callbackPath : GoString := str "/oidc/callback"

/-- A cookie to be stored by the browser; all are `SameSite=Lax`. -/
structure SetCookie where
  name : GoString
  value : GoString
  path : GoString
  maxAge : ℤ
  httpOnly : Bool
  secure : Bool

inductive ResultData
  | text (s : GoString)
  | url (u : AuthCodeURL)

inductive LoginAnswer
  /-- 401, from the authenticator -/
  | unauthorized (msg : GoString)
  /-- 200 with the envelope of a web application result, code 200 -/
  | resultOK (data : ResultData)
  /-- 200 with the envelope of a web application result, code 500 -/
  | resultErr (msg : GoString)
  | httpError (status : ℕ) (msg : GoString)
  /-- 303 -/
  | redirect (location : GoString)

structure LoginReply where
  answer : LoginAnswer
  setCookies : List SetCookie := []

structure LoginServer where
  authType : GoString
  auth : Option Authenticator
  webLogin : Option OidcWebLogin

def requestIsHTTPS (r : Request) : Bool :=
  r.tls || equalFold (r.header.get (str "X-Forwarded-Proto")) (str "https")

def queryGet (r : Request) (key : GoString) : GoString :=
  (((parseQuery r.rawQuery).get? key).getD []).headD []

def readOIDCStateCookie (r : Request) : Option (GoString × GoString) :=
  match r.cookie oidcStateCookie with
  | none => none
  | some value =>
    match cut Byte.colon value with
    | (_, none) => none
    | (state, some nonce) => if state = [] ∨ nonce = [] then none else some (state, nonce)

/-- The endpoints of the login; `/login` and `/logout` are in the same group. -/
inductive LoginRoute
  | sso
  | oidcCallback
  | loginType
  deriving DecidableEq

def LoginRoute.of? (method path : GoString) : Option LoginRoute :=
  if method = str "POST" ∧ path = str "/sso" then some sso
  else if method = str "GET" ∧ path = callbackPath then some oidcCallback
  else if method = str "POST" ∧ path = str "/loginType" then some loginType
  else none

namespace LoginServer

def handleLoginType (a : LoginServer) : LoginReply :=
  { answer := .resultOK (.text (
      if a.authType = str "OIDC" then str "oauth"
      else if a.authType = str "LDAP" then str "form"
      else str "none")) }

/-- `random` are the two tokens that are drawn. -/
def handleSSO (a : LoginServer) (random : Except GoError GoString × Except GoError GoString)
    (r : Request) : LoginReply :=
  match a.webLogin with
  | none => { answer := .resultErr (str "SSO not configured") }
  | some w =>
    if a.authType ≠ str "OIDC" then { answer := .resultErr (str "SSO not configured") }
    else
      match random with
      | (.ok state, .ok nonce) =>
        { answer := .resultOK (.url (w.authCodeURL state nonce))
          setCookies := [⟨oidcStateCookie, state ++ str ":" ++ nonce, callbackPath,
            oidcStateMaxAge, true, requestIsHTTPS r⟩] }
      | _ => { answer := .resultErr (str "internal error") }

def handleOIDCCallback (a : LoginServer) (r : Request) : LoginReply :=
  match a.webLogin with
  | none => { answer := .httpError 500 (str "OIDC not configured") }
  | some w =>
    if a.authType ≠ str "OIDC" then { answer := .httpError 500 (str "OIDC not configured") }
    else if queryGet r (str "code") = [] then
      { answer := .httpError 400 (str "missing authorization code") }
    else
      match readOIDCStateCookie r with
      | none => { answer := .httpError 400 (str "missing or malformed login state") }
      | some (state, nonce) =>
        if queryGet r (str "state") ≠ state then { answer := .httpError 400 (str "state mismatch") }
        else
          match w.exchange (queryGet r (str "code")) nonce with
          | .error _ => { answer := .httpError 401 (str "login failed") }
          | .ok idToken =>
            { answer := .redirect uiBasePath
              setCookies :=
                [⟨oidcStateCookie, [], callbackPath, -1, true, requestIsHTTPS r⟩,
                  ⟨tokenCookie, idToken, str "/", tokenCookieMaxAge, false, requestIsHTTPS r⟩] }

def handle (a : LoginServer) (random : Except GoError GoString × Except GoError GoString)
    (r : Request) : LoginRoute → LoginReply
  | .sso => a.handleSSO random r
  | .oidcCallback => a.handleOIDCCallback r
  | .loginType => a.handleLoginType

def authMW (a : LoginServer) (r : Request) (next : LoginReply) : LoginReply :=
  match a.auth with
  | none => next
  | some auth =>
    match auth.authenticate r with
    | .error msg => { answer := .unauthorized msg }
    | .ok _ => next

/-- The group of `buildRouter` with the authenticator and no role; none for other requests. -/
def serve (a : LoginServer) (random : Except GoError GoString × Except GoError GoString)
    (r : Request) : Option LoginReply :=
  (LoginRoute.of? r.method r.path).map fun route => a.authMW r (a.handle random r route)

end LoginServer

/-! ### A browser -/

structure Browser where
  header : Header
  remoteAddr : GoString
  host : GoString
  tls : Bool

def cookiesFor (jar : List SetCookie) (path : GoString) : List GoString :=
  (jar.filter fun c => 0 < c.maxAge ∧ (c.path = str "/" ∨ c.path = path)).map fun c =>
    c.name ++ Byte.equals :: c.value

def Browser.request (b : Browser) (method path rawQuery : GoString) (jar : List SetCookie) :
    Request where
  method := method
  path := path
  rawPath := []
  rawQuery := rawQuery
  requestURI := if rawQuery = [] then path else path ++ Byte.question :: rawQuery
  header :=
    match cookiesFor jar path with
    | [] => b.header
    | cookies => GoMap.set b.header (str "Cookie") [join cookies (str "; ")]
  remoteAddr := b.remoteAddr
  host := b.host
  tls := b.tls
  form := none
  body := .ok []

/-- The three requests of a login. The last one is sent if the second one gave a URL: the provider
sends the browser back with a code and the state of the URL. -/
structure SignIn where
  loginType : Option LoginReply
  sso : Option LoginReply
  callback : Option LoginReply

def callbackQuery (code state : GoString) : GoString :=
  encodeValues [(str "code", code), (str "state", state)]

def LoginServer.signIn (a : LoginServer)
    (random : Except GoError GoString × Except GoError GoString) (code : GoString) (b : Browser) :
    SignIn :=
  let sso := a.serve random (b.request (str "POST") (str "/sso") [] [])
  { loginType := a.serve random (b.request (str "POST") (str "/loginType") [] [])
    sso
    callback := sso.bind fun reply =>
      match reply.answer with
      | .resultOK (.url u) =>
        a.serve random
          (b.request (str "GET") callbackPath (callbackQuery code u.state) reply.setCookies)
      | _ => none }

/-- The handlers have answered, and the browser has got the token. -/
structure SignIn.Succeeds (s : SignIn) (idToken : GoString) : Prop where
  loginType : s.loginType = some { answer := .resultOK (.text (str "oauth")) }
  sso : ∃ u cookies, s.sso = some ⟨.resultOK (.url u), cookies⟩
  callback : ∃ cookies, s.callback = some ⟨.redirect uiBasePath, cookies⟩ ∧
    ∃ c ∈ cookies, c.name = tokenCookie ∧ c.value = idToken

section Requests

variable {a : LoginServer} {random : Except GoError GoString × Except GoError GoString}
  {b : Browser} {w : OidcWebLogin}

theorem serve_of_route {r : Request} {route : LoginRoute}
    (h : LoginRoute.of? r.method r.path = some route) :
    a.serve random r = some (a.authMW r (a.handle random r route)) := by
  unfold LoginServer.serve
  rw [h]
  rfl

theorem serve_loginType :
    a.serve random (b.request (str "POST") (str "/loginType") [] []) =
      some (a.authMW (b.request (str "POST") (str "/loginType") [] []) a.handleLoginType) := by
  have hroute : LoginRoute.of? (str "POST") (str "/loginType") = some .loginType := by decide
  exact serve_of_route (r := b.request _ _ _ _) hroute

theorem serve_sso :
    a.serve random (b.request (str "POST") (str "/sso") [] []) =
      some (a.authMW (b.request (str "POST") (str "/sso") [] [])
        (a.handleSSO random (b.request (str "POST") (str "/sso") [] []))) := by
  have hroute : LoginRoute.of? (str "POST") (str "/sso") = some .sso := by decide
  exact serve_of_route (r := b.request _ _ _ _) hroute

theorem serve_callback (query : GoString) (jar : List SetCookie) :
    a.serve random (b.request (str "GET") callbackPath query jar) =
      some (a.authMW (b.request (str "GET") callbackPath query jar)
        (a.handleOIDCCallback (b.request (str "GET") callbackPath query jar))) := by
  have hroute : LoginRoute.of? (str "GET") callbackPath = some .oidcCallback := by decide
  exact serve_of_route (r := b.request _ _ _ _) hroute

/-- Cookies are all that a request adds to what the browser always sends. -/
theorem bearerToken_request (b : Browser) (method path rawQuery : GoString)
    (jar : List SetCookie) :
    bearerToken (b.request method path rawQuery jar) =
      bearerToken (b.request (str "GET") (str "/") [] []) := by
  have hget : (b.request method path rawQuery jar).header.get (str "Authorization") =
      b.header.get (str "Authorization") := by
    unfold Browser.request
    dsimp only
    split
    · rfl
    · unfold Header.get
      rw [GoMap.get?_set, if_neg (by decide)]
  unfold bearerToken
  rw [hget]
  rfl

/-- Without a token, the authenticator for OpenID Connect answers. -/
theorem authMW_oidc {keys : Option (GoString → Option Token)} (ha : a.auth = some (.oidc keys))
    {r : Request} (hr : bearerToken r = []) (next : LoginReply) :
    a.authMW r next = { answer := .unauthorized (str "missing Bearer token") } := by
  unfold LoginServer.authMW
  rw [ha]
  simp only [Authenticator.authenticate, if_pos hr]

theorem buildAuthMiddleware_oidc {services : Services} {auth : Authenticator}
    (h : buildAuthMiddleware (str "OIDC") services = .ok auth) :
    ∃ keys, auth = .oidc keys := by
  unfold buildAuthMiddleware at h
  rw [if_pos rfl] at h
  split at h
  · cases h
  · exact ⟨_, (Except.ok.inj h).symm⟩

/-- The authenticator lets every request through. -/
def LoginServer.Open (a : LoginServer) : Prop :=
  ∀ auth, a.auth = some auth → ∀ r, ∃ p, auth.authenticate r = .ok p

theorem LoginServer.Open.authMW (ha : a.Open) (r : Request) (next : LoginReply) :
    a.authMW r next = next := by
  unfold LoginServer.authMW
  cases hauth : a.auth with
  | none => rfl
  | some auth =>
    obtain ⟨p, hp⟩ := ha auth hauth r
    simp only [hp]

end Requests

/-! ### The login -/

/-- `base64.RawURLEncoding` -/
def isBase64URLByte (c : UInt8) : Bool :=
  Byte.isAlpha c || Byte.isDigit c || c == Byte.minus || c == Byte.underscore

theorem isBase64URLByte_plain : ∀ c : UInt8, isBase64URLByte c = true →
    isPlainCookieByte c = true ∧ c ≠ Byte.colon :=
  Byte.forall_of_ofNat (by decide +kernel)

def stateCookie (state nonce : GoString) (secure : Bool) : SetCookie :=
  ⟨oidcStateCookie, state ++ str ":" ++ nonce, callbackPath, oidcStateMaxAge, true, secure⟩

theorem cookiesFor_stateCookie (state nonce : GoString) (secure : Bool) :
    cookiesFor [stateCookie state nonce secure] callbackPath =
      [oidcStateCookie ++ Byte.equals :: (state ++ str ":" ++ nonce)] := by
  simp [cookiesFor, stateCookie, oidcStateMaxAge]

/-- What the callback finds in its request: the code, the state and the cookie of `/sso`. -/
theorem callback_request (b : Browser) (code : GoString) {state nonce : GoString} (secure : Bool)
    (hstate : state ≠ []) (hnonce : nonce ≠ [])
    (hbytes : ∀ c ∈ state ++ nonce, isBase64URLByte c = true) :
    let r := b.request (str "GET") callbackPath (callbackQuery code state)
      [stateCookie state nonce secure]
    queryGet r (str "code") = code ∧ queryGet r (str "state") = state ∧
      readOIDCStateCookie r = some (state, nonce) := by
  intro r
  have hquery : parseQuery r.rawQuery =
      (GoMap.empty.set (str "code") [code]).set (str "state") [state] := by
    change parseQuery (encodeValues [(str "code", code), (str "state", state)]) = _
    rw [parseQuery_encodeValues (by simp), List.foldl_cons, List.foldl_cons, List.foldl_nil]
    rw [GoMap.get?_set, if_neg (by decide : str "state" ≠ str "code")]
    rfl
  have hcookies : r.header.get? (str "Cookie") =
      some [oidcStateCookie ++ Byte.equals :: (state ++ str ":" ++ nonce)] := by
    simp only [r, Browser.request, cookiesFor_stateCookie]
    rw [GoMap.get?_set, if_pos rfl]
    simp [join]
  have hplain : ∀ c ∈ state ++ str ":" ++ nonce, isPlainCookieByte c = true := by
    intro c hc
    simp only [List.mem_append] at hc hbytes
    rcases hc with (hc | hc) | hc
    · exact (isBase64URLByte_plain c (hbytes c (.inl hc))).1
    · obtain rfl : c = Byte.colon := List.mem_singleton.mp hc
      decide
    · exact (isBase64URLByte_plain c (hbytes c (.inr hc))).1
  have hcolon : Byte.colon ∉ state := fun hc =>
    (isBase64URLByte_plain _ (hbytes _ (List.mem_append_left _ hc))).2 rfl
  have hcut : cut Byte.colon (state ++ str ":" ++ nonce) = (state, some nonce) := by
    rw [List.append_assoc, cut_append hcolon]
    change (state ++ (cut Byte.colon (Byte.colon :: nonce)).1,
      (cut Byte.colon (Byte.colon :: nonce)).2) = _
    rw [cut_cons_self, List.append_nil]
  refine ⟨?_, ?_, ?_⟩
  · unfold queryGet
    rw [hquery, GoMap.get?_set, if_neg (by decide), GoMap.get?_set, if_pos rfl]
    rfl
  · unfold queryGet
    rw [hquery, GoMap.get?_set, if_pos rfl]
    rfl
  · unfold readOIDCStateCookie
    rw [Request.cookie_of_single (by decide) hplain hcookies]
    simp only [hcut, hstate, hnonce, or_self, if_false]

/-- Behind an authenticator that lets everything through, the three handlers complete the login. -/
theorem signIn_succeeds {a : LoginServer} (ha : a.Open) (htype : a.authType = str "OIDC")
    {w : OidcWebLogin} (hw : a.webLogin = some w) {code state nonce idToken : GoString}
    (hcode : code ≠ []) (hstate : state ≠ []) (hnonce : nonce ≠ [])
    (hbytes : ∀ c ∈ state ++ nonce, isBase64URLByte c = true)
    (hexchange : w.exchange code nonce = .ok idToken) (b : Browser) :
    (a.signIn (.ok state, .ok nonce) code b).Succeeds idToken := by
  have hsso : a.serve (.ok state, .ok nonce) (b.request (str "POST") (str "/sso") [] []) =
      some ⟨.resultOK (.url (w.authCodeURL state nonce)), [stateCookie state nonce
        (requestIsHTTPS (b.request (str "POST") (str "/sso") [] []))]⟩ := by
    rw [serve_sso, ha.authMW]
    simp only [LoginServer.handleSSO, hw, htype, ne_eq, not_true_eq_false, if_false]
    rfl
  obtain ⟨hc, hs, hcookie⟩ := callback_request b code
    (requestIsHTTPS (b.request (str "POST") (str "/sso") [] [])) hstate hnonce hbytes
  constructor
  · unfold LoginServer.signIn
    dsimp only
    rw [serve_loginType, ha.authMW]
    simp only [LoginServer.handleLoginType, htype, if_true]
  · exact ⟨_, _, hsso⟩
  · have hurl : (w.authCodeURL state nonce).state = state := rfl
    simp only [LoginServer.signIn, hsso, Option.bind_some, hurl]
    rw [serve_callback, ha.authMW]
    simp only [LoginServer.handleOIDCCallback, hw, htype, hc, hs, hcookie, hcode, hexchange,
      ne_eq, not_true_eq_false, if_false]
    exact ⟨_, rfl, _, .tail _ (.head _), rfl, rfl⟩

/-- A browser without a bearer token is turned away by each of the endpoints, whatever cookies and
state it sends, and no login succeeds. -/
theorem oidc_signIn_fails {services : Services} {auth : Authenticator}
    (hauth : buildAuthMiddleware (str "OIDC") services = .ok auth) (w : OidcWebLogin)
    (random : Except GoError GoString × Except GoError GoString) {b : Browser}
    (hb : bearerToken (b.request (str "GET") (str "/") [] []) = []) :
    let a : LoginServer := ⟨str "OIDC", some auth, some w⟩
    (∀ code idToken, ¬(a.signIn random code b).Succeeds idToken) ∧
      ∀ route ∈ [(str "POST", str "/loginType"), (str "POST", str "/sso"),
        (str "GET", callbackPath)], ∀ query jar,
        a.serve random (b.request route.1 route.2 query jar) =
          some { answer := .unauthorized (str "missing Bearer token") } := by
  intro a
  obtain ⟨keys, rfl⟩ := buildAuthMiddleware_oidc hauth
  have hrejected : ∀ method path query jar next,
      a.authMW (b.request method path query jar) next =
        { answer := .unauthorized (str "missing Bearer token") } := by
    intro method path query jar next
    exact authMW_oidc rfl ((bearerToken_request b method path query jar).trans hb) next
  constructor
  · intro code idToken h
    have htype : a.serve random (b.request (str "POST") (str "/loginType") [] []) = _ :=
      h.loginType
    rw [serve_loginType, hrejected] at htype
    cases htype
  · intro route hroute query jar
    have hof : ∃ endpoint, LoginRoute.of? route.1 route.2 = some endpoint := by
      simp only [List.mem_cons, List.not_mem_nil, or_false] at hroute
      rcases hroute with rfl | rfl | rfl
      · exact ⟨.loginType, by decide⟩
      · exact ⟨.sso, by decide⟩
      · exact ⟨.oidcCallback, by decide⟩
    obtain ⟨endpoint, hendpoint⟩ := hof
    rw [serve_of_route (r := b.request _ _ _ _) hendpoint, hrejected]

def sampleProvider : OidcWebLogin where
  cfg := ⟨str "gateway", [], str "https://gateway/oidc/callback", []⟩
  authzURL := str "https://provider/authorize"
  tokenURL := str "https://provider/token"
  post _ _ := .ok (200, { idToken := str "header.claims.signature" })
  parseWithClaims _ := .ok (GoMap.empty.set (str "nonce") (.string (str "n1")))

def sampleServices : Services where
  basicAuth _ := none
  bind _ _ := .error ⟨[]⟩
  jwks := .ok fun _ => some ⟨.empty, []⟩

def signedOut : Browser := ⟨.empty, str "10.0.0.1:4711", str "gateway", true⟩

theorem oidc_signIn_fails_signedOut :
    buildAuthMiddleware (str "OIDC") sampleServices =
        .ok (.oidc (some fun _ => some ⟨.empty, []⟩)) ∧
      ¬((LoginServer.mk (str "OIDC") (some (.oidc (some fun _ => some ⟨.empty, []⟩)))
        (some sampleProvider)).signIn (.ok (str "s1"), .ok (str "n1")) (str "c1")
          signedOut).Succeeds (str "header.claims.signature") := by
  have hbuild : buildAuthMiddleware (str "OIDC") sampleServices =
      .ok (.oidc (some fun _ => some ⟨.empty, []⟩)) := rfl
  exact ⟨hbuild, (oidc_signIn_fails hbuild sampleProvider _ (by decide)).1 _ _⟩

/-- The provider would answer the exchange, and without the authenticator the login would
succeed; the login type query is turned away. -/
theorem signedOut_browser_rejected :
    sampleProvider.exchange (str "c1") (str "n1") = .ok (str "header.claims.signature") ∧
      ((LoginServer.mk (str "OIDC") none (some sampleProvider)).signIn
        (.ok (str "s1"), .ok (str "n1")) (str "c1") signedOut).Succeeds
          (str "header.claims.signature") ∧
      ((LoginServer.mk (str "OIDC") (some (.oidc (some fun _ => some ⟨.empty, []⟩)))
        (some sampleProvider)).signIn (.ok (str "s1"), .ok (str "n1")) (str "c1")
          signedOut).loginType = some { answer := .unauthorized (str "missing Bearer token") } := by
  refine ⟨by decide, ?_, ?_⟩
  · refine signIn_succeeds (fun auth h => by cases h) rfl rfl (by decide) (by decide) (by decide)
      (List.all_eq_true.mp (by decide)) ?_ signedOut
    decide
  · unfold LoginServer.signIn
    dsimp only
    rw [serve_loginType, authMW_oidc rfl (by decide)]

end TrinoGoway.Admin
