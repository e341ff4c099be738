import TrinoGoway.Auth.Middleware
import TrinoGoway.Proxy.Cookie
import TrinoGoway.Proxy.Headers
import TrinoGoway.Proxy.Statement
import TrinoGoway.Routing.Router

/-! The proxy handlers. -/
namespace TrinoGoway

open Go Go.Http Routing

/-- How a handler ends. After a panic the server closes the connection. -/
inductive Served
  | done
  | panicked
  deriving DecidableEq

structure Proxy where
  cfg : ProxyConfig
  cookie : CookieConfig
  router : Router
  /-- whether a history recorder is wired -/
  history : Bool
  auth : Option Auth.Authenticator
  codec : Proxy.CookieCodec
  /-- reading a body through a gzip reader -/
  gunzip : Stream → Stream

namespace Proxy

def httpError (h : Header) (msg : GoString) (code : ℕ) : Gw Served := do
  let h := h.del (str "Content-Length")
  let h := h.set (str "Content-Type") (str "text/plain; charset=utf-8")
  let h := h.set (str "X-Content-Type-Options") (str "nosniff")
  perform (.writeHeader code h)
  perform (.write (msg ++ [Byte.newline]))
  return .done

/-- The request to the backend. None stands for a nil dereference: the errors of parsing the
backend URL and of building the request are ignored. -/
def buildUpstreamRequest (urls : URLCodec) (backendURL : GoString) (r : Request)
    (body : Except GoError GoString) : Option UpstreamRequest :=
  match urls.parse backendURL with
  | .error _ => none
  | .ok target =>
    let upURL := { target with path := r.path, rawQuery := r.rawQuery }
    match urls.parse (urls.print upURL) with
    | .error _ => none
    | .ok url =>
      if isToken r.method then
        some
          { method := r.method
            url := url
            header := r.header.filterKeys fun k => !isHopByHop k
            body := body }
      else none

/-- `net/http` asks for gzip itself, and undoes it, only when the caller asked for nothing. -/
def transparentGzip (req : UpstreamRequest) : Bool :=
  req.header.get (str "Accept-Encoding") = [] && req.header.get (str "Range") = [] &&
    req.method != str "HEAD"

def receive (gunzip : Stream → Stream) (req : UpstreamRequest) (wire : Response) : Response :=
  if transparentGzip req && equalFold (wire.header.get (str "Content-Encoding")) (str "gzip") &&
      wire.body != ⟨[], none⟩ then
    { status := wire.status
      header := (wire.header.del (str "Content-Encoding")).del (str "Content-Length")
      body := gunzip wire.body }
  else wire

def roundTrip (p : Proxy) (req : UpstreamRequest) : Gw (Except GoError Response) := do
  match ← perform (.roundTrip req) with
  | .error e => return .error e
  | .ok wire => return .ok (receive p.gunzip req wire)

def readLimited (limit : ℕ) (body : Stream) : Except GoError GoString :=
  if limit < body.bytes.length then .ok (body.bytes.take (limit + 1))
  else
    match body.err with
    | some e => .error e
    | none => .ok body.bytes

def upstreamRequest (p : Proxy) (r : Request) (body : Except GoError GoString)
    (result : RouteResult) : Option UpstreamRequest :=
  (buildUpstreamRequest p.router.urls result.backendURL r body).map fun up =>
    { up with header := injectHeaders up.header r result.externalHeaders }

def recordHistory (p : Proxy) (r : Request) (backendURL queryID : GoString) : Gw Unit := do
  if p.history then
    let _ ← historyAdapterInsert queryID backendURL (r.header.get (str "X-Trino-User"))
      (r.header.get (str "X-Trino-Source"))

def writableStatus (code : ℕ) : Bool :=
  100 ≤ code && code ≤ 999

/-- `WriteHeader`, which panics on a code that is not one, and then the body. -/
def writeResponse (code : ℕ) (h : Header) (body : GoString) : Gw Served := do
  if writableStatus code then
    perform (.writeHeader code h)
    perform (.write body)
    return .done
  else return .panicked

/-- The end of both handlers: relay status and headers of the response, then `body`. -/
def relay (p : Proxy) (r : Request) (backendURL : GoString) (resp : Response) (body : GoString) :
    Gw Served := do
  let h := copyHeaders .empty resp.header
  match ← applyCookies p.codec p.cookie h r backendURL with
  | none => httpError h (str "invalid gateway cookie") 500
  | some h' => writeResponse resp.status h' body

def relayStatement (p : Proxy) (r : Request) (result : RouteResult) (resp : Response)
    (buf : GoString) : Gw Served := do
  let queryID := extractQueryIDFromBody buf
  if queryID ≠ [] then
    Router.writeCache queryID result.backendURL
    p.recordHistory r result.backendURL queryID
  p.relay r result.backendURL resp buf

def bufferStatement (p : Proxy) (r : Request) (result : RouteResult) (resp : Response) :
    Gw Served :=
  match readLimited p.cfg.responseSize resp.body with
  | .error _ => httpError .empty (str "upstream read error") 502
  | .ok buf =>
    if p.cfg.responseSize < buf.length then
      httpError .empty (str "upstream response too large") 502
    else p.relayStatement r result resp buf

def forwardStatement (p : Proxy) (r : Request) (reqBody : GoString) (result : RouteResult) :
    Gw Served := do
  match p.cfg.propagateErrors, result.errors with
  | true, e :: _ => httpError .empty e 400
  | _, _ =>
    match p.upstreamRequest r (.ok reqBody) result with
    | none => return .panicked
    | some upReq =>
      match ← p.roundTrip upReq with
      | .error _ => httpError .empty (str "upstream error") 502
      | .ok resp => p.bufferStatement r result resp

def handleStatement (p : Proxy) (r : Request) : Gw Served := do
  match r.body with
  | .error _ => httpError .empty (str "bad request") 400
  | .ok reqBody =>
    match ← p.router.route (newRouteInput r reqBody) with
    | .error _ => httpError .empty (str "no backend available") 502
    | .ok result =>
      if result.backendURL = [] then httpError .empty (str "no backend available") 502
      else p.forwardStatement r reqBody result

/-- `handleStream` once a backend is selected. The copy to the client ends where the body of the
response ends, with or without an error. -/
def forwardStream (p : Proxy) (r : Request) (result : RouteResult) : Gw Served := do
  match p.upstreamRequest r r.body result with
  | none => return .panicked
  | some upReq =>
    match ← p.roundTrip upReq with
    | .error _ => httpError .empty (str "upstream error") 502
    | .ok resp => p.relay r result.backendURL resp resp.body.bytes

def handleStream (p : Proxy) (r : Request) : Gw Served := do
  match ← p.router.route (newRouteInput r []) with
  | .error _ => httpError .empty (str "no backend available") 502
  | .ok result =>
    if result.backendURL = [] then httpError .empty (str "no backend available") 502
    else p.forwardStream r result

def knownMethods : List GoString :=
  ["CONNECT", "DELETE", "GET", "HEAD", "OPTIONS", "PATCH", "POST", "PUT", "TRACE"].map str

def routePath (r : Request) : GoString :=
  let path := if r.rawPath ≠ [] then r.rawPath else r.path
  if path = [] then [Byte.slash] else path

def isStatement (r : Request) : Bool :=
  r.method = str "POST" && routePath r = str "/v1/statement"

def dispatch (p : Proxy) (r : Request) : Gw Served := do
  if !knownMethods.contains r.method then
    perform (.writeHeader 405 .empty)
    perform (.write [])
    return .done
  if isStatement r then p.handleStatement r
  else if hasPrefix (routePath r) [Byte.slash] then p.handleStream r
  else httpError .empty (str "404 page not found") 404

/-- `Proxy.ServeHTTP`, behind the authenticator if one is installed. -/
def serveHTTP (p : Proxy) (r : Request) : Gw Served := do
  match p.auth with
  | none => p.dispatch r
  | some a =>
    match a.authenticate r with
    | .error msg =>
      Auth.writeUnauthorized msg
      return .done
    | .ok _ => p.dispatch r

end Proxy

end TrinoGoway
