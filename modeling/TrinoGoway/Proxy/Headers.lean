import TrinoGoway.Gateway.Effects

/-! Headers of the upstream request and of the relayed response. -/
namespace TrinoGoway.Proxy

open Go Go.Http Routing

def hopByHopHeaders : List GoString :=
  ["Connection", "Keep-Alive", "Proxy-Authenticate", "Proxy-Authorization", "Te", "Trailers",
    "Transfer-Encoding", "Upgrade"].map str

def isHopByHop (name : GoString) : Bool := hopByHopHeaders.contains (canonicalHeaderKey name)

def copyHeaders (dst src : Header) : Header :=
  (src.filterKeys fun k => !isHopByHop k).entries.foldl (fun h e => GoMap.set h e.1 e.2) dst

def clientIP (remoteAddr : GoString) : GoString :=
  match cutLast Byte.colon remoteAddr with
  | some (ip, _) => ip
  | none => remoteAddr

/-- The host header value without its port; an IPv6 literal keeps its brackets. -/
def hostOnly (hostHeader : GoString) : GoString :=
  if hostHeader.head? = some Byte.openBracket then
    match cut Byte.closeBracket hostHeader with
    | (l, some _) => l ++ [Byte.closeBracket]
    | (_, none) => hostHeader
  else
    match cutLast Byte.colon hostHeader with
    | some (l, _) => l
    | none => hostHeader

def forwardedPort (hostHeader proto : GoString) : GoString :=
  let schemeDefault := if proto = str "https" then str "443" else str "80"
  if hostHeader.head? = some Byte.openBracket then
    match cut Byte.closeBracket hostHeader with
    | (_, some (58 :: port)) => port
    | _ => schemeDefault
  else
    match cutLast Byte.colon hostHeader with
    | some (_, port) => port
    | none => schemeDefault

/-- Set the `X-Forwarded-*` headers, then every header the router returned. -/
def injectHeaders (header : Header) (r : Request) (externalHeaders : Option (GoMap GoString)) :
    Header :=
  let existing := header.get (str "X-Forwarded-For")
  let ip := clientIP r.remoteAddr
  let proto := if r.tls then str "https" else str "http"
  let h := header.set (str "X-Forwarded-For")
    (if existing ≠ [] then existing ++ str ", " ++ ip else ip)
  let h := h.set (str "X-Forwarded-Proto") proto
  let h := h.set (str "X-Forwarded-Host") (hostOnly r.host)
  let h := h.set (str "X-Forwarded-Port") (forwardedPort r.host proto)
  (externalHeaders.getD .empty).entries.foldl (fun h e => Header.set h e.1 e.2) h

end TrinoGoway.Proxy
