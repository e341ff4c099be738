import TrinoGoway.Gateway.Effects

/-! The external router over HTTP and gRPC. -/
namespace TrinoGoway.Routing

open Go Go.Http

def defaultExternalTimeout : Duration := 1000000000

structure Selection where
  group : GoString
  headers : Option (GoMap GoString)
  errors : List GoString
  deriving DecidableEq

def nilIfEmpty (s : GoString) : Option GoString := if s = [] then none else some s

-- the parser of the reference gateway is not ported, and both transports say so
private def errMsg : GoString := str "trino-parser not available in Go v1"

def buildExternalBody (req : RouteInput) : RoutingGroupExternalBody where
  trinoQueryProperties :=
    { body := req.body
      queryType := []
      resourceGroupQueryType := []
      defaultCatalog := nilIfEmpty (req.headers.get (str "X-Trino-Catalog"))
      defaultSchema := nilIfEmpty (req.headers.get (str "X-Trino-Schema"))
      catalogs := []
      schemas := []
      catalogSchemas := []
      tables := []
      isNewQuerySubmission := req.method = str "POST"
      isQueryParsingSuccessful := false
      errorMessage := some errMsg }
  trinoRequestUser :=
    let u := req.headers.get (str "X-Trino-User")
    if u = [] then none else some { user := u, userInfo := none }
  contentType := str "application/json"
  remoteUser := nilIfEmpty req.remoteUser
  method := req.method
  requestURI := req.requestURI
  queryString := nilIfEmpty req.queryString
  remoteAddr := nilIfEmpty req.remoteAddr
  remoteHost := nilIfEmpty req.remoteHost
  parameters := req.parameters.getD .empty

def isExcluded (headers : List GoString) (name : GoString) : Bool :=
  (headers.map canonicalHeaderKey).contains (canonicalHeaderKey name)

/-- The headers of the POST: its content type, then the inbound ones that are not excluded. -/
def routerHeader (cfg : ExternalConfig) (inbound : Header) : Header :=
  let start := Header.set .empty (str "Content-Type") (str "application/json; charset=utf-8")
  let kept := inbound.filterKeys fun k =>
    !isExcluded cfg.excludeHeaders k && canonicalHeaderKey k != str "Content-Length"
  kept.entries.foldl (fun h e => e.2.foldl (fun h v => h.add e.1 v) h) start

def externalTimeout (cfg : ExternalConfig) : Duration :=
  if cfg.timeout = 0 then defaultExternalTimeout else cfg.timeout

def routerRequest (cfg : ExternalConfig) (req : RouteInput) : RouterRequest where
  url := cfg.url
  timeout := externalTimeout cfg
  header := routerHeader cfg req.headers
  body := buildExternalBody req

def selectGroupHTTP (urls : URLCodec) (cfg : ExternalConfig) (req : RouteInput) :
    Gw (Except GoError Selection) := do
  if cfg.url = [] then
    return .ok ⟨[], none, []⟩
  match urls.parse cfg.url with
  | .error e => return .error (e.wrap "routing: http: build request: ")
  | .ok _ =>
    match ← perform (.httpRoute (routerRequest cfg req)) with
    | .error e => return .error (e.wrap "routing: http: execute: ")
    | .ok resp =>
      if resp.status ≠ 200 then
        return .error ⟨str s!"routing: http: non-200 status {resp.status}"⟩
      match resp.decoded with
      | .error e => return .error (e.wrap "routing: http: decode response: ")
      | .ok result =>
        return .ok ⟨result.routingGroup.getD [], some (result.externalHeaders.getD .empty),
          result.errors⟩

def splitClientTags (header : GoString) : List GoString :=
  if header = [] then []
  else ((split Byte.comma header).map trimSpace).filter (· ≠ [])

def buildProtoRequest (req : RouteInput) : RouteRequest where
  trinoQueryProperties :=
    { body := req.body
      queryType := []
      resourceGroupQueryType := []
      defaultCatalog := req.headers.get (str "X-Trino-Catalog")
      defaultSchema := req.headers.get (str "X-Trino-Schema")
      catalogs := []
      schemas := []
      catalogSchemas := []
      tables := []
      isNewQuerySubmission := req.method = str "POST"
      isQueryParsingSuccessful := false
      errorMessage := errMsg }
  trinoRequestUser := { user := req.headers.get (str "X-Trino-User"), userInfo := [] }
  contentType := str "application/json"
  remoteUser := req.remoteUser
  method := req.method
  requestUri := req.requestURI
  queryString := req.queryString
  remoteAddr := req.remoteAddr
  remoteHost := req.remoteHost
  parameterMap := (req.parameters.getD .empty).mapVals fun vals => join vals (str ",")
  trinoSource := req.headers.get (str "X-Trino-Source")
  clientTags := splitClientTags (req.headers.get (str "X-Trino-Client-Tags"))

def selectGroupGRPC (cfg : ExternalConfig) (req : RouteInput) : Gw (Except GoError Selection) := do
  match ← perform (.grpcRoute (externalTimeout cfg) (buildProtoRequest req)) with
  | .error e => return .error (e.wrap "routing: grpc: route: ")
  | .ok resp =>
    return .ok ⟨resp.routingGroup, some (resp.externalHeaders.getD .empty), resp.errors⟩

end TrinoGoway.Routing
