import TrinoGoway.Config
import TrinoGoway.Go.Http

/-! What the router is asked, what it answers, and its messages to the external router. -/
namespace TrinoGoway.Routing

open Go Go.Http

structure RouteInput where
  method : GoString
  requestURI : GoString
  queryString : GoString
  remoteAddr : GoString
  remoteHost : GoString
  remoteUser : GoString
  /-- the buffered body of a statement, empty for every other request -/
  body : GoString
  parameters : Option (GoMap (List GoString))
  headers : Header

def newRouteInput (req : Request) (body : GoString) : RouteInput where
  method := req.method
  requestURI := req.requestURI
  queryString := req.rawQuery
  remoteAddr := req.remoteAddr
  remoteHost := req.host
  remoteUser := req.header.get (str "X-Trino-User")
  body := body
  parameters := req.form
  headers := req.header

inductive Outcome
  | ok
  | fallback
  | killQuery
  | error
  deriving DecidableEq

structure RouteResult where
  backendURL : GoString
  routingGroup : GoString := []
  externalHeaders : Option (GoMap GoString) := none
  errors : List GoString := []
  outcome : Outcome
  deriving DecidableEq

structure ActiveBackend where
  name : GoString
  url : GoString
  routingGroup : GoString
  deriving DecidableEq

/-- Query properties; optional strings are `τ`, which is nullable over HTTP and plain over gRPC. -/
structure TrinoQueryProperties (τ : Type) where
  body : GoString
  queryType : GoString
  resourceGroupQueryType : GoString
  defaultCatalog : τ
  defaultSchema : τ
  catalogs : List GoString
  schemas : List GoString
  catalogSchemas : List GoString
  tables : List GoString
  isNewQuerySubmission : Bool
  isQueryParsingSuccessful : Bool
  errorMessage : τ

structure TrinoRequestUser (τ : Type) where
  user : GoString
  userInfo : τ

structure RoutingGroupExternalBody where
  trinoQueryProperties : TrinoQueryProperties (Option GoString)
  trinoRequestUser : Option (TrinoRequestUser (Option GoString))
  contentType : GoString
  remoteUser : Option GoString
  method : GoString
  requestURI : GoString
  queryString : Option GoString
  remoteAddr : Option GoString
  remoteHost : Option GoString
  parameters : GoMap (List GoString)

structure RouterRequest where
  url : GoString
  timeout : Duration
  header : Header
  body : RoutingGroupExternalBody

structure ExternalRouterResponse where
  routingGroup : Option GoString
  errors : List GoString
  externalHeaders : Option (GoMap GoString)

/-- An HTTP response of the router: its status, and what decoding its body gives. -/
structure RouterAnswer where
  status : ℕ
  decoded : Except GoError ExternalRouterResponse

structure RouteRequest where
  trinoQueryProperties : TrinoQueryProperties GoString
  trinoRequestUser : TrinoRequestUser GoString
  contentType : GoString
  remoteUser : GoString
  method : GoString
  requestUri : GoString
  queryString : GoString
  remoteAddr : GoString
  remoteHost : GoString
  parameterMap : GoMap GoString
  trinoSource : GoString
  clientTags : List GoString

structure RouteResponse where
  routingGroup : GoString
  externalHeaders : Option (GoMap GoString)
  errors : List GoString

end TrinoGoway.Routing
