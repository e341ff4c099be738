import TrinoGoway.Auth.Roles
import TrinoGoway.Go.Http

/-! The routes of the admin server, and how a request gets to its handler. -/
namespace TrinoGoway.Admin

open Go Go.Http Auth

inductive Method
  | get
  | post
  deriving DecidableEq

def Method.text : Method → GoString
  | get => str "GET"
  | post => str "POST"

inductive Access
  | anyone
  /-- the authenticator alone -/
  | authenticated
  /-- the authenticator and `RequireRole` -/
  | role (role : Role)
  deriving DecidableEq

inductive Handler
  | redirectRoot
  | handleLivez
  | handleReadyz
  /-- the handler of the metrics registry -/
  | metrics
  | serveIndex
  | serveLogoSVG
  | serveAssets
  | listPublicBackends
  | getPublicBackend
  | getPublicBackendState
  | handleSSO
  | handleOIDCCallback
  | handleLogin
  | handleLogout
  | handleLoginType
  | handleGatewayPing
  | listAllBackends
  | listActiveBackends
  | activateBackend
  | deactivateBackend
  | addBackend
  | updateBackend
  | deleteBackend
  | listEntityTypes
  | upsertEntity
  | listEntities
  | handleUserinfo
  | queryHistory
  | legacyActiveBackends
  | queryHistoryDistribution
  | webappGetAllBackends
  | webappFindQueryHistory
  | webappGetDistribution
  | webappGetUIConfig
  | webappGetRoutingRules
  | webappUpdateRoutingRules
  | webappSaveBackend
  | webappUpdateBackend
  | webappDeleteBackend
  deriving DecidableEq

structure Route where
  method : Method
  pattern : GoString
  access : Access
  handler : Handler
  deriving DecidableEq

def group (access : Access) (rs : List (Method × String × Handler)) : List Route :=
  rs.map fun r => ⟨r.1, str r.2.1, access, r.2.2⟩

/-- `buildRouter`; the metrics have a route if they are enabled. -/
def routes (metricsPath : Option GoString) : List Route :=
  group .anyone
    [(.get, "/", .redirectRoot),
      (.get, "/trino-gateway/livez", .handleLivez),
      (.get, "/trino-gateway/readyz", .handleReadyz)] ++
  (metricsPath.toList.map fun path => ⟨.get, path, .anyone, .metrics⟩) ++
  group .anyone
    [(.get, "/trino-gateway", .serveIndex),
      (.get, "/trino-gateway/logo.svg", .serveLogoSVG),
      (.get, "/trino-gateway/assets/*", .serveAssets),
      (.get, "/api/public/backends", .listPublicBackends),
      (.get, "/api/public/backends/\x7bname\x7d", .getPublicBackend),
      (.get, "/api/public/backends/\x7bname\x7d/state", .getPublicBackendState)] ++
  group .authenticated
    [(.post, "/sso", .handleSSO),
      (.get, "/oidc/callback", .handleOIDCCallback),
      (.post, "/login", .handleLogin),
      (.post, "/logout", .handleLogout),
      (.post, "/loginType", .handleLoginType)] ++
  group (.role .api)
    [(.get, "/gateway", .handleGatewayPing),
      (.get, "/gateway/backend/all", .listAllBackends),
      (.get, "/gateway/backend/active", .listActiveBackends),
      (.post, "/gateway/backend/activate/\x7bname\x7d", .activateBackend),
      (.post, "/gateway/backend/deactivate/\x7bname\x7d", .deactivateBackend),
      (.post, "/gateway/backend/modify/add", .addBackend),
      (.post, "/gateway/backend/modify/update", .updateBackend),
      (.post, "/gateway/backend/modify/delete", .deleteBackend)] ++
  group (.role .admin)
    [(.get, "/entity", .listEntityTypes),
      (.post, "/entity", .upsertEntity),
      (.get, "/entity/\x7bentityType\x7d", .listEntities)] ++
  group (.role .user)
    [(.post, "/userinfo", .handleUserinfo)] ++
  group (.role .user)
    [(.get, "/trino-gateway/api/queryHistory", .queryHistory),
      (.get, "/trino-gateway/api/activeBackends", .legacyActiveBackends),
      (.get, "/trino-gateway/api/queryHistoryDistribution", .queryHistoryDistribution)] ++
  group (.role .user)
    [(.post, "/webapp/getAllBackends", .webappGetAllBackends),
      (.post, "/webapp/findQueryHistory", .webappFindQueryHistory),
      (.post, "/webapp/getDistribution", .webappGetDistribution),
      (.post, "/webapp/getUIConfiguration", .webappGetUIConfig)] ++
  group (.role .admin)
    [(.post, "/webapp/getRoutingRules", .webappGetRoutingRules),
      (.post, "/webapp/updateRoutingRules", .webappUpdateRoutingRules),
      (.post, "/webapp/saveBackend", .webappSaveBackend),
      (.post, "/webapp/updateBackend", .webappUpdateBackend),
      (.post, "/webapp/deleteBackend", .webappDeleteBackend)] ++
  group .anyone [(.get, "/trino-gateway/*", .serveIndex)]

inductive Resolution
  | found (route : Route) (params : List GoString)
  | methodNotAllowed
  | notFound
  deriving DecidableEq

/-- `chi.Mux` with these routes: a request is handed to none but a route that is registered. -/
structure Mux where
  resolve : List Route → Request → Resolution
  registered : ∀ {rs r route params}, resolve rs r = .found route params → route ∈ rs

end TrinoGoway.Admin
