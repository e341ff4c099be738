import TrinoGoway.Admin.Distribution
import TrinoGoway.Admin.Routes
import TrinoGoway.Admin.SignIn
import TrinoGoway.Admin.Userinfo
import TrinoGoway.ClusterStats.UiApi
import TrinoGoway.Persistence.Registry

/-! The admin server as a whole: every route with its handler, over the table of backends, the
statuses of the monitor and the collected stats. -/
namespace TrinoGoway.Admin

open Go Go.Http Auth Persistence
open Monitor (Snapshot TrinoStatus)
open UiApi (ClusterStats)

/-! ### Wire formats -/

structure BackendResponse extends ProxyBackend where
  queued : ℤ
  running : ℤ
  status : GoString
  deriving DecidableEq

structure ClusterStatsResponse where
  clusterID : GoString
  runningQueryCount : ℤ
  queuedQueryCount : ℤ
  numWorkerNodes : ℤ
  trinoStatus : GoString
  proxyTo : GoString
  externalURL : GoString
  routingGroup : GoString
  userQueuedCount : Option (GoMap ℕ)
  deriving DecidableEq

def externalURLOrProxyTo (externalURL proxyTo : GoString) : GoString :=
  if externalURL = [] then proxyTo else externalURL

def proxyBackendFromPersistence (b : Backend) : ProxyBackend where
  name := b.name
  proxyTo := b.url
  externalURL := externalURLOrProxyTo b.externalURL b.url
  active := b.active
  routingGroup := b.routingGroup

def trinoStatusLabel : TrinoStatus → GoString
  | .healthy => str "HEALTHY"
  | .unhealthy => str "UNHEALTHY"
  | .pending => str "PENDING"
  | .unknown => str "UNKNOWN"

inductive Payload
  | null
  | flag (b : Bool)
  | text (s : GoString)
  | names (names : List GoString)
  | backend (pb : ProxyBackend)
  | backends (pbs : List ProxyBackend)
  | responses (rs : List BackendResponse)
  | state (r : ClusterStatsResponse)
  | token (token : GoString)
  | userinfo (u : UserinfoResponse)
  | distribution (d : DistributionResponse)
  | uiConfiguration (authType : GoString) (disablePages : List GoString)
  /-- the empty list of routing rules -/
  | noRules
  deriving DecidableEq

inductive Answer
  | notFound
  | methodNotAllowed
  /-- 401, from the authenticator -/
  | unauthorized (msg : GoString)
  /-- 403, from `RequireRole` -/
  | forbidden
  /-- 303 -/
  | redirect (location : GoString)
  | text (status : ℕ) (body : GoString)
  | empty (status : ℕ)
  /-- 200 -/
  | json (p : Payload)
  /-- 200 with an envelope of code 200 -/
  | resultOK (p : Payload)
  /-- 200 with an envelope of code 500 -/
  | resultErr (msg : GoString)
  /-- a file of the web UI, by its handler and the path behind the pattern -/
  | page (h : Handler) (params : List GoString)
  | history (r : Reply)
  | login (r : LoginReply)

def Answer.accepted : Answer → Bool
  | json _ | resultOK _ => true
  | empty status => status = 200
  | _ => false

def internalServerError : Answer := .text 500 (str "internal server error")

def badRequest : Answer := .text 400 (str "bad request")

/-! ### The server and what it works on -/

/-- `json.Unmarshal` into the types of the bodies. An undecodable body of a distribution request is
as good as an empty one. -/
structure Decoders where
  backend : GoString → Option ProxyBackend
  history : GoString → Option FindQueryHistoryRequest
  distribution : GoString → DistributionRequest
  /-- the user name of a login -/
  login : GoString → Option GoString

structure Api where
  mux : Mux
  server : Server
  authType : GoString
  webLogin : Option OidcWebLogin
  pagePermissions : GoMap GoString
  disablePages : List GoString
  /-- the path of the metrics, if they are enabled -/
  metricsPath : Option GoString
  /-- a monitor is wired for `SetBackendStatus` -/
  statusMut : Bool
  /-- a `StatsProvider` is wired -/
  stats : Bool
  decode : Decoders

structure ApiState where
  table : BackendTable
  status : Snapshot
  stats : GoString → ClusterStats
  ready : Bool

/-- What a request meets outside of the server: the time, whether the statement on the table of
backends fails, the order in which its rows are read, the history, random tokens, and what the
registry of the metrics shows. A statement that fails has changed nothing. -/
structure Env where
  now : Time
  fault : Option GoError
  order : List Backend → List Backend
  perm : ∀ rows, (order rows).Perm rows
  history : HistoryStore
  random : Except GoError GoString × Except GoError GoString
  metrics : GoString

/-- `decodeJSON`, which reads no more than a mebibyte. -/
def decodeJSON {α : Type} (r : Request) (unmarshal : GoString → Option α) : Option α :=
  match r.body with
  | .error _ => none
  | .ok body => unmarshal (body.take (2 ^ 20))

namespace Env

def list (env : Env) (t : BackendTable) : Except GoError (List Backend) :=
  match env.fault with
  | some e => .error (e.wrap "persistence: backend: list: ")
  | none => .ok (env.order t.rows)

def listActive (env : Env) (t : BackendTable) : Except GoError (List Backend) :=
  match env.fault with
  | some e => .error (e.wrap "persistence: backend: list active: ")
  | none => .ok (env.order t.listActive)

/-- One of the statements that change the table; `ok` and `err` are the answers. -/
def store (env : Env) (s : ApiState) (w : BackendWrite) (ok err : Answer) : Answer × ApiState :=
  match env.fault with
  | some _ => (err, s)
  | none => (ok, { s with table := s.table.apply w })

end Env

namespace Api

def listing (backends : Except GoError (List Backend)) : Answer :=
  match backends with
  | .error _ => internalServerError
  | .ok backends => .json (.backends (backends.map proxyBackendFromPersistence))

def backendResponseFromPersistence (a : Api) (s : ApiState) (b : Backend) : BackendResponse where
  toProxyBackend := proxyBackendFromPersistence b
  queued := if a.stats then (s.stats b.name).queuedQueryCount else 0
  running := if a.stats then (s.stats b.name).runningQueryCount else 0
  status := trinoStatusLabel (s.status.status b.url)

/-- The counts are those collected; everything that identifies the backend is from its row. -/
def clusterStatsResponseFromPersistence (s : ApiState) (b : Backend) (cs : ClusterStats) :
    ClusterStatsResponse where
  clusterID := b.name
  runningQueryCount := cs.runningQueryCount
  queuedQueryCount := cs.queuedQueryCount
  numWorkerNodes := cs.numWorkerNodes
  trinoStatus := trinoStatusLabel (s.status.status b.url)
  proxyTo := b.url
  externalURL := externalURLOrProxyTo b.externalURL b.url
  routingGroup := b.routingGroup
  userQueuedCount := cs.userQueuedCount

def oneBackend (env : Env) (s : ApiState) (name : GoString) (answer : Backend → Payload) : Answer :=
  match env.list s.table with
  | .error _ => internalServerError
  | .ok backends =>
    match backends.find? (·.name = name) with
    | some b => .json (answer b)
    | none => .notFound

def zeroStats : ClusterStats := ⟨[], 0, 0, 0, .unknown, [], [], [], none⟩

def getPublicBackendState (a : Api) (env : Env) (s : ApiState) (name : GoString) : Answer :=
  oneBackend env s name fun b =>
    .state (clusterStatsResponseFromPersistence s b (if a.stats then s.stats b.name else zeroStats))

def webappGetAllBackends (a : Api) (env : Env) (s : ApiState) : Answer :=
  match env.list s.table with
  | .error _ => .resultErr (str "failed to list backends")
  | .ok backends =>
    .resultOK (.responses (backends.map (a.backendResponseFromPersistence s)))

def setActive (env : Env) (s : ApiState) (name : GoString) (active : Bool) : Answer × ApiState :=
  env.store s (.setActive name active env.now) (.empty 200)
    (.text 404 (str "backend " ++ quoted name ++ str " not found or error"))

def answerOf : BackendReply → Answer
  | .badRequest => badRequest
  | .internalError => internalServerError
  | .unknownEntityType e => .text 500 (str "unknown entity type: " ++ quoted e)
  | .saved pb => .json (.backend pb)

def saving (s : ApiState) (res : BackendReply × BackendTable) : Answer × ApiState :=
  (answerOf res.1, { s with table := res.2 })

/-- The name in the body of a delete request, which is read up to a kibibyte. -/
def nameInBody (r : Request) : Except GoError GoString :=
  r.body.map fun body => trimSpace (body.take (2 ^ 10))

def deleteBackend (env : Env) (s : ApiState) (r : Request) : Answer × ApiState :=
  match nameInBody r with
  | .error _ => (badRequest, s)
  | .ok name =>
    if name = [] then (.text 400 (str "bad request: empty name"), s)
    else env.store s (.delete name) (.empty 200) internalServerError

def upsertEntity (a : Api) (env : Env) (s : ApiState) (r : Request) : Answer × ApiState :=
  let res := Admin.upsertEntity a.statusMut s.table env.now env.fault
    (queryGet r (str "entityType")) (decodeJSON r a.decode.backend)
  let saved := saving s (res.1, res.2.1)
  match res.2.2 with
  | none => saved
  | some (url, status) => (saved.1, { saved.2 with status := s.status.set url status })

def gatewayBackend : GoString := str "GATEWAY_BACKEND"

def listEntities (env : Env) (s : ApiState) (entityType : GoString) : Answer :=
  if entityType ≠ gatewayBackend then .json (.backends [])
  else listing (env.list s.table)

/-- `webappSaveBackend` and `webappUpdateBackend`, which differ in one text. -/
def webappStore (a : Api) (env : Env) (s : ApiState) (r : Request) (failure : String) :
    Answer × ApiState :=
  match decodeJSON r a.decode.backend with
  | none => (.resultErr (str "bad request"), s)
  | some pb =>
    env.store s (.upsert (persistenceBackendFromProxy pb env.now)) (.resultOK (.backend pb))
      (.resultErr (str failure))

/-- Only the name is used. -/
def webappDeleteBackend (a : Api) (env : Env) (s : ApiState) (r : Request) : Answer × ApiState :=
  match decodeJSON r a.decode.backend with
  | none => (.resultErr (str "bad request"), s)
  | some pb =>
    env.store s (.delete pb.name) (.resultOK (.flag true))
      (.resultErr (str "failed to delete backend"))

def handleLogin (a : Api) (r : Request) : Answer :=
  match decodeJSON r a.decode.login with
  | none => .resultErr (str "bad request")
  | some username =>
    if a.authType = str "NOOP" ∨ a.authType = [] then .resultOK (.token username)
    else .resultErr (str "login not implemented for auth type: " ++ a.authType)

def loginServer (a : Api) : LoginServer := ⟨a.authType, a.server.auth, a.webLogin⟩

def webappGetDistribution (a : Api) (env : Env) (s : ApiState) (r : Request) : Answer :=
  match Admin.webappGetDistribution s.status env.now (env.list s.table) env.history
      (a.decode.distribution ((decodeJSON r some).getD [])) with
  | .error msg => .resultErr msg
  | .ok d => .resultOK (.distribution d)

def handleReadyz (s : ApiState) : Answer :=
  if s.ready then .text 200 (str "ok") else .text 503 (str "not ready")

/-- The handlers. `p` is the principal in the context of the request and `params` are the
parameters of the route. -/
def handle (a : Api) (env : Env) (s : ApiState) (r : Request) (p : Option Principal)
    (params : List GoString) : Handler → Answer × ApiState
  | .redirectRoot => (.redirect uiBasePath, s)
  | .handleLivez => (.text 200 (str "ok"), s)
  | .handleReadyz => (handleReadyz s, s)
  | .metrics => (.text 200 env.metrics, s)
  | .serveIndex => (.page .serveIndex [], s)
  | .serveLogoSVG => (.page .serveLogoSVG [], s)
  | .serveAssets => (.page .serveAssets params, s)
  | .listPublicBackends => (listing (env.list s.table), s)
  | .getPublicBackend =>
    (oneBackend env s (params.headD []) fun b => .backend (proxyBackendFromPersistence b), s)
  | .getPublicBackendState => (a.getPublicBackendState env s (params.headD []), s)
  | .handleSSO => (.login (a.loginServer.handleSSO env.random r), s)
  | .handleOIDCCallback => (.login (a.loginServer.handleOIDCCallback r), s)
  | .handleLogin => (a.handleLogin r, s)
  | .handleLogout => (.resultOK .null, s)
  | .handleLoginType => (.login a.loginServer.handleLoginType, s)
  | .handleGatewayPing => (.json (.text (str "ok")), s)
  | .listAllBackends => (listing (env.list s.table), s)
  | .listActiveBackends => (listing (env.listActive s.table), s)
  | .activateBackend => setActive env s (params.headD []) true
  | .deactivateBackend => setActive env s (params.headD []) false
  | .addBackend =>
    saving s (Admin.addBackend s.table env.now env.fault (decodeJSON r a.decode.backend))
  | .updateBackend =>
    saving s (Admin.updateBackend s.table env.now env.fault (decodeJSON r a.decode.backend))
  | .deleteBackend => deleteBackend env s r
  | .listEntityTypes => (.json (.names [gatewayBackend]), s)
  | .upsertEntity => a.upsertEntity env s r
  | .listEntities => (listEntities env s (params.headD []), s)
  | .handleUserinfo => (.resultOK (.userinfo (a.server.handleUserinfo a.pagePermissions p)), s)
  | .queryHistory => (.history (a.server.queryHistory env.history p), s)
  | .legacyActiveBackends => (listing (env.listActive s.table), s)
  | .queryHistoryDistribution => (.history (a.server.queryHistoryDistribution env.history p), s)
  | .webappGetAllBackends => (a.webappGetAllBackends env s, s)
  | .webappFindQueryHistory =>
    (.history (a.server.webappFindQueryHistory env.history p (decodeJSON r a.decode.history)), s)
  | .webappGetDistribution => (a.webappGetDistribution env s r, s)
  | .webappGetUIConfig => (.resultOK (.uiConfiguration a.authType a.disablePages), s)
  | .webappGetRoutingRules => (.empty 204, s)
  | .webappUpdateRoutingRules => (.resultOK .noRules, s)
  | .webappSaveBackend => a.webappStore env s r "failed to save backend"
  | .webappUpdateBackend => a.webappStore env s r "failed to update backend"
  | .webappDeleteBackend => a.webappDeleteBackend env s r

def authorize (a : Api) (r : Request) : Access → Except Answer (Option Principal)
  | .anyone => .ok none
  | .authenticated =>
    match a.server.principal r with
    | .error msg => .error (.unauthorized msg)
    | .ok p => .ok p
  | .role role =>
    match a.server.principal r with
    | .error msg => .error (.unauthorized msg)
    | .ok p =>
      if hasRole a.server.matchString p role a.server.authorization then .ok p
      else .error .forbidden

def serve (a : Api) (env : Env) (s : ApiState) (r : Request) : Answer × ApiState :=
  match a.mux.resolve (routes a.metricsPath) r with
  | .notFound => (.notFound, s)
  | .methodNotAllowed => (.methodNotAllowed, s)
  | .found route params =>
    match a.authorize r route.access with
    | .error answer => (answer, s)
    | .ok p => a.handle env s r p params route.handler

end Api

end TrinoGoway.Admin
