import TrinoGoway.Persistence.Dao
import TrinoGoway.Routing.Extract
import TrinoGoway.Routing.External

/-! The routing decision and the recovery chain. -/
namespace TrinoGoway.Routing

open Go Go.Http Persistence

structure Router where
  cfg : RoutingConfig
  urls : URLCodec

def singleFlight (key : GoString) (fn : Gw (Except GoError GoString)) :
    Gw (Except GoError GoString) := do
  match ← perform (.enterFlight key) with
  | .join c => perform (.awaitFlight c)
  | .lead c =>
    let res ← fn
    perform (.finishFlight c res)
    perform (.leaveFlight key)
    return res

def headProbeFanOut (queryID : GoString) (backends : List ActiveBackend) : Gw GoString := do
  let probes := backends.map fun b => (b.url, b.url ++ str "/v1/query/" ++ queryID)
  let arrived ← perform (.headProbes probes)
  return (arrived.find? (· ≠ [])).getD []

def recoverFromHistory (queryID : GoString) : Gw GoString := do
  match ← singleFlight queryID (HistoryDAO.lookupByQueryID queryID) with
  | .error _ => return []
  | .ok url => return url

def recoverFromActive (queryID : GoString) : Gw GoString := do
  match ← listActive with
  | .error _ => return []
  | .ok [] => return []
  | .ok (b :: bs) =>
    let url ← headProbeFanOut queryID (b :: bs)
    return if url ≠ [] then url else b.url

def recoverBackend (queryID : GoString) : Gw GoString := do
  let url ← recoverFromHistory queryID
  if url ≠ [] then return url
  recoverFromActive queryID

def resolveGroup (group : GoString) : Gw (Except GoError GoString) := do
  match ← listActive with
  | .error e => return .error e
  | .ok backends =>
    match backends.find? fun b => b.routingGroup = group with
    | some b => return .ok b.url
    | none => return .ok []

def firstActiveBackend : Gw GoString := do
  match ← listActive with
  | .error _ => return []
  | .ok [] => return []
  | .ok (b :: _) => return b.url

namespace Router

def filterExcludedHeaders (r : Router) (headers : Option (GoMap GoString)) :
    Option (GoMap GoString) :=
  if r.cfg.external.excludeHeaders = [] then headers
  else some ((headers.getD .empty).filterKeys fun k => !isExcluded r.cfg.external.excludeHeaders k)

def callHTTP (r : Router) (req : RouteInput) : Gw (Selection × Option GoError) := do
  match ← selectGroupHTTP r.urls r.cfg.external req with
  | .ok sel => return ({ sel with headers := r.filterExcludedHeaders sel.headers }, none)
  | .error e => return (⟨[], r.filterExcludedHeaders none, []⟩, some e)

/-- gRPC when it is configured, and HTTP when it is not or fails. -/
def callExternal (r : Router) (req : RouteInput) : Gw (Selection × Option GoError) := do
  if r.cfg.external.grpcAddr = [] then
    r.callHTTP req
  else
    match ← selectGroupGRPC r.cfg.external req with
    | .ok sel => return ({ sel with headers := r.filterExcludedHeaders sel.headers }, none)
    | .error _ => r.callHTTP req

/-- Step 1: a `KILL QUERY` statement goes where the recovery chain finds its query. -/
def routeKill (req : RouteInput) : Gw (Option RouteResult) := do
  if extractKillQueryID req.body = [] then return none
  let url ← recoverBackend (extractKillQueryID req.body)
  if url = [] then return none
  return some { backendURL := url, outcome := .killQuery }

/-- Step 2: a query id in the path that is in the cache. -/
def routeCached (req : RouteInput) : Gw (Option RouteResult) := do
  if extractQueryID req = [] then return none
  match ← perform (.cacheGet (extractQueryID req)) with
  | some url => return some { backendURL := url, outcome := .ok }
  | none => return none

def recoverPath (req : RouteInput) : Gw GoString :=
  if extractQueryID req = [] then return [] else recoverBackend (extractQueryID req)

def routeRecovered (req : RouteInput) (group : GoString) (sel : Selection) : Gw RouteResult := do
  let url ← recoverPath req
  if url ≠ [] then
    return { backendURL := url, externalHeaders := sel.headers, errors := sel.errors,
             outcome := .fallback }
  let first ← firstActiveBackend
  return { backendURL := first, routingGroup := group, externalHeaders := sel.headers,
           errors := sel.errors, outcome := .fallback }

/-- Steps 3 to 5: the group the external router selects, or the default group. -/
def routeGroup (r : Router) (req : RouteInput) : Gw RouteResult := do
  -- the error of the external router is only logged
  let (sel, _) ← r.callExternal req
  let outcome := if sel.group = [] then Outcome.fallback else Outcome.ok
  let group := if sel.group = [] then r.cfg.defaultGroup else sel.group
  match ← resolveGroup group with
  | .error _ => routeRecovered req group sel
  | .ok [] => routeRecovered req group sel
  | .ok backendURL =>
    return { backendURL, routingGroup := group, externalHeaders := sel.headers,
             errors := sel.errors, outcome }

def route (r : Router) (req : RouteInput) : Gw (Except GoError RouteResult) := do
  if let some result ← routeKill req then return .ok result
  if let some result ← routeCached req then return .ok result
  let result ← r.routeGroup req
  return .ok result

def writeCache (queryID backendURL : GoString) : Gw Unit :=
  perform (.cacheAdd queryID backendURL)

end Router

end TrinoGoway.Routing
