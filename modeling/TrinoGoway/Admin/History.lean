import TrinoGoway.Auth.Roles
import TrinoGoway.Persistence.History

/-! The admin endpoints over the query history. -/
namespace TrinoGoway.Admin

open Go Go.Http Auth Persistence

structure QueryDetail where
  queryID : GoString
  queryText : GoString
  user : GoString
  source : GoString
  backendURL : GoString
  /-- epoch milliseconds -/
  captureTime : ℤ
  routingGroup : GoString
  externalURL : GoString
  deriving DecidableEq

def queryDetailFromRecord (r : QueryRecord) : QueryDetail where
  queryID := r.queryID
  queryText := r.queryText
  user := r.userName
  source := r.source
  backendURL := r.backendURL
  captureTime := r.createdAt.unixMilli
  routingGroup := r.routingGroup
  externalURL := if r.externalURL = [] then r.backendURL else r.externalURL

inductive Reply
  /-- 401, from the authenticator -/
  | unauthorized (msg : GoString)
  /-- 403, from the role check -/
  | forbidden
  /-- 500 with the text `internal server error` -/
  | internalError
  | history (details : List QueryDetail)
  | distribution (counts : GoMap ℕ)
  /-- 200 with the envelope of a web application result, code 200 -/
  | table (total : ℕ) (rows : List QueryDetail)
  /-- 200 with the envelope of a web application result, code 500 -/
  | failed (msg : GoString)
  deriving DecidableEq

structure Server where
  auth : Option Authenticator
  authorization : AuthorizationConfig
  matchString : MatchString

structure FindQueryHistoryRequest where
  userName : GoString := []
  backendURL : GoString := []
  queryID : GoString := []
  source : GoString := []
  page : ℤ := 0
  pageSize : ℤ := 0

namespace Server

def isAdmin (a : Server) (p : Option Principal) : Bool :=
  hasRole a.matchString p .admin a.authorization

def queryHistory (a : Server) (store : HistoryStore) (p : Option Principal) : Reply :=
  let records :=
    if a.isAdmin p then store.listRecent 100
    else
      let userName := (p.map (·.name)).getD []
      (store.findByFilter { userName, pageSize := 100, page := 1 }).map Prod.fst
  match records with
  | .error _ => .internalError
  | .ok records => .history (records.map queryDetailFromRecord)

/-- The user whose rows the distribution is about, empty for all. -/
def distributionUser (a : Server) (p : Option Principal) : GoString :=
  match p with
  | some p => if a.isAdmin (some p) then [] else p.name
  | none => []

def queryHistoryDistribution (a : Server) (store : HistoryStore) (p : Option Principal) : Reply :=
  match store.findByFilter { userName := a.distributionUser p, pageSize := 10000, page := 1 } with
  | .error _ => .internalError
  | .ok (records, _) =>
    .distribution (records.foldl
      (fun dist rec => dist.set rec.backendURL ((dist.get? rec.backendURL).getD 0 + 1)) .empty)

/-- `req` is what the body decodes to, if it does. -/
def webappFindQueryHistory (a : Server) (store : HistoryStore) (p : Option Principal)
    (req : Option FindQueryHistoryRequest) : Reply :=
  match req with
  | none => .failed (str "bad request")
  | some req =>
    let userName :=
      match p with
      | some p => if a.isAdmin (some p) then req.userName else p.name
      | none => req.userName
    let filter : HistoryFilter :=
      { userName
        backendURL := req.backendURL
        queryID := req.queryID
        source := req.source
        page := req.page
        pageSize := req.pageSize }
    match store.findByFilter filter with
    | .error _ => .failed (str "failed to query history")
    | .ok (records, total) => .table total (records.map queryDetailFromRecord)

inductive Endpoint
  | queryHistory
  | queryHistoryDistribution
  | webappFindQueryHistory (req : Option FindQueryHistoryRequest)

def handle (a : Server) (store : HistoryStore) (p : Option Principal) : Endpoint → Reply
  | .queryHistory => a.queryHistory store p
  | .queryHistoryDistribution => a.queryHistoryDistribution store p
  | .webappFindQueryHistory req => a.webappFindQueryHistory store p req

/-- The principal that the authenticator attaches, none without an authenticator. -/
def principal (a : Server) (r : Request) : Except GoString (Option Principal) :=
  match a.auth with
  | none => .ok none
  | some auth =>
    match auth.authenticate r with
    | .error msg => .error msg
    | .ok p => .ok (some p)

/-- All three are behind the authenticator and `RequireRole(USER)`. -/
def serve (a : Server) (store : HistoryStore) (r : Request) (endpoint : Endpoint) : Reply :=
  match a.principal r with
  | .error msg => .unauthorized msg
  | .ok p =>
    if hasRole a.matchString p .user a.authorization then a.handle store p endpoint
    else .forbidden

end Server

end TrinoGoway.Admin
