import TrinoGoway.Gateway.Effects

/-! The data access objects as the request path uses them, and the adapters around them. -/
namespace TrinoGoway

open Go

namespace Persistence

namespace HistoryDAO

def insert (r : QueryRecord) : Gw (Except GoError Unit) := do
  match ← perform (.insertHistory r) with
  | .error e => return .error (e.wrap "persistence: history: insert: ")
  | .ok () => return .ok ()

/-- The backend URL recorded for a query id, empty when there is none. -/
def lookupByQueryID (queryID : GoString) : Gw (Except GoError GoString) := do
  match ← perform (.selectHistory queryID) with
  | .error e => return .error (e.wrap "persistence: history: lookup by query id: ")
  | .ok none => return .ok []
  | .ok (some backendURL) => return .ok backendURL

end HistoryDAO

namespace BackendDAO

def lookupExternalURL (url : GoString) : Gw (Except GoError GoString) := do
  match ← perform (.selectExternalURL url) with
  | .error e => return .error (e.wrap "persistence: backend: lookup external url: ")
  | .ok none => return .ok url
  | .ok (some externalURL) => return .ok (if externalURL = [] then url else externalURL)

def listActive : Gw (Except GoError (List Backend)) := do
  match ← perform .selectActive with
  | .error e => return .error (e.wrap "persistence: backend: list active: ")
  | .ok backends => return .ok backends

end BackendDAO

end Persistence

open Persistence Routing

/-- `historyAdapter.Insert`: when the lookup fails the backend URL stands in for the external
one, and the record's creation time is left at the zero instant. -/
def historyAdapterInsert (queryID backendURL userName source : GoString) :
    Gw (Except GoError Unit) := do
  match ← BackendDAO.lookupExternalURL backendURL with
  | .error _ =>
    HistoryDAO.insert { queryID, backendURL, externalURL := backendURL, userName, source }
  | .ok externalURL => HistoryDAO.insert { queryID, backendURL, externalURL, userName, source }

def toActiveBackend (b : Backend) : ActiveBackend := ⟨b.name, b.url, b.routingGroup⟩

def listActive : Gw (Except GoError (List ActiveBackend)) := do
  match ← BackendDAO.listActive with
  | .error e => return .error e
  | .ok backends => return .ok (backends.map toActiveBackend)

end TrinoGoway
