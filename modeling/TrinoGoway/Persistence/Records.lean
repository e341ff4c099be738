import TrinoGoway.Go.Basic

/-! Rows of the two gateway tables. -/
namespace TrinoGoway.Persistence

open Go

/-- `persistence.Backend`, a row of `gateway_backend`. -/
structure Backend where
  name : GoString
  url : GoString
  externalURL : GoString
  routingGroup : GoString
  active : Bool
  createdAt : Time
  updatedAt : Time
  deriving DecidableEq

/-- `persistence.QueryRecord`, a row of `query_history`. The routing group and the query text
have no column: they are empty in every row read back. -/
structure QueryRecord where
  queryID : GoString
  backendURL : GoString
  externalURL : GoString
  userName : GoString
  source : GoString
  routingGroup : GoString := []
  queryText : GoString := []
  createdAt : Time := 0
  deriving DecidableEq

end TrinoGoway.Persistence
