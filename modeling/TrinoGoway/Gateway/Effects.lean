import TrinoGoway.Lib.Prog
import TrinoGoway.Persistence.Records
import TrinoGoway.Routing.Types

/-! The operations a request performs on the world outside its own goroutine. -/
namespace TrinoGoway

open Go Go.Http Persistence Routing

/-- A coalesced lookup: the key it was started for, and which start of that key it is. -/
structure CallRef where
  key : GoString
  id : ℕ
  deriving DecidableEq

/-- What entering the single-flight group gives: lead a new call, or join one in flight. -/
inductive Entry
  | lead (c : CallRef)
  | join (c : CallRef)

structure UpstreamRequest where
  method : GoString
  url : URL
  header : Header
  /-- what reading the whole body gives -/
  body : Except GoError GoString

/-- A body as it is read: its bytes, and the error that ends them if it is not the end of file. -/
structure Stream where
  bytes : GoString
  err : Option GoError := none
  deriving DecidableEq

structure Response where
  status : ℕ
  header : Header
  body : Stream
  deriving DecidableEq

inductive Op
  /-- the locked first part of `singleFlightGroup.do` -/
  | enterFlight (key : GoString)
  /-- `c.wg.Wait()` and the reads of `c.val` and `c.err` -/
  | awaitFlight (c : CallRef)
  /-- the writes of `c.val` and `c.err`, and `c.wg.Done()` -/
  | finishFlight (c : CallRef) (res : Except GoError GoString)
  /-- the locked last part of `singleFlightGroup.do` -/
  | leaveFlight (key : GoString)
  /-- `SELECT backend_url FROM query_history WHERE query_id = queryID` -/
  | selectHistory (queryID : GoString)
  /-- insert a row into `query_history` unless its query id is there already -/
  | insertHistory (rec : QueryRecord)
  /-- the rows of `gateway_backend` with `active` set -/
  | selectActive
  /-- `SELECT external_url FROM gateway_backend WHERE url = url` -/
  | selectExternalURL (url : GoString)
  | cacheGet (queryID : GoString)
  | cacheAdd (queryID backendURL : GoString)
  /-- `HEAD` the URLs concurrently, one for each base URL -/
  | headProbes (probes : List (GoString × GoString))
  | grpcRoute (timeout : Duration) (req : RouteRequest)
  | httpRoute (req : RouterRequest)
  | roundTrip (req : UpstreamRequest)
  | now
  | writeHeader (status : ℕ) (header : Header)
  | write (data : GoString)

@[reducible] def Op.Ret : Op → Type
  | enterFlight _ => Entry
  | awaitFlight _ => Except GoError GoString
  | finishFlight _ _ => Unit
  | leaveFlight _ => Unit
  | selectHistory _ => Except GoError (Option GoString)
  | insertHistory _ => Except GoError Unit
  | selectActive => Except GoError (List Backend)
  | selectExternalURL _ => Except GoError (Option GoString)
  | cacheGet _ => Option GoString
  | cacheAdd _ _ => Unit
  -- the base URLs whose probe answered 200, in the order of arrival
  | headProbes _ => List GoString
  | grpcRoute _ _ => Except GoError RouteResponse
  | httpRoute _ => Except GoError RouterAnswer
  | roundTrip _ => Except GoError Response
  | now => Time
  | writeHeader _ _ => Unit
  | write _ => Unit

/-- A piece of a request's goroutine. -/
abbrev Gw (α : Type) := Prog Op.Ret α

abbrev perform (o : Op) : Gw o.Ret := Prog.perform o

end TrinoGoway
