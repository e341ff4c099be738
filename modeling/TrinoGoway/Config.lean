import TrinoGoway.Go.Basic

/-! The parts of the gateway configuration that the request path reads. -/
namespace TrinoGoway

open Go

structure ExternalConfig where
  url : GoString
  grpcAddr : GoString
  timeout : Duration
  excludeHeaders : List GoString

/-- `config.RoutingConfig`; the type is always `EXTERNAL`. -/
structure RoutingConfig where
  defaultGroup : GoString
  external : ExternalConfig

/-- `config.ProxyConfig`. The response size is positive by validation, and as it is converted
from a float it stays far enough below `2 ^ 63` for one more byte not to overflow. -/
structure ProxyConfig where
  responseSize : ℕ
  propagateErrors : Bool

structure CookieConfig where
  secret : GoString
  ttl : Duration
  wireCompat : Bool

/-- `config.AuthorizationConfig`, without the page permissions. -/
structure AuthorizationConfig where
  adminRegex : GoString
  userRegex : GoString
  apiRegex : GoString

end TrinoGoway
