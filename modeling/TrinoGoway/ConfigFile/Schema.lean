import TrinoGoway.Go.Duration

/-! `config.Config` as a whole, with its defaults and its validation. Every field has the zero value
of Go unless it is given. -/
namespace TrinoGoway.ConfigFile

open Go Json

structure ProxyConfig where
  port : ℤ := 0
  /-- `DataSize`, in bytes -/
  responseSize : ℤ := 0
  requestTimeout : Duration := 0
  propagateErrors : Bool := false
  deriving DecidableEq

structure AdminConfig where
  port : ℤ := 0
  deriving DecidableEq

/-- A map of metrics to bounds is `none` when it is nil. -/
structure MonitorConfig where
  interval : Duration := 0
  checkTimeout : Duration := 0
  refreshInterval : Duration := 0
  statsTimeout : Duration := 0
  retries : ℤ := 0
  metricsEndpoint : GoString := []
  runningQueriesMetricName : GoString := []
  queuedQueriesMetricName : GoString := []
  metricMinimumValues : Option (List (GoString × ℚ)) := none
  metricMaximumValues : Option (List (GoString × ℚ)) := none
  deriving DecidableEq

structure DBConfig where
  driver : GoString := []
  dsn : GoString := []
  autoMigrate : Bool := false
  deriving DecidableEq

structure ExternalConfig where
  url : GoString := []
  grpcAddr : GoString := []
  timeout : Duration := 0
  excludeHeaders : List GoString := []
  deriving DecidableEq

structure RoutingConfig where
  defaultGroup : GoString := []
  type : GoString := []
  external : ExternalConfig := {}
  deriving DecidableEq

structure AuthorizationConfig where
  admin : GoString := []
  user : GoString := []
  api : GoString := []
  pagePermissions : List (GoString × GoString) := []
  deriving DecidableEq

structure OIDCConfig where
  issuerUrl : GoString := []
  clientId : GoString := []
  clientSecret : GoString := []
  jwksUrl : GoString := []
  jwksTtlSecs : ℤ := 0
  scopes : List GoString := []
  redirectUrl : GoString := []
  authorizationEndpoint : GoString := []
  tokenEndpoint : GoString := []
  deriving DecidableEq

structure LDAPConfig where
  url : GoString := []
  bindDn : GoString := []
  bindPassword : GoString := []
  userBase : GoString := []
  userAttr : GoString := []
  deriving DecidableEq

structure AuthConfig where
  type : GoString := []
  oidc : OIDCConfig := {}
  ldap : LDAPConfig := {}
  authorization : AuthorizationConfig := {}
  deriving DecidableEq

structure CookieConfig where
  secret : GoString := []
  ttl : Duration := 0
  wireCompat : Bool := false
  deriving DecidableEq

structure MetricsConfig where
  enabled : Bool := false
  path : GoString := []
  deriving DecidableEq

structure UIConfig where
  disablePages : List GoString := []
  deriving DecidableEq

structure ClusterStatsConfig where
  monitorType : GoString := []
  deriving DecidableEq

structure BackendStateConfig where
  username : GoString := []
  password : GoString := []
  ssl : Bool := false
  xForwardedProtoHeader : Bool := false
  deriving DecidableEq

structure Config where
  proxy : ProxyConfig := {}
  admin : AdminConfig := {}
  monitor : MonitorConfig := {}
  db : DBConfig := {}
  routing : RoutingConfig := {}
  auth : AuthConfig := {}
  cookie : CookieConfig := {}
  metrics : MetricsConfig := {}
  ui : UIConfig := {}
  clusterStats : ClusterStatsConfig := {}
  backendState : BackendStateConfig := {}
  deriving DecidableEq

/-! ### Defaults -/

def second : Duration := 1000000000

def defaultRunningQueriesMetricName : GoString :=
  str "trino_execution_name_QueryManager_RunningQueries"

def defaultQueuedQueriesMetricName : GoString :=
  str "trino_execution_name_QueryManager_QueuedQueries"

def defaultActiveNodeCountMetric : GoString :=
  str "trino_metadata_name_DiscoveryNodeManager_ActiveNodeCount"

def defaultConfig : Config where
  proxy := { port := 8080, responseSize := 1048576, requestTimeout := 30 * second }
  admin := { port := 8090 }
  monitor :=
    { interval := 30 * second
      checkTimeout := 5 * second
      refreshInterval := 15 * second
      statsTimeout := 10 * second
      retries := 0
      metricsEndpoint := str "/metrics"
      runningQueriesMetricName := defaultRunningQueriesMetricName
      queuedQueriesMetricName := defaultQueuedQueriesMetricName }
  clusterStats := { monitorType := str "INFO_API" }
  routing := { type := str "EXTERNAL", external := { timeout := 1 * second } }
  auth := { type := str "NOOP", oidc := { jwksTtlSecs := 300 }, ldap := { userAttr := str "uid" } }
  cookie := { ttl := 600 * second, wireCompat := true }
  metrics := { enabled := true, path := str "/metrics" }
  db := { autoMigrate := true }

/-- A field that still has its zero value gets the default. -/
def orDefault {α : Type} [DecidableEq α] (zero value default : α) : α :=
  if value = zero then default else value

theorem orDefault_of_ne {α : Type} [DecidableEq α] {zero value : α} (h : value ≠ zero)
    (default : α) : orDefault zero value default = value := if_neg h

theorem orDefault_orDefault {α : Type} [DecidableEq α] (zero value default : α) :
    orDefault zero (orDefault zero value default) default = orDefault zero value default := by
  unfold orDefault
  split_ifs <;> rfl

def applyDefaults (cfg : Config) : Config :=
  { cfg with
    proxy :=
      { cfg.proxy with
        port := orDefault 0 cfg.proxy.port 8080
        responseSize := orDefault 0 cfg.proxy.responseSize 1048576
        requestTimeout := orDefault 0 cfg.proxy.requestTimeout (30 * second) }
    admin := { cfg.admin with port := orDefault 0 cfg.admin.port 8090 }
    monitor :=
      { cfg.monitor with
        interval := orDefault 0 cfg.monitor.interval (30 * second)
        checkTimeout := orDefault 0 cfg.monitor.checkTimeout (5 * second)
        refreshInterval := orDefault 0 cfg.monitor.refreshInterval (15 * second)
        statsTimeout := orDefault 0 cfg.monitor.statsTimeout (10 * second)
        metricsEndpoint := orDefault [] cfg.monitor.metricsEndpoint (str "/metrics")
        runningQueriesMetricName :=
          orDefault [] cfg.monitor.runningQueriesMetricName defaultRunningQueriesMetricName
        queuedQueriesMetricName :=
          orDefault [] cfg.monitor.queuedQueriesMetricName defaultQueuedQueriesMetricName
        metricMinimumValues :=
          orDefault none cfg.monitor.metricMinimumValues (some [(defaultActiveNodeCountMetric, 1)])
        metricMaximumValues := orDefault none cfg.monitor.metricMaximumValues (some []) }
    clusterStats :=
      { cfg.clusterStats with
        monitorType := orDefault [] cfg.clusterStats.monitorType (str "INFO_API") }
    routing :=
      { cfg.routing with
        type := orDefault [] cfg.routing.type (str "EXTERNAL")
        external :=
          { cfg.routing.external with
            timeout := orDefault 0 cfg.routing.external.timeout (1 * second) } }
    cookie := { cfg.cookie with ttl := orDefault 0 cfg.cookie.ttl (600 * second) }
    auth :=
      { cfg.auth with
        type := orDefault [] cfg.auth.type (str "NOOP")
        ldap := { cfg.auth.ldap with userAttr := orDefault [] cfg.auth.ldap.userAttr (str "uid") }
        oidc :=
          { cfg.auth.oidc with jwksTtlSecs := orDefault 0 cfg.auth.oidc.jwksTtlSecs 300 } }
    metrics := { cfg.metrics with path := orDefault [] cfg.metrics.path (str "/metrics") } }

theorem applyDefaults_idem (cfg : Config) :
    applyDefaults (applyDefaults cfg) = applyDefaults cfg := by
  simp only [applyDefaults, orDefault_orDefault]

/-! ### Validation -/

section Validate

-- the verbs `%q`, and `%s` for a duration
variable (quote : GoString → GoString) (text : Duration → GoString)

def validateClusterStats (c : Config) : Except GoString Unit := do
  let monitorType := c.clusterStats.monitorType
  if monitorType = [] ∨ monitorType = str "NOOP" ∨ monitorType = str "INFO_API" then pure ()
  else if monitorType = str "UI_API" ∨ monitorType = str "METRICS" then
    if c.backendState.username = [] then
      throw (str "config: validate: backendState.username must be non-empty when " ++
        str "clusterStats.monitorType is " ++ quote monitorType)
  else if monitorType = str "JDBC" ∨ monitorType = str "JMX" then
    throw (str "config: validate: clusterStats.monitorType " ++ quote monitorType ++
      str " not supported in v1")
  else
    throw (str "config: validate: clusterStats.monitorType must be one of NOOP, INFO_API, " ++
      str "UI_API, METRICS, got " ++ quote monitorType)
  if c.monitor.statsTimeout < 0 then
    throw (str "config: validate: monitor.statsTimeout must be > 0, got " ++
      text c.monitor.statsTimeout)
  if c.monitor.refreshInterval < 0 then
    throw (str "config: validate: monitor.refreshInterval must be > 0, got " ++
      text c.monitor.refreshInterval)
  if c.monitor.retries < 0 then
    throw (str "config: validate: monitor.retries must be >= 0, got " ++
      formatInt c.monitor.retries)

def validate (c : Config) : Except GoString Unit := do
  if c.proxy.port = c.admin.port then
    throw (str "config: validate: proxy.port and admin.port must differ, both are " ++
      formatInt c.proxy.port)
  if c.proxy.responseSize ≤ 0 then
    throw (str "config: validate: proxy.responseSize must be > 0, got " ++
      formatInt c.proxy.responseSize)
  if c.db.driver ≠ [] ∧ c.db.driver ≠ str "postgres" ∧ c.db.driver ≠ str "mysql" then
    throw (str "config: validate: db.driver must be \"postgres\" or \"mysql\", got " ++
      quote c.db.driver)
  if c.routing.type ≠ str "EXTERNAL" then
    throw (str "config: validate: routing.type must be \"EXTERNAL\", got " ++ quote c.routing.type)
  if c.auth.type = str "OIDC" ∧ c.auth.oidc.jwksUrl = [] then
    throw (str "config: validate: auth.oidc.jwksUrl must be non-empty when auth.type is OIDC")
  if c.metrics.enabled ∧ ¬hasPrefix c.metrics.path (str "/") then
    throw (str "config: validate: metrics.path must start with \"/\", got " ++ quote c.metrics.path)
  if c.auth.type = str "LDAP" then
    if c.auth.ldap.url = [] then
      throw (str "config: validate: auth.ldap.url must be non-empty when auth.type is LDAP")
    if c.auth.ldap.userBase = [] then
      throw (str "config: validate: auth.ldap.userBase must be non-empty when auth.type is LDAP")
  validateClusterStats quote text c

end Validate

theorem validate_defaults (quote : GoString → GoString) (text : Duration → GoString) :
    validate quote text (applyDefaults defaultConfig) = .ok () := rfl

end TrinoGoway.ConfigFile
