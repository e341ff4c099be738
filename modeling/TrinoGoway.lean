import TrinoGoway.Lib.Prog
import TrinoGoway.Lib.Interleave
import TrinoGoway.Go.Http
import TrinoGoway.Lib.Lru
import TrinoGoway.Config
import TrinoGoway.Persistence.Records
import TrinoGoway.Routing.Types
import TrinoGoway.Gateway.Effects
import TrinoGoway.Persistence.Dao
import TrinoGoway.Routing.Extract
import TrinoGoway.Routing.External
import TrinoGoway.Routing.Router
import TrinoGoway.Auth.Middleware
import TrinoGoway.Proxy.Cookie
import TrinoGoway.Proxy.Headers
import TrinoGoway.Go.Json
import TrinoGoway.Proxy.Forward
import TrinoGoway.Gateway.System
import TrinoGoway.Routing.Calls
import TrinoGoway.Gateway.Exchange
import TrinoGoway.Gateway.Sticky
import TrinoGoway.Gateway.World
import TrinoGoway.Gateway.Restart
import TrinoGoway.Routing.KillStatement
import TrinoGoway.Gateway.Flight
import TrinoGoway.Gateway.Kill
import TrinoGoway.Gateway.HistoryTable
import TrinoGoway.Gateway.Steering
import TrinoGoway.Gateway.Availability
import TrinoGoway.Gateway.Encoding
import TrinoGoway.Gateway.Pinning
import TrinoGoway.Gateway.Health
import TrinoGoway.Admin.History
import TrinoGoway.Admin.Scoping
import TrinoGoway.Gateway.Submission
import TrinoGoway.Lib.Machine
import TrinoGoway.Lifecycle.Drain
import TrinoGoway.Engine.Method
import TrinoGoway.Engine.Pipeline
import TrinoGoway.Engine.KillSwitch
import TrinoGoway.Engine.Registry
import TrinoGoway.Engine.Updates
import TrinoGoway.Reload.Changes
import TrinoGoway.Reload.LastGood
import TrinoGoway.Engine.Adapter
import TrinoGoway.Service.Server
import TrinoGoway.Lib.Transducer
import TrinoGoway.SqlMeta.Extraction
import TrinoGoway.SqlMeta.Joins
import TrinoGoway.SqlMeta.Literals
import TrinoGoway.Gateway.Coalescing
import TrinoGoway.Gateway.Credentials
import TrinoGoway.Gateway.ForwardedFor
import TrinoGoway.Gateway.HeaderSharing
import TrinoGoway.Go.Marshal
import TrinoGoway.Lib.Sync
import TrinoGoway.Proxy.Authenticity
import TrinoGoway.Routing.Cancellation
import TrinoGoway.Routing.Probes
import TrinoGoway.SqlMeta.Tables
import TrinoGoway.SqlMeta.Subqueries
import TrinoGoway.SqlMeta.With
import TrinoGoway.Gateway.StoredUrls
import TrinoGoway.Gateway.RouterCalls
import TrinoGoway.Proxy.Ttl
import TrinoGoway.Monitor.Updates
import TrinoGoway.Monitor.Cycles
import TrinoGoway.Metrics.Backend
import TrinoGoway.ClusterStats.Sessions
import TrinoGoway.SqlMeta.Coherence
import TrinoGoway.SqlMeta.Alike
import TrinoGoway.SqlMeta.Quoting
import TrinoGoway.SqlMeta.Truncation
import TrinoGoway.SqlMeta.Existence
import TrinoGoway.SqlMeta.Soundness
import TrinoGoway.Engine.SqlFields
import TrinoGoway.Engine.Source
import TrinoGoway.Lib.Paging
import TrinoGoway.Persistence.Paging
import TrinoGoway.Admin.Distribution
import TrinoGoway.Auth.Ldap
import TrinoGoway.Admin.Userinfo
import TrinoGoway.Admin.SignIn
import TrinoGoway.Service.DisabledGauge
import TrinoGoway.Service.Logging
import TrinoGoway.Service.DryRun
import TrinoGoway.Reload.Version
import TrinoGoway.Reload.Stop
import TrinoGoway.DiffHarness.Runner
import TrinoGoway.Lib.Loop
import TrinoGoway.SqlMeta.IndexedTokens
import TrinoGoway.SqlMeta.IndexedRefs
import TrinoGoway.Lib.Binary64
import TrinoGoway.Webapp.LineChart
import TrinoGoway.Lib.Lens
import TrinoGoway.Go.Float
import TrinoGoway.ConfigFile.Schema
import TrinoGoway.ConfigFile.Load
import TrinoGoway.Migrate.JavaConfig
import TrinoGoway.Migrate.Fields
import TrinoGoway.Migrate.Output
import TrinoGoway.Migrate.ReadBack
import TrinoGoway.Go.JsonExact
import TrinoGoway.Go.JsonNumber
import TrinoGoway.DiffHarness.Fields
import TrinoGoway.DiffHarness.Numbers
import TrinoGoway.Lib.Keyed
import TrinoGoway.Persistence.Registry
import TrinoGoway.Admin.Routes
import TrinoGoway.Admin.Api
import TrinoGoway.Admin.Runs
import TrinoGoway.Admin.Privileges
import TrinoGoway.Gateway.Registered
