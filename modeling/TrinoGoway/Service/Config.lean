import TrinoGoway.Go.Basic

/-! The configuration of the routing service. The YAML decoder is a parameter. -/
namespace TrinoGoway.Service

open Go

structure MethodConfig where
  type : GoString := []
  refresh : Duration := 0
  program : GoString := []
  file : GoString := []
  deriving DecidableEq

structure SQLParsingConfig where
  enabled : Bool
  maxBodyBytes : ℤ
  deriving DecidableEq

structure Config where
  addr : GoString
  metricsAddr : GoString
  adminAddr : GoString
  tracingEndpoint : GoString := []
  defaultRoutingGroup : GoString := []
  methods : List MethodConfig := []
  sqlParsing : SQLParsingConfig
  deriving DecidableEq

def defaultMaxBodyBytes : ℤ := 256 * 1024

def defaultConfig : Config where
  addr := str ":9001"
  metricsAddr := str ":9091"
  adminAddr := str ":9092"
  sqlParsing := ⟨true, defaultMaxBodyBytes⟩

def applyDefaults (cfg : Config) : Config :=
  { cfg with
    metricsAddr := if cfg.metricsAddr = [] then str ":9091" else cfg.metricsAddr
    adminAddr := if cfg.adminAddr = [] then str ":9092" else cfg.adminAddr
    sqlParsing :=
      { cfg.sqlParsing with
        maxBodyBytes :=
          if cfg.sqlParsing.maxBodyBytes = 0 then defaultMaxBodyBytes
          else cfg.sqlParsing.maxBodyBytes } }

def methodError (i : ℕ) (text : String) : GoError :=
  ⟨str "config: validate: methods[" ++ str (toString i) ++ str "]: " ++ str text⟩

def validateMethods : ℕ → List MethodConfig → Except GoError Unit
  | _, [] => .ok ()
  | i, m :: ms =>
    if m.program ≠ [] ∧ m.file ≠ [] then
      .error (methodError i "only one of program or file may be set, not both")
    else if m.program = [] ∧ m.file = [] then
      .error (methodError i "exactly one of program or file must be set")
    else validateMethods (i + 1) ms

def Config.validate (c : Config) : Except GoError Unit := do
  if c.addr = [] then
    throw ⟨str "config: validate: addr must be non-empty"⟩
  if c.defaultRoutingGroup = [] then
    throw ⟨str "config: validate: defaultRoutingGroup must be non-empty"⟩
  validateMethods 0 c.methods
  if c.sqlParsing.maxBodyBytes < 0 then
    throw ⟨str "config: validate: sqlParsing.maxBodyBytes must be non-negative"⟩

/-- `config.Load`, given what `os.ReadFile` answers; `unmarshal` decodes YAML into a value. -/
def load (unmarshal : GoString → Config → Except GoError Config) (path : GoString)
    (read : Except GoError GoString) : Except GoError Config :=
  match read with
  | .error e => .error ⟨str "config: read " ++ quoted path ++ str ": " ++ e.message⟩
  | .ok data =>
    match unmarshal data defaultConfig with
    | .error e => .error ⟨str "config: unmarshal " ++ quoted path ++ str ": " ++ e.message⟩
    | .ok cfg =>
      match (applyDefaults cfg).validate with
      | .error e => .error e
      | .ok () => .ok (applyDefaults cfg)

theorem load_ok {unmarshal : GoString → Config → Except GoError Config} {path : GoString}
    {read : Except GoError GoString} {cfg : Config} (h : load unmarshal path read = .ok cfg) :
    cfg.validate = .ok () ∧ applyDefaults cfg = cfg := by
  unfold load at h
  split at h
  · cases h
  · split at h
    · cases h
    · rename_i cfg₀ _
      split at h
      · cases h
      · rename_i hv
        obtain rfl := Except.ok.inj h
        refine ⟨hv, ?_⟩
        simp only [applyDefaults]
        grind [str, defaultMaxBodyBytes]

end TrinoGoway.Service
