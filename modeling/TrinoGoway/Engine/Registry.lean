import TrinoGoway.Go.Duration
import TrinoGoway.Service.Config

/-! `engine.Registry`: the configuration text that a provider is given, and `Build`. -/
namespace TrinoGoway.Engine

open Go Service

def appendYAMLStr (buf : GoString) (key : String) (val : GoString) : GoString :=
  buf ++ str key ++ str ": " ++ val ++ [Byte.newline]

/-- The lines of a block scalar; `fresh` says that the next byte starts a line. -/
def blockLines : Bool → GoString → GoString
  | true, [] => []
  | false, [] => [Byte.newline]
  | fresh, b :: val => (if fresh then str "  " else []) ++ [b] ++ blockLines (b = Byte.newline) val

def appendYAMLBlock (buf : GoString) (key : String) (val : GoString) : GoString :=
  buf ++ str key ++ str ": |\n" ++ blockLines true val

def methodConfigBytes (cfg : MethodConfig) : GoString :=
  let buf := appendYAMLStr [] "type" cfg.type
  let buf := if cfg.program ≠ [] then appendYAMLBlock buf "program" cfg.program else buf
  let buf := if cfg.file ≠ [] then appendYAMLStr buf "file" cfg.file else buf
  if 0 < cfg.refresh then appendYAMLStr buf "refresh" (durationString cfg.refresh) else buf

example : methodConfigBytes { type := str "expr", program := str "a\nb", refresh := 30000000000 } =
    str "type: expr\nprogram: |\n  a\n  b\nrefresh: 30s\n" := by decide

def registered : List GoString := [str "expr", str "script"]

/-- `Registry.Build`, given what the new provider's `LoadConfig` answers for a text. -/
def build {F : Type → Type} [Monad F] {M : Type}
    (loadConfig : GoString → GoString → F (Except GoError M)) (cfg : MethodConfig) :
    F (Except GoError M) :=
  if cfg.type ∈ registered then do
    match ← loadConfig cfg.type (methodConfigBytes cfg) with
    | .ok m => pure (.ok m)
    | .error e =>
      pure (.error ⟨str "engine: registry: LoadConfig for " ++ quoted cfg.type ++ str ": " ++
        e.message⟩)
  else pure (.error ⟨str "engine: registry: unknown method type " ++ quoted cfg.type⟩)

end TrinoGoway.Engine
