import TrinoGoway.Engine.Pipeline
import TrinoGoway.Engine.Registry
import TrinoGoway.Lib.Interleave

/-! `reload.ConfigWatcher`: a reload attempt as a program, next to evaluations of requests, over
the pipeline's method pointer and the watcher's counters. -/
namespace TrinoGoway.Reload

open Go Engine Service Prog

structure Env where
  path : GoString
  unmarshal : GoString → Config → Except GoError Config
  hashBytes : GoString → GoString

structure Audit where
  ok : Bool
  oldHash : GoString
  newHash : GoString
  summary : GoString := []
  err : GoString := []

/-- What the code does to its surroundings: the file, the providers, and shared state. -/
inductive Op (M : Type)
  | readFile
  | loadConfig (type raw : GoString)
  | loadHash
  | swap (ms : List M)
  | storeHash (hash : GoString)
  | addSuccess
  | addError
  | addCount
  | audit (a : Audit)
  | setConfigVersion (hash : GoString)
  | loadMethods
  | evaluate (c : Call M)

variable {M : Type}

abbrev Ret : Op M → Type
  | .readFile => Except GoError GoString
  | .loadConfig _ _ => Except GoError M
  | .loadHash => Option GoString
  | .loadMethods => List M
  | .evaluate _ => Ended
  | _ => Unit

abbrev Code (M : Type) := Prog (Ret (M := M))

namespace Code

def readFile : Code M (Except GoError GoString) := Prog.perform Op.readFile
def loadConfig (type raw : GoString) : Code M (Except GoError M) :=
  Prog.perform (Op.loadConfig type raw)
def loadHash : Code M (Option GoString) := Prog.perform Op.loadHash
def loadMethods : Code M (List M) := Prog.perform Op.loadMethods
def evaluate (c : Call M) : Code M Ended := Prog.perform (Op.evaluate c)

end Code

/-- The loop that builds the methods; the error is the text that `fail` is called with. -/
def buildAll : List MethodConfig → Code M (Except GoString (List M))
  | [] => pure (.ok [])
  | mc :: mcs => do
    match ← build Code.loadConfig mc with
    | .error e =>
      pure (.error (str "method " ++ quoted mc.type ++ str " build failed: " ++ e.message))
    | .ok m =>
      match ← buildAll mcs with
      | .error msg => pure (.error msg)
      | .ok ms => pure (.ok (m :: ms))

variable (env : Env)

/-- Steps 1 to 3 of `reload`: the new hash and the new methods, or the new hash and the text
that `fail` is called with. The file is read twice, for the hash and by `config.Load`. -/
def prepare : Code M (Except (GoString × GoString) (GoString × List M)) := do
  match ← Code.readFile with
  | .error e => pure (.error ([], str "read config: " ++ e.message))
  | .ok data =>
    match load env.unmarshal env.path (← Code.readFile) with
    | .error e => pure (.error (env.hashBytes data, str "config parse failed: " ++ e.message))
    | .ok cfg =>
      match ← buildAll cfg.methods with
      | .error msg => pure (.error (env.hashBytes data, msg))
      | .ok ms => pure (.ok (env.hashBytes data, ms))

def fail (oldHash newHash errMsg : GoString) : Code M Unit := do
  let _ ← Prog.perform Op.addError
  Prog.perform (Op.audit { ok := false, oldHash, newHash, err := errMsg })

def activate (oldHash newHash : GoString) (ms : List M) : Code M Unit := do
  let _ ← Prog.perform (Op.swap ms)
  let _ ← Prog.perform (Op.storeHash newHash)
  let _ ← Prog.perform Op.addSuccess
  let summary := str (toString ms.length) ++ str " method(s)"
  let _ ← Prog.perform (Op.audit { ok := true, oldHash, newHash, summary })
  Prog.perform (Op.setConfigVersion newHash)

def settle (oldHash : GoString) :
    Except (GoString × GoString) (GoString × List M) → Code M Unit
  | .error (newHash, errMsg) => fail oldHash newHash errMsg
  | .ok (newHash, ms) => activate oldHash newHash ms

def reload : Code M Unit := do
  let oldHash ← Code.loadHash
  let prepared ← prepare env
  settle (oldHash.getD []) prepared
  Prog.perform Op.addCount

def attempts : ℕ → Code M Unit
  | 0 => pure ()
  | n + 1 => do
    reload env
    attempts n

inductive EntryPoint
  | evaluate
  | evaluateResult
  | evaluateFull

structure Evaluation where
  entry : EntryPoint
  input : RouteInput
  defaultGroup : GoString

/-- An evaluation: one load of the method pointer, then the loop. -/
def Evaluation.code [RoutingMethod M] (x : Evaluation) : Code M Unit := do
  let ms ← Code.loadMethods
  let p : Pipeline M := ⟨ms.map .live, x.defaultGroup⟩
  match x.entry with
  | .evaluate => let _ ← (p.evaluate x.input).run.interp Code.evaluate
  | .evaluateResult => let _ ← (p.evaluateResult x.input).run.interp Code.evaluate
  | .evaluateFull => let _ ← (p.evaluateFull x.input).run.interp Code.evaluate

/-- The shared state; without kill-switch calls every entry of the pipeline is enabled. -/
structure State (M : Type) where
  live : List M
  lastHash : Option GoString := none
  successTotal : ℕ := 0
  errorTotal : ℕ := 0
  reloadCount : ℕ := 0
  configVersion : GoString

def State.apply (s : State M) : Event (Ret (M := M)) → State M
  | ⟨.swap ms, _⟩ => { s with live := ms }
  | ⟨.storeHash hash, _⟩ => { s with lastHash := some hash }
  | ⟨.addSuccess, _⟩ => { s with successTotal := s.successTotal + 1 }
  | ⟨.addError, _⟩ => { s with errorTotal := s.errorTotal + 1 }
  | ⟨.addCount, _⟩ => { s with reloadCount := s.reloadCount + 1 }
  | ⟨.setConfigVersion hash, _⟩ => { s with configVersion := hash }
  | _ => s

def State.Answers (s : State M) : Event (Ret (M := M)) → Prop
  | ⟨.loadMethods, ms⟩ => ms = s.live
  | ⟨.loadHash, hash⟩ => hash = s.lastHash
  | _ => True

def exec (o : Op M) (s : State M) (r : Ret o) (s' : State M) : Prop :=
  s.Answers ⟨o, r⟩ ∧ s' = s.apply ⟨o, r⟩

def threads [RoutingMethod M] {κ : Type} (n : ℕ) (evals : κ → Evaluation) :
    Option κ → Code M Unit
  | none => attempts env n
  | some k => (evals k).code

end TrinoGoway.Reload
