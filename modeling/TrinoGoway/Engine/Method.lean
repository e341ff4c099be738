import TrinoGoway.Lib.Prog
import TrinoGoway.SqlMeta.Analyzer

/-! Routing methods of the routing service: what they are given, what they may answer, and
the pipeline's entries, which are methods or wrapped, disabled ones. -/
namespace TrinoGoway.Engine

open Go SqlMeta

structure RouteInput where
  source : GoString := []
  clientTags : List GoString := []
  user : GoString := []
  catalog : GoString := []
  schema : GoString := []
  method : GoString := []
  uri : GoString := []
  remoteAddr : GoString := []
  body : GoString := []
  isNew : Bool := false
  paramMap : GoMap GoString := .empty
  queryType : GoString := []
  /-- the empty category is `none` -/
  queryCategory : Option Category := none
  catalogs : List GoString := []
  schemas : List GoString := []
  catalogSchemas : List GoString := []
  tables : List GoString := []
  parseOK : Bool := false

structure Decision where
  routingGroup : GoString := []
  externalHeaders : Option (GoMap GoString) := none
  errors : List GoString := []
  decided : Bool := false

/-- How a call of a method's `Evaluate` ends. A panic carries the printed panic value. -/
inductive Ended
  | returned (d : Decision) (err : Option GoError)
  | panicked (value : GoString)

/-- The providers: `typeName` is their `Type()`. -/
class RoutingMethod (M : Type) where
  typeName : M → GoString

export RoutingMethod (typeName)

structure Call (M : Type) where
  method : M
  input : RouteInput

/-- Go code that calls methods, and that may panic. -/
abbrev Exec (M : Type) := ExceptT GoString (Prog fun _ : Call M => Ended)

variable {M : Type}

/-- An entry of the pipeline; `disabled` is the `disabledMethod` wrapper. -/
inductive Entry (M : Type)
  | live (m : M)
  | disabled (inner : Entry M)
  deriving DecidableEq

namespace Entry

def typeName [RoutingMethod M] : Entry M → GoString
  | live m => RoutingMethod.typeName m
  | disabled inner => inner.typeName

def isDisabled : Entry M → Bool
  | live _ => false
  | disabled _ => true

def evaluate (input : RouteInput) : Entry M → Exec M (Decision × Option GoError)
  | live m => do
    match ← (Prog.perform ⟨m, input⟩ : Prog (fun _ : Call M => Ended) Ended) with
    | .returned d err => pure (d, err)
    | .panicked v => throw v
  | disabled _ => pure ({}, none)

end Entry

/-- `safeEvaluate`: the deferred `recover` turns a panic into an error. -/
def safeEvaluate [RoutingMethod M] (input : RouteInput) (m : Entry M) :
    Exec M (Decision × Option GoError) :=
  tryCatch (m.evaluate input) fun v =>
    pure ({}, some ⟨str "panic in method " ++ quoted m.typeName ++ str ": " ++ v⟩)

def recovered [RoutingMethod M] (m : M) : Ended → Decision × Option GoError
  | .returned d err => (d, err)
  | .panicked v => ({}, some ⟨str "panic in method " ++ quoted (typeName m) ++ str ": " ++ v⟩)

/-- An enabled method is called once, and its panic goes no further. -/
theorem safeEvaluate_live_bind [RoutingMethod M] {α : Type} (input : RouteInput) (m : M)
    (k : Decision × Option GoError → Exec M α) :
    (safeEvaluate input (.live m) >>= k).run =
      Prog.call ⟨m, input⟩ fun r => (k (recovered m r)).run := by
  exact congrArg (Prog.call _) (funext fun r => by cases r <;> rfl)

def enabled (ms : List (Entry M)) : List M :=
  ms.filterMap fun
    | .live m => some m
    | .disabled _ => none

@[simp] theorem enabled_nil : enabled ([] : List (Entry M)) = [] := rfl

@[simp] theorem enabled_live (m : M) (ms : List (Entry M)) :
    enabled (.live m :: ms) = m :: enabled ms := rfl

@[simp] theorem enabled_disabled (e : Entry M) (ms : List (Entry M)) :
    enabled (.disabled e :: ms) = enabled ms := rfl

@[simp] theorem enabled_map_live (ms : List M) : enabled (ms.map .live) = ms := by
  induction ms with
  | nil => rfl
  | cons m ms ih => rw [List.map_cons, enabled_live, ih]

end TrinoGoway.Engine
