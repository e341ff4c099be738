import TrinoGoway.Go.Basic
import TrinoGoway.Lib.Machine

/-! The end of a gateway process: `lifecycle.Server` with its two HTTP servers, and `run` of the
command from the call of `Start` on. Each action is one step of a goroutine, of a client, of
the clock or of the operating system. `http.Server.Shutdown` waits until its server is idle or
its context is done. -/
namespace TrinoGoway.Lifecycle

open Go

def shutdownTimeout : Duration := 30000000000

def canceled : GoError := ⟨str "context canceled"⟩

inductive HttpServer
  | proxy
  | admin
  deriving DecidableEq

structure Request where
  server : HttpServer
  id : ℕ
  deriving DecidableEq

/-- What happens to the process from outside: time, requests, and the termination signal. -/
structure Traffic where
  now : Time := 0
  nextId : ℕ := 0
  inFlight : List Request := []
  /-- when the root context was cancelled -/
  signalled : Option Time := none
  /-- the requests in flight at that moment -/
  atSignal : List Request := []
  deriving DecidableEq

namespace Traffic

inductive Event
  | tick (d : ℕ)
  | arrive (server : HttpServer)
  | finish (r : Request)
  | signal

def step (t : Traffic) : Event → Option Traffic
  | .tick d => some { t with now := t.now + d }
  | .arrive v =>
    some { t with inFlight := ⟨v, t.nextId⟩ :: t.inFlight, nextId := t.nextId + 1 }
  | .finish r => if r ∈ t.inFlight then some { t with inFlight := t.inFlight.erase r } else none
  -- `signal.NotifyContext` takes in later signals without effect.
  | .signal =>
    if t.signalled = none then
      some { t with signalled := some t.now, atSignal := t.inFlight }
    else none

def idle (t : Traffic) (v : HttpServer) : Bool := t.inFlight.all fun r => r.server ≠ v

/-- A request that the signal found in flight is unfinished, and its time is not over. -/
def Draining (t : Traffic) : Prop :=
  ∃ t₀ ∈ t.signalled, t.now < t₀ + shutdownTimeout ∧ ∃ r ∈ t.atSignal, r ∈ t.inFlight

end Traffic

/-- A server's `Shutdown`, as called by a goroutine of `Stop`. -/
inductive Shutdown
  | notCalled
  | waiting
  | returned (err : Option GoError)
  deriving DecidableEq

inductive Phase
  /-- in the `select` of `Start` -/
  | serving
  /-- in `Stop`; `serveErr` is the error that made `Start` call it, if any -/
  | stopping (serveErr : Option GoError)
  /-- in `mon.Stop`, whose context ends at `deadline` -/
  | stoppingMonitor (startErr : Option GoError) (deadline : Time)
  /-- receiving from `refreshDone` -/
  | awaitingRefresh (startErr : Option GoError)
  | exited (err : Option GoError)
  deriving DecidableEq

structure State where
  traffic : Traffic := {}
  phase : Phase := .serving
  /-- the buffered errors of `errCh` -/
  errCh : List GoError := []
  shutdown : HttpServer → Shutdown := fun _ => .notCalled
  /-- the first error of the group of `Stop` -/
  groupErr : Option GoError := none
  monitorDone : Bool := false
  refreshDone : Bool := false

/-- The context of the group: the root context, cancelled also by the group's first error. -/
def State.groupDone (s : State) : Bool := s.traffic.signalled.isSome || s.groupErr.isSome

inductive Action
  | outside (e : Traffic.Event)
  | serveFails (err : GoError)
  | selectErr
  | selectDone
  | callShutdown (v : HttpServer)
  | shutdownReturns (v : HttpServer)
  | stopReturns
  | monitorExits
  | monitorStopReturns
  | refreshExits
  | exit

/-- A closed listener takes no more requests. -/
def State.accepts (s : State) : Traffic.Event → Bool
  | .arrive v => s.shutdown v = .notCalled
  | _ => true

def shutdownReturns (s : State) (v : HttpServer) : Option State :=
  if s.shutdown v = .waiting then
    if s.traffic.idle v then
      some { s with shutdown := Function.update s.shutdown v (.returned none) }
    else if s.groupDone then
      some { s with
        shutdown := Function.update s.shutdown v (.returned (some canceled))
        groupErr := s.groupErr.or (some canceled) }
    else none
  else none

def exitErr : Option GoError → Option GoError
  | none => none
  | some e => if e = canceled then none else some (e.wrap "trino-goway: lifecycle: ")

def step (s : State) : Action → Option State
  | .outside e =>
    if s.accepts e then (s.traffic.step e).map fun t => { s with traffic := t } else none
  | .serveFails err =>
    match s.phase with
    | .serving => some { s with errCh := s.errCh ++ [err] }
    | _ => none
  | .selectErr =>
    match s.phase, s.errCh with
    | .serving, err :: rest => some { s with phase := .stopping (some err), errCh := rest }
    | _, _ => none
  | .selectDone =>
    match s.phase with
    | .serving =>
      if s.traffic.signalled.isSome then some { s with phase := .stopping none } else none
    | _ => none
  | .callShutdown v =>
    match s.phase with
    | .stopping _ =>
      if s.shutdown v = .notCalled then
        some { s with shutdown := Function.update s.shutdown v .waiting }
      else none
    | _ => none
  | .shutdownReturns v => shutdownReturns s v
  | .stopReturns =>
    match s.phase, s.shutdown .proxy, s.shutdown .admin with
    | .stopping serveErr, .returned _, .returned _ =>
      some { s with
        phase := .stoppingMonitor (serveErr.or s.groupErr) (s.traffic.now + shutdownTimeout) }
    | _, _, _ => none
  | .monitorExits =>
    match s.phase with
    | .stoppingMonitor _ _ => some { s with monitorDone := true }
    | _ => if s.traffic.signalled.isSome then some { s with monitorDone := true } else none
  | .monitorStopReturns =>
    match s.phase with
    | .stoppingMonitor startErr deadline =>
      if s.monitorDone || deadline ≤ s.traffic.now then
        some { s with phase := .awaitingRefresh startErr }
      else none
    | _ => none
  | .refreshExits =>
    if s.traffic.signalled.isSome then some { s with refreshDone := true } else none
  | .exit =>
    match s.phase with
    | .awaitingRefresh startErr =>
      if s.refreshDone then some { s with phase := .exited (exitErr startErr) } else none
    | _ => none

def Action.ends : Action → Bool
  | .shutdownReturns _ => true
  | .stopReturns => true
  | .exit => true
  | _ => false

/-- No shutdown returns and the process does not end while it has requests to drain. -/
def Graceful (s : State) (as : List Action) : Prop :=
  ∀ before a after s₁, as = before ++ a :: after → Machine.run step s before = some s₁ →
    a.ends → ¬ s₁.traffic.Draining

end TrinoGoway.Lifecycle
