import TrinoGoway.Lib.Machine
import TrinoGoway.Monitor.Status

/-! The monitor with its goroutines: the loop of `run`, which makes one probe cycle after the
other, the checks and stats collections that a cycle fans out, and any number of callers of
`SetBackendStatus` and `SetBackends`. The steps are the loads and stores of the shared fields and
the ends of the goroutines; telling an observer only reads. -/
namespace TrinoGoway.Monitor

open Go

structure Backend where
  name : GoString
  url : GoString
  externalURL : GoString
  routingGroup : GoString
  deriving DecidableEq

structure Config where
  collector : Bool
  statsObserver : Bool

/-- `collectStats` returns at once unless both are registered. -/
def Config.collects (cfg : Config) : Bool := cfg.collector && cfg.statsObserver

/-- One call of `probe`: its copy of the backend list, the time at which it took the copy, and what
its checks returned. -/
structure Cycle where
  backends : List Backend
  begunAt : ℕ
  outcomes : List (GoString × TrinoStatus)

/-- Where the goroutine of `run` is. A fan-out has one goroutine for each place of the list, and
`running` has the places of those that have not ended. -/
inductive Loop
  /-- before the probe on start -/
  | starting
  /-- in the `select` -/
  | waiting
  | probing (cycle : Cycle) (running : List ℕ) (results : Snapshot)
  /-- after the swap, before `collectStats` -/
  | swapped (cycle : Cycle)
  | collecting (cycle : Cycle) (running : List ℕ)
  /-- before the deferred `firstTickOnce.Do` -/
  | returning (cycle : Cycle)
  | stopped

inductive Phase
  | called
  | loaded (old : Snapshot)
  /-- before `notifyObserver` -/
  | stored
  | returned (time : ℕ)

structure Call where
  url : GoString
  status : TrinoStatus
  phase : Phase

def Call.HasStored (c : Call) : Prop := c.phase = .stored ∨ ∃ t, c.phase = .returned t

/-- Who has replaced the status map: a call, by its place in the order of starts, or a cycle, by
the time at which it began. -/
inductive Store
  | call (k : ℕ)
  | cycle (begunAt : ℕ)
  deriving DecidableEq

/-- The fields of the monitor and its goroutines. `clock` counts the steps; `stores` and
`completed` record what has happened and steer nothing. -/
structure State where
  backends : List Backend
  status : Snapshot
  loop : Loop
  /-- `onFirstTick` has been called -/
  ready : Bool
  /-- in the order in which they started -/
  calls : List Call
  clock : ℕ
  stores : List Store
  /-- the last cycle whose `probe` has returned -/
  completed : Option Cycle

def init : State := ⟨[], .empty, .starting, false, [], 0, [], none⟩

inductive Action
  | setBackends (backends : List Backend)
  /-- `probe` is called and copies the list -/
  | probe
  /-- `checkOne` of the backend at a place returns -/
  | checked (i : ℕ) (status : TrinoStatus)
  | swap
  | collectStats
  /-- `Collect` for the backend at a place returns -/
  | collected (i : ℕ)
  | observeStats
  | firstTick
  | stop
  | call (url : GoString) (status : TrinoStatus)
  | load (k : ℕ)
  | store (k : ℕ)
  | ret (k : ℕ)

namespace State

def tick (s : State) : State := { s with clock := s.clock + 1 }

def probe (s : State) : Option State :=
  match s.loop with
  | .starting | .waiting =>
    if s.backends = [] then some { s with loop := .returning ⟨[], s.clock, []⟩ }
    else
      some { s with
        loop := .probing ⟨s.backends, s.clock, []⟩ (List.range s.backends.length) .empty }
  | _ => none

def checked (s : State) (i : ℕ) (status : TrinoStatus) : Option State :=
  match s.loop with
  | .probing c running results =>
    match c.backends[i]? with
    | some b =>
      if i ∈ running then
        some { s with
          loop := .probing { c with outcomes := (b.url, status) :: c.outcomes }
            (running.filter (· ≠ i)) (results.set b.url status) }
      else none
    | none => none
  | _ => none

def swap (s : State) : Option State :=
  match s.loop with
  | .probing c [] results =>
    some { s with
      status := results, loop := .swapped c, stores := .cycle c.begunAt :: s.stores }
  | _ => none

def collectStats (cfg : Config) (s : State) : Option State :=
  match s.loop with
  | .swapped c =>
    if cfg.collects then some { s with loop := .collecting c (List.range c.backends.length) }
    else some { s with loop := .returning c }
  | _ => none

def collected (s : State) (i : ℕ) : Option State :=
  match s.loop with
  | .collecting c running =>
    if i ∈ running then some { s with loop := .collecting c (running.filter (· ≠ i)) } else none
  | _ => none

def observeStats (s : State) : Option State :=
  match s.loop with
  | .collecting c [] => some { s with loop := .returning c }
  | _ => none

def firstTick (s : State) : Option State :=
  match s.loop with
  | .returning c => some { s with loop := .waiting, ready := true, completed := some c }
  | _ => none

def stop (s : State) : Option State :=
  match s.loop with
  | .waiting => some { s with loop := .stopped }
  | _ => none

def enter (s : State) (k : ℕ) (c : Call) (phase : Phase) : State :=
  { s with calls := s.calls.set k { c with phase } }

def load (s : State) (k : ℕ) : Option State :=
  match s.calls[k]? with
  | some c =>
    match c.phase with
    | .called => some (s.enter k c (.loaded s.status))
    | _ => none
  | none => none

/-- The map copied from the one loaded, with the new status, replaces whatever map is there. -/
def store (s : State) (k : ℕ) : Option State :=
  match s.calls[k]? with
  | some c =>
    match c.phase with
    | .loaded old =>
      some { s.enter k c .stored with
        status := old.set c.url c.status, stores := .call k :: s.stores }
    | _ => none
  | none => none

def ret (s : State) (k : ℕ) : Option State :=
  match s.calls[k]? with
  | some c =>
    match c.phase with
    | .stored => some (s.enter k c (.returned s.clock))
    | _ => none
  | none => none

end State

def act (cfg : Config) (s : State) : Action → Option State
  | .setBackends backends => some { s with backends }
  | .probe => s.probe
  | .checked i status => s.checked i status
  | .swap => s.swap
  | .collectStats => s.collectStats cfg
  | .collected i => s.collected i
  | .observeStats => s.observeStats
  | .firstTick => s.firstTick
  | .stop => s.stop
  | .call url status => some { s with calls := s.calls ++ [⟨url, status, .called⟩] }
  | .load k => s.load k
  | .store k => s.store k
  | .ret k => s.ret k

def step (cfg : Config) (s : State) (a : Action) : Option State := (act cfg s a).map State.tick

/-- What `notifyObserver` makes of the list and the map it has read: the URLs of the list, those
without a status as pending. -/
def notifyObserver (backends : List Backend) (status : Snapshot) : Snapshot :=
  let names : GoMap GoString := backends.foldl (fun names b => names.set b.url b.name) .empty
  names.entries.foldl
    (fun statuses e => statuses.set e.1 ((GoMap.get? status e.1).getD .pending)) .empty

/-! ### What a step does -/

/-- The steps, each with what it finds and what it leaves. -/
inductive Does (cfg : Config) (s : State) : Action → State → Prop
  | setBackends (backends : List Backend) :
    Does cfg s (.setBackends backends) { s with backends }
  | idle (hloop : s.loop = .starting ∨ s.loop = .waiting) (hempty : s.backends = []) :
    Does cfg s .probe { s with loop := .returning ⟨[], s.clock, []⟩ }
  | fanOut (hloop : s.loop = .starting ∨ s.loop = .waiting) (hlist : s.backends ≠ []) :
    Does cfg s .probe { s with
      loop := .probing ⟨s.backends, s.clock, []⟩ (List.range s.backends.length) .empty }
  | checked {c : Cycle} {running : List ℕ} {results : Snapshot} {i : ℕ} {b : Backend}
      (status : TrinoStatus) (hloop : s.loop = .probing c running results)
      (hb : c.backends[i]? = some b) :
    Does cfg s (.checked i status) { s with
      loop := .probing { c with outcomes := (b.url, status) :: c.outcomes }
        (running.filter (· ≠ i)) (results.set b.url status) }
  | swap {c : Cycle} {results : Snapshot} (hloop : s.loop = .probing c [] results) :
    Does cfg s .swap { s with
      status := results, loop := .swapped c, stores := .cycle c.begunAt :: s.stores }
  | collect {c : Cycle} (hloop : s.loop = .swapped c) (hcfg : cfg.collects) :
    Does cfg s .collectStats { s with loop := .collecting c (List.range c.backends.length) }
  | skip {c : Cycle} (hloop : s.loop = .swapped c) :
    Does cfg s .collectStats { s with loop := .returning c }
  | collected {c : Cycle} {running : List ℕ} (i : ℕ) (hloop : s.loop = .collecting c running) :
    Does cfg s (.collected i) { s with loop := .collecting c (running.filter (· ≠ i)) }
  | observeStats {c : Cycle} (hloop : s.loop = .collecting c []) :
    Does cfg s .observeStats { s with loop := .returning c }
  | firstTick {c : Cycle} (hloop : s.loop = .returning c) :
    Does cfg s .firstTick { s with loop := .waiting, ready := true, completed := some c }
  | stop (hloop : s.loop = .waiting) : Does cfg s .stop { s with loop := .stopped }
  | call (url : GoString) (status : TrinoStatus) :
    Does cfg s (.call url status) { s with calls := s.calls ++ [⟨url, status, .called⟩] }
  | load {k : ℕ} {c : Call} (hc : s.calls[k]? = some c) :
    Does cfg s (.load k) (s.enter k c (.loaded s.status))
  | store {k : ℕ} {c : Call} {old : Snapshot} (hc : s.calls[k]? = some c)
      (hold : c.phase = .loaded old) :
    Does cfg s (.store k) { s.enter k c .stored with
      status := old.set c.url c.status, stores := .call k :: s.stores }
  | ret {k : ℕ} {c : Call} (hc : s.calls[k]? = some c) (hstored : c.phase = .stored) :
    Does cfg s (.ret k) (s.enter k c (.returned s.clock))

theorem does_of_act {cfg : Config} {s s' : State} {a : Action} (h : act cfg s a = some s') :
    Does cfg s a s' := by
  cases a with
  | setBackends backends =>
    obtain rfl := Option.some.inj h
    exact .setBackends backends
  | probe =>
    change s.probe = some s' at h
    unfold State.probe at h
    grind [Does]
  | checked i status =>
    change s.checked i status = some s' at h
    unfold State.checked at h
    grind [Does]
  | swap =>
    change s.swap = some s' at h
    unfold State.swap at h
    grind [Does]
  | collectStats =>
    change s.collectStats cfg = some s' at h
    unfold State.collectStats at h
    grind [Does]
  | collected i =>
    change s.collected i = some s' at h
    unfold State.collected at h
    grind [Does]
  | observeStats =>
    change s.observeStats = some s' at h
    unfold State.observeStats at h
    grind [Does]
  | firstTick =>
    change s.firstTick = some s' at h
    unfold State.firstTick at h
    grind [Does]
  | stop =>
    change s.stop = some s' at h
    unfold State.stop at h
    grind [Does]
  | call url status =>
    obtain rfl := Option.some.inj h
    exact .call url status
  | load k =>
    change s.load k = some s' at h
    unfold State.load at h
    grind [Does]
  | store k =>
    change s.store k = some s' at h
    unfold State.store at h
    grind [Does]
  | ret k =>
    change s.ret k = some s' at h
    unfold State.ret at h
    grind [Does]

theorem does_of_step {cfg : Config} {s s' : State} {a : Action} (h : step cfg s a = some s') :
    ∃ s₁, Does cfg s a s₁ ∧ s' = s₁.tick := by
  unfold step at h
  rw [Option.map_eq_some_iff] at h
  obtain ⟨s₁, h₁, rfl⟩ := h
  exact ⟨s₁, does_of_act h₁, rfl⟩

end TrinoGoway.Monitor
