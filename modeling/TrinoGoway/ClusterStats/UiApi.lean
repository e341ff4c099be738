import TrinoGoway.Lib.Machine
import TrinoGoway.Monitor.Loop

/-! The collector for the web UI's API: calls of `Collect`, any number at a time, over one mutex,
one cookie jar and one login flag. A step is a request, an answer, or a section under the mutex;
the mutex is held from the login's request to its answer. -/
namespace TrinoGoway.UiApi

open Go
open Monitor (Backend TrinoStatus)

/-- A jar, numbered by the login it was made for, with the backend that this login went to: the
only one that gets cookies back from it. -/
structure Jar where
  number : ℕ
  host : GoString
  deriving DecidableEq

inductive Target
  | stats
  | queued
  deriving DecidableEq

structure UiStatsResponse where
  activeWorkers : ℤ
  runningQueries : ℤ
  queuedQueries : ℤ
  deriving DecidableEq

/-- What `get` returns, with what `json.Unmarshal` makes of the body in either place; none stands
for an empty body too. Of a query only the user is read. -/
structure Answer where
  status : ℕ
  stats : Option UiStatsResponse
  queries : Option (List GoString)
  deriving DecidableEq

def noAnswer : Answer := ⟨0, none, none⟩

structure ClusterStats where
  clusterID : GoString
  runningQueryCount : ℤ
  queuedQueryCount : ℤ
  numWorkerNodes : ℤ
  trinoStatus : TrinoStatus
  proxyTo : GoString
  externalURL : GoString
  routingGroup : GoString
  userQueuedCount : Option (GoMap ℕ)
  deriving DecidableEq

def statsBuilder (b : Backend) : ClusterStats :=
  ⟨b.name, 0, 0, 0, .unknown, b.url, b.externalURL, b.routingGroup, none⟩

def ClusterStats.withStats (cs : ClusterStats) (stats : UiStatsResponse) : ClusterStats :=
  { cs with
    numWorkerNodes := stats.activeWorkers
    runningQueryCount := stats.runningQueries
    queuedQueryCount := stats.queuedQueries
    trinoStatus := if stats.activeWorkers > 0 then .healthy else .unhealthy }

def ClusterStats.withQueries (cs : ClusterStats) (users : List GoString) : ClusterStats :=
  { cs with
    userQueuedCount := some
      (users.foldl (fun m user => m.set user ((m.get? user).getD 0 + 1)) .empty) }

/-- Where a call is. In `get`, the jar is the one read at its start, and the attempts count from
zero. -/
inductive Phase
  /-- before `ensureLogin` -/
  | entered
  /-- the login is sent, with a new jar -/
  | loggingIn (jar : Jar)
  /-- before `get` reads the jar -/
  | fetching (target : Target)
  | sending (target : Target) (jar : Option Jar) (attempt : ℕ)
  | awaiting (target : Target) (jar : Option Jar) (attempt : ℕ)
  | answered (target : Target) (answer : Answer)
  | returned
  deriving DecidableEq

structure Call where
  backend : Backend
  stats : ClusterStats
  phase : Phase
  deriving DecidableEq

inductive Event
  /-- the login form is posted, by a client with this jar -/
  | post (url : GoString) (jar : Jar)
  /-- it is answered, and the jar has the cookies -/
  | login (url : GoString) (jar : Jar)
  | get (url : GoString) (target : Target) (jar : Option Jar)
  /-- `invalidateSession` -/
  | drop
  deriving DecidableEq

/-- `log` has the events, the last one first; it steers nothing. -/
structure State where
  /-- the call that holds the mutex -/
  mu : Option ℕ
  jar : Option Jar
  loggedIn : Bool
  /-- the number of jars made so far -/
  jars : ℕ
  calls : List Call
  log : List Event
  deriving DecidableEq

def init : State := ⟨none, none, false, 0, [], []⟩

inductive Action
  /-- `Collect` is called -/
  | collect (backend : Backend)
  /-- `made`: the login request could be made -/
  | ensureLogin (k : ℕ) (made : Bool)
  | loginDone (k : ℕ) (ok : Bool)
  /-- `get` reads the jar -/
  | load (k : ℕ)
  /-- `made`: the request could be made -/
  | send (k : ℕ) (made : Bool)
  /-- `waited`: the context is not done before the backoff is over -/
  | failed (k : ℕ) (waited : Bool)
  | answer (k : ℕ) (answer : Answer)
  /-- what `Collect` makes of an answer -/
  | settle (k : ℕ)

namespace State

def enter (s : State) (k : ℕ) (c : Call) (phase : Phase) : State :=
  { s with calls := s.calls.set k { c with phase } }

/-- The rest of `Collect` after `get`, up to the next `get` or the return. -/
def proceed (s : State) (k : ℕ) (c : Call) (answer : Answer) : Target → State
  | .stats =>
    match answer.stats with
    | some stats => s.enter k { c with stats := c.stats.withStats stats } (.fetching .queued)
    | none => s.enter k c .returned
  | .queued =>
    match answer.queries with
    | some users => s.enter k { c with stats := c.stats.withQueries users } .returned
    | none => s.enter k c .returned

def invalidateSession (s : State) : State :=
  { s with loggedIn := false, jar := none, log := .drop :: s.log }

def ensureLogin (s : State) (k : ℕ) (c : Call) (made : Bool) : Option State :=
  if s.mu ≠ none then none
  else if s.loggedIn ∧ s.jar ≠ none then some (s.enter k c (.fetching .stats))
  else if made then
    let jar : Jar := ⟨s.jars, c.backend.url⟩
    some { s.enter k c (.loggingIn jar) with
      mu := some k, jars := s.jars + 1, log := .post c.backend.url jar :: s.log }
  else some (s.enter k c .returned)

/-- The status of the login's answer is not looked at. -/
def loginDone (s : State) (k : ℕ) (c : Call) (jar : Jar) (ok : Bool) : State :=
  if ok then
    { s.enter k c (.fetching .stats) with
      mu := none, jar := some jar, loggedIn := true, log := .login c.backend.url jar :: s.log }
  else { s.enter k c .returned with mu := none }

end State

def step (retries : ℤ) (s : State) : Action → Option State
  | .collect b => some { s with calls := s.calls ++ [⟨b, statsBuilder b, .entered⟩] }
  | .ensureLogin k made =>
    match s.calls[k]? with
    | some c => if c.phase = .entered then s.ensureLogin k c made else none
    | none => none
  | .loginDone k ok =>
    match s.calls[k]? with
    | some c =>
      match c.phase with
      | .loggingIn jar => some (s.loginDone k c jar ok)
      | _ => none
    | none => none
  | .load k =>
    match s.calls[k]? with
    | some c =>
      match c.phase with
      | .fetching target =>
        if s.mu = none then some (s.enter k c (.sending target s.jar 0)) else none
      | _ => none
    | none => none
  | .send k made =>
    match s.calls[k]? with
    | some c =>
      match c.phase with
      | .sending target jar attempt =>
        -- with no attempts at all the loop is left at once
        if made ∧ (attempt : ℤ) < retries + 1 then
          some { s.enter k c (.awaiting target jar attempt) with
            log := .get c.backend.url target jar :: s.log }
        else some (s.enter k c (.answered target noAnswer))
      | _ => none
    | none => none
  | .failed k waited =>
    match s.calls[k]? with
    | some c =>
      match c.phase with
      | .awaiting target jar attempt =>
        if waited ∧ (attempt : ℤ) < retries then
          some (s.enter k c (.sending target jar (attempt + 1)))
        else some (s.enter k c (.answered target noAnswer))
      | _ => none
    | none => none
  | .answer k answer =>
    match s.calls[k]? with
    | some c =>
      match c.phase with
      | .awaiting target _ _ => some (s.enter k c (.answered target answer))
      | _ => none
    | none => none
  | .settle k =>
    match s.calls[k]? with
    | some c =>
      match c.phase with
      | .answered target answer =>
        if answer.status = 401 then
          if s.mu = none then some (s.invalidateSession.proceed k c answer target) else none
        else some (s.proceed k c answer target)
      | _ => none
    | none => none

/-! ### What a step does -/

/-- The steps, each with what it finds and what it leaves. -/
inductive Does (s : State) : Action → State → Prop
  | collect (b : Backend) :
    Does s (.collect b) { s with calls := s.calls ++ [⟨b, statsBuilder b, .entered⟩] }
  | reuse {k : ℕ} {c : Call} (made : Bool) (hc : s.calls[k]? = some c) (hjar : s.jar ≠ none) :
    Does s (.ensureLogin k made) (s.enter k c (.fetching .stats))
  | post {k : ℕ} {c : Call} (hc : s.calls[k]? = some c) (hmu : s.mu = none)
      (hnone : ¬ (s.loggedIn ∧ s.jar ≠ none)) :
    Does s (.ensureLogin k true) { s.enter k c (.loggingIn ⟨s.jars, c.backend.url⟩) with
      mu := some k
      jars := s.jars + 1
      log := .post c.backend.url ⟨s.jars, c.backend.url⟩ :: s.log }
  | unmade {k : ℕ} {c : Call} (hc : s.calls[k]? = some c) :
    Does s (.ensureLogin k false) (s.enter k c .returned)
  | login {k : ℕ} {c : Call} {jar : Jar} (hc : s.calls[k]? = some c)
      (hphase : c.phase = .loggingIn jar) :
    Does s (.loginDone k true) { s.enter k c (.fetching .stats) with
      mu := none
      jar := some jar
      loggedIn := true
      log := .login c.backend.url jar :: s.log }
  | loginFailed {k : ℕ} {c : Call} {jar : Jar} (hc : s.calls[k]? = some c)
      (hphase : c.phase = .loggingIn jar) :
    Does s (.loginDone k false) { s.enter k c .returned with mu := none }
  | load {k : ℕ} {c : Call} {target : Target} (hc : s.calls[k]? = some c)
      (hphase : c.phase = .fetching target) :
    Does s (.load k) (s.enter k c (.sending target s.jar 0))
  | send {k : ℕ} {c : Call} {target : Target} {jar : Option Jar} {attempt : ℕ}
      (hc : s.calls[k]? = some c) (hphase : c.phase = .sending target jar attempt) :
    Does s (.send k true) { s.enter k c (.awaiting target jar attempt) with
      log := .get c.backend.url target jar :: s.log }
  | giveUp {k : ℕ} {c : Call} {target : Target} {jar : Option Jar} {attempt : ℕ} (made : Bool)
      (hc : s.calls[k]? = some c) (hphase : c.phase = .sending target jar attempt) :
    Does s (.send k made) (s.enter k c (.answered target noAnswer))
  | retry {k : ℕ} {c : Call} {target : Target} {jar : Option Jar} {attempt : ℕ} (waited : Bool)
      (hc : s.calls[k]? = some c) (hphase : c.phase = .awaiting target jar attempt) :
    Does s (.failed k waited) (s.enter k c (.sending target jar (attempt + 1)))
  | failed {k : ℕ} {c : Call} {target : Target} {jar : Option Jar} {attempt : ℕ} (waited : Bool)
      (hc : s.calls[k]? = some c) (hphase : c.phase = .awaiting target jar attempt) :
    Does s (.failed k waited) (s.enter k c (.answered target noAnswer))
  | answer {k : ℕ} {c : Call} {target : Target} {jar : Option Jar} {attempt : ℕ}
      (answer : Answer) (hc : s.calls[k]? = some c)
      (hphase : c.phase = .awaiting target jar attempt) :
    Does s (.answer k answer) (s.enter k c (.answered target answer))
  | proceed {k : ℕ} {c : Call} {target : Target} {answer : Answer} (hc : s.calls[k]? = some c)
      (hphase : c.phase = .answered target answer) :
    Does s (.settle k) (s.proceed k c answer target)
  | unauthorized {k : ℕ} {c : Call} {target : Target} {answer : Answer}
      (hc : s.calls[k]? = some c) (hphase : c.phase = .answered target answer)
      (hstatus : answer.status = 401) (hmu : s.mu = none) :
    Does s (.settle k) (s.invalidateSession.proceed k c answer target)

theorem does_of_step {retries : ℤ} {s s' : State} {a : Action}
    (h : step retries s a = some s') : Does s a s' := by
  cases a with
  | collect b =>
    obtain rfl := Option.some.inj h
    exact .collect b
  | ensureLogin k made =>
    simp only [step, State.ensureLogin] at h
    grind [Does]
  | loginDone k ok =>
    simp only [step, State.loginDone] at h
    grind [Does]
  | load k =>
    simp only [step] at h
    grind [Does]
  | send k made =>
    simp only [step] at h
    grind [Does]
  | failed k waited =>
    simp only [step] at h
    grind [Does]
  | answer k answer =>
    simp only [step] at h
    grind [Does]
  | settle k =>
    simp only [step] at h
    grind [Does]

end TrinoGoway.UiApi
