import TrinoGoway.Monitor.Status
import TrinoGoway.Persistence.Records

/-! The table of backends, and the admin endpoints that write the URL of a backend. -/
namespace TrinoGoway

open Go

namespace Persistence

/-- The table `gateway_backend`; the name is its primary key. -/
structure BackendTable where
  rows : List Backend
  nodup : (rows.map Backend.name).Nodup

namespace BackendTable

/-- What `ON CONFLICT (name) DO UPDATE` leaves of a row: only the creation time. -/
def overwrite (b row : Backend) : Backend :=
  if row.name = b.name then { b with createdAt := row.createdAt } else row

theorem overwrite_name (b row : Backend) : (overwrite b row).name = row.name := by
  unfold overwrite
  split
  · rename_i h
    exact h.symm
  · rfl

theorem map_overwrite_name (b : Backend) (rows : List Backend) :
    (rows.map (overwrite b)).map Backend.name = rows.map Backend.name := by
  rw [List.map_map]
  exact List.map_congr_left fun row _ => overwrite_name b row

def upsert (t : BackendTable) (b : Backend) : BackendTable :=
  if h : b.name ∈ t.rows.map Backend.name then
    { rows := t.rows.map (overwrite b)
      nodup := by
        rw [map_overwrite_name]
        exact t.nodup }
  else
    { rows := t.rows ++ [b]
      nodup := by
        rw [List.map_append]
        exact List.nodup_append.mpr ⟨t.nodup, List.nodup_singleton _, by
          rintro n hn m hm rfl
          rw [List.map_singleton, List.mem_singleton] at hm
          exact h (hm ▸ hn)⟩ }

def listActive (t : BackendTable) : List Backend := t.rows.filter (·.active)

end BackendTable

end Persistence

namespace Admin

open Persistence
open Monitor (TrinoStatus)

structure ProxyBackend where
  name : GoString
  proxyTo : GoString
  externalURL : GoString
  active : Bool
  routingGroup : GoString
  deriving DecidableEq

def persistenceBackendFromProxy (pb : ProxyBackend) (now : Time) : Backend where
  name := pb.name
  url := pb.proxyTo
  externalURL := pb.externalURL
  routingGroup := pb.routingGroup
  active := pb.active
  createdAt := now
  updatedAt := now

inductive BackendReply
  /-- 400 with the text `bad request` -/
  | badRequest
  /-- 500 with the text `internal server error` -/
  | internalError
  /-- 500 with the text `unknown entity type` -/
  | unknownEntityType (entityType : GoString)
  /-- 200 with the backend as it was sent -/
  | saved (pb : ProxyBackend)
  deriving DecidableEq

/-- The part the endpoints share. `body` is what the body decodes to, if it does, and `fault` the
error of the database, if there is one. -/
def saveBackend (t : BackendTable) (now : Time) (fault : Option GoError)
    (body : Option ProxyBackend) : BackendReply × BackendTable :=
  match body with
  | none => (.badRequest, t)
  | some pb =>
    match fault with
    | some _ => (.internalError, t)
    | none => (.saved pb, t.upsert (persistenceBackendFromProxy pb now))

def addBackend (t : BackendTable) (now : Time) (fault : Option GoError)
    (body : Option ProxyBackend) : BackendReply × BackendTable :=
  saveBackend t now fault body

def updateBackend (t : BackendTable) (now : Time) (fault : Option GoError)
    (body : Option ProxyBackend) : BackendReply × BackendTable :=
  saveBackend t now fault body

/-- The status that an entity starts with, until it is probed. -/
def entityStatus (pb : ProxyBackend) : TrinoStatus := if pb.active then .pending else .unhealthy

/-- `POST /entity?entityType=...`. The last component is the call of `SetBackendStatus`, which is
made only when a monitor is wired. -/
def upsertEntity (statusMut : Bool) (t : BackendTable) (now : Time) (fault : Option GoError)
    (entityType : GoString) (body : Option ProxyBackend) :
    BackendReply × BackendTable × Option (GoString × TrinoStatus) :=
  if entityType ≠ str "GATEWAY_BACKEND" then (.unknownEntityType entityType, t, none)
  else
    match saveBackend t now fault body with
    | (.saved pb, t') =>
      (.saved pb, t', if statusMut then some (pb.proxyTo, entityStatus pb) else none)
    | (reply, t') => (reply, t', none)

end Admin

end TrinoGoway
