import TrinoGoway.Go.Basic

/-! The health map that the monitor publishes. -/
namespace TrinoGoway.Monitor

open Go

inductive TrinoStatus
  | unknown
  | healthy
  | unhealthy
  | pending
  deriving DecidableEq

/-- The statuses of one probe cycle, by backend URL. -/
abbrev Snapshot := GoMap TrinoStatus

def Snapshot.status (s : Snapshot) (url : GoString) : TrinoStatus :=
  (GoMap.get? s url).getD .unknown

theorem Snapshot.status_set (s : Snapshot) (url url' : GoString) (status : TrinoStatus) :
    Snapshot.status (GoMap.set s url status) url' =
      if url' = url then status else s.status url' := by
  unfold Snapshot.status
  rw [GoMap.get?_set]
  split <;> rfl

def TrinoStatus.isDown : TrinoStatus → Bool
  | unhealthy | pending => true
  | unknown | healthy => false

end TrinoGoway.Monitor
