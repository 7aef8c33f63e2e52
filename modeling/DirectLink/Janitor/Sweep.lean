import DirectLink.Session.RedisStore

/-!
# The janitor

`SweepAt` and `closeExpiredSession` of `internal/worker/janitor/janitor.go`.  The cleanup of a room
is a callback, as in the source.  The logger and the ticker loops around `SweepAt` are left out.
-/

namespace DirectLink

structure Janitor : Type where
  store : RedisStore
  deleteRoom : String → Go (Except Err Unit)
  /-- How long the sweep lock is held at most, in nanoseconds. -/
  lockTTL : Nat
  /-- The value of the sweep lock, unique to the process. -/
  instanceID : String
  /-- Metrics may be switched off. -/
  metrics : Bool

namespace Janitor

variable (j : Janitor)

def closeExpiredSession (sess : Session) : Go Unit := do
  -- an incomplete cleanup is only logged
  let _ ← j.deleteRoom sess.id
  match ← j.store.updateSessionStatus sess.id statusClosed with
  | .error _ => return ()
  | .ok _ =>
    if j.metrics then
      issue (.metric .sessionsExpiredInc)
      issue (.metric .sessionsActiveDec)
    else return ()

def closeExpiredSessions : List Session → Go Unit
  | [] => return ()
  | sess :: sessions => do
    j.closeExpiredSession sess
    closeExpiredSessions sessions

/-- The deferred release: delete the lock if it still holds this instance's value. -/
def releaseLock : Go Unit := do
  let _ ← redis (.delIfEq janitorLockKey j.instanceID)
  return ()

def sweepAt (now : Nat) : Go Unit := do
  match ← redis (.setNX janitorLockKey j.instanceID (some j.lockTTL)) with
  | .error _ => return ()
  | .ok false => return ()
  | .ok true =>
    match ← j.store.getExpiredSessions now with
    | .error _ => j.releaseLock
    | .ok expired =>
      j.closeExpiredSessions expired
      j.releaseLock

end Janitor

end DirectLink
