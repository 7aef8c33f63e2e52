import DirectLink.Signaling.Server
import DirectLink.Janitor.Sweep

/-!
# The backend as a system

Every call the model covers, the program that answers it, and the systems they form: any number of
clients of the store, RPCs and sweeps, on one world.
-/

namespace DirectLink

/-- The text of a UUID. -/
abbrev SessionID : Type := { s : String // isUuid s = true }

/-- A session to be created: its id is a UUID. -/
abbrev NewSession : Type := { s : Session // isUuid s.id = true }

/-- A call of a `RedisStore` method about sessions whose ids are UUIDs. -/
inductive StoreCall : Type
  | createSession (session : NewSession)
  | getSession (sessionID : SessionID)
  | getSessionByRoomCode (code : String)
  | updateSessionStatus (sessionID : SessionID) (status : String)
  | deleteSession (sessionID : SessionID)
  | getExpiredSessions (now : Nat)
  | getRole (sessionID : SessionID) (userID : String)
  | grantAccess (sessionID : SessionID) (userID role : String)
  | revokeAccess (sessionID : SessionID) (userID : String)
  | hasAccess (sessionID : SessionID) (userID : String)
  | getUserSessions (userID : String)
  | addIngressID (sessionID : SessionID) (ingressID : String)
  | getIngressIDs (sessionID : SessionID)
  | ping
  deriving DecidableEq

/-- A call of the backend: a store method, an RPC, or a sweep of one janitor process. -/
inductive Call : Type
  | store (call : StoreCall)
  | joinSession (req : JoinRequest)
  | createSession (req : CreateSessionRequest)
  | closeSession (req : CloseSessionRequest)
  | getMySessions (req : GetMySessionsRequest)
  | sweepAt (instanceID : String) (now : Nat)
  deriving DecidableEq

/-- The call is one of a store method made directly. -/
def Call.isStore : Call → Bool
  | .store _ => true
  | _ => false

/-- What a call returned. -/
inductive Result : Type
  | unit (r : Except Err Unit)
  | session (r : Except Err Session)
  | sessions (r : Except Err (List Session))
  | text (r : Except Err String)
  | texts (r : Except Err (List String))
  | bool (r : Except Err Bool)
  | join (r : Except Status JoinReply)
  | create (r : Except Status CreateSessionReply)
  | close (r : Except Status CloseSessionReply)
  | mySessions (r : Except Status GetMySessionsReply)
  | swept

def StoreCall.code (r : RedisStore) : StoreCall → Go Result
  | .createSession session => return .unit (← r.createSession session.1)
  | .getSession sessionID => return .session (← r.getSession sessionID)
  | .getSessionByRoomCode code => return .session (← r.getSessionByRoomCode code)
  | .updateSessionStatus sessionID status =>
    return .unit (← r.updateSessionStatus sessionID status)
  | .deleteSession sessionID => return .unit (← r.deleteSession sessionID)
  | .getExpiredSessions now => return .sessions (← r.getExpiredSessions now)
  | .getRole sessionID userID => return .text (← r.getRole sessionID userID)
  | .grantAccess sessionID userID role => return .unit (← r.grantAccess sessionID userID role)
  | .revokeAccess sessionID userID => return .unit (← r.revokeAccess sessionID userID)
  | .hasAccess sessionID userID => return .bool (← r.hasAccess sessionID userID)
  | .getUserSessions userID => return .sessions (← r.getUserSessions userID)
  | .addIngressID sessionID ingressID => return .unit (← r.addIngressID sessionID ingressID)
  | .getIngressIDs sessionID => return .texts (← r.getIngressIDs sessionID)
  | .ping => return .unit (← RedisStore.ping)

/-- A backend: its server and how long its janitors hold the sweep lock. -/
structure Backend : Type where
  server : Server
  lockTTL : Nat

namespace Backend

variable (b : Backend)

/-- The janitor of one process, wired as `main.go` does. -/
def janitor (instanceID : String) : Janitor :=
  { store := b.server.store
    deleteRoom := b.server.deleteRoom
    lockTTL := b.lockTTL
    instanceID
    metrics := true }

def code : Call → Go Result
  | .store call => call.code b.server.store
  | .joinSession req => return .join (← b.server.joinSession req)
  | .createSession req => return .create (← b.server.createSession req)
  | .closeSession req => return .close (← b.server.closeSession req)
  | .getMySessions req => return .mySessions (← b.server.getMySessions req)
  | .sweepAt instanceID now => do
    (b.janitor instanceID).sweepAt now
    return .swept

/-- The system of `b` in which a command can fail with the errors that `faults` admits; between two
commands time can pass. -/
@[reducible] def system (faults : Cmd → Err → Prop) : System backend where
  World := World
  Call := Call
  Result := Result
  Tick := Nat
  code := b.code
  Exec := Exec faults
  Env w t w' := w.now ≤ t ∧ w' = w.at_ t

end Backend

/-- No command fails. -/
def noFaults (_ : Cmd) (_ : Err) : Prop := False

/-- Only requests and sweeps are started. -/
def RequestsOnly {b : Backend} {faults : Cmd → Err → Prop} (_ : Pool (b.system faults)) :
    Move (b.system faults) → Prop
  | .start call => call.isStore = false
  | _ => True

/-- Only store methods are called. -/
def StoreOnly {b : Backend} {faults : Cmd → Err → Prop} (_ : Pool (b.system faults)) :
    Move (b.system faults) → Prop
  | .start call => call.isStore = true
  | _ => True

end DirectLink
