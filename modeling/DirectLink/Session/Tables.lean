import DirectLink.Session.Ops
import DirectLink.System

/-!
# The session table

What a session store is for, without keys and deadlines: a table of sessions, the roles users hold
in them, an index of room codes, the ingresses of each session, and until when each open session is
to be kept.  `Tables.next` is what a call does to the tables, `Tables.Answers` what it returns.
-/

namespace DirectLink

structure Tables : Type where
  sessions : String → Option Session
  roles : String → String → Option String
  codes : String → Option String
  ingresses : String → Finset String
  /-- The second up to which a session is kept. -/
  active : String → Option Int
  clock : Nat

namespace Tables

def empty (clock : Nat) : Tables :=
  ⟨fun _ => none, fun _ _ => none, fun _ => none, fun _ => ∅, fun _ => none, clock⟩

section Next

variable (t : Tables)

/-- A session is entered, its time of creation to the second. -/
def create (ttl : Nat) (s : Session) : Tables :=
  { t with
    sessions := Function.update t.sessions s.id (some s.truncate)
    codes := if s.roomCode = "" then t.codes else Function.update t.codes s.roomCode (some s.id)
    active := Function.update t.active s.id (some (unix (t.clock + ttl))) }

/-- The status of an entered session changes. -/
def setStatus (s : Session) (status : String) : Tables :=
  { t with
    sessions := Function.update t.sessions s.id (some { s with status })
    active := if status = statusClosed then Function.update t.active s.id none else t.active }

/-- An entered session is deleted, with the roles in it. -/
def delete (s : Session) : Tables :=
  { t with
    sessions := Function.update t.sessions s.id none
    roles := Function.update t.roles s.id fun _ => none
    codes := if s.roomCode = "" then t.codes else Function.update t.codes s.roomCode none
    active := Function.update t.active s.id none }

def setRole (id u : String) (role : Option String) : Tables :=
  { t with roles := Function.update t.roles id (Function.update (t.roles id) u role) }

def addIngress (id ingressID : String) : Tables :=
  { t with ingresses := Function.update t.ingresses id (insert ingressID (t.ingresses id)) }

/-- A session is no longer to be kept. -/
def dropActive (id : String) : Tables := { t with active := Function.update t.active id none }

/-- The session is to be kept up to a second that has come. -/
def Due (now : Nat) (id : String) : Prop := ∃ score, t.active id = some score ∧ score ≤ unix now

def closed (id : String) : Bool := (t.sessions id).any fun s => s.status = statusClosed

/-- Closed sessions that are due are no longer to be kept. -/
def dropDue (now : Nat) : Tables :=
  { t with
    active := fun id => (t.active id).filter fun score => ¬ (score ≤ unix now ∧ t.closed id) }

def updateSessionStatus (id status : String) : Tables :=
  match t.sessions id with
  | some s => t.setStatus s status
  | none => t

def deleteSession (id : String) : Tables :=
  match t.sessions id with
  | some s => t.delete s
  | none => t

def grantAccess (id u role : String) : Tables :=
  if (t.sessions id).isSome then t.setRole id u (some role) else t

/-- The tables after a call. -/
def next (ttl : Nat) : StoreCall → Tables
  | .createSession new => t.create ttl new.1
  | .updateSessionStatus id status => t.updateSessionStatus id status
  | .deleteSession id => t.deleteSession id
  | .getExpiredSessions now => t.dropDue now
  | .grantAccess id u role => t.grantAccess id u role
  | .revokeAccess id u => t.setRole id u none
  | .addIngressID id ingressID => t.addIngress id ingressID
  | .getSession _ | .getSessionByRoomCode _ | .getRole _ _ | .hasAccess _ _ | .getUserSessions _
  | .getIngressIDs _ | .ping => t

/-- A session, or the error that there is none. -/
def find (id : String) : Except Err Session :=
  match t.sessions id with
  | some s => .ok s
  | none => .error (.sentinel .sessionNotFound)

def findByCode (code : String) : Except Err Session :=
  match t.codes code with
  | some id => t.find id
  | none => .error (.sentinel .invalidRoomCode)

/-- Success if there is such a session. -/
def present (id : String) : Except Err Unit :=
  if (t.sessions id).isSome then .ok () else .error (.sentinel .sessionNotFound)

/-- The sessions that satisfy `P`, each once. -/
def Lists (P : Session → Prop) (list : List Session) : Prop :=
  list.Nodup ∧ ∀ s, s ∈ list ↔ t.sessions s.id = some s ∧ P s

/-- What a call returns. -/
def Answers : StoreCall → Result → Prop
  | .createSession _, a | .revokeAccess _ _, a | .addIngressID _ _, a | .ping, a =>
    a = .unit (.ok ())
  | .getSession id, a => a = .session (t.find id)
  | .getSessionByRoomCode code, a => a = .session (t.findByCode code)
  | .updateSessionStatus id _, a | .deleteSession id, a | .grantAccess id _ _, a =>
    a = .unit (t.present id)
  | .getRole id u, a => a = .text (.ok ((t.roles id u).getD ""))
  | .hasAccess id u, a => a = .bool (.ok (t.roles id u).isSome)
  | .getUserSessions u, a =>
    ∃ list, a = .sessions (.ok list) ∧ t.Lists (fun s => s.createdBy = u) list
  | .getExpiredSessions now, a => ∃ list, a = .sessions (.ok list) ∧
    t.Lists (fun s => s.status ≠ statusClosed ∧ t.Due now s.id) list
  | .getIngressIDs id, a =>
    ∃ list : List String, a = .texts (.ok list) ∧ list.Nodup ∧ list.toFinset = t.ingresses id

end Next

/-- Calls answered from the tables one after the other, time passing in between. -/
inductive Run (ttl : Nat) : Tables → List (Call × Result) → Tables → Prop
  | nil {t : Tables} : Run ttl t [] t
  | call {t t' : Tables} {calls : List (Call × Result)} {call : StoreCall} {a : Result} :
    Run ttl t calls t' → t'.Answers call a →
    Run ttl t (calls ++ [(.store call, a)]) (t'.next ttl call)
  | tick {t t' : Tables} {calls : List (Call × Result)} {now : Nat} :
    Run ttl t calls t' → t'.clock ≤ now → Run ttl t calls { t' with clock := now }

end Tables

end DirectLink
