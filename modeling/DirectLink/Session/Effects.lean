import DirectLink.Lib.Pool
import DirectLink.Session.Model

/-!
# What the backend asks of its surroundings

`Cmd` lists every command a backend call issues: one Redis command, one LiveKit call, a reading of
a clock, a draw, a backoff wait, or a change of a Prometheus metric.  `Performs` is what each does
to the `World` when it is carried out, `Exec` adds replies that report an error, with or without
the command having been carried out.
-/

namespace DirectLink

/-- One second, in the nanoseconds of the clock. -/
def second : Nat := 1000000000

/-- `t.Unix()`. -/
def unix (t : Nat) : Int := (t / second : Nat)

/-! ## LiveKit -/

inductive IngressInput : Type
  | rtmp
  | whip
  | url
  deriving DecidableEq

structure CreateIngressRequest : Type where
  inputType : IngressInput
  roomName : String
  participantIdentity : String
  participantName : String
  enableTranscoding : Bool
  deriving DecidableEq

structure IngressInfo : Type where
  ingressId : String
  url : String
  streamKey : String
  deriving DecidableEq

/-- The ingresses LiveKit has created with their rooms, those alive, and the rooms it was asked to
delete, last first. -/
structure LiveKit : Type where
  rooms : String → Option String
  alive : Finset String
  deletedRooms : List String

namespace LiveKit

def empty : LiveKit := ⟨fun _ => none, ∅, []⟩

def create (lk : LiveKit) (ingressId room : String) : LiveKit :=
  { lk with
    rooms := Function.update lk.rooms ingressId (some room)
    alive := insert ingressId lk.alive }

def deleteIngress (lk : LiveKit) (ingressId : String) : LiveKit :=
  { lk with alive := lk.alive.erase ingressId }

def deleteRoom (lk : LiveKit) (room : String) : LiveKit :=
  { lk with deletedRooms := room :: lk.deletedRooms }

end LiveKit

/-! ## Metrics -/

/-- The business metrics of `pkg/metrics`. -/
structure Metrics : Type where
  sessionsActive : Int
  sessionsCreatedTotal : Nat
  sessionsExpiredTotal : Nat
  tokenGenerationsTotal : String → Nat

inductive MetricOp : Type
  | sessionsActiveInc
  | sessionsActiveDec
  | sessionsCreatedInc
  | sessionsExpiredInc
  | tokenGenerationsInc (label : String)
  deriving DecidableEq

namespace Metrics

def zero : Metrics := ⟨0, 0, 0, fun _ => 0⟩

def apply (m : Metrics) : MetricOp → Metrics
  | .sessionsActiveInc => { m with sessionsActive := m.sessionsActive + 1 }
  | .sessionsActiveDec => { m with sessionsActive := m.sessionsActive - 1 }
  | .sessionsCreatedInc => { m with sessionsCreatedTotal := m.sessionsCreatedTotal + 1 }
  | .sessionsExpiredInc => { m with sessionsExpiredTotal := m.sessionsExpiredTotal + 1 }
  | .tokenGenerationsInc label =>
    { m with
      tokenGenerationsTotal :=
        Function.update m.tokenGenerationsTotal label (m.tokenGenerationsTotal label + 1) }

end Metrics

/-! ## Commands -/

inductive Cmd : Type
  | redis (c : Redis.Cmd)
  | createIngress (req : CreateIngressRequest)
  | deleteIngress (ingressId : String)
  | deleteRoom (room : String)
  | timeNow
  | utcNow
  | newUuid
  | randInt (max : Nat)
  | after (backoff : Int)
  | metric (op : MetricOp)
  deriving DecidableEq

@[reducible] def Cmd.Reply : Cmd → Type
  | .redis c => Except Err c.Reply
  | .createIngress _ => Except Err IngressInfo
  | .deleteIngress _ | .deleteRoom _ | .after _ => Except Err Unit
  | .timeNow => Nat
  | .utcNow => UtcTime
  | .newUuid => String
  | .randInt _ => Except Err Nat
  | .metric _ => Unit

/-- The signature of the backend's commands. -/
@[reducible] def backend : Sig := ⟨Cmd, Cmd.Reply⟩

/-- A backend function with a result of type `α`. -/
abbrev Go (α : Type) : Type := Prog backend α

/-- Issue one command. -/
@[reducible] def issue (c : Cmd) : Go c.Reply := Prog.issue (S := backend) c

/-- The reply reports success. -/
def Cmd.Succeeds : (c : Cmd) → c.Reply → Prop
  | .redis _, r => r.isOk = true
  | .createIngress _, r => r.isOk = true
  | .deleteIngress _, r | .deleteRoom _, r | .after _, r => r.isOk = true
  | .randInt _, r => r.isOk = true
  | .timeNow, _ | .utcNow, _ | .newUuid, _ | .metric _, _ => True

/-- The reply reports the error `err`. -/
def Cmd.Reports : (c : Cmd) → c.Reply → Err → Prop
  | .redis _, r, err => r = .error err
  | .createIngress _, r, err => r = .error err
  | .deleteIngress _, r, err | .deleteRoom _, r, err | .after _, r, err => r = .error err
  | .randInt _, r, err => r = .error err
  | .timeNow, _, _ | .utcNow, _, _ | .newUuid, _, _ | .metric _, _, _ => False

/-! ## The world -/

/-- The clock, the Redis database, LiveKit, the process's metrics, the UUIDs handed out and the
random numbers still to be drawn. -/
structure World : Type where
  now : Nat
  redis : Redis.Db
  livekit : LiveKit
  metrics : Metrics
  uuids : Finset String
  rand : Nat → Nat

namespace World

/-- Nothing stored, nothing created, nothing counted. -/
def empty (now : Nat) (rand : Nat → Nat) : World :=
  ⟨now, .empty, .empty, .zero, ∅, rand⟩

/-- Let the time `t` come: keys whose deadline has come disappear. -/
def at_ (w : World) (t : Nat) : World := { w with now := t, redis := w.redis.expire t }

@[simp] theorem at_redis (w : World) (t : Nat) : (w.at_ t).redis = w.redis.expire t := rfl

@[simp] theorem at_now (w : World) (t : Nat) : (w.at_ t).now = t := rfl

end World

/-- The reply of a Redis command: an error when the key holds a value of another type. -/
def redisReply {α : Type} : Option α → Except Err α
  | some a => .ok a
  | none => .error (.other "WRONGTYPE Operation against a key holding the wrong kind of value")

/-- `Performs w c r w'`: the command `c` carried out in `w` can reply `r` and lead to `w'`.  UUIDs
and ingress ids are fresh; the wall clock is not tied to the clock of the deadlines. -/
def Performs (w : World) : (c : Cmd) → c.Reply → World → Prop
  | .redis c, r, w' => ∃ order,
    r = redisReply (Redis.exec order w.now w.redis c).1 ∧
      w' = { w with redis := (Redis.exec order w.now w.redis c).2 }
  | .createIngress req, r, w' => ∃ info, w.livekit.rooms info.ingressId = none ∧ r = .ok info ∧
    w' = { w with livekit := w.livekit.create info.ingressId req.roomName }
  | .deleteIngress ingressId, r, w' =>
    r = .ok () ∧ w' = { w with livekit := w.livekit.deleteIngress ingressId }
  | .deleteRoom room, r, w' => r = .ok () ∧ w' = { w with livekit := w.livekit.deleteRoom room }
  | .timeNow, r, w' => r = w.now ∧ w' = w
  | .utcNow, _, w' => w' = w
  | .newUuid, r, w' => isUuid r = true ∧ r ∉ w.uuids ∧ w' = { w with uuids := insert r w.uuids }
  | .randInt max, r, w' =>
    r = .ok (w.rand 0 % max) ∧ w' = { w with rand := fun i => w.rand (i + 1) }
  | .after _, r, w' => r = .ok () ∧ w' = w
  | .metric op, _, w' => w' = { w with metrics := w.metrics.apply op }

/-- `Exec faults w c r w'`: as `Performs`, or the reply is an error that `faults` admits for `c` and
the command was carried out or not. -/
def Exec (faults : Cmd → Err → Prop) (w : World) (c : Cmd) (r : c.Reply) (w' : World) : Prop :=
  Performs w c r w' ∨ ∃ err, faults c err ∧ c.Reports r err ∧ (w' = w ∨ ∃ r', Performs w c r' w')

/-! ## What a command keeps -/

section Frames

variable {faults : Cmd → Err → Prop} {w w' : World} {c : Cmd} {r : c.Reply}

/-- What holds whether or not the command is carried out holds after it, whatever was reported. -/
theorem Exec.elim {P : World → Prop} (exec : Exec faults w c r w') (stays : P w)
    (moves : ∀ r', Performs w c r' w' → P w') : P w' := by
  rcases exec with performs | ⟨err, _, _, rfl | ⟨r', performs⟩⟩
  · exact moves r performs
  · exact stays
  · exact moves r' performs

/-- UUIDs are never forgotten. -/
theorem Exec.uuids {id : String} (exec : Exec faults w c r w') (used : id ∈ w.uuids) :
    id ∈ w'.uuids := by
  refine exec.elim (P := fun w' => id ∈ w'.uuids) used fun r' performs => ?_
  cases c with
  | redis c =>
    obtain ⟨_, _, rfl⟩ := performs
    exact used
  | createIngress req =>
    obtain ⟨_, _, _, rfl⟩ := performs
    exact used
  | newUuid =>
    obtain ⟨_, _, rfl⟩ := performs
    exact Finset.mem_insert_of_mem used
  | deleteIngress | deleteRoom | timeNow | randInt | after =>
    obtain ⟨_, rfl⟩ := performs
    exact used
  | utcNow | metric =>
    cases performs
    exact used

/-- A UUID is a fresh one. -/
theorem Exec.newUuid {id : String} (exec : Exec faults w .newUuid id w') :
    isUuid id = true ∧ id ∉ w.uuids ∧ id ∈ w'.uuids := by
  rcases exec with ⟨uuid, fresh, rfl⟩ | ⟨err, _, impossible, _⟩
  · exact ⟨uuid, fresh, Finset.mem_insert_self ..⟩
  · exact impossible.elim

/-- The rooms of created ingresses are never forgotten. -/
theorem Exec.rooms {ingressID room : String} (exec : Exec faults w c r w')
    (created : w.livekit.rooms ingressID = some room) :
    w'.livekit.rooms ingressID = some room := by
  refine exec.elim (P := fun w' => w'.livekit.rooms ingressID = some room) created
    fun r' performs => ?_
  cases c with
  | redis c =>
    obtain ⟨_, _, rfl⟩ := performs
    exact created
  | createIngress req =>
    obtain ⟨info, fresh, _, rfl⟩ := performs
    have ne : ingressID ≠ info.ingressId := by
      intro same
      subst same
      rw [fresh] at created
      cases created
    exact (Function.update_of_ne ne ..).trans created
  | newUuid =>
    obtain ⟨_, _, rfl⟩ := performs
    exact created
  | deleteIngress | deleteRoom | timeNow | randInt | after =>
    obtain ⟨_, rfl⟩ := performs
    exact created
  | utcNow | metric =>
    cases performs
    exact created

/-- An ingress reported as created is in its room. -/
theorem Exec.createIngress {req : CreateIngressRequest} {info : IngressInfo}
    (exec : Exec faults w (.createIngress req) (.ok info) w') :
    w'.livekit.rooms info.ingressId = some req.roomName := by
  rcases exec with ⟨info', _, same, rfl⟩ | ⟨err, _, impossible, _⟩
  · cases same
    exact Function.update_self ..
  · cases impossible

end Frames

end DirectLink
