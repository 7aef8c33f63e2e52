import DirectLink.Session.TableCalls

/-!
# The indexes of a live session

The room code, the user's set, the roles and the ingresses of a session live under keys with
deadlines of their own.  `Secured` says that they all outlast the session hash; every operation of
the store keeps it, under the conditions of `Op.Spares`, and so does time.  A session that can be
read is thus found through every index (`live_session_indexed`).
-/

namespace DirectLink

open Redis (Db Entry)
open RedisStore

/-! ## What the indexes owe a session -/

/-- The roles and the ingresses of a session. -/
structure Owed : Type where
  roles : String → Option String
  ingresses : Set String

namespace Owed

/-- Of a session no call was about. -/
def nothing : Owed := ⟨fun _ => none, ∅⟩

/-- What an operation makes of them. -/
def after (id : String) (o : Owed) : Op → Owed
  | .writeRole id' u role =>
    if id' = id then { o with roles := Function.update o.roles u (some role) } else o
  | .dropRole id' u => if id' = id then { o with roles := Function.update o.roles u none } else o
  | .addIngress id' ingressID =>
    if id' = id then { o with ingresses := insert ingressID o.ingresses } else o
  | _ => o

/-- What a call makes of them. -/
def call (id : String) (o : Owed) : Call × Result → Owed
  | (.store (.grantAccess id' u role), .unit (.ok _)) =>
    if id'.1 = id then { o with roles := Function.update o.roles u (some role) } else o
  | (.store (.revokeAccess id' u), _) =>
    if id'.1 = id then { o with roles := Function.update o.roles u none } else o
  | (.store (.addIngressID id' ingressID), _) =>
    if id'.1 = id then { o with ingresses := insert ingressID o.ingresses } else o
  | _ => o

end Owed

/-- The roles granted and not revoked and the ingresses added in some calls. -/
def owed (calls : List (Call × Result)) (id : String) : Owed :=
  calls.foldl (Owed.call id) .nothing

/-- The entry, if there is one, is not to expire before `d`. -/
def Lasts (d : Nat) (e : Option Entry) : Prop := ∀ d', expiryOf e = some d' → d ≤ d'

/-- What the entry of an index key keeps of a session until the instant `d`. -/
def Key.Keeps (s : Session) (d : Nat) (o : Owed) : Key → Option Entry → Prop
  | .roomCode code, e => code = s.roomCode → strOf e = some s.id ∧ Lasts d e
  | .userSessions u, e => u = s.createdBy → s.id ∈ setOf e ∧ Lasts d e
  | .active, e => (s.status ≠ statusClosed → s.id ∈ zsetOf e) ∧ expiryOf e = none
  | .access id, e =>
    id = s.id → (∀ u role, o.roles u = some role → (hashOf e).lookup u = some role) ∧ Lasts d e
  | .ingress id, e => id = s.id → (∀ ingressID ∈ o.ingresses, ingressID ∈ setOf e) ∧ Lasts d e
  | .session _, _ | .lock, _ => True

/-- The index keys keep a session until the instant `d`. -/
def Secured (s : Session) (d : Nat) (o : Owed) (db : Db) : Prop :=
  ∀ k : Key, k.Wf → k.Keeps s d o (db k.text)

/-- The operation, made at the instant `now`, does not take a session out of an index, nor lets an
index key expire before `d`. -/
def Op.Spares (s : Session) (d now : Nat) : Op → Prop
  | .setCode code _ _ | .delCode code => code ≠ s.roomCode
  | .expireAccess id ttl | .expireIngress id ttl => id = s.id → d ≤ now + ttl
  | .expireUser u ttl => u = s.createdBy → d ≤ now + ttl
  | .delAccess id => id ≠ s.id
  | .dropUserSession _ id => id ≠ s.id
  | .dropActive id => id = s.id → s.status = statusClosed
  | _ => True

section Keys

variable {s : Session} {d now : Nat} {o : Owed} {k : Key} {e : Option Entry} {op : Op}

theorem Lasts.redate {t : Nat} (later : d ≤ t) : Lasts d (redate e t) := by
  intro d' expires
  rw [expiryOf_redate] at expires
  obtain ⟨_, _, rfl⟩ := Option.map_eq_some_iff.mp expires
  exact later

theorem Lasts.none : Lasts d none := nofun

/-- An operation on another key owes the key nothing new. -/
theorem Key.Keeps.other (keeps : k.Keeps s d o e) (other : op.key ≠ some k) :
    k.Keeps s d (o.after s.id op) e := by
  cases k with
  | access id =>
    intro own
    obtain ⟨roles, lasts⟩ := keeps own
    refine ⟨?_, lasts⟩
    cases op with
    | writeRole id' | dropRole id' =>
      have away : id' ≠ s.id := by
        intro same
        exact other (by rw [Op.key, same, own])
      rw [Owed.after, if_neg away]
      exact roles
    | addIngress id' =>
      rw [Owed.after]
      split <;> exact roles
    | _ => exact roles
  | ingress id =>
    intro own
    obtain ⟨ingresses, lasts⟩ := keeps own
    refine ⟨?_, lasts⟩
    cases op with
    | writeRole | dropRole =>
      rw [Owed.after]
      split <;> exact ingresses
    | addIngress id' =>
      have away : id' ≠ s.id := by
        intro same
        exact other (by rw [Op.key, same, own])
      rw [Owed.after, if_neg away]
      exact ingresses
    | _ => exact ingresses
  | _ => exact keeps

/-- A removal that would leave nothing drops the key, and with it nothing that was to stay. -/
theorem hashOf_drop {h : Redis.Hash} :
    hashOf (if h = ∅ then none else keep e (.hash h)) = h := by
  split
  · next empty => rw [hashOf_none, empty]
  · rfl

theorem setOf_drop {m : Finset String} :
    setOf (if m = ∅ then none else keep e (.set m)) = m := by
  split
  · next empty => rw [setOf_none, empty]
  · rfl

theorem zsetOf_drop {z : Redis.ZSet} :
    zsetOf (if z = ∅ then none else keep e (.zset z)) = z := by
  split
  · next empty => rw [zsetOf_none, empty]
  · rfl

theorem Lasts.drop {p : Prop} [Decidable p] {v : Redis.Value} (lasts : Lasts d e) :
    Lasts d (if p then Option.none else DirectLink.keep e v) := by
  split
  · exact .none
  · exact lasts

theorem expiryOf_drop {p : Prop} [Decidable p] {v : Redis.Value} (lasting : expiryOf e = none) :
    expiryOf (if p then none else keep e v) = none := by
  split
  · rfl
  · exact lasting

/-- An operation on an index key that spares the session. -/
theorem Key.Keeps.effect (keeps : k.Keeps s d o e) (spares : op.Spares s d now)
    (own : op.key = some k) : k.Keeps s d (o.after s.id op) (op.effect now e) := by
  cases op <;> cases own
  case getCode | existsSession | readSession | readRole | hasRole | readIngress | readUser
    | readActive => exact keeps
  case writeSession | writeStatus | expireSession | delSession | takeLock | dropLock => trivial
  case setCode | delCode =>
    intro same
    exact absurd same spares
  case addUserSession u id =>
    intro own
    obtain ⟨inSet, lasts⟩ := keeps own
    exact ⟨Finset.mem_insert_of_mem inSet, lasts⟩
  case expireUser u ttl =>
    intro own
    obtain ⟨inSet, _⟩ := keeps own
    rw [Op.effect, setOf_redate]
    exact ⟨inSet, .redate (spares own)⟩
  case dropUserSession u id =>
    intro own
    obtain ⟨inSet, lasts⟩ := keeps own
    have other : id ≠ s.id := spares
    rw [Op.effect, setOf_drop]
    exact ⟨Finset.mem_erase.mpr ⟨other.symm, inSet⟩, lasts.drop⟩
  case addActive score id =>
    obtain ⟨active, lasting⟩ := keeps
    refine ⟨?_, lasting⟩
    intro open_
    rw [Op.effect, zsetOf_keep]
    exact Finmap.mem_insert.mpr (.inr (active open_))
  case dropActive id =>
    obtain ⟨active, lasting⟩ := keeps
    refine ⟨?_, expiryOf_drop lasting⟩
    intro open_
    have other : s.id ≠ id := fun same => open_ (spares same.symm)
    rw [Op.effect, zsetOf_drop]
    exact Finmap.mem_erase.mpr ⟨other, active open_⟩
  case writeRole id u role =>
    intro own
    obtain ⟨roles, lasts⟩ := keeps own
    refine ⟨?_, lasts⟩
    intro u' role' given
    rw [Owed.after, if_pos own] at given
    dsimp only at given
    rw [Function.update_apply] at given
    rw [Op.effect, hashOf_keep, Redis.lookup_insert]
    split at given
    · next same => rw [if_pos same, given]
    · next other => rw [if_neg other, roles u' role' given]
  case dropRole id u =>
    intro own
    obtain ⟨roles, lasts⟩ := keeps own
    rw [Op.effect, hashOf_drop]
    refine ⟨?_, lasts.drop⟩
    intro u' role' given
    rw [Owed.after, if_pos own] at given
    dsimp only at given
    rw [Function.update_apply] at given
    rw [Redis.lookup_erase]
    split at given
    · cases given
    · next other => rw [if_neg other, roles u' role' given]
  case expireAccess id ttl =>
    intro own
    obtain ⟨roles, _⟩ := keeps own
    rw [Op.effect, hashOf_redate]
    exact ⟨roles, .redate (spares own)⟩
  case delAccess id =>
    intro own
    exact absurd own spares
  case addIngress id ingressID =>
    intro own
    obtain ⟨ingresses, lasts⟩ := keeps own
    refine ⟨?_, lasts⟩
    intro ingressID' added
    rw [Owed.after, if_pos own] at added
    rw [Op.effect, setOf_keep]
    obtain rfl | earlier := added
    · exact Finset.mem_insert_self ..
    · exact Finset.mem_insert_of_mem (ingresses ingressID' earlier)
  case expireIngress id ttl =>
    intro own
    obtain ⟨ingresses, _⟩ := keeps own
    rw [Op.effect, setOf_redate]
    exact ⟨ingresses, .redate (spares own)⟩

/-- Time before `d` takes nothing away. -/
theorem Key.Keeps.expire {db : Db} (keeps : k.Keeps s d o (db k.text)) (early : now < d) :
    k.Keeps s d o (db.expire now k.text) := by
  have stays (lasts : Lasts d (db k.text)) : db.expire now k.text = db k.text := by
    refine Db.expire_of_lasting ?_
    intro d' expires
    have later := lasts d' expires
    omega
  cases k with
  | session | lock => trivial
  | active =>
    rw [stays]
    · exact keeps
    · intro d' expires
      rw [keeps.2] at expires
      cases expires
  | _ =>
    intro own
    rw [stays (keeps own).2]
    exact keeps own

end Keys

/-! ## Operations and time -/

section Operations

variable {s : Session} {d now : Nat} {o : Owed} {db : Db} {op : Op} {w : World} {ops : List Op}

theorem Secured.apply (secured : Secured s d o db) (wf : op.Wf) (spares : op.Spares s d now) :
    Secured s d (o.after s.id op) (op.apply now db) := by
  intro k wfKey
  rw [Op.apply_at wf wfKey]
  split
  · next own => exact (secured k wfKey).effect spares own
  · next other => exact (secured k wfKey).other other

/-- **Operations** that spare a session keep it in its indexes. -/
theorem Secured.afterAll (secured : Secured s d o w.redis) (wf : ∀ op ∈ ops, op.Wf)
    (spares : ∀ op ∈ ops, op.Spares s d w.now) :
    Secured s d (ops.foldl (Owed.after s.id) o) (w.afterAll ops).redis := by
  induction ops generalizing w o with
  | nil => exact secured
  | cons op ops ih =>
    have first : Secured s d (o.after s.id op) (w.after op).redis :=
      secured.apply (wf op List.mem_cons_self) (spares op List.mem_cons_self)
    refine ih first ?_ ?_
    · intro op' mem
      exact wf op' (List.mem_cons_of_mem _ mem)
    · intro op' mem
      exact spares op' (List.mem_cons_of_mem _ mem)

theorem Secured.expire (secured : Secured s d o db) (early : now < d) :
    Secured s d o (db.expire now) := by
  intro k wfKey
  exact (secured k wfKey).expire early

end Operations

/-! ### Sessions no call created -/

/-- The session whose keys the operation can bring into being. -/
def Op.bears : Op → Option String
  | .writeSession s => some s.id
  | .writeStatus id _ | .writeRole id _ _ | .addIngress id _ => some id
  | _ => none

/-- There is no trace of the session. -/
structure Unborn (db : Db) (o : Owed) (id : String) : Prop where
  session : db (sessionKey id) = none
  access : db (accessKey id) = none
  ingress : db (ingressKey id) = none
  owed : o = .nothing

section Unborn

variable {now : Nat} {o : Owed} {db : Db} {op : Op} {w : World} {ops : List Op} {id : String}

theorem Op.effect_none {k : Key} (own : op.key = some k) (others : op.bears ≠ some id)
    (about : k = .session id ∨ k = .access id ∨ k = .ingress id) : op.effect now none = none := by
  obtain rfl | rfl | rfl := about <;> cases op <;> cases own <;>
    first | rfl | exact absurd rfl others

theorem Owed.after_nothing (others : op.bears ≠ some id) : Owed.nothing.after id op = .nothing := by
  cases op with
  | writeRole id' | addIngress id' => exact if_neg fun same => others (congrArg some same)
  | dropRole id' u =>
    have same : Function.update (fun _ => none) u none = fun _ : String => (none : Option String) :=
      Function.update_eq_self u _
    rw [Owed.after, Owed.nothing, same]
    split <;> rfl
  | _ => rfl

theorem Unborn.apply (unborn : Unborn db o id) (uuid : isUuid id = true) (wf : op.Wf)
    (others : op.bears ≠ some id) : Unborn (op.apply now db) (o.after id op) id where
  session := by
    rw [Op.apply_session wf uuid, unborn.session]
    split
    · next own => exact Op.effect_none own others (.inl rfl)
    · rfl
  access := by
    rw [Op.apply_access wf uuid, unborn.access]
    split
    · next own => exact Op.effect_none own others (.inr (.inl rfl))
    · rfl
  ingress := by
    rw [Op.apply_ingress wf uuid, unborn.ingress]
    split
    · next own => exact Op.effect_none own others (.inr (.inr rfl))
    · rfl
  owed := by
    rw [unborn.owed]
    exact Owed.after_nothing others

theorem Unborn.afterAll (unborn : Unborn w.redis o id) (uuid : isUuid id = true)
    (wf : ∀ op ∈ ops, op.Wf) (others : ∀ op ∈ ops, op.bears ≠ some id) :
    Unborn (w.afterAll ops).redis (ops.foldl (Owed.after id) o) id := by
  induction ops generalizing w o with
  | nil => exact unborn
  | cons op ops ih =>
    have first : Unborn (w.after op).redis (o.after id op) id :=
      unborn.apply uuid (wf op List.mem_cons_self) (others op List.mem_cons_self)
    refine ih first ?_ ?_
    · intro op' mem
      exact wf op' (List.mem_cons_of_mem _ mem)
    · intro op' mem
      exact others op' (List.mem_cons_of_mem _ mem)

theorem Unborn.expire (unborn : Unborn db o id) : Unborn (db.expire now) o id where
  session := by rw [Db.expire_apply, unborn.session, Option.filter_none]
  access := by rw [Db.expire_apply, unborn.access, Option.filter_none]
  ingress := by rw [Db.expire_apply, unborn.ingress, Option.filter_none]
  owed := unborn.owed

end Unborn

/-- The active set has no deadline. -/
theorem expiry_active_after {w : World} {op : Op} (wf : op.Wf)
    (lasting : expiryOf (w.redis activeSessionsKey) = none) :
    expiryOf ((w.after op).redis activeSessionsKey) = none := by
  rw [World.after_redis, Op.apply_active wf]
  split
  · next own =>
    cases op <;> cases own
    case addActive => exact lasting
    case dropActive => exact expiryOf_drop lasting
    case readActive => exact lasting
  · exact lasting

theorem expiry_active_afterAll {w : World} {ops : List Op} (wf : ∀ op ∈ ops, op.Wf)
    (lasting : expiryOf (w.redis activeSessionsKey) = none) :
    expiryOf ((w.afterAll ops).redis activeSessionsKey) = none := by
  induction ops generalizing w with
  | nil => exact lasting
  | cons op ops ih =>
    have wfOp := wf op List.mem_cons_self
    refine ih (fun op' mem => wf op' (List.mem_cons_of_mem _ mem)) ?_
    exact expiry_active_after wfOp lasting

/-! ## What a call does -/

/-- The operations of a call that runs alone and returns `a`. -/
def StoreCall.Does (r : RedisStore) (w : World) : StoreCall → Result → List Op → Prop
  | .createSession new, _, ops => ops = r.createOps new.1 w.now
  | .updateSessionStatus id status, _, ops =>
    ops = [] ∨ (w.redis (sessionKey id)).isSome = true ∧ ops = statusOps id status
  | .deleteSession id, _, ops => ops = [] ∨ ∃ s, Live w.redis id s ∧ ops = deleteOps id s
  | .getExpiredSessions _, _, ops => ∃ closed : List String,
    (∀ id ∈ closed, isUuid id = true ∧ statusOf w.redis id = some statusClosed) ∧
      ops = closed.map .dropActive
  | .grantAccess id u role, a, ops =>
    a = .unit (.error (.sentinel .sessionNotFound)) ∧ ops = [] ∨
      (w.redis (sessionKey id)).isSome = true ∧ a = .unit (.ok ()) ∧ ops = r.grantOps id u role
  | .revokeAccess id u, _, ops => ops = [.dropRole id u]
  | .getUserSessions u, _, ops => ∃ pruned : List String,
    (∀ id ∈ pruned, isUuid id = true ∧ ∀ s, ¬ Live w.redis id s) ∧
      ops = pruned.map (.dropUserSession u)
  | .addIngressID id ingressID, _, ops => ops = r.ingressOps id ingressID
  | .getSession _, _, ops | .getSessionByRoomCode _, _, ops | .getRole _ _, _, ops
  | .hasAccess _ _, _, ops | .getIngressIDs _, _, ops | .ping, _, ops => ops = []

/-- The operations that a call alone can carry out, with what it has found before. -/
inductive StoreCall.Issues (r : RedisStore) (w : World) : StoreCall → Op → Prop
  | writeSession {new} : Issues r w (.createSession new) (.writeSession new.1)
  | expireSession {new} : Issues r w (.createSession new) (.expireSession new.1.id r.ttl)
  | setCode {new} (coded : new.1.roomCode ≠ "") :
      Issues r w (.createSession new) (.setCode new.1.roomCode new.1.id r.ttl)
  | addUserSession {new} :
      Issues r w (.createSession new) (.addUserSession new.1.createdBy new.1.id)
  | expireUser {new} : Issues r w (.createSession new) (.expireUser new.1.createdBy r.ttl)
  | addActive {new} : Issues r w (.createSession new) (.addActive (unix (w.now + r.ttl)) new.1.id)
  | writeStatus {id : SessionID} {status} (there : (w.redis (sessionKey id)).isSome = true) :
      Issues r w (.updateSessionStatus id status) (.writeStatus id status)
  | dropClosing {id status} (closing : status = statusClosed) :
      Issues r w (.updateSessionStatus id status) (.dropActive id)
  | delSession {id} : Issues r w (.deleteSession id) (.delSession id)
  | delAccess {id} : Issues r w (.deleteSession id) (.delAccess id)
  | dropUserSession {id : SessionID} {s} (live : Live w.redis id s) :
      Issues r w (.deleteSession id) (.dropUserSession s.createdBy id)
  | dropDeleted {id} : Issues r w (.deleteSession id) (.dropActive id)
  | delCode {id : SessionID} {s} (live : Live w.redis id s) :
      Issues r w (.deleteSession id) (.delCode s.roomCode)
  | dropClosed {now} {id : String} (uuid : isUuid id = true)
      (closed : statusOf w.redis id = some statusClosed) :
      Issues r w (.getExpiredSessions now) (.dropActive id)
  | writeRole {id : SessionID} {u role} (there : (w.redis (sessionKey id)).isSome = true) :
      Issues r w (.grantAccess id u role) (.writeRole id u role)
  | expireAccess {id u role} : Issues r w (.grantAccess id u role) (.expireAccess id r.ttl)
  | dropRole {id u} : Issues r w (.revokeAccess id u) (.dropRole id u)
  | pruneUserSession {u} {id : String} (uuid : isUuid id = true)
      (missing : ∀ s, ¬ Live w.redis id s) :
      Issues r w (.getUserSessions u) (.dropUserSession u id)
  | addIngress {id ingressID} :
      Issues r w (.addIngressID id ingressID) (.addIngress id ingressID)
  | expireIngress {id ingressID} : Issues r w (.addIngressID id ingressID) (.expireIngress id r.ttl)

section Calls

variable {r : RedisStore} {w : World} {sc : StoreCall} {a : Result} {op : Op} {ops : List Op}
variable {id : String} {o : Owed}

/-- **A call alone** carries out these operations. -/
theorem wp_does (typed : Typed w.redis) : (sc.code r).wp (worldLogic Cmd.OfStore)
    (fun a w' => ∃ ops, sc.Does r w a ops ∧ w' = w.afterAll ops) w := by
  -- the result is wrapped after the call itself
  have result {α : Type} {p : Go α} {f : α → Result} {Q : α → World → Prop}
      (holds : p.wp (worldLogic Cmd.OfStore) Q w)
      (finish : ∀ a w', Q a w' → ∃ ops, sc.Does r w (f a) ops ∧ w' = w.afterAll ops) :
      (p >>= fun a => pure (f a)).wp (worldLogic Cmd.OfStore)
        (fun a w' => ∃ ops, sc.Does r w a ops ∧ w' = w.afterAll ops) w :=
    Prog.wp_bind.mpr (Prog.wp_mono holds finish)
  cases sc with
  | createSession new =>
    refine result (alone_createSession typed new.2) ?_
    intro a w' holds
    exact ⟨_, rfl, holds.2⟩
  | getSession id =>
    refine result (alone_getSession typed id.2) ?_
    intro a w' holds
    exact ⟨[], rfl, holds.2⟩
  | getSessionByRoomCode code =>
    refine result (alone_getSessionByRoomCode typed) ?_
    intro a w' holds
    exact ⟨[], rfl, holds.2⟩
  | updateSessionStatus id status =>
    refine result (alone_updateSessionStatus typed id.2) ?_
    intro a w' holds
    split at holds
    · next there => exact ⟨_, .inr ⟨there, rfl⟩, holds.2⟩
    · exact ⟨[], .inl rfl, holds.2⟩
  | deleteSession id =>
    refine result (alone_deleteSession typed id.2) ?_
    intro a w' holds
    split at holds
    · exact ⟨[], .inl rfl, holds.2⟩
    · next s parsed => exact ⟨_, .inr ⟨s, parsed, rfl⟩, holds.2⟩
  | getExpiredSessions now =>
    refine result (alone_getExpiredSessions typed) ?_
    intro a w' holds
    obtain ⟨order, collects⟩ := holds
    obtain ⟨closed, due, same⟩ := collects.closed
    refine ⟨_, ⟨closed, ?_, rfl⟩, same⟩
    intro id mem
    obtain ⟨inList, status⟩ := due id mem
    exact ⟨typed.uuid_of_listed inList, status⟩
  | getRole id u =>
    refine result (alone_getRole typed id.2) ?_
    intro a w' holds
    exact ⟨[], rfl, holds.2⟩
  | grantAccess id u role =>
    refine result (alone_grantAccess typed id.2) ?_
    intro a w' holds
    split at holds
    · next there => exact ⟨_, .inr ⟨there, congrArg Result.unit holds.1, rfl⟩, holds.2⟩
    · exact ⟨[], .inl ⟨congrArg Result.unit holds.1, rfl⟩, holds.2⟩
  | revokeAccess id u =>
    refine result (alone_revokeAccess typed id.2) ?_
    intro a w' holds
    exact ⟨_, rfl, holds.2⟩
  | hasAccess id u =>
    refine result (alone_hasAccess typed id.2) ?_
    intro a w' holds
    exact ⟨[], rfl, holds.2⟩
  | getUserSessions u =>
    refine result (alone_getUserSessions typed) ?_
    intro a w' holds
    obtain ⟨order, pruned, missing, same⟩ := holds
    refine ⟨_, ⟨pruned, ?_, rfl⟩, same⟩
    intro id mem
    obtain ⟨inList, gone⟩ := missing id mem
    have inSet := Redis.Order.mem_list.mp inList
    exact ⟨(typed (.userSessions u) trivial).uuid_of_mem_set id inSet, gone⟩
  | addIngressID id ingressID =>
    refine result (alone_addIngressID typed id.2) ?_
    intro a w' holds
    exact ⟨_, rfl, holds.2⟩
  | getIngressIDs id =>
    refine result (alone_getIngressIDs typed id.2) ?_
    intro a w' holds
    obtain ⟨_, _, same⟩ := holds
    exact ⟨[], rfl, same⟩
  | ping =>
    refine result (alone_ping typed) ?_
    intro a w' holds
    exact ⟨[], rfl, holds.2⟩

theorem foldl_owed_same (same : ∀ op ∈ ops, ∀ o : Owed, o.after id op = o) :
    ops.foldl (Owed.after id) o = o := by
  induction ops generalizing o with
  | nil => rfl
  | cons op ops ih =>
    rw [List.foldl_cons, same op List.mem_cons_self]
    exact ih fun op' mem => same op' (List.mem_cons_of_mem _ mem)

theorem mem_deleteOps {s : Session} (mem : op ∈ deleteOps id s) :
    op = .delSession id ∨ op = .delAccess id ∨ op = .dropUserSession s.createdBy id ∨
      op = .dropActive id ∨ op = .delCode s.roomCode := by
  unfold deleteOps at mem
  split at mem <;> simp only [List.cons_append, List.nil_append, List.append_nil, List.mem_cons,
    List.not_mem_nil, or_false] at mem <;> tauto

/-- **What a call carries out**, operation by operation. -/
theorem StoreCall.Does.issues (does : sc.Does r w a ops) (mem : op ∈ ops) : sc.Issues r w op := by
  cases sc with
  | createSession new =>
    obtain rfl := does
    obtain rfl | rfl | ⟨rfl, coded⟩ | rfl | rfl | rfl := mem_createOps mem
    · exact .writeSession
    · exact .expireSession
    · exact .setCode coded
    · exact .addUserSession
    · exact .expireUser
    · exact .addActive
  | updateSessionStatus id status =>
    obtain rfl | ⟨there, rfl⟩ := does
    · cases mem
    · obtain rfl | mem := List.mem_cons.mp mem
      · exact .writeStatus there
      · split at mem
        · next closing =>
          obtain rfl := List.mem_singleton.mp mem
          exact .dropClosing closing
        · cases mem
  | deleteSession id =>
    obtain rfl | ⟨s, live, rfl⟩ := does
    · cases mem
    · obtain rfl | rfl | rfl | rfl | rfl := mem_deleteOps mem
      · exact .delSession
      · exact .delAccess
      · exact .dropUserSession live
      · exact .dropDeleted
      · exact .delCode live
  | getExpiredSessions =>
    obtain ⟨closed, due, rfl⟩ := does
    obtain ⟨id, inClosed, rfl⟩ := List.mem_map.mp mem
    exact .dropClosed (due id inClosed).1 (due id inClosed).2
  | grantAccess id =>
    obtain ⟨_, rfl⟩ | ⟨there, _, rfl⟩ := does
    · cases mem
    · simp only [grantOps, List.mem_cons, List.not_mem_nil, or_false] at mem
      obtain rfl | rfl := mem
      · exact .writeRole there
      · exact .expireAccess
  | revokeAccess id =>
    obtain rfl := does
    obtain rfl := List.mem_singleton.mp mem
    exact .dropRole
  | getUserSessions =>
    obtain ⟨pruned, missing, rfl⟩ := does
    obtain ⟨id, inPruned, rfl⟩ := List.mem_map.mp mem
    exact .pruneUserSession (missing id inPruned).1 (missing id inPruned).2
  | addIngressID id =>
    obtain rfl := does
    simp only [ingressOps, List.mem_cons, List.not_mem_nil, or_false] at mem
    obtain rfl | rfl := mem
    · exact .addIngress
    · exact .expireIngress
  | _ =>
    obtain rfl := does
    cases mem

theorem StoreCall.Does.wf (does : sc.Does r w a ops) : ∀ op ∈ ops, op.Wf := by
  intro op mem
  cases does.issues mem with
  | @writeSession new | @setCode new | @addUserSession new | @addActive new => exact new.2
  | @expireSession new => exact ⟨new.2, r.ttl_pos⟩
  | expireUser => exact r.ttl_pos
  | @expireAccess id | @expireIngress id => exact ⟨id.2, r.ttl_pos⟩
  | @writeStatus id | @dropClosing id | @delSession id | @delAccess id | @dropUserSession id
  | @dropDeleted id | @writeRole id | @dropRole id | @addIngress id => exact id.2
  | delCode => trivial
  | dropClosed uuid | pruneUserSession uuid => exact uuid

/-- A call changes what is owed as its operations do. -/
theorem StoreCall.Does.owed (does : sc.Does r w a ops) :
    o.call id (.store sc, a) = ops.foldl (Owed.after id) o := by
  cases sc with
  | createSession new =>
    obtain rfl := does
    refine (foldl_owed_same ?_).symm
    intro op mem o
    obtain rfl | rfl | ⟨rfl, _⟩ | rfl | rfl | rfl := mem_createOps mem <;> rfl
  | updateSessionStatus id' status =>
    obtain rfl | ⟨_, rfl⟩ := does
    · rfl
    · unfold statusOps
      split <;> rfl
  | deleteSession id' =>
    obtain rfl | ⟨s, _, rfl⟩ := does
    · rfl
    · unfold deleteOps
      split <;> rfl
  | getExpiredSessions =>
    obtain ⟨closed, _, rfl⟩ := does
    refine (foldl_owed_same ?_).symm
    intro op mem o
    obtain ⟨_, _, rfl⟩ := List.mem_map.mp mem
    rfl
  | grantAccess =>
    obtain ⟨rfl, rfl⟩ | ⟨_, rfl, rfl⟩ := does <;> rfl
  | getUserSessions =>
    obtain ⟨pruned, _, rfl⟩ := does
    refine (foldl_owed_same ?_).symm
    intro op mem o
    obtain ⟨_, _, rfl⟩ := List.mem_map.mp mem
    rfl
  | _ =>
    obtain rfl := does
    rfl

end Calls

/-! ## Sequences of calls -/

/-- What the server and the janitor keep to in their calls: no id and no room code is used twice, a
session has a room code, the only status written is `closed`, and an ingress is added to a session
created before. -/
structure ServerMade (calls : List (Call × Result)) : Prop extends NamedOnce calls where
  coded : ∀ new a, (.store (.createSession new), a) ∈ calls → new.1.roomCode ≠ ""
  closing : ∀ id status a, (.store (.updateSessionStatus id status), a) ∈ calls →
    status = statusClosed
  adding : ∀ before after id ingressID a,
    calls = before ++ (.store (.addIngressID id ingressID), a) :: after →
      id.1 ∈ before.filterMap fun p => p.1.newId

/-- A stored session: it expires at `d`, and its indexes keep it until then. -/
structure StoredUntil (ttl : Nat) (calls : List (Call × Result)) (w : World) (s : Session)
    (d : Nat) : Prop where
  live : Live w.redis s.id s
  expiry : expiryOf (w.redis (sessionKey s.id)) = some d
  young : d ≤ w.now + ttl
  coded : s.roomCode ∈ calls.filterMap fun p => p.1.newCode
  secured : Secured s d (owed calls s.id) w.redis

/-- The invariant of the calls. -/
structure Kept (ttl : Nat) (calls : List (Call × Result)) (w : World) : Prop where
  typed : Typed w.redis
  active : expiryOf (w.redis activeSessionsKey) = none
  stored : ∀ id, isUuid id = true → (w.redis (sessionKey id)).isSome = true →
    ∃ s d, s.id = id ∧ StoredUntil ttl calls w s d
  unborn : ∀ id, isUuid id = true → (id ∉ calls.filterMap fun p => p.1.newId) →
    Unborn w.redis (owed calls id) id

section Sequences

variable {r : RedisStore} {b : Backend} {calls : List (Call × Result)} {w w' : World} {id : String}
variable {s : Session} {d ttl : Nat} {sc : StoreCall} {a : Result} {call : Call} {ops : List Op}

theorem ServerMade.init (made : ServerMade (calls ++ [(call, a)])) : ServerMade calls where
  toNamedOnce := made.toNamedOnce.init
  coded new a mem := made.coded new a (List.mem_append_left _ mem)
  closing id status a mem := made.closing id status a (List.mem_append_left _ mem)
  adding before after id ingressID a' split := by
    refine made.adding before (after ++ [(call, a)]) id ingressID a' ?_
    rw [split, List.append_assoc, List.cons_append]

theorem owed_append : owed (calls ++ [(call, a)]) id = (owed calls id).call id (call, a) := by
  rw [owed, List.foldl_append]
  rfl

theorem Kept.kept_empty (empty : w.redis = .empty) : Kept ttl [] w where
  typed := by
    rw [empty]
    exact typed_empty
  active := by rw [empty, Db.empty_apply, expiryOf_none]
  stored id _ there := by
    rw [empty] at there
    cases there
  unborn id _ _ := by
    rw [empty]
    exact ⟨rfl, rfl, rfl, rfl⟩

/-- A session that the call spares stays as it is. -/
theorem StoredUntil.does (stored : StoredUntil ttl calls w s d) (uuid : isUuid s.id = true)
    (does : sc.Does r w a ops) (others : ∀ op ∈ ops, op.key ≠ some (.session s.id))
    (spares : ∀ op ∈ ops, op.Spares s d w.now) :
    StoredUntil ttl (calls ++ [(.store sc, a)]) (w.afterAll ops) s d := by
  have same : (w.afterAll ops).redis (sessionKey s.id) = w.redis (sessionKey s.id) := by
    rw [World.afterAll_session does.wf uuid]
    exact Key.entryAfter_of_ne others
  have now : (w.afterAll ops).now = w.now := by rw [World.afterAll_frame]
  constructor
  · rw [Live, same]
    exact stored.live
  · rw [same]
    exact stored.expiry
  · rw [now]
    exact stored.young
  · rw [List.filterMap_append]
    exact List.mem_append_left _ stored.coded
  · rw [owed_append, does.owed]
    exact stored.secured.afterAll does.wf spares

/-- The session a creation stores. -/
theorem StoredUntil.created {new : NewSession}
    (active : expiryOf (w.redis activeSessionsKey) = none)
    (unborn : Unborn w.redis (owed calls new.1.id) new.1.id) (coded : new.1.roomCode ≠ "") :
    StoredUntil r.ttl (calls ++ [(.store (.createSession new), a)])
      (w.afterAll (r.createOps new.1 w.now)) new.1.truncate (w.now + r.ttl) := by
  have uuid := new.2
  have does : (StoreCall.createSession new).Does r w a (r.createOps new.1 w.now) := rfl
  have nothing : owed (calls ++ [(.store (.createSession new), a)]) new.1.id = .nothing := by
    rw [owed_append, unborn.owed]
    rfl
  have now : (w.afterAll (r.createOps new.1 w.now)).now = w.now := by rw [World.afterAll_frame]
  have lasts {v : Redis.Value} : Lasts (w.now + r.ttl) (some ⟨v, some (w.now + r.ttl)⟩) := by
    intro d' expires
    cases expires
    exact le_rfl
  constructor
  · exact Live.of_hash (congrArg hashOf (created_session uuid))
  · exact congrArg expiryOf (created_session uuid)
  · rw [now]
  · have newCode : (Call.store (.createSession new)).newCode = some new.1.roomCode := if_neg coded
    rw [List.filterMap_append, List.filterMap_cons_some (by exact newCode)]
    exact List.mem_append_right _ List.mem_cons_self
  · intro k wfKey
    cases k with
    | roomCode code =>
      intro own
      obtain rfl : code = new.1.roomCode := own
      rw [Key.text, created_roomCode uuid coded]
      exact ⟨rfl, lasts⟩
    | userSessions u =>
      intro own
      obtain rfl : u = new.1.createdBy := own
      rw [Key.text, created_userSessions uuid]
      exact ⟨Finset.mem_insert_self .., lasts⟩
    | active =>
      rw [Key.text, created_active uuid]
      refine ⟨?_, active⟩
      intro _
      exact Finmap.mem_insert.mpr (.inl rfl)
    | access id =>
      intro own
      obtain rfl : id = new.1.id := own
      rw [created_other uuid wfKey (by simp) (by simp) (by simp) (by simp), Key.text, unborn.access]
      refine ⟨?_, .none⟩
      intro u role given
      have given : (owed (calls ++ [(.store (.createSession new), a)]) new.1.id).roles u =
        some role := given
      rw [nothing] at given
      cases given
    | ingress id =>
      intro own
      obtain rfl : id = new.1.id := own
      rw [created_other uuid wfKey (by simp) (by simp) (by simp) (by simp), Key.text,
        unborn.ingress]
      refine ⟨?_, .none⟩
      intro ingressID added
      have added : ingressID ∈ (owed (calls ++ [(.store (.createSession new), a)])
        new.1.id).ingresses := added
      rw [nothing] at added
      cases added
    | session | lock => trivial

theorem Secured.close {o : Owed} {db : Db} (secured : Secured s d o db) :
    Secured { s with status := statusClosed } d o db := by
  intro k wfKey
  have keeps := secured k wfKey
  cases k with
  | active => exact ⟨fun open_ => absurd rfl open_, keeps.2⟩
  | _ => exact keeps

/-- The session whose status a call writes. -/
theorem StoredUntil.closed {id : SessionID} (stored : StoredUntil ttl calls w s d)
    (own : id.1 = s.id) (typed : Typed w.redis)
    (does : (StoreCall.updateSessionStatus id statusClosed).Does r w a
      (statusOps id statusClosed)) :
    StoredUntil ttl (calls ++ [(.store (.updateSessionStatus id statusClosed), a)])
      (w.afterAll (statusOps id statusClosed)) { s with status := statusClosed } d := by
  have uuid : isUuid s.id = true := by
    rw [← own]
    exact id.2
  have closing : statusOps id statusClosed =
      [.writeStatus id statusClosed, .dropActive id] := rfl
  have written : (w.afterAll (statusOps id statusClosed)).redis (sessionKey s.id) =
      keep (w.redis (sessionKey s.id))
        (.hash ((hashOf (w.redis (sessionKey s.id))).insert "status" statusClosed)) := by
    rw [World.afterAll_session does.wf uuid, closing]
    simp [Op.key, Op.effect, own]
  have now : (w.afterAll (statusOps id statusClosed)).now = w.now := by
    rw [World.afterAll_frame]
  constructor
  · obtain ⟨stored', hash, _, same⟩ := stored.live.stored typed uuid
    have live : Live (w.afterAll (statusOps id statusClosed)).redis s.id
        { stored' with status := statusClosed }.truncate := by
      refine Live.of_hash ?_
      rw [written, hashOf_keep, hash, insert_status_encode]
    rw [same] at live ⊢
    exact live
  · exact (congrArg expiryOf written).trans stored.expiry
  · rw [now]
    exact stored.young
  · rw [List.filterMap_append]
    exact List.mem_append_left _ stored.coded
  · rw [owed_append, does.owed]
    refine stored.secured.close.afterAll does.wf ?_
    intro op mem
    rw [closing] at mem
    simp only [List.mem_cons, List.not_mem_nil, or_false] at mem
    obtain rfl | rfl := mem
    · trivial
    · intro _
      rfl

theorem StoredUntil.code (stored : StoredUntil ttl calls w s d) :
    strOf (w.redis (roomCodeKey s.roomCode)) = some s.id :=
  (stored.secured (.roomCode s.roomCode) trivial rfl).1

/-- The session whose hash a call writes or deletes. -/
def StoreCall.about : StoreCall → Option String
  | .createSession new => some new.1.id
  | .updateSessionStatus id _ | .deleteSession id => some id.1
  | _ => none

/-- A call about another session does not touch the hash. -/
theorem StoreCall.Does.others (does : sc.Does r w a ops) (away : sc.about ≠ some id) :
    ∀ op ∈ ops, op.key ≠ some (.session id) := by
  intro op mem same
  cases does.issues mem <;> cases same <;> exact away rfl

/-- A call about another session spares a stored one. -/
theorem Kept.spares (kept : Kept r.ttl calls w) (does : sc.Does r w a ops)
    (made : ServerMade (calls ++ [(.store sc, a)])) (stored : StoredUntil r.ttl calls w s d)
    (uuid : isUuid s.id = true) (away : sc.about ≠ some s.id) :
    ∀ op ∈ ops, op.Spares s d w.now := by
  have last : (Call.store sc, a) ∈ calls ++ [(.store sc, a)] :=
    List.mem_append_right _ List.mem_cons_self
  intro op mem
  cases does.issues mem with
  | @setCode new coded =>
    -- the code of a stored session is not drawn again
    intro same
    have newCode : (Call.store (.createSession new)).newCode = some new.1.roomCode := if_neg coded
    have nodup := made.codes
    have earlier := stored.coded
    rw [List.filterMap_append, List.filterMap_cons_some (by exact newCode)] at nodup
    rw [← same] at earlier
    exact List.disjoint_of_nodup_append nodup earlier List.mem_cons_self
  | @delCode id' s' live =>
    -- each code maps to its own session
    intro same
    obtain ⟨s₀, d₀, own, stored₀⟩ := kept.stored id' id'.2 live.isSome
    have live₀ := stored₀.live
    rw [own] at live₀
    obtain rfl : s' = s₀ := Except.ok.inj (live.symm.trans live₀)
    have code := stored₀.code
    rw [same, stored.code, Option.some.injEq] at code
    exact away (congrArg some (own.symm.trans code.symm))
  | @dropClosed _ id' _ closed =>
    intro same
    rw [same, stored.live.status kept.typed uuid] at closed
    exact Option.some.inj closed
  | pruneUserSession _ missing =>
    intro same
    refine missing s ?_
    rw [same]
    exact stored.live
  | dropClosing | dropDeleted =>
    intro same
    exact absurd (congrArg some same) away
  | delAccess | dropUserSession => exact fun same => away (congrArg some same)
  | expireUser | expireAccess | expireIngress => exact fun _ => stored.young
  | _ => trivial

/-- A call brings no session into being that was not created. -/
theorem Kept.bears (kept : Kept r.ttl calls w) (does : sc.Does r w a ops)
    (made : ServerMade (calls ++ [(.store sc, a)])) (uuid : isUuid id = true)
    (unknown : id ∉ (calls ++ [(Call.store sc, a)]).filterMap fun p => p.1.newId) :
    ∀ op ∈ ops, op.bears ≠ some id := by
  rw [List.filterMap_append, List.mem_append, not_or] at unknown
  have absent := (kept.unborn id uuid unknown.1).session
  intro op mem same
  cases does.issues mem with
  | writeStatus there | writeRole there =>
    cases same
    rw [absent] at there
    cases there
  | @addIngress id' ingressID =>
    cases same
    exact unknown.1 (made.adding calls [] id' ingressID a rfl)
  | writeSession =>
    cases same
    exact unknown.2 List.mem_cons_self
  | _ => cases same

/-- **A call** keeps every session in its indexes. -/
theorem Kept.does (kept : Kept r.ttl calls w) (made : ServerMade (calls ++ [(.store sc, a)]))
    (does : sc.Does r w a ops) : Kept r.ttl (calls ++ [(.store sc, a)]) (w.afterAll ops) where
  typed := World.typed_afterAll kept.typed does.wf
  active := expiry_active_afterAll does.wf kept.active
  stored id uuid there := by
    have last : (Call.store sc, a) ∈ calls ++ [(.store sc, a)] :=
      List.mem_append_right _ List.mem_cons_self
    by_cases about : sc.about = some id
    · cases sc with
      | createSession new =>
        obtain rfl : new.1.id = id := Option.some.inj about
        have fresh : new.1.id ∉ calls.filterMap fun p => p.1.newId := by
          intro mem
          have nodup := made.ids
          rw [List.filterMap_append] at nodup
          exact List.disjoint_of_nodup_append nodup mem List.mem_cons_self
        have unborn := kept.unborn new.1.id new.2 fresh
        obtain rfl := does
        have created := StoredUntil.created (r := r) (a := a) kept.active unborn
          (made.coded new a last)
        exact ⟨new.1.truncate, _, rfl, created⟩
      | updateSessionStatus id' status =>
        obtain rfl : id'.1 = id := Option.some.inj about
        obtain rfl := made.closing id' status a last
        have effect := does
        obtain rfl | ⟨before, rfl⟩ := does
        · obtain ⟨s, d, own, stored⟩ := kept.stored id' uuid there
          rw [← own] at uuid
          exact ⟨s, d, own, stored.does uuid effect nofun nofun⟩
        · obtain ⟨s, d, own, stored⟩ := kept.stored id' uuid before
          exact ⟨{ s with status := statusClosed }, d, own,
            stored.closed own.symm kept.typed effect⟩
      | deleteSession id' =>
        obtain rfl : id'.1 = id := Option.some.inj about
        have effect := does
        obtain rfl | ⟨s, _, rfl⟩ := does
        · obtain ⟨s, d, own, stored⟩ := kept.stored id' uuid there
          rw [← own] at uuid
          exact ⟨s, d, own, stored.does uuid effect nofun nofun⟩
        · have gone : (w.afterAll (deleteOps id' s)).redis (sessionKey id') = none := by
            rw [World.afterAll_session effect.wf uuid]
            unfold deleteOps
            split <;> simp [Op.key, Op.effect]
          rw [gone] at there
          cases there
      | _ => cases about
    · have same : (w.afterAll ops).redis (sessionKey id) = w.redis (sessionKey id) := by
        rw [World.afterAll_session does.wf uuid]
        exact Key.entryAfter_of_ne (does.others about)
      rw [same] at there
      obtain ⟨s, d, rfl, stored⟩ := kept.stored id uuid there
      refine ⟨s, d, rfl, stored.does uuid does (does.others about) ?_⟩
      exact kept.spares does made stored uuid about
  unborn id uuid unknown := by
    have others := kept.bears does made uuid unknown
    rw [List.filterMap_append, List.mem_append, not_or] at unknown
    rw [owed_append, does.owed]
    exact (kept.unborn id uuid unknown.1).afterAll uuid does.wf others

/-- Time keeps every session that is left in its indexes. -/
theorem Kept.tick {now : Nat} (kept : Kept ttl calls w) (later : w.now ≤ now) :
    Kept ttl calls (w.at_ now) where
  typed := kept.typed.expire now
  active := by
    rw [World.at_redis]
    obtain same | gone := Db.expire_cases w.redis activeSessionsKey now
    · rw [same]
      exact kept.active
    · rw [gone, expiryOf_none]
  stored id uuid there := by
    rw [World.at_redis] at there
    obtain same | gone := Db.expire_cases w.redis (sessionKey id) now
    · have before := there
      rw [same] at before
      obtain ⟨s, d, rfl, stored⟩ := kept.stored id uuid before
      have early : now < d := Db.lt_of_expire there stored.expiry
      refine ⟨s, d, rfl, ?_⟩
      constructor
      · rw [Live, World.at_redis, same]
        exact stored.live
      · rw [World.at_redis, same]
        exact stored.expiry
      · have young := stored.young
        have now_ : (w.at_ now).now = now := rfl
        omega
      · exact stored.coded
      · exact stored.secured.expire early
    · rw [gone] at there
      cases there
  unborn id uuid unknown := (kept.unborn id uuid unknown).expire

/-- A session is found through each of its indexes. -/
structure Indexed (calls : List (Call × Result)) (db : Db) (s : Session) : Prop where
  roomCode : strOf (db (roomCodeKey s.roomCode)) = some s.id
  user : s.id ∈ setOf (db (userSessionsKey s.createdBy))
  active : s.status ≠ statusClosed → s.id ∈ zsetOf (db activeSessionsKey)
  access : ∀ u role, (owed calls s.id).roles u = some role →
    (hashOf (db (accessKey s.id))).lookup u = some role
  ingress : ∀ ingressID ∈ (owed calls s.id).ingresses, ingressID ∈ setOf (db (ingressKey s.id))

theorem StoredUntil.indexed (stored : StoredUntil ttl calls w s d) (uuid : isUuid s.id = true) :
    Indexed calls w.redis s where
  roomCode := stored.code
  user := (stored.secured (.userSessions s.createdBy) trivial rfl).1
  active := (stored.secured .active trivial).1
  access := (stored.secured (.access s.id) uuid rfl).1
  ingress := (stored.secured (.ingress s.id) uuid rfl).1

/-- Only store methods are called; time passes between the calls. -/
def OnStore (_ : World) : Call ⊕ Nat → Prop
  | .inl call => call.isStore = true
  | .inr _ => True

theorem kept_of_hist (empty : w.redis = .empty)
    (hist : Hist (Y := b.system noFaults) OnStore w calls w') (made : ServerMade calls) :
    Kept b.server.store.ttl calls w' := by
  refine hist.invariant
    (I := fun calls w' => ServerMade calls → Kept b.server.store.ttl calls w') ?_ ?_ ?_ made
  · intro _
    exact .kept_empty empty
  · intro calls w₁ call a w₂ _ ih isStore run made
    have kept := ih made.init
    cases call with
    | store sc =>
      have alone : Alone (sc.code b.server.store) w₁ a w₂ :=
        run.mono fun _ _ _ _ exec => performs_of_noFaults exec
      obtain ⟨ops, does, rfl⟩ := alone_of_wp (wp_does kept.typed) alone
      exact kept.does made does
    | _ => cases isStore
  · intro calls w₁ now w₂ _ ih _ env made
    obtain ⟨later, rfl⟩ := env
    exact (ih made).tick later

/-- **A live session is found through every index**, after any calls of the server and the janitor,
one at a time, however much time passes in between. -/
theorem live_session_indexed (empty : w.redis = .empty)
    (hist : Hist (Y := b.system noFaults) OnStore w calls w') (made : ServerMade calls)
    (uuid : isUuid id = true) (there : (w'.redis (sessionKey id)).isSome = true) :
    ∃ s, Live w'.redis id s ∧ s.id = id ∧ Indexed calls w'.redis s := by
  have kept := kept_of_hist empty hist made
  obtain ⟨s, d, rfl, stored⟩ := kept.stored id uuid there
  exact ⟨s, stored.live, rfl, stored.indexed uuid⟩

end Sequences

namespace Sample

/-- A session is created. -/
noncomputable def created :=
  (backend.code (.store (.createSession keyLike))).replay (replayer .never)
    (List.replicate 7 .plain) (.empty 0 fun _ => 7)

def ingressAdded : Call := .store (.addIngressID ⟨id₁, uuid_id₁⟩ "ingress")

/-- Half a day later an ingress is added. -/
noncomputable def halfADay := created.bind fun run =>
  (backend.code ingressAdded).replay (replayer .never) [.plain, .plain]
    (run.2.2.at_ (run.2.2.now + 43200 * second))

theorem serverMade {a a' : Result} :
    ServerMade [(.store (.createSession keyLike), a), (ingressAdded, a')] where
  ids := List.nodup_singleton _
  codes := List.nodup_singleton _
  coded new a mem := by
    simp only [ingressAdded, List.mem_cons, Prod.mk.injEq, Call.store.injEq,
      StoreCall.createSession.injEq, reduceCtorEq, false_and, List.not_mem_nil, or_false] at mem
    rw [mem.1]
    decide
  closing id status a mem := by
    simp [ingressAdded] at mem
  adding before after id ingressID a split := by
    cases before with
    | nil => cases split
    | cons p before =>
      cases before with
      | nil =>
        cases split
        exact List.mem_cons_self
      | cons p' before => simp at split

end Sample

theorem live_session_indexed_sample : ∃ (calls : List (Call × Result)) (w : World) (s : Session),
    Live w.redis Sample.id₁ s ∧ s.id = Sample.id₁ ∧ Indexed calls w.redis s := by
  have observed : Sample.halfADay.any (fun run =>
      (run.2.2.redis (sessionKey Sample.id₁)).isSome) = true := by decide +kernel
  obtain ⟨⟨a', rest', w₂⟩, computed, there⟩ := (Option.any_eq_true _ _).mp observed
  obtain ⟨⟨a, rest, w₁⟩, creates, adds⟩ := Option.bind_eq_some_iff.mp computed
  have created : (Sample.backend.code (.store (.createSession Sample.keyLike))).Runs
      (Exec noFaults) (.empty 0 fun _ => 7) a w₁ := Prog.replay_runs creates
  have waited : (Sample.backend.system noFaults).Env w₁ (w₁.now + 43200 * second)
      (w₁.at_ (w₁.now + 43200 * second)) := ⟨Nat.le_add_right .., rfl⟩
  have added : (Sample.backend.code Sample.ingressAdded).Runs (Exec noFaults)
      (w₁.at_ (w₁.now + 43200 * second)) a' w₂ := Prog.replay_runs adds
  have hist : Hist (Y := Sample.backend.system noFaults) OnStore (.empty 0 fun _ => 7)
      [(.store (.createSession Sample.keyLike), a), (Sample.ingressAdded, a')] w₂ :=
    .call (.tick (.call .nil rfl created) trivial waited) rfl added
  obtain ⟨s, found⟩ := live_session_indexed rfl hist Sample.serverMade (by decide) there
  exact ⟨_, w₂, s, found⟩

end DirectLink
