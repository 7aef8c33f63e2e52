import DirectLink.Session.Ops
import DirectLink.Session.StoreSpec

/-!
# Calls that run alone

The logic of a call that runs with no other call in between, on the whole world: each Redis command
is an operation on a typed database.  The theorems `alone_…` say what each method of the store
returns and does when it runs alone.
-/

namespace DirectLink

/-- A call runs alone, its commands restricted to those of some kind. -/
@[reducible] def worldLogic (Allows : Cmd → Prop) : Logic backend where
  State := World
  Allows _ c := Allows c
  Step := Performs

/-- The commands of store methods: they can always be carried out. -/
def Cmd.OfStore : Cmd → Prop
  | .redis _ | .timeNow | .after _ => True
  | _ => False

theorem Cmd.OfStore.enabled {c : Cmd} (ofStore : c.OfStore) (w : World) :
    ∃ r w', Performs w c r w' := by
  cases c
  case redis c =>
    have order := Redis.Order.preferring [] List.nodup_nil
    exact ⟨_, _, order, rfl, rfl⟩
  case timeNow => exact ⟨w.now, w, rfl, rfl⟩
  case after => exact ⟨.ok (), w, rfl, rfl⟩
  all_goals exact ofStore.elim

/-- An operation on a typed database. -/
theorem answers_world {Allows : Cmd → Prop} {w : World} (op : Op)
    {P : op.cmd.Reply → World → Prop} (typed : Typed w.redis) (wf : op.Wf)
    (allowed : Allows (.redis op.cmd))
    (next : ∀ o, P (op.reply o (op.entry w.redis)) (w.after op)) :
    (worldLogic Allows).Answers w op.cmd P := by
  refine ⟨allowed, ?_⟩
  intro r w' performs
  obtain ⟨o, rfl, rfl⟩ := performs_op typed wf performs
  exact ⟨_, rfl, next o⟩

/-- The operations that only read. -/
def Op.Reads : Op → Prop
  | .getCode _ | .existsSession _ | .readSession _ | .readRole _ _ | .hasRole _ _ | .readIngress _
  | .readUser _ | .readActive _ | .ping => True
  | _ => False

theorem World.after_of_reads {op : Op} (w : World) (reads : op.Reads) : w.after op = w := by
  have same : op.apply w.now w.redis = w.redis := by
    cases op <;> first | exact reads.elim | exact Redis.Db.assign_same | rfl
  rw [World.after, same]

/-- An operation that only reads. -/
theorem answers_read {Allows : Cmd → Prop} {w : World} (op : Op)
    {P : op.cmd.Reply → World → Prop} (typed : Typed w.redis) (wf : op.Wf) (reads : op.Reads)
    (allowed : Allows (.redis op.cmd)) (next : ∀ o, P (op.reply o (op.entry w.redis)) w) :
    (worldLogic Allows).Answers w op.cmd P := by
  refine answers_world op typed wf allowed ?_
  intro o
  rw [World.after_of_reads w reads]
  exact next o

/-! ## Several operations -/

/-- The world after some operations at one instant. -/
def World.afterAll (w : World) (ops : List Op) : World := ops.foldl World.after w

@[simp] theorem World.afterAll_nil (w : World) : w.afterAll [] = w := rfl

@[simp] theorem World.afterAll_cons (w : World) (op : Op) (ops : List Op) :
    w.afterAll (op :: ops) = (w.after op).afterAll ops := rfl

theorem World.afterAll_append (w : World) (ops ops' : List Op) :
    w.afterAll (ops ++ ops') = (w.afterAll ops).afterAll ops' :=
  List.foldl_append ..

/-- Operations change the database only. -/
theorem World.afterAll_frame (w : World) (ops : List Op) :
    w.afterAll ops = { w with redis := (w.afterAll ops).redis } := by
  induction ops generalizing w with
  | nil => rfl
  | cons op ops ih =>
    rw [World.afterAll_cons, ih]
    rfl

theorem World.typed_after {w : World} {op : Op} (typed : Typed w.redis) (wf : op.Wf) :
    Typed (w.after op).redis := typed.apply wf

theorem World.typed_afterAll {w : World} {ops : List Op} (typed : Typed w.redis)
    (wf : ∀ op ∈ ops, op.Wf) : Typed (w.afterAll ops).redis := by
  induction ops generalizing w with
  | nil => exact typed
  | cons op ops ih =>
    refine ih (World.typed_after typed (wf op List.mem_cons_self)) ?_
    intro op' mem
    exact wf op' (List.mem_cons_of_mem _ mem)

/-- Operations carried out one after the other. -/
theorem answersAll_world {Allows : Cmd → Prop} {w : World} {ops : List Op} {P : World → Prop}
    (typed : Typed w.redis) (wf : ∀ op ∈ ops, op.Wf)
    (allowed : ∀ op ∈ ops, Allows (.redis op.cmd)) (holds : P (w.afterAll ops)) :
    (worldLogic Allows).AnswersAll w (ops.map Op.cmd) P := by
  induction ops generalizing w with
  | nil => exact holds
  | cons op ops ih =>
    have wf' := wf op List.mem_cons_self
    refine answers_world op typed wf' (allowed op List.mem_cons_self) ?_
    intro _
    refine ih (World.typed_after typed wf') ?_ ?_ holds
    · intro op' mem
      exact wf op' (List.mem_cons_of_mem _ mem)
    · intro op' mem
      exact allowed op' (List.mem_cons_of_mem _ mem)

/-- What operations at one instant make of the entry of a key. -/
def Key.entryAfter (now : Nat) (k : Key) (ops : List Op) (e : Option Redis.Entry) :
    Option Redis.Entry :=
  ops.foldl (fun e op => if op.key = some k then op.effect now e else e) e

@[simp] theorem Key.entryAfter_nil {now : Nat} {k : Key} {e : Option Redis.Entry} :
    k.entryAfter now [] e = e := rfl

@[simp] theorem Key.entryAfter_cons {now : Nat} {k : Key} {op : Op} {ops : List Op}
    {e : Option Redis.Entry} :
    k.entryAfter now (op :: ops) e =
      k.entryAfter now ops (if op.key = some k then op.effect now e else e) := rfl

/-- Each key goes its own way. -/
theorem World.afterAll_at {w : World} {ops : List Op} {k : Key} (wf : ∀ op ∈ ops, op.Wf)
    (wfKey : k.Wf) :
    (w.afterAll ops).redis k.text = k.entryAfter w.now ops (w.redis k.text) := by
  induction ops generalizing w with
  | nil => rfl
  | cons op ops ih =>
    have rest := ih (w := w.after op) fun op' mem => wf op' (List.mem_cons_of_mem _ mem)
    rw [World.afterAll_cons, rest, Key.entryAfter_cons, World.after_redis, World.after_now,
      Op.apply_at (wf op List.mem_cons_self) wfKey]

section Kinds

variable {w : World} {ops : List Op} {id : String}

theorem World.afterAll_session (wf : ∀ op ∈ ops, op.Wf) (uuid : isUuid id = true) :
    (w.afterAll ops).redis (sessionKey id) =
      (Key.session id).entryAfter w.now ops (w.redis (sessionKey id)) :=
  World.afterAll_at (k := .session id) wf uuid

theorem World.afterAll_access (wf : ∀ op ∈ ops, op.Wf) (uuid : isUuid id = true) :
    (w.afterAll ops).redis (accessKey id) =
      (Key.access id).entryAfter w.now ops (w.redis (accessKey id)) :=
  World.afterAll_at (k := .access id) wf uuid

theorem World.afterAll_roomCode {code : String} (wf : ∀ op ∈ ops, op.Wf) :
    (w.afterAll ops).redis (roomCodeKey code) =
      (Key.roomCode code).entryAfter w.now ops (w.redis (roomCodeKey code)) :=
  World.afterAll_at (k := .roomCode code) wf trivial

end Kinds

/-- A key that no operation is about keeps its entry. -/
theorem Key.entryAfter_of_ne {now : Nat} {k : Key} {ops : List Op} {e : Option Redis.Entry}
    (others : ∀ op ∈ ops, op.key ≠ some k) : k.entryAfter now ops e = e := by
  induction ops generalizing e with
  | nil => rfl
  | cons op ops ih =>
    rw [Key.entryAfter_cons, if_neg (others op List.mem_cons_self)]
    exact ih fun op' mem => others op' (List.mem_cons_of_mem _ mem)

/-! ## The methods of the store -/

/-- `p` alone in `w` can return `a` in `w'`. -/
abbrev Alone {α : Type} (p : Go α) (w : World) (a : α) (w' : World) : Prop :=
  p.Runs Performs w a w'

/-- A store method returns. -/
theorem alone_total {α : Type} {p : Go α} {w : World} {Q : α → World → Prop}
    (holds : p.wp (worldLogic Cmd.OfStore) Q w) : ∃ a w', Alone p w a w' ∧ Q a w' :=
  Prog.wp_total (L := worldLogic Cmd.OfStore) (fun w _ ofStore => ofStore.enabled w) holds

namespace RedisStore

variable {r : RedisStore} {w w' : World}

theorem alone_of_wp {α : Type} {p : Go α} {a : α} {Q : α → World → Prop}
    (holds : p.wp (worldLogic Cmd.OfStore) Q w) (run : Alone p w a w') : Q a w' :=
  Prog.wp_sound (L := worldLogic Cmd.OfStore) holds run

section Writes

variable {session : Session} {sessionID userID role status ingressID : String}

theorem alone_createSession (typed : Typed w.redis) (uuid : isUuid session.id = true) :
    (r.createSession session).wp (worldLogic Cmd.OfStore)
      (fun result w' => result = .ok () ∧ w' = w.afterAll (r.createOps session w.now)) w := by
  refine wp_createSession ⟨trivial, ?_⟩
  intro now w' performs
  obtain ⟨rfl, rfl⟩ := performs
  rw [createPipeline_eq]
  refine answersAll_world typed ?_ (fun _ _ => trivial) ⟨rfl, rfl⟩
  intro op mem
  exact wf_of_mem_createOps uuid mem

/-- The operations of `UpdateSessionStatus` on a session that exists. -/
def statusOps (sessionID status : String) : List Op :=
  .writeStatus sessionID status ::
    (if status = statusClosed then [.dropActive sessionID] else [])

theorem alone_updateSessionStatus (typed : Typed w.redis) (uuid : isUuid sessionID = true) :
    (r.updateSessionStatus sessionID status).wp (worldLogic Cmd.OfStore)
      (fun result w' =>
        if (w.redis (sessionKey sessionID)).isSome then
          result = .ok () ∧ w' = w.afterAll (statusOps sessionID status)
        else result = .error (.sentinel .sessionNotFound) ∧ w' = w) w := by
  refine wp_updateSessionStatus ?_
  refine answers_read (.existsSession sessionID) typed uuid trivial trivial ?_
  intro _
  have entry : (Op.existsSession sessionID).entry w.redis = w.redis (sessionKey sessionID) := rfl
  rw [Op.reply, entry]
  cases (w.redis (sessionKey sessionID)).isSome with
  | false => exact ⟨rfl, rfl⟩
  | true =>
    refine answers_world (.writeStatus sessionID status) typed uuid trivial ?_
    intro _
    unfold statusOps
    split
    · refine answers_world (.dropActive sessionID) (World.typed_after typed uuid) uuid trivial ?_
      intro _
      exact ⟨rfl, rfl⟩
    · exact ⟨rfl, rfl⟩

/-- The operations of `GrantAccess` on a session that exists. -/
def grantOps (r : RedisStore) (sessionID userID role : String) : List Op :=
  [.writeRole sessionID userID role, .expireAccess sessionID r.ttl]

theorem wf_of_mem_grantOps {op : Op} (uuid : isUuid sessionID = true)
    (mem : op ∈ r.grantOps sessionID userID role) : op.Wf := by
  simp only [grantOps, List.mem_cons, List.not_mem_nil, or_false] at mem
  obtain rfl | rfl := mem
  · exact uuid
  · exact ⟨uuid, r.ttl_pos⟩

theorem alone_grantAccess (typed : Typed w.redis) (uuid : isUuid sessionID = true) :
    (r.grantAccess sessionID userID role).wp (worldLogic Cmd.OfStore)
      (fun result w' =>
        if (w.redis (sessionKey sessionID)).isSome then
          result = .ok () ∧ w' = w.afterAll (r.grantOps sessionID userID role)
        else result = .error (.sentinel .sessionNotFound) ∧ w' = w) w := by
  refine wp_grantAccess ?_
  refine answers_read (.existsSession sessionID) typed uuid trivial trivial ?_
  intro _
  have entry : (Op.existsSession sessionID).entry w.redis = w.redis (sessionKey sessionID) := rfl
  rw [Op.reply, entry]
  cases (w.redis (sessionKey sessionID)).isSome with
  | false => exact ⟨rfl, rfl⟩
  | true =>
    have wf : ∀ op ∈ r.grantOps sessionID userID role, op.Wf :=
      fun _ mem => wf_of_mem_grantOps uuid mem
    exact answersAll_world typed wf (fun _ _ => trivial) ⟨rfl, rfl⟩

theorem alone_revokeAccess (typed : Typed w.redis) (uuid : isUuid sessionID = true) :
    (r.revokeAccess sessionID userID).wp (worldLogic Cmd.OfStore)
      (fun result w' => result = .ok () ∧ w' = w.after (.dropRole sessionID userID)) w := by
  refine wp_revokeAccess ?_
  refine answers_world (.dropRole sessionID userID) typed uuid trivial ?_
  intro _
  exact ⟨rfl, rfl⟩

/-- The operations of `AddIngressID`. -/
def ingressOps (r : RedisStore) (sessionID ingressID : String) : List Op :=
  [.addIngress sessionID ingressID, .expireIngress sessionID r.ttl]

theorem wf_of_mem_ingressOps {op : Op} (uuid : isUuid sessionID = true)
    (mem : op ∈ r.ingressOps sessionID ingressID) : op.Wf := by
  simp only [ingressOps, List.mem_cons, List.not_mem_nil, or_false] at mem
  obtain rfl | rfl := mem
  · exact uuid
  · exact ⟨uuid, r.ttl_pos⟩

theorem alone_addIngressID (typed : Typed w.redis) (uuid : isUuid sessionID = true) :
    (r.addIngressID sessionID ingressID).wp (worldLogic Cmd.OfStore)
      (fun result w' =>
        result = .ok () ∧ w' = w.afterAll (r.ingressOps sessionID ingressID)) w := by
  refine wp_addIngressID ?_
  have wf : ∀ op ∈ r.ingressOps sessionID ingressID, op.Wf :=
    fun _ mem => wf_of_mem_ingressOps uuid mem
  exact answersAll_world typed wf (fun _ _ => trivial) ⟨rfl, rfl⟩

theorem alone_deleteSession (typed : Typed w.redis) (uuid : isUuid sessionID = true) :
    (r.deleteSession sessionID).wp (worldLogic Cmd.OfStore)
      (fun result w' =>
        match parseSession (hashOf (w.redis (sessionKey sessionID))) with
        | .error err => result = .error err ∧ w' = w
        | .ok session => result = .ok () ∧ w' = w.afterAll (deleteOps sessionID session)) w := by
  refine wp_deleteSession ?_
  refine answers_read (.readSession sessionID) typed uuid trivial trivial ?_
  intro _
  have entry : (Op.readSession sessionID).entry w.redis = w.redis (sessionKey sessionID) := rfl
  rw [Op.reply, entry]
  cases parseSession (hashOf (w.redis (sessionKey sessionID))) with
  | error err => exact ⟨rfl, rfl⟩
  | ok session =>
    dsimp only
    rw [deletePipeline_eq]
    refine answersAll_world typed ?_ (fun _ _ => trivial) ⟨rfl, rfl⟩
    intro op mem
    exact wf_of_mem_deleteOps uuid mem

end Writes

section Reads

variable {sessionID userID code : String}

theorem alone_getSession (typed : Typed w.redis) (uuid : isUuid sessionID = true) :
    (r.getSession sessionID).wp (worldLogic Cmd.OfStore)
      (fun result w' =>
        result = parseSession (hashOf (w.redis (sessionKey sessionID))) ∧ w' = w) w := by
  refine wp_getSession ?_
  refine answers_read (.readSession sessionID) typed uuid trivial trivial ?_
  intro _
  exact ⟨rfl, rfl⟩

/-- What `GetSessionByRoomCode` returns. -/
def byRoomCode (db : Redis.Db) (code : String) : Except Err Session :=
  match strOf (db (roomCodeKey code)) with
  | none => .error (.sentinel .invalidRoomCode)
  | some sessionID => parseSession (hashOf (db (sessionKey sessionID)))

theorem alone_getSessionByRoomCode (typed : Typed w.redis) :
    (r.getSessionByRoomCode code).wp (worldLogic Cmd.OfStore)
      (fun result w' => result = byRoomCode w.redis code ∧ w' = w) w := by
  refine wp_getSessionByRoomCode ?_
  refine answers_read (.getCode code) typed trivial trivial trivial ?_
  intro _
  have entry : (Op.getCode code).entry w.redis = w.redis (roomCodeKey code) := rfl
  rw [Op.reply, entry]
  unfold byRoomCode
  cases mapped : strOf (w.redis (roomCodeKey code)) with
  | none => exact ⟨rfl, rfl⟩
  | some sessionID =>
    have uuid : isUuid sessionID = true :=
      (typed (.roomCode code) trivial).uuid_of_strOf mapped
    refine answers_read (.readSession sessionID) typed uuid trivial trivial ?_
    intro _
    exact ⟨rfl, rfl⟩

theorem alone_getRole (typed : Typed w.redis) (uuid : isUuid sessionID = true) :
    (r.getRole sessionID userID).wp (worldLogic Cmd.OfStore)
      (fun result w' =>
        result = .ok (((hashOf (w.redis (accessKey sessionID))).lookup userID).getD "") ∧
          w' = w) w := by
  refine wp_getRole ?_
  refine answers_read (.readRole sessionID userID) typed uuid trivial trivial ?_
  intro _
  exact ⟨rfl, rfl⟩

theorem alone_hasAccess (typed : Typed w.redis) (uuid : isUuid sessionID = true) :
    (r.hasAccess sessionID userID).wp (worldLogic Cmd.OfStore)
      (fun result w' =>
        result = .ok ((hashOf (w.redis (accessKey sessionID))).lookup userID).isSome ∧
          w' = w) w := by
  refine wp_hasAccess ?_
  refine answers_read (.hasRole sessionID userID) typed uuid trivial trivial ?_
  intro _
  exact ⟨rfl, rfl⟩

theorem alone_getIngressIDs (typed : Typed w.redis) (uuid : isUuid sessionID = true) :
    (r.getIngressIDs sessionID).wp (worldLogic Cmd.OfStore)
      (fun result w' =>
        ∃ o : Redis.Order, result = .ok (o.list (setOf (w.redis (ingressKey sessionID)))) ∧
          w' = w) w := by
  refine wp_getIngressIDs ?_
  refine answers_read (.readIngress sessionID) typed uuid trivial trivial ?_
  intro o
  exact ⟨o, rfl, rfl⟩

theorem alone_ping (typed : Typed w.redis) :
    ping.wp (worldLogic Cmd.OfStore) (fun result w' => result = .ok () ∧ w' = w) w := by
  rw [ping, Prog.wp_bind]
  refine wp_redis (answers_read .ping typed trivial trivial trivial ?_)
  intro _
  exact ⟨rfl, rfl⟩

end Reads

/-! ## The sessions a sweep collects -/

section Expired

variable {ids : List String} {sessions : List Session} {sessionID : String}

/-- What `GetExpiredSessions` keeps of a session id. -/
def expiredOf (db : Redis.Db) (sessionID : String) : Option Session :=
  match parseSession (hashOf (db (sessionKey sessionID))) with
  | .ok session => if session.status = statusClosed then none else some session
  | .error _ => none

theorem expiredOf_error {db : Redis.Db} {err : Err}
    (parsed : parseSession (hashOf (db (sessionKey sessionID))) = .error err) :
    expiredOf db sessionID = none := by
  rw [expiredOf, parsed]

theorem expiredOf_closed {db : Redis.Db} {session : Session}
    (parsed : parseSession (hashOf (db (sessionKey sessionID))) = .ok session)
    (isClosed : session.status = statusClosed) : expiredOf db sessionID = none := by
  rw [expiredOf, parsed]
  exact if_pos isClosed

theorem expiredOf_open {db : Redis.Db} {session : Session}
    (parsed : parseSession (hashOf (db (sessionKey sessionID))) = .ok session)
    (isOpen : session.status ≠ statusClosed) : expiredOf db sessionID = some session := by
  rw [expiredOf, parsed]
  exact if_neg isOpen

/-- The world without some sessions in the active set. -/
def dropped (w : World) (ids : List String) : World := w.afterAll (ids.map .dropActive)

theorem dropped_session (uuids : ∀ id ∈ ids, isUuid id = true) (uuid : isUuid sessionID = true) :
    (dropped w ids).redis (sessionKey sessionID) = w.redis (sessionKey sessionID) := by
  have wf : ∀ op ∈ ids.map Op.dropActive, op.Wf := by
    intro op mem
    obtain ⟨id, inIds, rfl⟩ := List.mem_map.mp mem
    exact uuids id inIds
  refine (World.afterAll_at (k := .session sessionID) wf uuid).trans (Key.entryAfter_of_ne ?_)
  intro op mem
  obtain ⟨id, _, rfl⟩ := List.mem_map.mp mem
  nofun

theorem expiredOf_dropped (uuids : ∀ id ∈ ids, isUuid id = true)
    (uuid : isUuid sessionID = true) :
    expiredOf (dropped w ids).redis sessionID = expiredOf w.redis sessionID := by
  unfold expiredOf
  rw [dropped_session uuids uuid]

/-- The loop of `GetExpiredSessions` keeps the open sessions, in their order, and drops closed ones
from the active set; it ends early only at a session that can not be read. -/
structure Collects (w : World) (ids : List String) (sessions : List Session)
    (result : Except Err (List Session)) (w' : World) : Prop where
  closed : ∃ closed, (∀ id ∈ closed, id ∈ ids ∧ statusOf w.redis id = some statusClosed) ∧
    w' = dropped w closed
  listed : ∀ list, result = .ok list → list = sessions ++ ids.filterMap (expiredOf w.redis)
  total : (∀ id ∈ ids, ∀ err, parseSession (hashOf (w.redis (sessionKey id))) = .error err →
    err.is .sessionNotFound = true) → ∃ list, result = .ok list

section Collects

variable {id : String} {sessions' : List Session} {result : Except Err (List Session)} {w' : World}

/-- A session that is missing or open changes nothing. -/
theorem Collects.cons_kept (collects : Collects w ids sessions' result w')
    (kept : sessions' = sessions ++ (expiredOf w.redis id).toList) :
    Collects w (id :: ids) sessions result w' := by
  obtain ⟨closed, inIds, world⟩ := collects.closed
  refine ⟨⟨closed, ?_, world⟩, ?_, ?_⟩
  · intro id' mem
    exact ⟨List.mem_cons_of_mem _ (inIds id' mem).1, (inIds id' mem).2⟩
  · intro list same
    rw [collects.listed list same, kept]
    cases expired : expiredOf w.redis id <;> simp [expired]
  · intro readable
    exact collects.total fun id' mem => readable id' (List.mem_cons_of_mem _ mem)

/-- A closed session is dropped from the active set. -/
theorem Collects.cons_closed {session : Session} (typed : Typed w.redis)
    (uuid : isUuid id = true) (uuids : ∀ id ∈ ids, isUuid id = true)
    (live : Live w.redis id session) (isClosed : session.status = statusClosed)
    (collects : Collects (dropped w [id]) ids sessions result w') :
    Collects w (id :: ids) sessions result w' := by
  have only : ∀ id' ∈ [id], isUuid id' = true := by
    intro id' mem
    rw [List.mem_singleton.mp mem]
    exact uuid
  have same_session : ∀ id' ∈ ids, (dropped w [id]).redis (sessionKey id') =
      w.redis (sessionKey id') :=
    fun id' mem => dropped_session only (uuids id' mem)
  obtain ⟨closed, inIds, world⟩ := collects.closed
  refine ⟨⟨id :: closed, ?_, world⟩, ?_, ?_⟩
  · intro id' mem
    obtain rfl | mem := List.mem_cons.mp mem
    · refine ⟨List.mem_cons_self, ?_⟩
      rw [live.status typed uuid, isClosed]
    · obtain ⟨inIds', status'⟩ := inIds id' mem
      refine ⟨List.mem_cons_of_mem _ inIds', ?_⟩
      rw [statusOf, ← same_session id' inIds']
      exact status'
  · intro list same
    have agree : ids.filterMap (expiredOf (dropped w [id]).redis) =
        ids.filterMap (expiredOf w.redis) :=
      List.filterMap_congr fun id' mem => expiredOf_dropped only (uuids id' mem)
    rw [collects.listed list same, List.filterMap_cons_none (expiredOf_closed live isClosed),
      agree]
  · intro readable
    refine collects.total ?_
    intro id' mem err failed
    rw [same_session id' mem] at failed
    exact readable id' (List.mem_cons_of_mem _ mem) err failed

end Collects

theorem alone_collectExpired (typed : Typed w.redis) (uuids : ∀ id ∈ ids, isUuid id = true) :
    (r.collectExpired ids sessions).wp (worldLogic Cmd.OfStore) (Collects w ids sessions) w := by
  induction ids generalizing w sessions with
  | nil =>
    refine ⟨⟨[], (fun _ impossible => by cases impossible), rfl⟩, ?_, fun _ => ⟨sessions, rfl⟩⟩
    intro list same
    cases same
    simp
  | cons id ids ih =>
    have uuid := uuids id List.mem_cons_self
    have uuids' : ∀ id ∈ ids, isUuid id = true :=
      fun id mem => uuids id (List.mem_cons_of_mem _ mem)
    refine wp_collectExpired_cons ?_
    refine answers_read (.readSession id) typed uuid trivial trivial ?_
    intro _
    have entry : (Op.readSession id).entry w.redis = w.redis (sessionKey id) := rfl
    rw [Op.reply, entry]
    cases parsed : parseSession (hashOf (w.redis (sessionKey id))) with
    | error err =>
      dsimp only
      split
      · refine Prog.wp_mono (ih typed uuids') fun result w' collects => collects.cons_kept ?_
        simp [expiredOf_error parsed]
      · next other =>
        refine ⟨⟨[], (fun _ impossible => by cases impossible), rfl⟩,
          (fun _ impossible => by cases impossible), ?_⟩
        intro readable
        exact absurd (readable id List.mem_cons_self err parsed) other
    | ok session =>
      dsimp only
      split
      · next isClosed =>
        refine answers_world (.dropActive id) typed uuid trivial ?_
        intro _
        exact Prog.wp_mono (ih (World.typed_after typed uuid) uuids') fun result w' =>
          Collects.cons_closed typed uuid uuids' parsed isClosed
      · next isOpen =>
        refine Prog.wp_mono (ih typed uuids') fun result w' collects => collects.cons_kept ?_
        simp [expiredOf_open parsed isOpen]

/-- `GetExpiredSessions` alone. -/
theorem alone_getExpiredSessions {now : Nat} (typed : Typed w.redis) :
    (r.getExpiredSessions now).wp (worldLogic Cmd.OfStore)
      (fun result w' => ∃ o : Redis.Order,
        Collects w (o.list ((zsetOf (w.redis activeSessionsKey)).upTo (unix now))) [] result w')
      w := by
  refine wp_getExpiredSessions ?_
  refine answers_read (.readActive (unix now)) typed trivial trivial trivial ?_
  intro o
  have entry : (Op.readActive (unix now)).entry w.redis = w.redis activeSessionsKey := rfl
  rw [Op.reply, entry]
  refine Prog.wp_mono (alone_collectExpired typed ?_) fun result w' collects => ⟨o, collects⟩
  exact fun id mem => typed.uuid_of_listed mem

end Expired

/-! ## The sessions of a user -/

section Users

variable {ids : List String} {sessions : List Session} {userID : String}

/-- The loop of `GetUserSessions` takes ids out of the user's set, all of sessions that are not
there. -/
def Prunes (w : World) (userID : String) (ids : List String) (w' : World) : Prop :=
  ∃ pruned : List String, (∀ id ∈ pruned, id ∈ ids ∧ ∀ session, ¬ Live w.redis id session) ∧
    w' = w.afterAll (pruned.map (.dropUserSession userID))

theorem alone_collectUserSessions (typed : Typed w.redis) (uuids : ∀ id ∈ ids, isUuid id = true) :
    (r.collectUserSessions (userSessionsKey userID) ids sessions).wp (worldLogic Cmd.OfStore)
      (fun _ w' => Prunes w userID ids w') w := by
  induction ids generalizing w sessions with
  | nil => exact ⟨[], (fun _ impossible => by cases impossible), rfl⟩
  | cons id ids ih =>
    have uuid := uuids id List.mem_cons_self
    have uuids' : ∀ id ∈ ids, isUuid id = true :=
      fun id mem => uuids id (List.mem_cons_of_mem _ mem)
    refine wp_collectUserSessions_cons ?_
    refine answers_read (.readSession id) typed uuid trivial trivial ?_
    intro _
    have entry : (Op.readSession id).entry w.redis = w.redis (sessionKey id) := rfl
    rw [Op.reply, entry]
    cases parsed : parseSession (hashOf (w.redis (sessionKey id))) with
    | error err =>
      dsimp only
      split
      · refine answers_world (.dropUserSession userID id) typed uuid trivial ?_
        intro _
        refine Prog.wp_mono (ih (World.typed_after typed uuid) uuids') ?_
        intro _ w' prunes
        obtain ⟨pruned, missing, rfl⟩ := prunes
        refine ⟨id :: pruned, ?_, rfl⟩
        intro id' mem
        obtain rfl | mem := List.mem_cons.mp mem
        · refine ⟨List.mem_cons_self, fun session live => ?_⟩
          rw [Live, parsed] at live
          cases live
        · obtain ⟨inIds, gone⟩ := missing id' mem
          refine ⟨List.mem_cons_of_mem _ inIds, fun session live => gone session ?_⟩
          have wf : (Op.dropUserSession userID id).Wf := uuid
          have other : (Op.dropUserSession userID id).key ≠ some (.session id') := by simp [Op.key]
          have same : (w.after (.dropUserSession userID id)).redis (sessionKey id') =
              w.redis (sessionKey id') := by
            rw [World.after_redis, Op.apply_session wf (uuids' id' inIds), if_neg other]
          rw [Live, same]
          exact live
      · exact ⟨[], (fun _ impossible => by cases impossible), rfl⟩
    | ok session =>
      refine Prog.wp_mono (ih typed uuids') ?_
      intro _ w' prunes
      obtain ⟨pruned, missing, world⟩ := prunes
      refine ⟨pruned, ?_, world⟩
      intro id' mem
      exact ⟨List.mem_cons_of_mem _ (missing id' mem).1, (missing id' mem).2⟩

/-- `GetUserSessions` alone. -/
theorem alone_getUserSessions (typed : Typed w.redis) :
    (r.getUserSessions userID).wp (worldLogic Cmd.OfStore) (fun _ w' => ∃ o : Redis.Order,
      Prunes w userID (o.list (setOf (w.redis (userSessionsKey userID)))) w') w := by
  refine wp_getUserSessions ?_
  refine answers_read (.readUser userID) typed trivial trivial trivial ?_
  intro o
  have entry : (Op.readUser userID).entry w.redis = w.redis (userSessionsKey userID) := rfl
  rw [Op.reply, entry]
  refine Prog.wp_mono (alone_collectUserSessions typed ?_) fun _ w' prunes => ⟨o, prunes⟩
  intro id mem
  exact (typed (.userSessions userID) trivial).uuid_of_mem_set id (Redis.Order.mem_list.mp mem)

end Users

/-! ## What a creation stores -/

section Created

variable {session : Session} {k : Key}

/-- A creation alone, key by key. -/
theorem created_at (uuid : isUuid session.id = true) (wfKey : k.Wf) :
    (w.afterAll (r.createOps session w.now)).redis k.text =
      k.entryAfter w.now (r.createOps session w.now) (w.redis k.text) :=
  World.afterAll_at (fun _ mem => wf_of_mem_createOps uuid mem) wfKey

theorem created_session (uuid : isUuid session.id = true) :
    (w.afterAll (r.createOps session w.now)).redis (sessionKey session.id) =
      some ⟨.hash (encode session), some (w.now + r.ttl)⟩ := by
  refine (created_at (k := .session session.id) uuid uuid).trans ?_
  unfold createOps indexOps
  split <;> simp [Op.key, Op.effect, keep, redate]

theorem created_roomCode (uuid : isUuid session.id = true) (nonempty : session.roomCode ≠ "") :
    (w.afterAll (r.createOps session w.now)).redis (roomCodeKey session.roomCode) =
      some ⟨.str session.id, some (w.now + r.ttl)⟩ := by
  refine (created_at (k := .roomCode session.roomCode) uuid trivial).trans ?_
  simp [createOps, indexOps, nonempty, Op.key, Op.effect]

theorem created_userSessions (uuid : isUuid session.id = true) :
    (w.afterAll (r.createOps session w.now)).redis (userSessionsKey session.createdBy) =
      some ⟨.set (insert session.id (setOf (w.redis (userSessionsKey session.createdBy)))),
        some (w.now + r.ttl)⟩ := by
  refine (created_at (k := .userSessions session.createdBy) uuid trivial).trans ?_
  unfold createOps indexOps
  split <;> simp [Op.key, Op.effect, keep, redate, Key.text]

theorem created_active (uuid : isUuid session.id = true) :
    (w.afterAll (r.createOps session w.now)).redis activeSessionsKey =
      keep (w.redis activeSessionsKey) (.zset ((zsetOf (w.redis activeSessionsKey)).insert
        session.id (unix (w.now + r.ttl)))) := by
  refine (created_at (k := .active) uuid trivial).trans ?_
  unfold createOps indexOps
  split <;> simp [Op.key, Op.effect, Key.text]

/-- A creation leaves the other keys alone. -/
theorem created_other (uuid : isUuid session.id = true) (wfKey : k.Wf)
    (noSession : k ≠ .session session.id) (noCode : k ≠ .roomCode session.roomCode)
    (noUser : k ≠ .userSessions session.createdBy) (inactive : k ≠ .active) :
    (w.afterAll (r.createOps session w.now)).redis k.text = w.redis k.text := by
  refine (created_at uuid wfKey).trans (Key.entryAfter_of_ne ?_)
  intro op mem own
  obtain rfl | rfl | ⟨rfl, _⟩ | rfl | rfl | rfl := mem_createOps mem
  · exact noSession (Option.some.inj own).symm
  · exact noSession (Option.some.inj own).symm
  · exact noCode (Option.some.inj own).symm
  · exact noUser (Option.some.inj own).symm
  · exact noUser (Option.some.inj own).symm
  · exact inactive (Option.some.inj own).symm

end Created

section Granted

variable {sessionID userID role ingressID : String} {k : Key}

theorem granted_access (uuid : isUuid sessionID = true) :
    (w.afterAll (r.grantOps sessionID userID role)).redis (accessKey sessionID) =
      some ⟨.hash ((hashOf (w.redis (accessKey sessionID))).insert userID role),
        some (w.now + r.ttl)⟩ := by
  refine (World.afterAll_at (k := .access sessionID)
    (fun _ mem => wf_of_mem_grantOps uuid mem) uuid).trans ?_
  simp [grantOps, Op.key, Op.effect, keep, redate, Key.text]

theorem granted_other (uuid : isUuid sessionID = true) (wfKey : k.Wf)
    (other : k ≠ .access sessionID) :
    (w.afterAll (r.grantOps sessionID userID role)).redis k.text = w.redis k.text := by
  refine (World.afterAll_at (fun _ mem => wf_of_mem_grantOps uuid mem) wfKey).trans ?_
  refine Key.entryAfter_of_ne ?_
  intro op mem own
  simp only [grantOps, List.mem_cons, List.not_mem_nil, or_false] at mem
  obtain rfl | rfl := mem <;> exact other (Option.some.inj own).symm

end Granted

end RedisStore

end DirectLink
