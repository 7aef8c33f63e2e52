import DirectLink.Interleaving.Duties
import DirectLink.Runs

/-!
# Every session hash is complete

`UpdateSessionStatus` writes the status of a session it found a moment ago.  Where no such write
meets a session that has disappeared in between, every session hash has all its fields and, once
its `CreateSession` is over, an expiry; so no listing fails.
-/

namespace DirectLink

open RedisStore

section CompleteHashes

/-- The hash has all six fields and reads back. -/
def CompleteHash (h : Redis.Hash) : Prop :=
  (∀ name ∈ ["id", "room_code", "created_by", "created_at", "max_cameras", "status"], name ∈ h) ∧
    (UtcTime.parseRFC3339 (field h "created_at")).isSome = true ∧
    (parseInt32 (field h "max_cameras")).isSome = true

/-- The last command was the write of the session's hash, whose expiry is still to be set. -/
def Pending (id : String) (past : List (Event backend)) : Prop :=
  ∃ session r, session.id = id ∧
    past.getLast? = some ⟨.redis (Op.writeSession session).cmd, r⟩

/-- No expiry is still to be set. -/
def NonePending (past : List (Event backend)) : Prop := ∀ id, ¬ Pending id past

/-- A session hash that was read was absent or complete. -/
def Cmd.ReadsComplete : (c : Cmd) → c.Reply → Prop
  | .redis (.hgetall key), .ok h =>
    ∀ id, key = sessionKey id → isUuid id = true → h = ∅ ∨ ∃ session, h = encode session
  | _, _ => True

/-- What the store methods promise of their results. -/
def StoreCall.Answered : StoreCall → Result → Prop
  | .getSession _, result =>
    (∃ session, result = .session (.ok session)) ∨
      result = .session (.error (.sentinel .sessionNotFound))
  | .getUserSessions _, result | .getExpiredSessions _, result =>
    ∃ sessions, result = .sessions (.ok sessions)
  | _, _ => True

/-- The contract of a store call where every hash is complete: the write of a hash is followed by
its expiry, and listings do not fail. -/
@[reducible] def Backend.completing (b : Backend) : Contract (b.system noFaults) where
  Expects e := e.cmd.Succeeds e.reply ∧ e.cmd.Sound e.reply ∧ e.cmd.ReadsComplete e.reply
  Allows call past c :=
    (∀ id, Pending id past → ∃ ttl, c = .redis (Op.expireSession id ttl).cmd) ∧
      ∀ session, c = .redis (Op.writeSession session).cmd →
        ∃ new : NewSession, call = .store (.createSession new) ∧ new.1.id = session.id
  Post call result past :=
    NonePending past ∧ ∀ sc, call = .store sc → sc.Answered result

variable {b : Backend} {call : Call} {past : List (Event backend)}

/-- The logic of the contract. -/
abbrev completeLogic (b : Backend) (call : Call) : Logic backend :=
  histLogic b.completing.Expects (b.completing.Allows call)

theorem nonePending_nil : NonePending [] := by
  intro id holds
  rcases holds with ⟨session, r, _, last⟩
  cases last

/-- An operation that writes no session leaves nothing pending. -/
theorem nonePending_append {e : Event backend}
    (other : ∀ session, e.cmd ≠ .redis (Op.writeSession session).cmd) :
    NonePending (past ++ [e]) := by
  intro id holds
  rcases holds with ⟨session, r, _, last⟩
  rw [List.getLast?_concat] at last
  cases last
  exact other session rfl

theorem allowed_complete {c : Cmd} (none_ : NonePending past)
    (other : ∀ session, c ≠ .redis (Op.writeSession session).cmd) :
    b.completing.Allows call past c :=
  ⟨fun id pending => absurd pending (none_ id), fun session same => absurd same (other session)⟩

/-- An operation other than the write of a session. -/
theorem answers_complete (op : Op) {P : op.cmd.Reply → List (Event backend) → Prop}
    (none_ : NonePending past) (other : ∀ session, op ≠ .writeSession session)
    (next : ∀ v past', NonePending past' → op.cmd.Sound v →
      Cmd.ReadsComplete (.redis op.cmd) (.ok v) → P v past') :
    (completeLogic b call).Answers past op.cmd P := by
  have ne : ∀ session, Cmd.redis op.cmd ≠ .redis (Op.writeSession session).cmd := by
    intro session same
    cases op <;> simp_all [Op.cmd, sessionData]
  refine answers_hist (fun e expected => expected.1) (allowed_complete none_ ne) ?_
  intro v holds
  rcases holds with ⟨_, sound, complete⟩
  exact next v _ (nonePending_append ne) sound complete

theorem answersAll_complete {ops : List Op} {P : List (Event backend) → Prop}
    (none_ : NonePending past) (other : ∀ op ∈ ops, ∀ session, op ≠ .writeSession session)
    (next : ∀ past', NonePending past' → P past') :
    (completeLogic b call).AnswersAll past (ops.map Op.cmd) P := by
  induction ops generalizing past with
  | nil => exact next past none_
  | cons op ops ih =>
    refine answers_complete op none_ (other op List.mem_cons_self) fun _ past' none' _ _ => ?_
    exact ih none' fun op' member => other op' (List.mem_cons_of_mem _ member)

/-- The id in the command that writes a session. -/
theorem id_of_writeSession {session session' : Session}
    (same : (Op.writeSession session).cmd = (Op.writeSession session').cmd) :
    session.id = session'.id := by
  simp only [Op.cmd, Redis.Cmd.hset.injEq, sessionData, List.cons.injEq, Prod.mk.injEq] at same
  exact same.2.1.2

/-- What is read of a complete or absent session. -/
theorem parseSession_complete {id : String} {h : Redis.Hash} (uuid : isUuid id = true)
    (complete : Cmd.ReadsComplete (.redis (Op.readSession id).cmd) (.ok h)) :
    (∃ session, parseSession h = .ok session) ∨
      parseSession h = .error (.sentinel .sessionNotFound) := by
  rcases complete id rfl uuid with rfl | ⟨session, rfl⟩
  · exact .inr parseSession_empty
  · exact .inl ⟨_, parseSession_encode session⟩

theorem wp_createSession_complete {r : RedisStore} {session : NewSession}
    (none_ : NonePending past) :
    (r.createSession session.1).wp (completeLogic b (.store (.createSession session)))
      (fun _ past' => NonePending past') past := by
  refine wp_createSession (histLogic_call.mpr ⟨allowed_complete none_ fun _ => by simp, ?_⟩)
  intro now _
  have quiet : NonePending (past ++ [(⟨.timeNow, now⟩ : Event backend)]) :=
    nonePending_append fun _ => by simp
  rw [createPipeline_eq]
  refine answers_hist (fun e expected => expected.1) ⟨fun id pending => ?_, fun other same => ?_⟩ ?_
  · exact absurd pending (quiet id)
  · exact ⟨session, rfl, id_of_writeSession (Cmd.redis.inj same)⟩
  · intro _ _
    refine answers_hist (fun e expected => expected.1) ⟨?_, fun other same => ?_⟩ ?_
    · intro id holds
      rcases holds with ⟨other, r', rfl, last⟩
      rw [List.getLast?_concat] at last
      have same := congrArg Event.cmd (Option.some.inj last)
      exact ⟨r.ttl, by rw [← id_of_writeSession (Cmd.redis.inj same)]⟩
    · cases same
    · intro _ _
      refine answersAll_complete (nonePending_append fun _ => by simp) ?_ fun _ kept => kept
      intro op member other same
      subst same
      rcases mem_indexOps member with ⟨impossible, _⟩ | impossible | impossible | impossible <;>
        cases impossible

theorem wp_collectUserSessions_complete {r : RedisStore} {userID : String} {ids : List String}
    {sessions : List Session} (none_ : NonePending past) (uuid : ∀ id ∈ ids, isUuid id = true) :
    (r.collectUserSessions (userSessionsKey userID) ids sessions).wp (completeLogic b call)
      (fun result past' => NonePending past' ∧ ∃ found, result = .ok found) past := by
  induction ids generalizing past sessions with
  | nil => exact ⟨none_, sessions, rfl⟩
  | cons id ids ih =>
    have rest : ∀ sessions past', NonePending past' →
        (r.collectUserSessions (userSessionsKey userID) ids sessions).wp (completeLogic b call)
          (fun result past' => NonePending past' ∧ ∃ found, result = .ok found) past' :=
      fun sessions past' none' =>
        ih none' fun id' member => uuid id' (List.mem_cons_of_mem _ member)
    refine wp_collectUserSessions_cons ?_
    refine answers_complete (.readSession id) none_ (fun _ => by simp) ?_
    intro h past' none' _ read
    rcases parseSession_complete (uuid id List.mem_cons_self) read with ⟨session, eq⟩ | eq
    · rw [eq]
      exact rest _ past' none'
    · rw [eq]
      refine answers_complete (.dropUserSession userID id) none' (fun _ => by simp) ?_
      exact fun _ past'' none'' _ _ => rest _ past'' none''

theorem wp_collectExpired_complete {r : RedisStore} {ids : List String} {sessions : List Session}
    (none_ : NonePending past) (uuid : ∀ id ∈ ids, isUuid id = true) :
    (r.collectExpired ids sessions).wp (completeLogic b call)
      (fun result past' => NonePending past' ∧ ∃ found, result = .ok found) past := by
  induction ids generalizing past sessions with
  | nil => exact ⟨none_, sessions, rfl⟩
  | cons id ids ih =>
    have rest : ∀ sessions past', NonePending past' →
        (r.collectExpired ids sessions).wp (completeLogic b call)
          (fun result past' => NonePending past' ∧ ∃ found, result = .ok found) past' :=
      fun sessions past' none' =>
        ih none' fun id' member => uuid id' (List.mem_cons_of_mem _ member)
    refine wp_collectExpired_cons ?_
    refine answers_complete (.readSession id) none_ (fun _ => by simp) ?_
    intro h past' none' _ read
    rcases parseSession_complete (uuid id List.mem_cons_self) read with ⟨session, eq⟩ | eq
    · rw [eq]
      dsimp only
      split
      · refine answers_complete (.dropActive id) none' (fun _ => by simp) ?_
        exact fun _ past'' none'' _ _ => rest _ past'' none''
      · exact rest _ past' none'
    · rw [eq]
      exact rest _ past' none'

theorem wp_getSessionByRoomCode_complete {r : RedisStore} {code : String}
    (none_ : NonePending past) :
    (r.getSessionByRoomCode code).wp (completeLogic b call)
      (fun _ past' => NonePending past') past := by
  refine wp_getSessionByRoomCode (answers_complete (.getCode code) none_ (fun _ => by simp) ?_)
  intro mapped past' none' _ _
  cases mapped with
  | none => exact none'
  | some id =>
    exact answers_complete (.readSession id) none' (fun _ => by simp) fun _ _ none'' _ _ => none''

theorem wp_updateSessionStatus_complete {r : RedisStore} {id status : String}
    (none_ : NonePending past) :
    (r.updateSessionStatus id status).wp (completeLogic b call)
      (fun _ past' => NonePending past') past := by
  refine wp_updateSessionStatus (answers_complete (.existsSession id) none_ (fun _ => by simp) ?_)
  intro found past' none' _ _
  cases found with
  | false => exact none'
  | true =>
    refine answers_complete (.writeStatus id status) none' (fun _ => by simp) ?_
    intro _ past'' none'' _ _
    split
    · exact answers_complete (.dropActive id) none'' (fun _ => by simp) fun _ _ none₃ _ _ => none₃
    · exact none''

theorem wp_deleteSession_complete {r : RedisStore} {id : String} (uuid : isUuid id = true)
    (none_ : NonePending past) :
    (r.deleteSession id).wp (completeLogic b call) (fun _ past' => NonePending past') past := by
  refine wp_deleteSession (answers_complete (.readSession id) none_ (fun _ => by simp) ?_)
  intro h past' none' _ read
  rcases parseSession_complete uuid read with ⟨session, eq⟩ | eq
  · rw [eq]
    dsimp only
    rw [deletePipeline_eq]
    refine answersAll_complete none' (fun op member other same => ?_) fun _ kept => kept
    subst same
    rw [deleteOps] at member
    split at member <;> simp at member
  · rw [eq]
    exact none'

theorem wp_grantAccess_complete {r : RedisStore} {id userID role : String}
    (none_ : NonePending past) :
    (r.grantAccess id userID role).wp (completeLogic b call)
      (fun _ past' => NonePending past') past := by
  refine wp_grantAccess (answers_complete (.existsSession id) none_ (fun _ => by simp) ?_)
  intro found past' none' _ _
  cases found with
  | false => exact none'
  | true =>
    refine answers_complete (.writeRole id userID role) none' (fun _ => by simp) ?_
    intro _ _ none'' _ _
    exact answers_complete (.expireAccess id _) none'' (fun _ => by simp) fun _ _ none₃ _ _ => none₃

/-- Every store method keeps the contract. -/
theorem covers_complete (sc : StoreCall) : b.completing.Covers (.store sc) := by
  have result : ∀ {α : Type} {p : Go α} {f : α → Result},
      p.wp (completeLogic b (.store sc))
        (fun a past' => NonePending past' ∧ sc.Answered (f a)) [] →
      (p >>= fun a => Prog.done (f a)).wp (completeLogic b (.store sc))
        (b.completing.Post (.store sc)) [] := by
    intro α p f holds
    rw [Prog.wp_bind]
    refine Prog.wp_mono holds fun a past' ⟨none', answered⟩ => ⟨none', fun sc' same => ?_⟩
    cases same
    exact answered
  have quiet : ∀ {α : Type} {p : Go α} {f : α → Result}, (∀ a, sc.Answered (f a)) →
      p.wp (completeLogic b (.store sc)) (fun _ past' => NonePending past') [] →
      (p >>= fun a => Prog.done (f a)).wp (completeLogic b (.store sc))
        (b.completing.Post (.store sc)) [] :=
    fun answered holds => result (Prog.wp_mono holds fun a _ none' => ⟨none', answered a⟩)
  have none_ := nonePending_nil
  cases sc with
  | createSession session =>
    exact quiet (fun _ => trivial) (wp_createSession_complete none_)
  | getSession id =>
    refine result (wp_getSession ?_)
    refine answers_complete (.readSession id) none_ (fun _ => by simp) ?_
    intro h past' none' _ read
    rcases parseSession_complete id.2 read with ⟨session, eq⟩ | eq
    · exact ⟨none', .inl ⟨session, by rw [eq]⟩⟩
    · exact ⟨none', .inr (by rw [eq])⟩
  | getSessionByRoomCode code =>
    exact quiet (fun _ => trivial) (wp_getSessionByRoomCode_complete none_)
  | updateSessionStatus id status =>
    exact quiet (fun _ => trivial) (wp_updateSessionStatus_complete none_)
  | deleteSession id =>
    exact quiet (fun _ => trivial) (wp_deleteSession_complete id.2 none_)
  | getExpiredSessions now =>
    refine result (wp_getExpiredSessions ?_)
    refine answers_complete (.readActive (unix now)) none_ (fun _ => by simp) ?_
    intro ids past' none' sound _
    refine Prog.wp_mono (wp_collectExpired_complete none' sound.2) ?_
    intro _ past'' post
    rcases post with ⟨none'', found, rfl⟩
    exact ⟨none'', found, rfl⟩
  | getRole id userID =>
    exact quiet (fun _ => trivial) (wp_getRole (answers_complete (.readRole id userID) none_
      (fun _ => by simp) fun _ _ none' _ _ => none'))
  | grantAccess id userID role =>
    exact quiet (fun _ => trivial) (wp_grantAccess_complete none_)
  | revokeAccess id userID =>
    exact quiet (fun _ => trivial) (wp_revokeAccess (answers_complete (.dropRole id userID) none_
      (fun _ => by simp) fun _ _ none' _ _ => none'))
  | hasAccess id userID =>
    exact quiet (fun _ => trivial) (wp_hasAccess (answers_complete (.hasRole id userID) none_
      (fun _ => by simp) fun _ _ none' _ _ => none'))
  | getUserSessions userID =>
    refine result (wp_getUserSessions ?_)
    refine answers_complete (.readUser userID) none_ (fun _ => by simp) ?_
    intro ids past' none' sound _
    refine Prog.wp_mono (wp_collectUserSessions_complete none' (sound.2 userID rfl)) ?_
    intro _ past'' post
    rcases post with ⟨none'', found, rfl⟩
    exact ⟨none'', found, rfl⟩
  | addIngressID id ingressID =>
    refine quiet (fun _ => trivial) (wp_addIngressID ?_)
    refine answers_complete (.addIngress id ingressID) none_ (fun _ => by simp) ?_
    intro _ _ none' _ _
    refine answers_complete (.expireIngress id _) none' (fun _ => by simp) ?_
    exact fun _ _ none'' _ _ => none''
  | getIngressIDs id =>
    exact quiet (fun _ => trivial) (wp_getIngressIDs (answers_complete (.readIngress id) none_
      (fun _ => by simp) fun _ _ none' _ _ => none'))
  | ping =>
    refine quiet (fun _ => trivial) ?_
    rw [ping, Prog.wp_bind]
    exact wp_redis (answers_complete .ping none_ (fun _ => by simp) fun _ _ none' _ _ => none')

/-! ## Every reachable state -/

variable {s₀ s : Pool (b.system noFaults)}

/-- A status is written only to a session that still exists. -/
def StatusOnStored (s : Pool (b.system noFaults)) : Move (b.system noFaults) → Prop
  | .exec _ e => ∀ id status, e.cmd = .redis (Op.writeStatus id status).cmd → Stored s id
  | _ => True

/-- Every session hash is complete, and one without an expiry is still to get it. -/
def HashesComplete (s : Pool (b.system noFaults)) : Prop :=
  ∀ id, isUuid id = true → ∀ entry, s.world.redis (sessionKey id) = some entry →
    (∃ session, entry.value = .hash (encode session)) ∧
      (entry.expireAt = none → ∃ t ∈ s.threads, Pending id t.past)

theorem HashesComplete.start (complete : HashesComplete s) :
    HashesComplete
      (⟨s.world, s.threads ++ [⟨call, [], b.code call⟩]⟩ : Pool (b.system noFaults)) := by
  intro id uuid entry found
  obtain ⟨full, pending⟩ := complete id uuid entry found
  refine ⟨full, fun noExpiry => ?_⟩
  obtain ⟨t, member, pends⟩ := pending noExpiry
  exact ⟨t, List.mem_append_left _ member, pends⟩

theorem HashesComplete.tick {now : Nat} (complete : HashesComplete s) :
    HashesComplete (⟨s.world.at_ now, s.threads⟩ : Pool (b.system noFaults)) := by
  intro id uuid entry found
  rcases Redis.Db.expire_cases s.world.redis (sessionKey id) now with same | gone
  · exact complete id uuid entry (same ▸ found)
  · rw [World.at_redis, gone] at found
    cases found

/-- A hash read from complete ones is absent or complete. -/
theorem HashesComplete.reads {c : Cmd} {r : c.Reply} {world : World} (complete : HashesComplete s)
    (typed : Typed s.world.redis) (exec : Exec noFaults s.world c r world) : c.ReadsComplete r := by
  cases c
  case redis c =>
    cases c <;> try trivial
    case hgetall key =>
      rcases r with err | h
      · trivial
      · intro id same uuid
        subst same
        obtain ⟨o, rfl⟩ := reply_of_exec (.readSession id) typed uuid exec
        change hashOf (s.world.redis (sessionKey id)) = ∅ ∨
          ∃ session, hashOf (s.world.redis (sessionKey id)) = encode session
        cases found : s.world.redis (sessionKey id) with
        | none => exact .inl rfl
        | some entry =>
          obtain ⟨⟨session, eq⟩, _⟩ := complete id uuid entry found
          obtain ⟨value, expireAt⟩ := entry
          cases eq
          exact .inr ⟨session, rfl⟩
  all_goals trivial

/-- What an expiry command does to a complete hash. -/
theorem complete_after_expire {id : String} {ttl : Nat} {world : World} {r : Except Err Bool}
    {entry : Redis.Entry} (complete : HashesComplete s) (uuid : isUuid id = true)
    (exec : Exec noFaults s.world (.redis (Op.expireSession id ttl).cmd) r world)
    (found : world.redis (sessionKey id) = some entry) :
    (∃ session, entry.value = .hash (encode session)) ∧ entry.expireAt ≠ none := by
  rcases exec with ⟨order, _, rfl⟩ | ⟨err, impossible, _⟩
  · simp only [Op.cmd, Redis.exec] at found
    split at found
    · rw [Redis.Db.erase_self] at found
      cases found
    · rw [Redis.Db.deadline_self] at found
      obtain ⟨old, at_, rfl⟩ := Option.map_eq_some_iff.mp found
      exact ⟨(complete id uuid old at_).1, by simp⟩
  · exact impossible.elim

/-- What an operation that is not an expiry leaves in a session key: the entry it had, its status
changed, or a session just written. -/
theorem session_entry_apply {op : Op} {db : Redis.Db} {now : Nat} {id : String}
    {entry : Redis.Entry} (wf : op.Wf) (uuid : isUuid id = true)
    (other : ∀ ttl, op ≠ .expireSession id ttl)
    (found : op.apply now db (sessionKey id) = some entry) :
    db (sessionKey id) = some entry ∨
      (∃ status, op = .writeStatus id status ∧ entry.value =
        .hash ((hashOf (db (sessionKey id))).insert "status" status) ∧
        entry.expireAt = (db (sessionKey id)).bind Redis.Entry.expireAt) ∨
      ∃ session, op = .writeSession session ∧ session.id = id ∧
        entry.value = .hash (encode session) := by
  rw [Op.apply_session wf uuid] at found
  split at found
  · next own =>
    cases op <;> cases own
    case existsSession | readSession => exact .inl found
    case writeSession session =>
      cases found
      exact .inr (.inr ⟨session, rfl, rfl, rfl⟩)
    case writeStatus status =>
      cases found
      exact .inr (.inl ⟨status, rfl, rfl, rfl⟩)
    case expireSession ttl => exact absurd rfl (other ttl)
    case delSession => cases found
  · exact .inl found

/-- One command of a store call keeps the hashes complete, if it writes no status to a session that
has disappeared. -/
theorem HashesComplete.exec {i : Nat} {t : Thread (b.system noFaults)} {c : Cmd} {r : c.Reply}
    {world : World} {prog : Go Result} (complete : HashesComplete s) (typed : Typed s.world.redis)
    (at_ : s.threads[i]? = some t) (issued : Issued t.call t.past c)
    (allowed : b.completing.Allows t.call t.past c)
    (guard : StatusOnStored s (.exec i ⟨c, r⟩)) (exec : Exec noFaults s.world c r world) :
    HashesComplete (s.advance i t ⟨c, r⟩ world prog) := by
  intro id uuid entry found
  rw [Pool.advance_world] at found
  by_cases expiry : ∃ ttl, c = .redis (Op.expireSession id ttl).cmd
  · obtain ⟨ttl, rfl⟩ := expiry
    obtain ⟨full, some_⟩ := complete_after_expire complete uuid exec found
    exact ⟨full, fun none_ => absurd none_ some_⟩
  -- a thread that is to set the expiry issues nothing else, so it is not the moved one
  have still : (∃ t' ∈ s.threads, Pending id t'.past) →
      ∃ t' ∈ (s.advance i t ⟨c, r⟩ world prog).threads, Pending id t'.past := by
    intro holds
    rcases holds with ⟨t', member, pending⟩
    rcases Pool.mem_of_mem_advance ⟨c, r⟩ world prog at_ member with rfl | stays
    · exact absurd (allowed.1 id pending) expiry
    · exact ⟨t', stays, pending⟩
  have kept : s.world.redis (sessionKey id) = some entry →
      (∃ session, entry.value = .hash (encode session)) ∧ (entry.expireAt = none →
        ∃ t' ∈ (s.advance i t ⟨c, r⟩ world prog).threads, Pending id t'.past) := by
    intro old
    obtain ⟨full, pending⟩ := complete id uuid entry old
    exact ⟨full, fun noExpiry => still (pending noExpiry)⟩
  rcases exec_redis_cases typed issued exec with same | ⟨op, wf, rfl, _, changed⟩
  · exact kept (same ▸ found)
  · have other : ∀ ttl, op ≠ .expireSession id ttl := by
      intro ttl agrees
      subst agrees
      exact expiry ⟨ttl, rfl⟩
    rw [changed] at found
    rcases session_entry_apply wf uuid other found with
      old | ⟨status, rfl, value, deadline⟩ | ⟨session, rfl, own, value⟩
    · exact kept old
    · have stored : Stored s id := guard id status rfl
      obtain ⟨old, at_⟩ := Option.isSome_iff_exists.mp stored
      obtain ⟨⟨session, full⟩, pending⟩ := complete id uuid old at_
      obtain ⟨oldValue, oldDeadline⟩ := old
      cases full
      rw [at_] at value deadline
      have updated : entry.value = .hash (encode { session with status }) := by
        rw [value, ← insert_status_encode]
        rfl
      exact ⟨⟨_, updated⟩, fun none_ => still (pending (deadline.symm.trans none_))⟩
    · refine ⟨⟨session, value⟩, fun _ => ⟨_, Pool.moved_mem_advance at_, session, r, own, ?_⟩⟩
      exact List.getLast?_concat

/-- Store calls only, and no status written to a session that has disappeared. -/
def WritesMeetSessions (s : Pool (b.system noFaults)) (m : Move (b.system noFaults)) : Prop :=
  StoreOnly s m ∧ StatusOnStored s m

theorem complete_encode (session : Session) : CompleteHash (encode session) := by
  have createdAt : field (encode session) "created_at" = session.createdAt.formatRFC3339 := by
    rw [field, encode_eq]
    simp
  have maxCameras : field (encode session) "max_cameras" = formatInt32 session.maxCameras := by
    rw [field, encode_eq]
    simp
  refine ⟨?_, ?_, ?_⟩
  · intro name member
    simp only [List.mem_cons, List.not_mem_nil, or_false] at member
    rcases member with rfl | rfl | rfl | rfl | rfl | rfl <;>
      simp [encode_eq, Finmap.mem_insert]
  · rw [createdAt, UtcTime.parseRFC3339_formatRFC3339]
    rfl
  · rw [maxCameras, parseInt32_formatInt32]
    rfl

/-- Every reachable state has complete hashes, and every thread keeps its contract. -/
theorem reach_complete (empty : s₀.world.redis = .empty) (none_ : s₀.threads = [])
    (reach : Pool.Reach WritesMeetSessions s₀ s) :
    HashesComplete s ∧ ∀ t ∈ s.threads, b.completing.Follows t ∧ b.completing.Kept t := by
  have typed : Typed s₀.world.redis := by
    rw [empty]
    exact typed_empty
  have start : HashesComplete s₀ := by
    intro id _ entry found
    rw [empty] at found
    cases found
  refine Pool.Reach.contract (C := b.completing) start none_ ?_ ?_ ?_ ?_ reach
  · intro s call guard
    obtain ⟨storeOnly, _⟩ := guard
    cases call with
    | store sc => exact covers_complete sc
    | _ => cases storeOnly
  · intro s call _ complete _
    exact complete.start
  · intro s i t c k r world reached complete _ guard at_ next allowed exec
    obtain ⟨typed', issued⟩ := reach_issued typed none_ reached at_ next
    have sound := (typed_exec typed' issued exec).1
    have succeeds := succeeds_of_exec typed' issued exec
    have reads := complete.reads typed' exec
    exact ⟨⟨succeeds, sound, reads⟩, complete.exec typed' at_ issued allowed guard.2 exec⟩
  · intro s t world _ complete _ env
    obtain ⟨_, rfl⟩ := env
    exact complete.tick

/-- A `CreateSession` of the session is in flight. -/
def Creating (s : Pool (b.system noFaults)) (id : String) : Prop :=
  ∃ t ∈ s.threads, t.InFlight ∧
    ∃ new : NewSession, t.call = .store (.createSession new) ∧ new.1.id = id

/-- A thread that still has to set an expiry is a `CreateSession` in flight. -/
theorem creating_of_pending {t : Thread (b.system noFaults)} {id : String}
    (follows : b.completing.Follows t) (kept : b.completing.Kept t) (member : t ∈ s.threads)
    (pending : Pending id t.past) : Creating s id := by
  obtain ⟨session, r, own, last⟩ := pending
  obtain ⟨before, split⟩ := List.getLast?_eq_some_iff.mp last
  obtain ⟨⟨_, creates⟩, _⟩ := kept before _ [] split
  obtain ⟨new, call, same⟩ := creates session rfl
  have inFlight : t.InFlight := by
    intro returned
    obtain ⟨result, done⟩ := returned.exists_eq
    have quiet := (follows.post done).1
    exact quiet id ⟨session, r, own, last⟩
  exact ⟨t, member, inFlight, new, call, same.trans own⟩

/-- In every state that moves under `G` reach: the hash of a session no `CreateSession` is writing
is complete and expires, and what the store methods have returned shows no incomplete one. -/
def AllComplete (G : Pool (b.system noFaults) → Move (b.system noFaults) → Prop)
    (s₀ : Pool (b.system noFaults)) : Prop :=
  ∀ s, Pool.Reach G s₀ s →
    (∀ id, isUuid id = true → ¬ Creating s id → ∀ entry,
      s.world.redis (sessionKey id) = some entry →
        (∃ h, entry.value = .hash h ∧ CompleteHash h) ∧ entry.expireAt.isSome = true) ∧
    ∀ t ∈ s.threads, ∀ sc result, t.call = .store sc → t.prog = .done result → sc.Answered result

/-- **Complete hashes**: as long as no status is written to a session that has disappeared since
it was looked up, every session hash is complete and expires. -/
theorem session_hashes_complete (empty : s₀.world.redis = .empty) (none_ : s₀.threads = []) :
    AllComplete WritesMeetSessions s₀ := by
  intro s reach
  obtain ⟨complete, threads⟩ := reach_complete empty none_ reach
  constructor
  · intro id uuid settled entry found
    obtain ⟨⟨session, value⟩, pending⟩ := complete id uuid entry found
    refine ⟨⟨_, value, complete_encode session⟩, ?_⟩
    by_contra noExpiry
    obtain ⟨t, member, pends⟩ := pending (Option.not_isSome_iff_eq_none.mp noExpiry)
    obtain ⟨follows, kept⟩ := threads t member
    exact settled (creating_of_pending follows kept member pends)
  · intro t member sc result call done
    obtain ⟨follows, _⟩ := threads t member
    exact (follows.post done).2 sc call

end CompleteHashes

/-- The empty pool of the sample backend. -/
theorem session_hashes_complete_sample :
    AllComplete WritesMeetSessions (Sample.start .never 7) :=
  session_hashes_complete rfl rfl

namespace Sample

/-- The session of the first UUID. -/
def newSession : NewSession := ⟨⟨id₁, "ROOM-000007", "alice", createdAt, 2, "active"⟩, uuid_id₁⟩

/-- A session expires between the two commands of an `UpdateSessionStatus`, and is then read. -/
noncomputable def closedTooLate : Option (Pool (system .never)) :=
  replay isStoreCall
    (.start (.store (.createSession newSession)) :: go 0 (List.replicate 7 .plain) ++
      .start (.store (.updateSessionStatus ⟨id₁, uuid_id₁⟩ statusClosed)) :: go 1 [.plain] ++
      .tick (86400 * second) :: go 1 (List.replicate 2 .plain) ++
      .start (.store (.getSession ⟨id₁, uuid_id₁⟩)) :: go 2 [.plain])
    (start .never 7)

end Sample

/-- A status written to a session that has just expired leaves a hash of the status alone, without
an expiry. -/
theorem session_hashes_incomplete : ¬ AllComplete StoreOnly (Sample.start .never 7) := by
  intro all
  have observed : (Sample.closedTooLate.any fun s =>
      decide (s.world.redis (sessionKey Sample.id₁) =
        some ⟨.hash (Finmap.insert "status" statusClosed ∅), none⟩) &&
        s.threads.all fun t => decide t.prog.Returned) = true := by
    decide +kernel
  obtain ⟨s, computed, observed⟩ := (Option.any_eq_true _ _).mp observed
  obtain ⟨partial_, quiet⟩ := Bool.and_eq_true_iff.mp observed
  have reach := (Sample.reach_of_replay computed).mono fun _ _ => Sample.storeOnly_of_isStoreCall
  have settled : ¬ Creating s Sample.id₁ := by
    intro creating
    obtain ⟨t, member, inFlight, _⟩ := creating
    exact inFlight (of_decide_eq_true (List.all_eq_true.mp quiet t member))
  have complete := (all s reach).1 Sample.id₁ (by decide) settled _ (of_decide_eq_true partial_)
  exact absurd complete.2 (by decide)

end DirectLink
