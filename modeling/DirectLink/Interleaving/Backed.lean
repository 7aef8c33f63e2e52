import DirectLink.Interleaving.Origins
import DirectLink.Runs

/-!
# Every answer goes back to a call that asked for it

* `Backed`: what a reply says about a session, a room code, a user's sessions or a role is what some
  call wrote there, or asked to have written.
* `reach_sourced`: whatever Redis has answered, and whatever it would answer now, is backed, in
  every state that requests and sweeps reach, whatever fails.
* `own_sessions_only`: `GetMySessions` lists the caller's own sessions, each once and as created.
* `access_was_asked`: whoever has a role in a session created it or named its room code.
* `credentials_rest_on`: what a successful `JoinSession` has done before it answers.
-/

namespace DirectLink

open RedisStore

section Backed

variable {b : Backend} {faults : Cmd → Err → Prop}
variable {G : Pool (b.system faults) → Move (b.system faults) → Prop}
variable {s₀ s s' : Pool (b.system faults)}

/-- Some call created the session and sent the write of its hash. -/
def Wrote (s : Pool (b.system faults)) (orig : Session) : Prop :=
  ∃ t ∈ s.threads, HasWritten t.call t.past orig

/-- Some call asked for the user to be recorded with the role. -/
def Requested (s : Pool (b.system faults)) (id userID role : String) : Prop :=
  ∃ t ∈ s.threads, Asked t.call t.past id userID role

/-- The session as its creation wrote it, but for a status that is active or closed. -/
def AsWritten (s : Pool (b.system faults)) (id : String) (sess : Session) : Prop :=
  ∃ orig status, Wrote s orig ∧ orig.id = id ∧ (status = "active" ∨ status = statusClosed) ∧
    sess = { orig.truncate with status }

/-- What the reply to an operation says goes back to calls that asked for it. -/
def Backed (s : Pool (b.system faults)) : (op : Op) → op.cmd.Reply → Prop
  | .readSession id, h => ∀ sess, parseSession h = .ok sess → AsWritten s id sess
  | .getCode code, found => ∀ id ∈ found, ∃ orig, Wrote s orig ∧ orig.id = id ∧
      orig.roomCode = code
  | .readUser userID, ids => ∀ id ∈ ids, ∃ orig, Wrote s orig ∧ orig.id = id ∧
      orig.createdBy = userID
  | .readRole id userID, found => ∀ role ∈ found, Requested s id userID role
  | .hasRole id userID, there => there = true → ∃ role, Requested s id userID role
  | _, _ => True

/-! ### Backing is kept -/

theorem Wrote.extends {orig : Session} (more : Pool.Extends s s') (wrote : Wrote s orig) :
    Wrote s' orig := by
  obtain ⟨t, member, written⟩ := wrote
  obtain ⟨t', member', same, grown⟩ := more t member
  exact ⟨t', member', same ▸ written.grow grown⟩

theorem Requested.extends {id userID role : String} (more : Pool.Extends s s')
    (requested : Requested s id userID role) : Requested s' id userID role := by
  obtain ⟨t, member, asked⟩ := requested
  obtain ⟨t', member', same, grown⟩ := more t member
  exact ⟨t', member', same ▸ asked.grow grown⟩

theorem AsWritten.extends {id : String} {sess : Session} (more : Pool.Extends s s')
    (recorded : AsWritten s id sess) : AsWritten s' id sess := by
  obtain ⟨orig, status, wrote, rest⟩ := recorded
  exact ⟨orig, status, wrote.extends more, rest⟩

theorem Backed.extends {op : Op} {v : op.cmd.Reply} (more : Pool.Extends s s')
    (backed : Backed s op v) : Backed s' op v := by
  have wrote : ∀ {P : Session → Prop}, (∃ orig, Wrote s orig ∧ P orig) →
      ∃ orig, Wrote s' orig ∧ P orig := by
    intro P holds
    rcases holds with ⟨orig, wrote, rest⟩
    exact ⟨orig, wrote.extends more, rest⟩
  cases op
  case readSession id => exact fun sess parsed => (backed sess parsed).extends more
  case getCode code => exact fun id found => wrote (backed id found)
  case readUser userID => exact fun id listed => wrote (backed id listed)
  case readRole id userID => exact fun role found => (backed role found).extends more
  case hasRole id userID =>
    intro there
    obtain ⟨role, requested⟩ := backed there
    exact ⟨role, requested.extends more⟩
  all_goals trivial

/-- The database is backed: whatever it would answer is. -/
def BackedDb (s : Pool (b.system faults)) (db : Redis.Db) : Prop :=
  ∀ (op : Op) (o : Redis.Order), op.Wf → Backed s op (op.reply o (op.entry db))

theorem BackedDb.extends {db : Redis.Db} (more : Pool.Extends s s') (backed : BackedDb s db) :
    BackedDb s' db :=
  fun op o wf => (backed op o wf).extends more

theorem apply_user {op : Op} {db : Redis.Db} {now : Nat} {userID : String} (wf : op.Wf) :
    op.apply now db (userSessionsKey userID) =
      if op.key = some (.userSessions userID) then op.effect now (db (userSessionsKey userID))
      else db (userSessionsKey userID) :=
  Op.apply_at (k := .userSessions userID) wf trivial

/-- An operation adds a session to the set of a user only by listing it there. -/
theorem mem_user_apply {op : Op} {db : Redis.Db} {now : Nat} {userID id : String} (wf : op.Wf)
    (member : id ∈ setOf (op.apply now db (userSessionsKey userID))) :
    id ∈ setOf (db (userSessionsKey userID)) ∨ op = .addUserSession userID id := by
  rw [apply_user wf] at member
  split at member
  · next own =>
    cases op <;> cases own <;> simp only [Op.effect, setOf_redate, setOf_keep] at member
    case addUserSession other =>
      rcases Finset.mem_insert.mp member with rfl | old
      · exact .inr rfl
      · exact .inl old
    case dropUserSession other =>
      split at member
      · cases member
      · exact .inl (Finset.mem_of_mem_erase member)
    all_goals exact .inl member
  · exact .inl member

/-- An operation gives a role only by recording it. -/
theorem role_apply {op : Op} {db : Redis.Db} {now : Nat} {id userID role : String} (wf : op.Wf)
    (uuid : isUuid id = true)
    (found : (hashOf (op.apply now db (accessKey id))).lookup userID = some role) :
    (hashOf (db (accessKey id))).lookup userID = some role ∨ op = .writeRole id userID role := by
  rw [Op.apply_access wf uuid] at found
  split at found
  · next own =>
    cases op <;> cases own <;> simp only [Op.effect, hashOf_redate, hashOf_keep] at found
    case writeRole user other =>
      rw [Redis.lookup_insert] at found
      split at found
      · next same =>
        cases same
        cases found
        exact .inr rfl
      · exact .inl found
    case dropRole user =>
      split at found
      · cases found
      · rw [hashOf_keep, Redis.lookup_erase] at found
        split at found
        · cases found
        · exact .inl found
    case delAccess => cases found
    all_goals exact .inl found
  · exact .inl found

/-- A session that can be read after an operation is recorded, where the operation was issued as
the contract says. -/
theorem recorded_apply {call : Call} {past : List (Event backend)} {op : Op} {db : Redis.Db}
    {now : Nat} {id : String} {sess : Session} (typed : Typed db) (wf : op.Wf)
    (answers : Answers call past op) (backed : BackedDb s db)
    (wrote : ∀ new, op = .writeSession new → Wrote s new) (uuid : isUuid id = true)
    (live : Live (op.apply now db) id sess) : AsWritten s id sess := by
  have status := live.status (typed.apply wf) uuid
  rcases live_apply typed wf uuid live with ⟨old, status', live', rfl, other⟩ | ⟨new, rfl, own, rfl⟩
  · obtain ⟨orig, status₀, written, same, known, rfl⟩ :=
      backed (.readSession id) (.preferring [] .nil) uuid old live'
    refine ⟨orig, status', written, same, ?_, rfl⟩
    rcases statusOf_apply now db wf uuid with
      kept | ⟨new, rfl, own, _⟩ | ⟨written', rfl, stored⟩ | rfl
    · rw [kept, live'.status typed uuid] at status
      cases status
      exact known
    · exact absurd own (other new rfl)
    · rw [stored] at status
      cases status
      exact .inr answers
    · exact answers.elim
  · obtain ⟨_, _, _, _, active, _⟩ : Creates call past new := answers
    exact ⟨new, new.status, wrote new rfl, own, .inl active, rfl⟩

/-- An operation issued as the contract says leaves the database backed. -/
theorem BackedDb.apply {call : Call} {past : List (Event backend)} {op : Op} {db : Redis.Db}
    {now : Nat} (typed : Typed db) (wf : op.Wf) (answers : Answers call past op)
    (backed : BackedDb s db) (wrote : ∀ new, op = .writeSession new → Wrote s new)
    (written : ∀ orig, HasWritten call past orig → Wrote s orig)
    (asked : ∀ id userID role, Asked call past id userID role → Requested s id userID role) :
    BackedDb s (op.apply now db) := by
  have role : ∀ id userID role, isUuid id = true →
      (hashOf (op.apply now db (accessKey id))).lookup userID = some role →
      Requested s id userID role := by
    intro id userID role uuid found
    rcases role_apply wf uuid found with old | rfl
    · exact backed (.readRole id userID) (.preferring [] .nil) uuid role old
    · exact asked id userID role answers
  intro op' o wf'
  cases op'
  case readSession id =>
    exact fun sess live => recorded_apply typed wf answers backed wrote wf' live
  case getCode code =>
    intro id found
    rcases code_apply now db code wf with same | ⟨id', ttl, rfl⟩ | rfl
    · have found' : id ∈ strOf (db (roomCodeKey code)) := same ▸ found
      exact backed (.getCode code) o trivial id found'
    · have found' : id ∈ strOf ((Op.setCode code id' ttl).apply now db (roomCodeKey code)) := found
      rw [show (Op.setCode code id' ttl).apply now db (roomCodeKey code) =
        some ⟨.str id', some (now + ttl)⟩ from Redis.Db.assign_self] at found'
      cases found'
      obtain ⟨sess, has, own, code'⟩ := answers
      exact ⟨sess, written sess has, own, code'⟩
    · exact answers.elim
  case readUser userID =>
    intro id listed
    rcases mem_user_apply wf (Redis.Order.mem_list.mp listed) with old | rfl
    · exact backed (.readUser userID) o trivial id (Redis.Order.mem_list.mpr old)
    · obtain ⟨sess, has, own, owner⟩ := answers
      exact ⟨sess, written sess has, own, owner⟩
  case readRole id userID => exact fun r found => role id userID r wf' found
  case hasRole id userID =>
    intro there
    obtain ⟨r, found⟩ := Option.isSome_iff_exists.mp there
    exact ⟨r, role id userID r wf' found⟩
  all_goals trivial

/-- A missing key says nothing. -/
theorem backed_none (op : Op) (o : Redis.Order) : Backed s op (op.reply o none) := by
  cases op
  case readSession id =>
    intro sess parsed
    rw [Op.reply, hashOf_none, parseSession_empty] at parsed
    cases parsed
  case getCode | readRole =>
    intro _ found
    cases found
  case readUser userID =>
    intro id listed
    exact absurd (Redis.Order.mem_list.mp listed) (Finset.notMem_empty id)
  case hasRole id userID =>
    intro there
    cases there
  all_goals trivial

theorem BackedDb.expire {db : Redis.Db} (backed : BackedDb s db) (now : Nat) :
    BackedDb s (db.expire now) := by
  intro op o wf
  have entry : op.entry (db.expire now) = op.entry db ∨ op.entry (db.expire now) = none := by
    rw [Op.entry, Op.entry]
    cases op.key with
    | none => exact .inr rfl
    | some k => exact Redis.Db.expire_cases db k.text now
  rcases entry with same | gone
  · rw [same]
    exact backed op o wf
  · rw [gone]
    exact backed_none op o

/-! ### Every reachable state -/

/-- The database is backed and so is every answer given so far. -/
structure Sourced (s : Pool (b.system faults)) : Prop where
  stored : BackedDb s s.world.redis
  told : ∀ (op : Op) (v : op.cmd.Reply), op.Wf → s.Got op v → Backed s op v

theorem sourced_start (empty : s₀.world.redis = .empty) (none_ : s₀.threads = []) : Sourced s₀ := by
  constructor
  · intro op o wf
    have absent : op.entry s₀.world.redis = none := by
      rw [Op.entry, empty]
      cases op.key <;> rfl
    rw [absent]
    exact backed_none op o
  · intro op v _ holds
    rcases holds with ⟨t, member, _⟩
    rw [none_] at member
    cases member

theorem Sourced.start {call : Call} (sourced : Sourced s) :
    Sourced (⟨s.world, s.threads ++ [⟨call, [], b.code call⟩]⟩ : Pool (b.system faults)) where
  stored := sourced.stored.extends Pool.extends_start
  told op v wf got := (sourced.told op v wf (Pool.seen_start.mp got)).extends Pool.extends_start

theorem Sourced.tick {now : Nat} (sourced : Sourced s) :
    Sourced (⟨s.world.at_ now, s.threads⟩ : Pool (b.system faults)) where
  stored := (sourced.stored.expire now).extends Pool.extends_tick
  told op v wf got := (sourced.told op v wf got).extends Pool.extends_tick

/-- One command that the contract admits keeps everything backed. -/
theorem Sourced.exec {i : Nat} {t : Thread (b.system faults)} {c : Cmd} {r : c.Reply}
    {world : World} {prog : Go Result} (sourced : Sourced s) (typed : Typed s.world.redis)
    (at_ : s.threads[i]? = some t) (admits : Admits t.call t.past c)
    (exec : Exec faults s.world c r world) : Sourced (s.advance i t ⟨c, r⟩ world prog) := by
  have more : Pool.Extends s (s.advance i t ⟨c, r⟩ world prog) := Pool.extends_advance at_
  have moved : (⟨t.call, t.past ++ [⟨c, r⟩], prog⟩ : Thread (b.system faults)) ∈
      (s.advance i t ⟨c, r⟩ world prog).threads := Pool.moved_mem_advance at_
  have grown : t.past ⊆ t.past ++ [(⟨c, r⟩ : Event backend)] := List.subset_append_left ..
  have stored := sourced.stored.extends more
  constructor
  · rw [Pool.advance_world]
    cases c
    case redis c =>
      obtain ⟨op, wf, rfl, answers⟩ := admits
      have applied : BackedDb (s.advance i t ⟨.redis op.cmd, r⟩ world prog)
          (op.apply s.world.now s.world.redis) := by
        refine stored.apply typed wf (answers.grow grown) ?_ ?_ ?_
        · intro new same
          subst same
          have creates : Creates t.call t.past new := answers
          exact ⟨_, moved, creates.grow grown, r,
            List.mem_append_right _ (List.mem_singleton.mpr rfl)⟩
        · exact fun orig written => ⟨_, moved, written⟩
        · exact fun id userID role asked => ⟨_, moved, asked⟩
      rcases exec_op_cases typed wf exec with ⟨o, -, rfl⟩ | ⟨err, -, -, rfl | rfl⟩
      · exact applied
      · exact stored
      · exact applied
    all_goals rwa [(exec_frame (fun c' => by simp) exec).1]
  · intro op v wf got
    rcases (Pool.seen_advance at_).mp got with old | new
    · exact (sourced.told op v wf old).extends more
    · cases new
      obtain ⟨o, rfl⟩ := reply_of_exec op typed wf exec
      exact stored op o wf

/-- **Every answer is backed**: in every state that requests and sweeps reach from nothing,
whatever fails, whatever Redis answers or has answered goes back to calls that asked for it, and
every call keeps the contract. -/
theorem reach_sourced (empty : s₀.world.redis = .empty) (none_ : s₀.threads = [])
    (requests : ∀ s call, G s (.start call) → call.isStore = false)
    (reach : Pool.Reach G s₀ s) :
    Sourced s ∧
      ∀ t ∈ s.threads, (b.admissions faults).Follows t ∧ (b.admissions faults).Kept t := by
  have typed : Typed s₀.world.redis := by
    rw [empty]
    exact typed_empty
  refine Pool.Reach.contract (C := b.admissions faults) (sourced_start empty none_) none_
    (fun s call guard => covers_admissions (requests s call guard))
    (fun s call _ sourced _ => sourced.start) ?_ ?_ reach
  · intro s i t c k r world reached sourced _ _ at_ next admits exec
    obtain ⟨typed', issued⟩ := reach_issued typed none_ reached at_ next
    exact ⟨(typed_exec typed' issued exec).1, sourced.exec typed' at_ admits exec⟩
  · intro s t world _ sourced _ holds
    rcases holds with ⟨_, rfl⟩
    exact sourced.tick

/-! ### The sessions of a user -/

theorem Wrote.createdBy {orig : Session} (wrote : Wrote s orig) :
    CreatedBy s orig.id orig.createdBy := by
  obtain ⟨t, member, ⟨req, call, owner, _, _, fresh, _⟩, _⟩ := wrote
  exact ⟨t, member, req, call, owner.symm, fresh⟩

/-- What was read under distinct ids has those ids. -/
theorem ids_of_readBack {past : List (Event backend)} {ids : List String} {found : List Session}
    (uuid : ∀ id ∈ ids, isUuid id = true)
    (all : List.Forall₂ (ReadBack (fun e => e.cmd.Sound e.reply) past) ids found) :
    found.map Session.id = ids ∧ ∀ sess ∈ found, ∃ h, Got past (.readSession sess.id) h ∧
      parseSession h = .ok sess := by
  induction all with
  | nil => exact ⟨rfl, fun sess impossible => absurd impossible List.not_mem_nil⟩
  | @cons id sess ids found read _ ih =>
    obtain ⟨same, got⟩ := ih fun id' member => uuid id' (List.mem_cons_of_mem _ member)
    obtain ⟨h, sound, member, parsed⟩ := read
    have own := id_of_sound (uuid id List.mem_cons_self) sound parsed
    subst own
    refine ⟨by rw [List.map_cons, same], ?_⟩
    intro sess' member'
    rcases List.mem_cons.mp member' with rfl | later
    · exact ⟨h, member, parsed⟩
    · exact got sess' later

/-- **Own sessions only**: a successful `GetMySessions` lists, each once, sessions that a
`CreateSession` of the same user created, as it wrote them, but for a status that is active or
closed. -/
theorem own_sessions_only {t : Thread (b.system faults)} {req : GetMySessionsRequest}
    {reply : GetMySessionsReply} (empty : s₀.world.redis = .empty) (none_ : s₀.threads = [])
    (reach : Pool.Reach RequestsOnly s₀ s) (member : t ∈ s.threads)
    (call : t.call = .getMySessions req) (returned : t.prog = .done (.mySessions (.ok reply))) :
    (reply.sessions.map SessionInfo.sessionId).Nodup ∧ ∀ info ∈ reply.sessions,
      ∃ orig status, Wrote s orig ∧ orig.createdBy = req.userId ∧
        (status = "active" ∨ status = statusClosed) ∧
        info = Server.sessionInfo { orig.truncate with status } := by
  obtain ⟨sourced, keeps⟩ := reach_sourced empty none_ (fun _ _ guard => guard) reach
  have rests := (keeps t member).1.post returned
  rw [call] at rests
  obtain ⟨ids, ids', found, listed, nodup, sub, uuids, all, eq⟩ := rests
  have uuid : ∀ id ∈ ids', isUuid id = true := fun id mem => uuids id (sub.subset mem)
  obtain ⟨same, read⟩ := ids_of_readBack uuid all
  constructor
  · have ids_eq : reply.sessions.map SessionInfo.sessionId = ids' := by
      rw [eq, List.map_map, ← same]
      rfl
    rw [ids_eq]
    exact sub.nodup nodup
  · intro info inReply
    rw [eq] at inReply
    obtain ⟨sess, inFound, rfl⟩ := List.mem_map.mp inReply
    have mem : sess.id ∈ ids' := by
      rw [← same]
      exact List.mem_map_of_mem inFound
    obtain ⟨h, got, parsed⟩ := read sess inFound
    obtain ⟨orig, status, wrote, own, known, as_written⟩ :=
      sourced.told (.readSession sess.id) h (uuid sess.id mem) ⟨t, member, got⟩ sess parsed
    obtain ⟨mine, wrote', own', owner⟩ :=
      sourced.told (.readUser req.userId) ids trivial ⟨t, member, listed⟩ sess.id (sub.subset mem)
    have sole := reach_sole_uuid sess.id none_ reach
    have creator : CreatedBy s sess.id orig.createdBy := own ▸ wrote.createdBy
    have creator' : CreatedBy s sess.id mine.createdBy := own' ▸ wrote'.createdBy
    exact ⟨orig, status, wrote, (creator.unique sole creator').trans owner, known,
      congrArg Server.sessionInfo as_written⟩

end Backed

namespace Sample

/-- The creator of a session asks for her sessions. -/
noncomputable def listing : Option (Pool (system .never)) :=
  replay isRequest
    (.start (.createSession ⟨"alice", 2⟩) :: go 0 (create id₁) ++
      .start (.getMySessions ⟨"alice"⟩) :: go 1 [.order [id₁], .plain])
    (start .never 7)

/-- The call was answered with one session. -/
def listsOne (t : Thread (system .never)) : Bool :=
  match t.call, t.prog with
  | .getMySessions req, .done (.mySessions (.ok reply)) =>
    decide (req = ⟨"alice"⟩ ∧ reply.sessions.map SessionInfo.sessionId = [id₁])
  | _, _ => false

end Sample

theorem own_sessions_only_run : ∃ (s : Pool (Sample.system .never)) (reply : GetMySessionsReply),
    Pool.Reach RequestsOnly (Sample.start .never 7) s ∧
      reply.sessions.map SessionInfo.sessionId = [Sample.id₁] ∧
      (reply.sessions.map SessionInfo.sessionId).Nodup ∧ ∀ info ∈ reply.sessions,
        ∃ orig status, Wrote s orig ∧ orig.createdBy = "alice" ∧
          (status = "active" ∨ status = statusClosed) ∧
          info = Server.sessionInfo { orig.truncate with status } := by
  have observed : (Sample.listing.any fun s => s.threads.any Sample.listsOne) = true := by
    decide +kernel
  obtain ⟨s, computed, observed⟩ := (Option.any_eq_true _ _).mp observed
  have reach := (Sample.reach_of_replay computed).mono fun _ _ => Sample.requestsOnly_of_isRequest
  obtain ⟨t, member, lists⟩ := List.any_eq_true.mp observed
  rw [Sample.listsOne] at lists
  split at lists
  · next req reply call returned =>
    obtain ⟨rfl, one⟩ := of_decide_eq_true lists
    exact ⟨s, reply, reach, one, own_sessions_only rfl rfl reach member call returned⟩
  · cases lists

/-! ### Roles -/

section Roles

variable {b : Backend} {faults : Cmd → Err → Prop} {s₀ s : Pool (b.system faults)}

/-- The user may have the role in the session: she created it, or she asked to join it with that
role under its room code. -/
def Entitled (s : Pool (b.system faults)) (id userID role : String) : Prop :=
  ∃ orig, Wrote s orig ∧ orig.id = id ∧
    ((orig.createdBy = userID ∧ role = "director") ∨
      ∃ t ∈ s.threads, ∃ req, t.call = .joinSession req ∧ req.userId = userID ∧ req.role = role ∧
        req.roomCode = orig.roomCode ∧ (role = "camera" ∨ role = "director"))

theorem Sourced.entitled {id userID role : String} (sourced : Sourced s)
    (requested : Requested s id userID role) : Entitled s id userID role := by
  obtain ⟨t, member, asked⟩ := requested
  cases asked with
  | created orig written => exact ⟨orig, ⟨t, member, written⟩, rfl, .inl ⟨rfl, rfl⟩⟩
  | joined _ req h sess joins known named read parsed opened =>
    obtain ⟨orig, wrote, own, code⟩ :=
      sourced.told (.getCode req.roomCode) (some id) trivial ⟨t, member, named⟩ id rfl
    exact ⟨orig, wrote, own, .inr ⟨t, member, req, joins, rfl, rfl, code.symm, known⟩⟩

/-- **Access was asked for**: in every state that requests and sweeps reach, whatever fails, a user
who has a role in a session created that session and is its director, or asked to join it as a
camera or a director, under the room code it was created with. -/
theorem access_was_asked {id userID role : String} (empty : s₀.world.redis = .empty)
    (none_ : s₀.threads = []) (reach : Pool.Reach RequestsOnly s₀ s) (uuid : isUuid id = true)
    (found : (hashOf (s.world.redis (accessKey id))).lookup userID = some role) :
    Entitled s id userID role := by
  obtain ⟨sourced, -⟩ := reach_sourced empty none_ (fun _ _ guard => guard) reach
  have backed := sourced.stored (.readRole id userID) (.preferring [] .nil) uuid role found
  exact sourced.entitled backed

/-- What the credentials of a `JoinSession` with this history are: they are for the session created
with the room code it named.  It has read that session as active, has had the role recorded, and a
camera's ingress is in the room of the session, a director's token for her and that room. -/
def Credited (s : Pool (b.system faults)) (past : List (Event backend)) (req : JoinRequest)
    (reply : JoinReply) : Prop :=
  ∃ orig h sess, Wrote s orig ∧ req.roomCode = orig.roomCode ∧ Got past (.readSession orig.id) h ∧
    parseSession h = .ok sess ∧ sess.status = "active" ∧
    Acked past (Op.writeRole orig.id req.userId req.role).cmd ∧
    ((req.role = "camera" ∧ ∃ info : IngressInfo, Saw past
        (.createIngress ⟨.whip, orig.id, req.userId, req.userId, false⟩) (.ok info) ∧
        s.world.livekit.rooms info.ingressId = some orig.id ∧
        reply = ⟨"", "", info.url, info.streamKey⟩) ∨
      (req.role = "director" ∧ ∃ now token,
        b.server.toJWT now (b.server.directorToken req orig) = .ok token ∧
        reply = ⟨token, b.server.liveKitExternalURL, "", ""⟩))

theorem Sourced.credited {t : Thread (b.system faults)} {req : JoinRequest} {reply : JoinReply}
    (sourced : Sourced s) (records : Records s)
    (kept : ∀ t ∈ s.threads, (b.admissions faults).Kept t)
    (follows : (b.admissions faults).Follows t) (member : t ∈ s.threads)
    (call : t.call = .joinSession req) (returned : t.prog = .done (.join (.ok reply))) :
    Credited s t.past req reply := by
  have rests := follows.post returned
  rw [call] at rests
  obtain ⟨id, asked, recorded, given⟩ := rests
  generalize roleEq : req.role = role at asked
  generalize userEq : req.userId = user at asked
  cases asked with
  | created sess written =>
    obtain ⟨⟨_, impossible, _⟩, _⟩ := written
    cases impossible
  | joined _ req' h sess joins known named read parsed opened =>
    cases joins
    obtain ⟨orig, wrote, own, code⟩ :=
      sourced.told (.getCode req.roomCode) (some id) trivial ⟨t, member, named⟩ id rfl
    subst own
    have uuid : isUuid orig.id = true := by
      obtain ⟨t', member', ⟨_, _, _, _, _, fresh, _⟩, _⟩ := wrote
      exact (kept t' member').expects fresh
    obtain ⟨_, status, _, _, active, rfl⟩ :=
      sourced.told (.readSession orig.id) h uuid ⟨t, member, read⟩ sess parsed
    refine ⟨orig, h, _, wrote, code.symm, read, parsed, active.resolve_right opened, recorded, ?_⟩
    rcases given with ⟨camera, info, made, eq⟩ | ⟨director, now, token, sess, same, signed, eq⟩
    · exact .inl ⟨camera, info, made, records.created _ info ⟨t, member, made⟩, eq⟩
    · have token_eq : b.server.directorToken req sess = b.server.directorToken req orig := by
        rw [Server.directorToken, Server.directorToken, same]
      exact .inr ⟨director, now, token, token_eq ▸ signed, eq⟩

/-- **Credentials**: what a `JoinSession` that has returned credentials has done before, whatever
failed on the way. -/
theorem credentials_rest_on {t : Thread (b.system faults)} {req : JoinRequest} {reply : JoinReply}
    (empty : s₀.world.redis = .empty) (none_ : s₀.threads = [])
    (reach : Pool.Reach RequestsOnly s₀ s) (member : t ∈ s.threads)
    (call : t.call = .joinSession req) (returned : t.prog = .done (.join (.ok reply))) :
    Credited s t.past req reply := by
  obtain ⟨sourced, keeps⟩ := reach_sourced empty none_ (fun _ _ guard => guard) reach
  have records := reach_records empty none_ (fun _ _ guard => guard) reach
  exact sourced.credited records (fun t member => (keeps t member).2) (keeps t member).1 member call
    returned

end Roles

namespace Sample

def ingress : IngressInfo := ⟨"IN_1", "https://whip", "key"⟩

/-- A camera joins a session under its room code. -/
noncomputable def cameraJoins : Option (Pool (system .never)) :=
  replay isRequest
    (.start (.createSession ⟨"alice", 2⟩) :: go 0 (create id₁) ++
      .start (.joinSession ⟨"ROOM-000007", "bob", "camera"⟩) ::
        go 1 ([.plain, .plain, .ingress ingress] ++ List.replicate 6 .plain))
    (start .never 7)

/-- The call was answered with credentials. -/
def joined (t : Thread (system .never)) : Bool :=
  match t.call, t.prog with
  | .joinSession req, .done (.join (.ok _)) => decide (req = ⟨"ROOM-000007", "bob", "camera"⟩)
  | _, _ => false

end Sample

theorem access_was_asked_run : ∃ s : Pool (Sample.system .never),
    Pool.Reach RequestsOnly (Sample.start .never 7) s ∧ Entitled s Sample.id₁ "bob" "camera" := by
  have observed : (Sample.cameraJoins.any fun s =>
      decide ((hashOf (s.world.redis (accessKey Sample.id₁))).lookup "bob" = some "camera")) =
        true := by
    decide +kernel
  obtain ⟨s, computed, observed⟩ := (Option.any_eq_true _ _).mp observed
  have reach := (Sample.reach_of_replay computed).mono fun _ _ => Sample.requestsOnly_of_isRequest
  exact ⟨s, reach, access_was_asked rfl rfl reach (by decide) (of_decide_eq_true observed)⟩

theorem credentials_rest_on_run : ∃ (s : Pool (Sample.system .never))
    (t : Thread (Sample.system .never)) (reply : JoinReply),
    Pool.Reach RequestsOnly (Sample.start .never 7) s ∧ t ∈ s.threads ∧
      Credited s t.past ⟨"ROOM-000007", "bob", "camera"⟩ reply := by
  have observed : (Sample.cameraJoins.any fun s => s.threads.any Sample.joined) = true := by
    decide +kernel
  obtain ⟨s, computed, observed⟩ := (Option.any_eq_true _ _).mp observed
  have reach := (Sample.reach_of_replay computed).mono fun _ _ => Sample.requestsOnly_of_isRequest
  obtain ⟨t, member, joined⟩ := List.any_eq_true.mp observed
  rw [Sample.joined] at joined
  split at joined
  · next req reply call returned =>
    have eq : req = ⟨"ROOM-000007", "bob", "camera"⟩ := of_decide_eq_true joined
    subst eq
    exact ⟨s, t, reply, reach, member, credentials_rest_on rfl rfl reach member call returned⟩
  · cases joined

end DirectLink
