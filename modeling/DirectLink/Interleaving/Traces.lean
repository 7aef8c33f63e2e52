import DirectLink.Interleaving.Stages

/-!
# What is known of a session was published

A session becomes known through its room code, the user's sessions or the active sessions, all of
which `CreateSession` writes after the hash and its expiry.  So wherever a session id turns up, in
an index, a ticket of LiveKit or a call in flight, the creation of the session has mapped its room
code; and the keys of the session outlive its hash.
-/

namespace DirectLink

open RedisStore

namespace Stage

/-- The id a creation has drawn. -/
def uuid? : Stage → Option String
  | drawing id | drawn id _ | free id _ => some id
  | building session | written session | dated session | published session | counted session
  | vouched session | finished session => some session.id
  | _ => none

/-- The session a creation has stored. -/
def stored? : Stage → Option Session
  | written session | dated session | published session | counted session | vouched session
  | finished session => some session
  | _ => none

/-- The id of the session whose room code a creation has mapped. -/
def public? : Stage → Option String
  | published session | counted session | vouched session | finished session => some session.id
  | _ => none

/-- The sessions a join, a close or a sweep has come to know. -/
def Knows (id : String) : Stage → Prop
  | looking id' | admitted id' | holding id' _ | granting id' _ | granted id' _ | recorded id'
  | undoing id' _ => id' = id
  | due unread found => id ∈ unread ∨ id ∈ found
  | clearing id' _ found | cleared id' found | confirmed id' found | closed id' found =>
    id' = id ∨ id ∈ found
  | _ => False

variable {call : Call} {stage : Stage} {e : Event backend} {id : String} {session : Session}

theorem public_next (before : stage.public? = some id) : (stage.next call e).public? = some id := by
  cases stage <;> simp only [public?, reduceCtorEq] at before <;> dsimp only [next]
  all_goals try split
  all_goals exact before

theorem stored_next (before : stage.stored? = some session) :
    (stage.next call e).stored? = some session := by
  cases stage <;> simp only [stored?, reduceCtorEq] at before <;> dsimp only [next]
  all_goals try split
  all_goals exact before

theorem uuid_next (before : stage.uuid? = some id) : (stage.next call e).uuid? = some id := by
  cases stage <;> simp only [uuid?, reduceCtorEq] at before <;> dsimp only [next, created]
  all_goals repeat' split
  all_goals exact before

/-- A creation stores the session it has built. -/
theorem stored_of_next (after : (stage.next call e).stored? = some session) :
    stage.stored? = some session ∨ stage = .building session := by
  unfold next opened created at after
  repeat' split at after
  all_goals simp only [stored?, Option.some.injEq, reduceCtorEq] at after
  all_goals subst after
  all_goals first
    | exact .inl rfl
    | exact .inr rfl

/-- A creation has the UUID it was handed. -/
theorem uuid_of_next (after : (stage.next call e).uuid? = some id) :
    stage.uuid? = some id ∨ e = ⟨.newUuid, id⟩ := by
  unfold next opened created at after
  repeat' split at after
  all_goals simp only [uuid?, Option.some.injEq, reduceCtorEq] at after
  all_goals first
    | exact .inl (congrArg some after)
    | exact .inr (by rw [after])

theorem mem_collected {found : List String} {h : Redis.Hash} {other : String}
    (member : id ∈ collected other found h) : id = other ∨ id ∈ found := by
  unfold collected at member
  repeat' split at member
  · exact .inr member
  · exact .inr member
  · rcases List.mem_append.mp member with old | new
    · exact .inr old
    · exact .inl (List.mem_singleton.mp new)

/-- A session becomes known by its room code or as one of the active sessions. -/
theorem knows_of_next (after : (stage.next call e).Knows id) :
    stage.Knows id ∨ stage = .start ∧ ((∃ key, e = ⟨.redis (.get key), .ok (some id)⟩) ∨
      ∃ key stop ids, e = ⟨.redis (.zrangeByScore key stop), .ok ids⟩ ∧ id ∈ ids) := by
  unfold next opened created at after
  repeat' split at after
  all_goals simp only [Knows, List.mem_cons, List.not_mem_nil, or_false, false_or] at after ⊢
  all_goals try subst after
  all_goals try grind [mem_collected]

end Stage
section Traces

variable {b : Backend} {s : Pool (b.system noFaults)} {ttl : Nat} {id : String}
variable {t t' : Thread (b.system noFaults)}

theorem stored_of_public {stage : Stage} (public_ : stage.public? = some id) :
    ∃ session, stage.stored? = some session ∧ session.id = id := by
  cases stage <;> simp_all [Stage.public?, Stage.stored?]

theorem uuid_of_stored {stage : Stage} {session : Session} (stored : stage.stored? = some session) :
    stage.uuid? = some session.id := by
  cases stage <;> simp_all [Stage.stored?, Stage.uuid?]

theorem uuid_of_public {stage : Stage} (public_ : stage.public? = some id) :
    stage.uuid? = some id := by
  obtain ⟨session, stored, rfl⟩ := stored_of_public public_
  exact uuid_of_stored stored

/-- A creation was handed the UUID it has. -/
theorem saw_of_uuid {call : Call} {past : List (Event backend)}
    (has : (stageOf call past).uuid? = some id) : Saw past .newUuid id := by
  induction past using List.reverseRecOn with
  | nil => cases has
  | append_singleton past e ih =>
    rw [stageOf_append] at has
    rcases Stage.uuid_of_next has with before | rfl
    · exact List.mem_append_left _ (ih before)
    · exact List.mem_append_right _ List.mem_cons_self

/-- A creation has no UUID but the one it was handed. -/
theorem uuid_of_saw {call : Call} {past : List (Event backend)}
    (issued : ∀ pre (e : Event backend) post, past = pre ++ e :: post →
      (stageOf call pre).Issues ttl e.cmd) (saw : Saw past .newUuid id) :
    (stageOf call past).uuid? = some id := by
  induction past using List.reverseRecOn with
  | nil => cases saw
  | append_singleton past e ih =>
    rw [stageOf_append]
    rcases List.mem_append.mp saw with before | last
    · refine Stage.uuid_next (ih ?_ before)
      intro pre e' post split
      refine issued pre e' (post ++ [e]) ?_
      rw [split, List.append_assoc, List.cons_append]
    · have started : stageOf call past = .start := by
        have issued := issued past e [] rfl
        rw [← List.mem_singleton.mp last] at issued
        exact issued
      rw [started, ← List.mem_singleton.mp last]
      rfl

/-- Every id has one creation at most. -/
def CreatedOnce (s : Pool (b.system noFaults)) : Prop :=
  ∀ t ∈ s.threads, ∀ t' ∈ s.threads, ∀ id, t.stage.uuid? = some id → t'.stage.uuid? = some id →
    t = t'

theorem reach_createdOnce {G : Pool (b.system noFaults) → Move (b.system noFaults) → Prop}
    {s₀ : Pool (b.system noFaults)} (none_ : s₀.threads = []) (reach : Pool.Reach G s₀ s) :
    CreatedOnce s := by
  intro t member t' member' id has has'
  obtain ⟨i, at_⟩ := List.mem_iff_getElem?.mp member
  obtain ⟨j, at'⟩ := List.mem_iff_getElem?.mp member'
  have same : i = j := reach_sole_uuid id none_ reach i j t t' _ _ at_ at' (saw_of_uuid has)
    (saw_of_uuid has') rfl rfl
  subst same
  exact Option.some.inj (at_.symm.trans at')

/-- A creation has written the hash of the session. -/
def Written (s : Pool (b.system noFaults)) (id : String) : Prop :=
  ∃ t ∈ s.threads, ∃ session, t.stage.stored? = some session ∧ session.id = id

/-- A creation has mapped the room code of the session. -/
def Public (s : Pool (b.system noFaults)) (id : String) : Prop :=
  ∃ t ∈ s.threads, t.stage.public? = some id

theorem Public.written (public_ : Public s id) : Written s id := by
  obtain ⟨t, member, has⟩ := public_
  exact ⟨t, member, stored_of_public has⟩

/-- The room code of a published session is mapped by its only creation. -/
theorem Public.of_creation (public_ : Public s id) (once : CreatedOnce s) (member : t ∈ s.threads)
    (has : t.stage.uuid? = some id) : t.stage.public? = some id := by
  obtain ⟨t', member', has'⟩ := public_
  rw [once t member t' member' id has (uuid_of_public has')]
  exact has'

/-- Wherever a session id turns up, the creation of the session has published it, and the keys of a
session outlive its hash. -/
structure Traced (ttl : Nat) (s : Pool (b.system noFaults)) : Prop where
  hash : ∀ id, isUuid id = true → Stored s id → Written s id
  code : ∀ code id, strOf (s.world.redis (roomCodeKey code)) = some id → Public s id
  active : ∀ id ∈ zsetOf (s.world.redis activeSessionsKey), Public s id
  ingress : ∀ id, isUuid id = true → (s.world.redis (ingressKey id)).isSome = true → Public s id
  room : ∀ ingressID id, s.world.livekit.rooms ingressID = some id → Public s id
  known : ∀ t ∈ s.threads, ∀ id, t.stage.Knows id → Public s id
  deadline : ∀ id d, isUuid id = true → expiryOf (s.world.redis (sessionKey id)) = some d →
    d ≤ s.world.now + ttl
  undated : ∀ id session, isUuid id = true → Live s.world.redis id session →
    expiryOf (s.world.redis (sessionKey id)) = none →
      ∃ t ∈ s.threads, ∃ new, t.stage = .written new ∧ new.id = id
  outlives : ∀ id session d', isUuid id = true → Live s.world.redis id session →
    expiryOf (s.world.redis (ingressKey id)) = some d' →
      ∃ d, expiryOf (s.world.redis (sessionKey id)) = some d ∧ d ≤ d'
  roomCode : ∀ t ∈ s.threads, ∀ new session, t.stage.stored? = some new → isUuid new.id = true →
    Live s.world.redis new.id session → session.roomCode = new.roomCode

theorem Live.of_empty {db : Redis.Db} {session : Session} (empty : db = .empty) :
    ¬ Live db id session := by
  intro live
  have found := live.isSome
  rw [empty] at found
  cases found

theorem traced_start {w : World} (empty : w.redis = .empty)
    (unused : ∀ i, w.livekit.rooms i = none) :
    Traced ttl (⟨w, []⟩ : Pool (b.system noFaults)) where
  hash id _ stored := by
    rw [Stored, empty] at stored
    cases stored
  code code id found := by
    rw [empty] at found
    cases found
  active id member := by
    rw [empty] at member
    exact absurd member Finmap.notMem_empty
  ingress id _ found := by
    rw [empty] at found
    cases found
  room ingressID id found := by
    rw [unused] at found
    cases found
  known t member := by cases member
  deadline id d _ found := by
    rw [empty] at found
    cases found
  undated id session _ live := absurd live (Live.of_empty empty)
  outlives id session d' _ live := absurd live (Live.of_empty empty)
  roomCode t member := by cases member

/-! ### A call is started, time passes -/

theorem Public.start {call : Call} (public_ : Public s id) :
    Public (⟨s.world, s.threads ++ [⟨call, [], b.code call⟩]⟩ : Pool (b.system noFaults)) id := by
  obtain ⟨t, member, has⟩ := public_
  exact ⟨t, List.mem_append_left _ member, has⟩

theorem Written.start {call : Call} (written : Written s id) :
    Written (⟨s.world, s.threads ++ [⟨call, [], b.code call⟩]⟩ : Pool (b.system noFaults)) id := by
  obtain ⟨t, member, has⟩ := written
  exact ⟨t, List.mem_append_left _ member, has⟩

/-- A thread of the pool after a call is started is an old one, or at its start. -/
theorem mem_start {call : Call}
    (member : t ∈ s.threads ++ [(⟨call, [], b.code call⟩ : Thread (b.system noFaults))]) :
    t ∈ s.threads ∨ t.stage = .start := by
  rcases List.mem_append.mp member with old | new
  · exact .inl old
  · rw [List.mem_singleton.mp new]
    exact .inr rfl

theorem Traced.start {call : Call} (traced : Traced ttl s) :
    Traced ttl (⟨s.world, s.threads ++ [⟨call, [], b.code call⟩]⟩ : Pool (b.system noFaults)) where
  hash id uuid stored := (traced.hash id uuid stored).start
  code code id found := (traced.code code id found).start
  active id member := (traced.active id member).start
  ingress id uuid found := (traced.ingress id uuid found).start
  room ingressID id found := (traced.room ingressID id found).start
  known t member id knows := by
    rcases mem_start member with old | new
    · exact (traced.known t old id knows).start
    · rw [new] at knows
      exact knows.elim
  deadline := traced.deadline
  undated id session uuid live none_ := by
    obtain ⟨t, member, rest⟩ := traced.undated id session uuid live none_
    exact ⟨t, List.mem_append_left _ member, rest⟩
  outlives := traced.outlives
  roomCode t member new session stored uuid live := by
    rcases mem_start member with old | new'
    · exact traced.roomCode t old new session stored uuid live
    · rw [new'] at stored
      cases stored

/-- A session that can be read after some time has kept its entry. -/
theorem Live.of_tick {w : World} {now : Nat} {session : Session}
    (live : Live (w.at_ now).redis id session) :
    (w.at_ now).redis (sessionKey id) = w.redis (sessionKey id) ∧ Live w.redis id session := by
  rcases Redis.Db.expire_cases w.redis (sessionKey id) now with same | gone
  · refine ⟨same, ?_⟩
    rw [Live, World.at_redis, same] at live
    exact live
  · have found := live.isSome
    rw [World.at_redis, gone] at found
    cases found

theorem expiryOf_tick {w : World} {now d : Nat} {key : String}
    (found : expiryOf ((w.at_ now).redis key) = some d) : expiryOf (w.redis key) = some d := by
  rcases Redis.Db.expire_cases w.redis key now with same | gone
  · rwa [World.at_redis, same] at found
  · rw [World.at_redis, gone] at found
    cases found

theorem Traced.tick {now : Nat} (traced : Traced ttl s) (later : s.world.now ≤ now) :
    Traced ttl (⟨s.world.at_ now, s.threads⟩ : Pool (b.system noFaults)) where
  hash id uuid stored := by
    rcases Redis.Db.expire_cases s.world.redis (sessionKey id) now with same | gone
    · rw [Stored, World.at_redis, same] at stored
      exact traced.hash id uuid stored
    · rw [Stored, World.at_redis, gone] at stored
      cases stored
  code code id found := by
    rcases Redis.Db.expire_cases s.world.redis (roomCodeKey code) now with same | gone
    · rw [World.at_redis, same] at found
      exact traced.code code id found
    · rw [World.at_redis, gone] at found
      cases found
  active id member := by
    rcases Redis.Db.expire_cases s.world.redis activeSessionsKey now with same | gone
    · rw [World.at_redis, same] at member
      exact traced.active id member
    · rw [World.at_redis, gone] at member
      exact absurd member Finmap.notMem_empty
  ingress id uuid found := by
    rcases Redis.Db.expire_cases s.world.redis (ingressKey id) now with same | gone
    · rw [World.at_redis, same] at found
      exact traced.ingress id uuid found
    · rw [World.at_redis, gone] at found
      cases found
  room := traced.room
  known := traced.known
  deadline id d uuid found := by
    have le := traced.deadline id d uuid (expiryOf_tick found)
    have := Nat.add_le_add_right later ttl
    exact Nat.le_trans le this
  undated id session uuid live none_ := by
    obtain ⟨same, live⟩ := live.of_tick
    rw [same] at none_
    exact traced.undated id session uuid live none_
  outlives id session d' uuid live found := by
    obtain ⟨same, live⟩ := live.of_tick
    rw [same]
    exact traced.outlives id session d' uuid live (expiryOf_tick found)
  roomCode t member new session stored uuid live :=
    traced.roomCode t member new session stored uuid live.of_tick.2

/-! ### A thread moves -/

section Exec

variable {i : Nat} {e : Event backend} {world : World} {prog : Go Result}

theorem Public.advance (at_ : s.threads[i]? = some t) (public_ : Public s id) :
    Public (s.advance i t e world prog) id := by
  refine Pool.exists_advance at_ public_ ?_
  intro has
  rw [stage_moved]
  exact Stage.public_next has

theorem Written.advance (at_ : s.threads[i]? = some t) (written : Written s id) :
    Written (s.advance i t e world prog) id := by
  refine Pool.exists_advance at_ written ?_
  intro has
  obtain ⟨session, stored, own⟩ := has
  rw [stage_moved]
  exact ⟨session, Stage.stored_next stored, own⟩

/-- Where the moved thread has published the session, it is public. -/
theorem public_of_moved (at_ : s.threads[i]? = some t)
    (has : (t.stage.next t.call e).public? = some id) :
    Public (s.advance i t e world prog) id := by
  refine ⟨_, Pool.moved_mem_advance at_, ?_⟩
  rw [stage_moved]
  exact has

/-- A command other than one of Redis leaves the database and the clock alone. -/
theorem frame_of_other {w w' : World} {e : Event backend} (away : ∀ c, e.cmd ≠ .redis c)
    (performs : Performs w e.cmd e.reply w') : w'.redis = w.redis ∧ w'.now = w.now := by
  have exec : Exec noFaults w e.cmd e.reply w' := .inl performs
  exact exec_frame away exec

theorem Traced.exec_hash (traced : Traced ttl s) (at_ : s.threads[i]? = some t)
    (acts : t.stage.Acts ttl s.world e world) (id : String) (uuid : isUuid id = true)
    (stored : Stored (s.advance i t e world prog) id) :
    Written (s.advance i t e world prog) id := by
  have self := List.mem_of_getElem? at_
  rw [Stored, Pool.advance_world] at stored
  cases acts with
  | other away _ performs =>
    rw [(frame_of_other away performs).1] at stored
    exact (traced.hash id uuid stored).advance at_
  | op op o wf permitted answered after =>
    subst answered after
    by_cases old : Stored s id
    · exact (traced.hash id uuid old).advance at_
    rw [World.after_redis, Op.apply_session wf uuid] at stored
    split at stored
    · next own =>
      cases op <;> cases own
      case writeSession new =>
        refine ⟨_, Pool.moved_mem_advance at_, new, ?_, rfl⟩
        rw [stage_moved, permitted]
        rfl
      case writeStatus status =>
        obtain ⟨_, found, at_stage⟩ := permitted
        have knows : t.stage.Knows id := by
          rw [at_stage]
          exact .inl rfl
        exact ((traced.known t self id knows).advance at_).written
      case expireSession =>
        simp only [Op.effect, redate, Option.isSome_map] at stored
        exact absurd stored old
      case existsSession | readSession => exact absurd stored old
      case delSession => cases stored
    · exact absurd stored old

theorem Traced.exec_code (traced : Traced ttl s) (at_ : s.threads[i]? = some t)
    (acts : t.stage.Acts ttl s.world e world) (code id : String)
    (found : strOf ((s.advance i t e world prog).world.redis (roomCodeKey code)) = some id) :
    Public (s.advance i t e world prog) id := by
  rw [Pool.advance_world] at found
  cases acts with
  | other away _ performs =>
    rw [(frame_of_other away performs).1] at found
    exact (traced.code code id found).advance at_
  | op op o wf permitted answered after =>
    subst answered after
    rw [World.after_redis, Op.apply_roomCode wf] at found
    split at found
    · next own =>
      cases op <;> cases own
      case setCode other =>
        cases found
        obtain ⟨_, session, at_stage, rfl, _⟩ := permitted
        refine public_of_moved at_ ?_
        rw [at_stage]
        rfl
      case getCode => exact (traced.code code id found).advance at_
      case delCode => cases found
    · exact (traced.code code id found).advance at_

theorem Traced.exec_active (traced : Traced ttl s) (at_ : s.threads[i]? = some t)
    (acts : t.stage.Acts ttl s.world e world) (id : String)
    (member : id ∈ zsetOf ((s.advance i t e world prog).world.redis activeSessionsKey)) :
    Public (s.advance i t e world prog) id := by
  rw [Pool.advance_world] at member
  cases acts with
  | other away _ performs =>
    rw [(frame_of_other away performs).1] at member
    exact (traced.active id member).advance at_
  | op op o wf permitted answered after =>
    subst answered after
    rcases mem_active_apply wf member with old | ⟨score, rfl⟩
    · exact (traced.active id old).advance at_
    · obtain ⟨session, at_stage, rfl⟩ := permitted
      refine public_of_moved at_ (Stage.public_next ?_)
      rw [at_stage]
      rfl

theorem Traced.exec_ingress (traced : Traced ttl s) (at_ : s.threads[i]? = some t)
    (acts : t.stage.Acts ttl s.world e world) (id : String) (uuid : isUuid id = true)
    (found : ((s.advance i t e world prog).world.redis (ingressKey id)).isSome = true) :
    Public (s.advance i t e world prog) id := by
  rw [Pool.advance_world] at found
  cases acts with
  | other away _ performs =>
    rw [(frame_of_other away performs).1] at found
    exact (traced.ingress id uuid found).advance at_
  | op op o wf permitted answered after =>
    subst answered after
    rw [World.after_redis, Op.apply_ingress wf uuid] at found
    split at found
    · next own =>
      cases op <;> cases own
      case addIngress ingressID =>
        have at_stage : t.stage = .granted id (some ingressID) := permitted
        have knows : t.stage.Knows id := by rw [at_stage]; rfl
        exact (traced.known t (List.mem_of_getElem? at_) id knows).advance at_
      case expireIngress =>
        simp only [Op.effect, redate, Option.isSome_map] at found
        exact (traced.ingress id uuid found).advance at_
      case readIngress => exact (traced.ingress id uuid found).advance at_
    · exact (traced.ingress id uuid found).advance at_

theorem Traced.exec_room (traced : Traced ttl s) (at_ : s.threads[i]? = some t)
    (acts : t.stage.Acts ttl s.world e world) (ingressID id : String)
    (found : (s.advance i t e world prog).world.livekit.rooms ingressID = some id) :
    Public (s.advance i t e world prog) id := by
  rw [Pool.advance_world] at found
  have old : ∀ {id}, s.world.livekit.rooms ingressID = some id →
      Public (s.advance i t e world prog) id :=
    fun before => (traced.room ingressID _ before).advance at_
  cases acts with
  | op op o wf permitted answered after =>
    subst answered after
    exact old found
  | other away issued performs =>
    obtain ⟨c, r⟩ := e
    dsimp only at away issued performs
    cases c
    case redis c => exact absurd rfl (away c)
    case createIngress req =>
      obtain ⟨info, fresh, _, rfl⟩ := performs
      obtain ⟨id', at_stage, same⟩ := issued
      rcases eq_or_ne ingressID info.ingressId with rfl | other
      · have new : some req.roomName = some id := by
          rw [← found]
          exact (Function.update_self info.ingressId _ s.world.livekit.rooms).symm
        have knows : t.stage.Knows id := by
          rw [at_stage, ← Option.some.inj new]
          exact same.symm
        exact (traced.known t (List.mem_of_getElem? at_) id knows).advance at_
      · exact old ((Function.update_of_ne other ..).symm.trans found)
    case newUuid =>
      obtain ⟨_, _, rfl⟩ := performs
      exact old found
    case deleteIngress | deleteRoom | timeNow | randInt | after =>
      obtain ⟨_, rfl⟩ := performs
      exact old found
    case utcNow | metric =>
      cases performs
      exact old found

theorem Traced.exec_known (traced : Traced ttl s) (at_ : s.threads[i]? = some t)
    (acts : t.stage.Acts ttl s.world e world) (t' : Thread (b.system noFaults))
    (member : t' ∈ (s.advance i t e world prog).threads) (id : String) (knows : t'.stage.Knows id) :
    Public (s.advance i t e world prog) id := by
  have self := List.mem_of_getElem? at_
  rcases Pool.mem_advance member with old | rfl
  · exact (traced.known t' old id knows).advance at_
  · rw [stage_moved] at knows
    rcases Stage.knows_of_next knows with
      before | ⟨_, ⟨key, rfl⟩ | ⟨key, stop, ids, rfl, listed⟩⟩
    · exact (traced.known t self id before).advance at_
    · cases acts with
      | op op o wf permitted answered after =>
        obtain ⟨code, rfl, found⟩ := getCode_of_answered answered
        exact (traced.code code id found.symm).advance at_
      | other away _ _ => exact absurd rfl (away _)
    · cases acts with
      | op op o wf permitted answered after =>
        obtain ⟨rfl, rfl⟩ := readActive_of_answered answered
        obtain ⟨score, found, _⟩ := Redis.ZSet.mem_upTo.mp (Redis.Order.mem_list.mp listed)
        exact (traced.active id (Finmap.mem_of_lookup_eq_some found)).advance at_
      | other away _ _ => exact absurd rfl (away _)

theorem Traced.exec_deadline (traced : Traced ttl s)
    (acts : t.stage.Acts ttl s.world e world) (id : String) (d : Nat) (uuid : isUuid id = true)
    (found : expiryOf ((s.advance i t e world prog).world.redis (sessionKey id)) = some d) :
    d ≤ (s.advance i t e world prog).world.now + ttl := by
  rw [Pool.advance_world] at found ⊢
  cases acts with
  | other away _ performs =>
    obtain ⟨same, now⟩ := frame_of_other away performs
    rw [same] at found
    rw [now]
    exact traced.deadline id d uuid found
  | op op o wf permitted answered after =>
    subst answered after
    rw [World.after_redis] at found
    rw [World.after_now]
    rcases expiry_session_apply s.world.now s.world.redis wf uuid with
      same | ⟨ttl', rfl, dated⟩ | rfl
    · rw [same] at found
      exact traced.deadline id d uuid found
    · obtain ⟨rfl, _⟩ := permitted
      rw [dated] at found
      obtain ⟨_, _, rfl⟩ := Option.map_eq_some_iff.mp found
      exact Nat.le_refl _
    · exact permitted.elim

/-- Only the expiry of its session is issued by a creation that has just written it. -/
theorem expires_of_written {new : Session} {op : Op} (at_stage : t.stage = .written new)
    (permitted : t.stage.Permits ttl op) : op = .expireSession new.id ttl := by
  rw [at_stage] at permitted
  cases op <;> simp [Stage.Permits] at permitted
  obtain ⟨rfl, rfl⟩ := permitted
  rfl

theorem Traced.exec_undated (traced : Traced ttl s) (typed : Typed s.world.redis)
    (at_ : s.threads[i]? = some t) (acts : t.stage.Acts ttl s.world e world) (id : String)
    (session : Session) (uuid : isUuid id = true)
    (live : Live (s.advance i t e world prog).world.redis id session)
    (none_ : expiryOf ((s.advance i t e world prog).world.redis (sessionKey id)) = none) :
    ∃ t' ∈ (s.advance i t e world prog).threads, ∃ new, t'.stage = .written new ∧ new.id = id := by
  rw [Pool.advance_world] at live none_
  cases acts with
  | other away _ performs =>
    rw [(frame_of_other away performs).1] at live none_
    refine Pool.exists_advance at_ (traced.undated id session uuid live none_) ?_
    intro has
    obtain ⟨new, at_stage, own⟩ := has
    refine ⟨new, ?_, own⟩
    rw [stage_moved, at_stage]
    dsimp only [Stage.next]
    split
    · exact absurd rfl (away _)
    · rfl
  | op op o wf permitted answered after =>
    subst answered after
    rw [World.after_redis] at live none_
    have found := live.isSome
    have undated : ∀ ttl', op ≠ .expireSession id ttl' := by
      intro ttl' same
      subst same
      have own : (Op.expireSession id ttl').apply s.world.now s.world.redis (sessionKey id) =
          redate (s.world.redis (sessionKey id)) (s.world.now + ttl') := Redis.Db.assign_self
      rw [own] at found none_
      rw [expiryOf_redate, Option.map_eq_none_iff] at none_
      rw [none_] at found
      cases found
    rcases live_apply typed wf uuid live with ⟨old, status, live', _, _⟩ | ⟨new, rfl, own, _⟩
    · rcases expiry_session_apply s.world.now s.world.redis wf uuid with
        same | ⟨ttl', same, _⟩ | rfl
      · rw [same] at none_
        obtain ⟨t', member, new, at_stage, own⟩ := traced.undated id old uuid live' none_
        rcases Pool.mem_of_mem_advance _ _ prog at_ member with rfl | stays
        · have expires := expires_of_written at_stage permitted
          rw [own] at expires
          exact absurd expires (undated ttl)
        · exact ⟨t', stays, new, at_stage, own⟩
      · exact absurd same (undated ttl')
      · exact permitted.elim
    · refine ⟨_, Pool.moved_mem_advance at_, new, ?_, own⟩
      have at_stage : t.stage = .building new := permitted
      rw [stage_moved, at_stage]
      rfl

theorem Traced.exec_outlives (traced : Traced ttl s) (once : CreatedOnce s)
    (typed : Typed s.world.redis) (at_ : s.threads[i]? = some t)
    (acts : t.stage.Acts ttl s.world e world) (id : String) (session : Session) (d' : Nat)
    (uuid : isUuid id = true) (live : Live (s.advance i t e world prog).world.redis id session)
    (found : expiryOf ((s.advance i t e world prog).world.redis (ingressKey id)) = some d') :
    ∃ d, expiryOf ((s.advance i t e world prog).world.redis (sessionKey id)) = some d ∧ d ≤ d' := by
  have self := List.mem_of_getElem? at_
  rw [Pool.advance_world] at live found ⊢
  cases acts with
  | other away _ performs =>
    rw [(frame_of_other away performs).1] at live found ⊢
    exact traced.outlives id session d' uuid live found
  | op op o wf permitted answered after =>
    subst answered after
    rw [World.after_redis] at live found ⊢
    -- a session with ingresses is public, so its creation is past the hash and its expiry
    have public_of_ingress : ∀ {d}, expiryOf (s.world.redis (ingressKey id)) = some d →
        Public s id := by
      intro d some_
      refine traced.ingress id uuid ?_
      cases entry : s.world.redis (ingressKey id) with
      | none =>
        rw [entry] at some_
        cases some_
      | some _ => rfl
    have published : Public s id → t.stage.uuid? = some id → t.stage.public? = some id :=
      fun public_ has => public_.of_creation once self has
    rcases live_apply typed wf uuid live with ⟨old, status, live', _, _⟩ | ⟨new, rfl, own, _⟩
    · rcases expiry_ingress_apply s.world.now s.world.redis wf uuid with
        same | ⟨ttl', rfl, dated⟩
      · rw [same] at found
        rcases expiry_session_apply s.world.now s.world.redis wf uuid with
          same' | ⟨ttl', rfl, _⟩ | rfl
        · rw [same']
          exact traced.outlives id old d' uuid live' found
        · obtain ⟨_, new, at_stage, own⟩ := permitted
          have has : t.stage.uuid? = some id := by rw [at_stage, ← own]; rfl
          have impossible := published (public_of_ingress found) has
          rw [at_stage] at impossible
          cases impossible
        · exact permitted.elim
      · obtain ⟨rfl, at_stage⟩ := permitted
        have public_ : Public s id := traced.known t self id (by rw [at_stage]; rfl)
        rcases expiry_session_apply s.world.now s.world.redis wf uuid with
          same' | ⟨_, impossible, _⟩ | impossible
        · rw [same']
          rw [dated] at found
          obtain ⟨_, _, rfl⟩ := Option.map_eq_some_iff.mp found
          cases expiry : expiryOf (s.world.redis (sessionKey id)) with
          | none =>
            obtain ⟨t', member', new, at_stage', own⟩ := traced.undated id old uuid live' expiry
            have has : t'.stage.uuid? = some id := by rw [at_stage', ← own]; rfl
            have impossible := public_.of_creation once member' has
            rw [at_stage'] at impossible
            cases impossible
          | some d => exact ⟨d, rfl, traced.deadline id d uuid expiry⟩
        · cases impossible
        · cases impossible
    · have at_stage : t.stage = .building new := permitted
      have has : t.stage.uuid? = some id := by rw [at_stage, ← own]; rfl
      rcases expiry_ingress_apply s.world.now s.world.redis wf uuid with
        same | ⟨_, impossible, _⟩
      · rw [same] at found
        have impossible := published (public_of_ingress found) has
        rw [at_stage] at impossible
        cases impossible
      · cases impossible

theorem Traced.exec_roomCode (traced : Traced ttl s) (once : CreatedOnce s)
    (typed : Typed s.world.redis) (at_ : s.threads[i]? = some t)
    (acts : t.stage.Acts ttl s.world e world) (t' : Thread (b.system noFaults))
    (member : t' ∈ (s.advance i t e world prog).threads) (new session : Session)
    (stored : t'.stage.stored? = some new) (uuid : isUuid new.id = true)
    (live : Live (s.advance i t e world prog).world.redis new.id session) :
    session.roomCode = new.roomCode := by
  have self := List.mem_of_getElem? at_
  rw [Pool.advance_world] at live
  -- the creation that has stored the session did so before, or does so now
  have before : (∃ t₀ ∈ s.threads, t₀.stage.stored? = some new) ∨ t.stage = .building new := by
    rcases Pool.mem_advance member with old | rfl
    · exact .inl ⟨t', old, stored⟩
    · rw [stage_moved] at stored
      rcases Stage.stored_of_next stored with old | new'
      · exact .inl ⟨t, self, old⟩
      · exact .inr new'
  cases acts with
  | other away _ performs =>
    rw [(frame_of_other away performs).1] at live
    rcases before with ⟨t₀, member₀, stored₀⟩ | at_stage
    · exact traced.roomCode t₀ member₀ new session stored₀ uuid live
    · obtain ⟨t₀, member₀, other, stored₀, own⟩ := traced.hash new.id uuid live.isSome
      have has : t₀.stage.uuid? = some new.id := by rw [uuid_of_stored stored₀, own]
      have same := once t₀ member₀ t self new.id has (by rw [at_stage]; rfl)
      rw [same, at_stage] at stored₀
      cases stored₀
  | op op o wf permitted answered after =>
    subst answered after
    rw [World.after_redis] at live
    rcases live_apply typed wf uuid live with ⟨old, status, live', rfl, _⟩ | ⟨made, rfl, own, rfl⟩
    · rcases before with ⟨t₀, member₀, stored₀⟩ | at_stage
      · exact traced.roomCode t₀ member₀ new old stored₀ uuid live'
      · obtain ⟨t₀, member₀, other, stored₀, own⟩ := traced.hash new.id uuid live'.isSome
        have has : t₀.stage.uuid? = some new.id := by rw [uuid_of_stored stored₀, own]
        have same := once t₀ member₀ t self new.id has (by rw [at_stage]; rfl)
        rw [same, at_stage] at stored₀
        cases stored₀
    · have building : t.stage = .building made := permitted
      rcases before with ⟨t₀, member₀, stored₀⟩ | at_stage
      · have same := once t₀ member₀ t self new.id (uuid_of_stored stored₀)
          (by rw [building, ← own]; rfl)
        rw [same, building] at stored₀
        cases stored₀
      · have same := at_stage.symm.trans building
        cases same
        rfl

/-- One command of a request or a sweep keeps what is known. -/
theorem Traced.exec (traced : Traced ttl s) (once : CreatedOnce s) (typed : Typed s.world.redis)
    (at_ : s.threads[i]? = some t) (acts : t.stage.Acts ttl s.world e world) :
    Traced ttl (s.advance i t e world prog) where
  hash := traced.exec_hash at_ acts
  code := traced.exec_code at_ acts
  active := traced.exec_active at_ acts
  ingress := traced.exec_ingress at_ acts
  room := traced.exec_room at_ acts
  known := traced.exec_known at_ acts
  deadline := traced.exec_deadline acts
  undated := traced.exec_undated typed at_ acts
  outlives := traced.exec_outlives once typed at_ acts
  roomCode := traced.exec_roomCode once typed at_ acts

end Exec

/-- The backend before its first call. -/
def Backend.idle (b : Backend) (faults : Cmd → Err → Prop) (now : Nat) (rand : Nat → Nat) :
    Pool (b.system faults) :=
  ⟨.empty now rand, []⟩

/-- Every state requests and sweeps reach is traced. -/
theorem reach_traced {G : Pool (b.system noFaults) → Move (b.system noFaults) → Prop} {now : Nat}
    {rand : Nat → Nat} (requests : ∀ s m, G s m → RequestsOnly s m)
    (reach : Pool.Reach G (b.idle noFaults now rand) s) :
    Typed s.world.redis ∧ CreatedOnce s ∧ Traced b.server.store.ttl s := by
  have typed : Typed (b.idle noFaults now rand).world.redis := typed_empty
  refine ⟨(reach_duties typed rfl reach).1, reach_createdOnce rfl reach, ?_⟩
  refine Pool.Reach.invariant (I := Traced b.server.store.ttl) ?_ ?_ reach
  · exact traced_start rfl fun _ => rfl
  · intro s m s' reached traced guard step
    cases step with
    | start call => exact traced.start
    | exec at_ next exec =>
      obtain ⟨typed', acts⟩ := reach_acts typed rfl requests reached at_ next exec
      exact traced.exec (reach_createdOnce rfl reached) typed' at_ acts
    | tick env =>
      obtain ⟨later, rfl⟩ := env
      exact traced.tick later

end Traces

end DirectLink
