import DirectLink.Interleaving.Commands
import DirectLink.Interleaving.Duties
import DirectLink.Runs

/-!
# How many cameras a session has

`CreateSession` stores how many cameras it allows and nothing ever compares a number with it.  The
limit holds as long as no more users than that join a session as its cameras.  A role is granted
only in a session that was handed out before, so that a session has no camera when its id is drawn,
and only a join makes a camera.
-/

namespace DirectLink

open RedisStore

/-- The users with the role of a camera in the access map of the session. -/
def cameras (db : Redis.Db) (id : String) : Finset String :=
  (hashOf (db (accessKey id))).keys.filter fun user =>
    (hashOf (db (accessKey id))).lookup user = some "camera"

theorem mem_cameras {db : Redis.Db} {id user : String} :
    user ∈ cameras db id ↔ (hashOf (db (accessKey id))).lookup user = some "camera" := by
  rw [cameras, Finset.mem_filter, Finmap.mem_keys, and_iff_right_iff_imp]
  exact Finmap.mem_of_lookup_eq_some

section Limit

variable {b : Backend} {faults : Cmd → Err → Prop}

/-- The session was created by a request that allows this many cameras. -/
def CreatedWith (s : Pool (b.system faults)) (id : String) (maxCameras : Int32) : Prop :=
  ∃ t ∈ s.threads, ∃ req, t.call = .createSession req ∧ req.maxCameras = maxCameras ∧
    Saw t.past .newUuid id

/-- The session has no more cameras than it allows. -/
def WithinLimit (s : Pool (b.system faults)) : Prop :=
  ∀ id maxCameras, CreatedWith s id maxCameras →
    ((cameras s.world.redis id).card : Int) ≤ maxCameras.toInt

/-- In every state that moves under `G` reach, every session is within its limit. -/
def CameraLimit (G : Pool (b.system faults) → Move (b.system faults) → Prop)
    (s₀ : Pool (b.system faults)) : Prop :=
  ∀ s, Pool.Reach G s₀ s → WithinLimit s

/-- A `JoinSession` of the user as a camera has come to `GrantAccess` for the session, and found it
to exist. -/
def JoinsAsCamera (s : Pool (b.system faults)) (id user : String) : Prop :=
  ∃ t ∈ s.threads, ∃ req, t.call = .joinSession req ∧ req.role = "camera" ∧ req.userId = user ∧
    Got t.past (.existsSession id) true

/-- No more users join a session as its cameras than it allows. -/
def JoinsWithin (s : Pool (b.system faults)) : Prop :=
  ∀ id maxCameras, CreatedWith s id maxCameras → ∃ users : Finset String,
    (users.card : Int) ≤ maxCameras.toInt ∧ ∀ user, JoinsAsCamera s id user → user ∈ users

/-- Requests and sweeps, with no more camera joins than are allowed. -/
def FewJoin (s : Pool (b.system faults)) (m : Move (b.system faults)) : Prop :=
  RequestsOnly s m ∧ JoinsWithin s

/-! ### What an operation does to the cameras -/

/-- Only a grant of the role makes a camera. -/
theorem cameras_apply {op : Op} {db : Redis.Db} {now : Nat} {id user : String} (wf : op.Wf)
    (uuid : isUuid id = true) (camera : user ∈ cameras (op.apply now db) id) :
    user ∈ cameras db id ∨ op = .writeRole id user "camera" := by
  rw [mem_cameras, Op.apply_access wf uuid] at camera
  rw [mem_cameras]
  split at camera
  · next own =>
    cases op <;> cases own <;> simp only [Op.effect, hashOf_redate, hashOf_keep] at camera
    case writeRole u role =>
      rw [Redis.lookup_insert] at camera
      split at camera
      · next same =>
        cases same
        cases camera
        exact .inr rfl
      · exact .inl camera
    case dropRole u =>
      split at camera
      · cases camera
      · rw [hashOf_keep, Redis.lookup_erase] at camera
        split at camera
        · cases camera
        · exact .inl camera
    case delAccess => cases camera
    all_goals exact .inl camera
  · exact .inl camera

theorem cameras_tick {w : World} {now : Nat} {id : String} :
    cameras (w.at_ now).redis id ⊆ cameras w.redis id := by
  intro user camera
  rw [mem_cameras] at camera ⊢
  obtain same | gone := Redis.Db.expire_cases w.redis (accessKey id) now
  · rwa [World.at_redis, same] at camera
  · rw [World.at_redis, gone] at camera
    cases camera

/-! ### What the requests check -/

/-- The command makes no camera. -/
def NoCamera (c : Cmd) : Prop := ∀ id user, c ≠ .redis (Op.writeRole id user "camera").cmd

theorem usual_noCamera : Usual NoCamera where
  other c away id user same := away _ same
  simple c _ write id user same := write _ _ (Cmd.redis.inj same)
  session session id user same := by simp [Op.cmd, sessionData] at same
  closed id id' user same := by simp [Op.cmd, statusClosed] at same

/-- A camera is written by a join of that camera, after its session was found to exist, and the id
of a session is drawn for a request that allows a camera. -/
@[reducible] def Backend.seatDuty (b : Backend) (faults : Cmd → Err → Prop) :
    Contract (b.system faults) where
  Expects _ := True
  Allows call past c :=
    (∀ id user, c = .redis (Op.writeRole id user "camera").cmd →
      Got past (.existsSession id) true ∧
        ∃ req, call = .joinSession req ∧ req.role = "camera" ∧ req.userId = user) ∧
    (c = .newUuid → ∀ req, call = .createSession req → 0 < req.maxCameras.toInt)
  Post _ _ _ := True

section Covers

variable {call : Call}

/-- The logic of that contract. -/
abbrev seatLogic (b : Backend) (faults : Cmd → Err → Prop) (call : Call) : Logic backend :=
  histLogic (b.seatDuty faults).Expects ((b.seatDuty faults).Allows call)

theorem persistent_seat : Persistent ((b.seatDuty faults).Allows call) where
  grow past past' c grown allowed :=
    ⟨fun id user same => (allowed.1 id user same).imp_left (grown ·), allowed.2⟩
  waits past backoff := by
    refine ⟨?_, ?_⟩
    · intro id user same
      cases same
    · intro same
      cases same

/-- Another call than a creation draws no id. -/
theorem seat_of_noCamera {past : List (Event backend)} {c : Cmd} (none_ : NoCamera c)
    (other : ∀ req, call ≠ .createSession req) : (b.seatDuty faults).Allows call past c :=
  ⟨fun id user same => absurd same (none_ id user), fun _ req same => absurd same (other req)⟩

theorem wp_seat {α : Type} {p : Go α} {past : List (Event backend)}
    (other : ∀ req, call ≠ .createSession req) (issues : p.Issues NoCamera) :
    p.wp (seatLogic b faults call) (fun _ _ => True) past :=
  Prog.wp_mono (issues.wp_hist fun _ _ none_ => seat_of_noCamera none_ other) fun _ _ _ => trivial

/-- A camera is granted its role after the session was found to exist. -/
theorem wp_joinAsCamera_seat {req : JoinRequest} {sess : Session} {past : List (Event backend)} :
    (b.server.joinAsCamera req sess).wp (seatLogic b faults (.joinSession req))
      (fun _ _ => True) past := by
  have other : ∀ req', Call.joinSession req ≠ .createSession req' := by simp
  have usual : ∀ {past c}, NoCamera c → (b.seatDuty faults).Allows (.joinSession req) past c :=
    fun none_ => seat_of_noCamera none_ other
  have simple : ∀ {past} (c : Redis.Cmd), (∀ key fields, c ≠ .hset key fields) →
      (b.seatDuty faults).Allows (.joinSession req) past (.redis c) :=
    fun c write => usual fun id user same => write _ _ (Cmd.redis.inj same)
  refine hist_issue (usual (usual_noCamera.other _ (by simp))) ?_
  intro created past' _ _ _
  cases created with
  | error err => trivial
  | ok info =>
    refine Prog.wp_bind.mpr (Prog.wp_mono (hist_grantAccess persistent_seat
      (simple _ (by simp)) ?_ fun past'' _ => simple _ (by simp)) ?_)
    · intro past'' _ member
      refine ⟨?_, fun same => by cases same⟩
      intro id user same
      obtain ⟨key, fields⟩ := Redis.Cmd.hset.inj (Cmd.redis.inj same)
      rw [accessKey, accessKey, String.append_left_inj, sessionKey, sessionKey,
        String.append_right_inj] at key
      rw [← key]
      obtain ⟨user', role⟩ := Prod.mk.inj (List.cons.inj fields).1
      exact ⟨member, req, rfl, role, user'⟩
    · intro granted past'' _
      cases granted with
      | error err => exact wp_seat other ⟨usual_noCamera.other _ (by simp), fun _ => trivial⟩
      | ok _ =>
        exact wp_seat other (usual_noCamera.addIngressID.bind fun _ =>
          ⟨usual_noCamera.other _ (by simp), fun _ => trivial⟩)

theorem wp_joinSession_seat {req : JoinRequest} :
    (b.server.joinSession req).wp (seatLogic b faults (.joinSession req)) (fun _ _ => True) [] := by
  have other : ∀ req', Call.joinSession req ≠ .createSession req' := by simp
  unfold Server.joinSession
  split; · trivial
  split; · trivial
  split; · trivial
  refine Prog.wp_bind.mpr (Prog.wp_mono (wp_seat other usual_noCamera.getSessionByRoomCode) ?_)
  intro found past _
  cases found with
  | error err => trivial
  | ok sess =>
    dsimp only
    split; · trivial
    split; · exact wp_joinAsCamera_seat
    split
    · next director =>
      refine wp_seat other (usual_noCamera.joinAsDirector ?_)
      intro id user same
      simp [director, Op.cmd] at same
    · trivial

theorem seat_covers_create {req : CreateSessionRequest} :
    (b.seatDuty faults).Covers (.createSession req) := by
  have code : (b.system faults).code (.createSession req) =
      (b.server.createSession req >>= fun a => Prog.done (.create a)) := rfl
  rw [Contract.Covers, code, Prog.wp_bind]
  by_cases some_ : 0 < req.maxCameras.toInt
  · have issues : (b.server.createSession req).Issues NoCamera := by
      refine usual_noCamera.createRequest ?_
      intro id id' user same
      simp [Op.cmd] at same
    refine Prog.wp_mono (issues.wp_hist fun past c none_ => ⟨?_, ?_⟩) fun _ _ _ => trivial
    · exact fun id user same => absurd same (none_ id user)
    · rintro - req' same
      cases same
      exact some_
  · -- the request is refused before the id is drawn
    have refused : req.maxCameras ≤ 0 := by
      rw [Int32.le_iff_toInt_le]
      exact Int.not_lt.mp some_
    unfold Server.createSession
    split
    · trivial
    · trivial

theorem seat_covers {call : Call} (request : call.isStore = false) :
    (b.seatDuty faults).Covers call := by
  by_cases create : ∃ req, call = .createSession req
  · obtain ⟨req, rfl⟩ := create
    exact seat_covers_create
  push Not at create
  by_cases join : ∃ req, call = .joinSession req
  · obtain ⟨req, rfl⟩ := join
    have code : (b.system faults).code (.joinSession req) =
        (b.server.joinSession req >>= fun a => Prog.done (.join a)) := rfl
    rw [Contract.Covers, code, Prog.wp_bind]
    exact wp_joinSession_seat
  · push Not at join
    refine wp_seat create (usual_noCamera.request request ?_ ?_ ?_)
    · exact fun req id same => absurd same (join req)
    · exact fun req id same => absurd same (create req)
    · intro instanceID now _ id user same
      cases same

end Covers

/-! ### Ids that turn up were handed out -/

/-- Whatever session is stored or was read, listed or found, or has a camera, its id was drawn. -/
structure Handed (s : Pool (b.system faults)) : Prop where
  drawn : ∀ id, s.Saw .newUuid id → isUuid id = true ∧ id ∈ s.world.uuids
  stored : ∀ id, isUuid id = true → Stored s id → id ∈ s.world.uuids
  read : ∀ id h, isUuid id = true → s.Got (.readSession id) h → h ≠ ∅ → id ∈ s.world.uuids
  found : ∀ id, isUuid id = true → s.Got (.existsSession id) true → id ∈ s.world.uuids
  active : ∀ id ∈ zsetOf (s.world.redis activeSessionsKey), id ∈ s.world.uuids
  listed : ∀ stop ids, s.Got (.readActive stop) ids → ∀ id ∈ ids, id ∈ s.world.uuids
  seated : ∀ id user, isUuid id = true → user ∈ cameras s.world.redis id → id ∈ s.world.uuids

section Run

variable {s₀ s s' : Pool (b.system faults)} {i : Nat} {t : Thread (b.system faults)} {c : Cmd}
variable {reply : c.Reply} {world : World} {prog : Go Result}

theorem handed_start (empty : s₀.world.redis = .empty) (none_ : s₀.threads = []) : Handed s₀ := by
  have unseen : ∀ {e : Event backend}, ¬ s₀.Seen e := by
    intro e holds
    rcases holds with ⟨t, member, _⟩
    rw [none_] at member
    cases member
  constructor
  · exact fun id seen => absurd seen unseen
  · intro id _ stored
    rw [Stored, empty] at stored
    cases stored
  · exact fun id h _ seen => absurd seen unseen
  · exact fun id _ seen => absurd seen unseen
  · intro id member
    rw [empty] at member
    exact absurd member Finmap.notMem_empty
  · exact fun stop ids seen => absurd seen unseen
  · intro id user _ camera
    rw [mem_cameras, empty] at camera
    cases camera

theorem Handed.start {call : Call} (handed : Handed s) :
    Handed ⟨s.world, s.threads ++ [⟨call, [], b.code call⟩]⟩ where
  drawn id seen := handed.drawn id (Pool.seen_start.mp seen)
  stored := handed.stored
  read id h uuid seen := handed.read id h uuid (Pool.seen_start.mp seen)
  found id uuid seen := handed.found id uuid (Pool.seen_start.mp seen)
  active := handed.active
  listed stop ids seen := handed.listed stop ids (Pool.seen_start.mp seen)
  seated := handed.seated

theorem Handed.tick {now : Nat} (handed : Handed s) : Handed ⟨s.world.at_ now, s.threads⟩ where
  drawn := handed.drawn
  stored id uuid stored := by
    obtain same | gone := Redis.Db.expire_cases s.world.redis (sessionKey id) now
    · rw [Stored, World.at_redis, same] at stored
      exact handed.stored id uuid stored
    · rw [Stored, World.at_redis, gone] at stored
      cases stored
  read := handed.read
  found := handed.found
  active id member := by
    obtain same | gone := Redis.Db.expire_cases s.world.redis activeSessionsKey now
    · rw [World.at_redis, same] at member
      exact handed.active id member
    · rw [World.at_redis, gone] at member
      exact absurd member Finmap.notMem_empty
  listed := handed.listed
  seated id user uuid camera := handed.seated id user uuid (cameras_tick camera)

/-- The id of a session that a call is entitled to end was drawn. -/
theorem Handed.of_ends {id : String} (handed : Handed s) (at_ : s.threads[i]? = some t)
    (ends : Ends t.call t.past id) : id ∈ s.world.uuids := by
  have self := List.mem_of_getElem? at_
  obtain ⟨uuid, ⟨req, h, sess, _, read, parsed, _⟩ | ⟨instanceID, now, ids, _, listed, member⟩⟩ :=
    ends
  · refine handed.read id h uuid ⟨t, self, read⟩ ?_
    intro same
    subst same
    rw [parseSession_empty] at parsed
    cases parsed
  · exact handed.listed _ ids ⟨t, self, listed⟩ id member

/-- One command of a request keeps it so. -/
theorem Handed.exec (handed : Handed s) (typed : Typed s.world.redis)
    (at_ : s.threads[i]? = some t) (request : t.call.isStore = false)
    (issued : Issued t.call t.past c) (allowed : (b.seatDuty faults).Allows t.call t.past c)
    (exec : Exec faults s.world c reply world) :
    Handed (s.advance i t ⟨c, reply⟩ world prog) := by
  have self := List.mem_of_getElem? at_
  have cases_ := exec_redis_cases typed issued exec
  have stays : ∀ {id}, id ∈ s.world.uuids → id ∈ world.uuids := exec.uuids
  constructor
  · intro id seen
    obtain old | new := (Pool.seen_advance at_).mp seen
    · exact (handed.drawn id old).imp_right stays
    · cases new
      exact ⟨exec.newUuid.1, exec.newUuid.2.2⟩
  · intro id uuid stored
    refine stays ?_
    rw [Stored, Pool.advance_world] at stored
    obtain same | ⟨op, wf, _, does, changed⟩ := cases_
    · rw [same] at stored
      exact handed.stored id uuid stored
    · rw [changed, Op.apply_session wf uuid] at stored
      split at stored
      · next own =>
        cases op <;> cases own
        case writeSession new =>
          obtain ⟨_, _, fresh, _⟩ := does request
          exact (handed.drawn _ ⟨t, self, fresh⟩).2
        case writeStatus status => exact handed.of_ends at_ (does request).2
        case expireSession =>
          simp only [Op.effect, redate, Option.isSome_map] at stored
          exact handed.stored id uuid stored
        case existsSession | readSession => exact handed.stored id uuid stored
        case delSession => cases stored
      · exact handed.stored id uuid stored
  · intro id h uuid seen some_
    obtain old | new := (Pool.seen_advance at_).mp seen
    · exact stays (handed.read id h uuid old some_)
    · cases new
      obtain ⟨o, rfl⟩ := reply_of_exec (.readSession id) typed uuid exec
      refine stays (handed.stored id uuid ?_)
      rw [Stored, Option.isSome_iff_ne_none]
      intro absent
      refine some_ ?_
      have entry : (Op.readSession id).entry s.world.redis = none := absent
      rw [Op.reply, entry, hashOf_none]
  · intro id uuid seen
    obtain old | new := (Pool.seen_advance at_).mp seen
    · exact stays (handed.found id uuid old)
    · cases new
      obtain ⟨o, there⟩ := reply_of_exec (.existsSession id) typed uuid exec
      exact stays (handed.stored id uuid there.symm)
  · intro id member
    refine stays ?_
    rw [Pool.advance_world] at member
    obtain same | ⟨op, wf, _, does, changed⟩ := cases_
    · rw [same] at member
      exact handed.active id member
    · rw [changed] at member
      obtain old | ⟨score, rfl⟩ := mem_active_apply wf member
      · exact handed.active id old
      · obtain ⟨_, _, fresh⟩ := does request
        exact (handed.drawn id ⟨t, self, fresh⟩).2
  · intro stop ids seen id member
    obtain old | new := (Pool.seen_advance at_).mp seen
    · exact stays (handed.listed stop ids old id member)
    · cases new
      obtain ⟨o, rfl⟩ := reply_of_exec (.readActive stop) typed trivial exec
      obtain ⟨score, found, _⟩ := Redis.ZSet.mem_upTo.mp (Redis.Order.mem_list.mp member)
      exact stays (handed.active id (Finmap.mem_of_lookup_eq_some found))
  · intro id user uuid camera
    refine stays ?_
    rw [Pool.advance_world] at camera
    obtain same | ⟨op, wf, sent, _, changed⟩ := cases_
    · rw [same] at camera
      exact handed.seated id user uuid camera
    · rw [changed] at camera
      obtain old | rfl := cameras_apply wf uuid camera
      · exact handed.seated id user uuid old
      · exact handed.found id uuid ⟨t, self, (allowed.1 id user sent).1⟩

/-! ### The limit -/

/-- A session is created by the request that draws its id. -/
theorem CreatedWith.of_advance {id : String} {maxCameras : Int32} (at_ : s.threads[i]? = some t)
    (created : CreatedWith (s.advance i t ⟨c, reply⟩ world prog) id maxCameras) :
    CreatedWith s id maxCameras ∨ (⟨c, reply⟩ : Event backend) = ⟨.newUuid, id⟩ ∧
      ∃ req, t.call = .createSession req ∧ req.maxCameras = maxCameras := by
  obtain ⟨t', member, req, call, allowed, fresh⟩ := created
  obtain old | rfl := Pool.mem_advance member
  · exact .inl ⟨t', old, req, call, allowed, fresh⟩
  · obtain before | last := List.mem_append.mp fresh
    · exact .inl ⟨t, List.mem_of_getElem? at_, req, call, allowed, before⟩
    · exact .inr ⟨(List.mem_singleton.mp last).symm, req, call, allowed⟩

theorem CreatedWith.of_start {call : Call} {id : String} {maxCameras : Int32}
    (created : CreatedWith (⟨s.world, s.threads ++ [⟨call, [], b.code call⟩]⟩ :
      Pool (b.system faults)) id maxCameras) : CreatedWith s id maxCameras := by
  obtain ⟨t, member, req, asked, allowed, fresh⟩ := created
  obtain old | new := List.mem_append.mp member
  · exact ⟨t, old, req, asked, allowed, fresh⟩
  · rw [List.mem_singleton.mp new] at fresh
    cases fresh

theorem JoinsAsCamera.advance {id user : String} {e : Event backend}
    (at_ : s.threads[i]? = some t) (joins : JoinsAsCamera s id user) :
    JoinsAsCamera (s.advance i t e world prog) id user := by
  refine Pool.exists_advance at_ joins ?_
  intro holds
  rcases holds with ⟨req, call, role, userId, found⟩
  exact ⟨req, call, role, userId, List.mem_append_left _ found⟩

/-- Whoever is a camera has joined as one. -/
def Seated (s : Pool (b.system faults)) : Prop :=
  ∀ id user, isUuid id = true → user ∈ cameras s.world.redis id → JoinsAsCamera s id user

/-- A camera after a command joined before it. -/
theorem Seated.before_exec (seated : Seated s) (typed : Typed s.world.redis)
    (at_ : s.threads[i]? = some t) (issued : Issued t.call t.past c)
    (allowed : (b.seatDuty faults).Allows t.call t.past c)
    (exec : Exec faults s.world c reply world)
    {id user : String} (uuid : isUuid id = true) (camera : user ∈ cameras world.redis id) :
    JoinsAsCamera s id user := by
  obtain same | ⟨op, wf, sent, _, changed⟩ := exec_redis_cases typed issued exec
  · rw [same] at camera
    exact seated id user uuid camera
  · rw [changed] at camera
    obtain old | rfl := cameras_apply wf uuid camera
    · exact seated id user uuid old
    · obtain ⟨found, req, call, role, userId⟩ := allowed.1 id user sent
      exact ⟨t, List.mem_of_getElem? at_, req, call, role, userId, found⟩

/-- **The limit is kept** by a command before which no more users than allowed have joined. -/
theorem WithinLimit.exec (seated : Seated s) (handed : Handed s)
    (typed : Typed s.world.redis) (at_ : s.threads[i]? = some t)
    (issued : Issued t.call t.past c) (allowed : (b.seatDuty faults).Allows t.call t.past c)
    (joins : JoinsWithin s) (exec : Exec faults s.world c reply world) :
    WithinLimit (s.advance i t ⟨c, reply⟩ world prog) := by
  intro id maxCameras created
  rw [Pool.advance_world]
  obtain old | ⟨new, req, call, same⟩ := created.of_advance at_
  · have uuid : isUuid id = true := by
      obtain ⟨t', member, _, _, _, fresh⟩ := old
      exact (handed.drawn id ⟨t', member, fresh⟩).1
    obtain ⟨users, few, joined⟩ := joins id maxCameras old
    have all : cameras world.redis id ⊆ users := fun user camera =>
      joined user (seated.before_exec typed at_ issued allowed exec uuid camera)
    have le := Finset.card_le_card all
    omega
  · -- a session whose id is just drawn has no camera yet
    cases new
    obtain ⟨uuid, fresh, _⟩ := exec.newUuid
    have none_ : cameras s.world.redis id = ∅ := by
      refine Finset.eq_empty_of_forall_notMem ?_
      intro user camera
      exact fresh (handed.seated id user uuid camera)
    have some_ := allowed.2 rfl req call
    rw [(exec_frame (fun c' => by simp) exec).1, none_, Finset.card_empty, ← same]
    omega

/-- **The camera limit** holds in every state that requests and sweeps reach, whatever fails, as
long as no more users join a session as its cameras than it allows. -/
theorem camera_limit (empty : s₀.world.redis = .empty) (none_ : s₀.threads = []) :
    CameraLimit FewJoin s₀ := by
  intro s reach
  have typed : Typed s₀.world.redis := by
    rw [empty]
    exact typed_empty
  have requests : ∀ (s : Pool (b.system faults)) call, FewJoin s (.start call) →
      call.isStore = false := fun _ _ guard => guard.1
  have start : Handed s₀ ∧ Seated s₀ ∧ WithinLimit s₀ := by
    refine ⟨handed_start empty none_, ?_, ?_⟩
    · intro id user _ camera
      rw [mem_cameras, empty] at camera
      cases camera
    · intro id maxCameras created
      obtain ⟨t, member, _⟩ := created
      rw [none_] at member
      cases member
  refine (Pool.Reach.contract (C := b.seatDuty faults)
    (I := fun s => Handed s ∧ Seated s ∧ WithinLimit s)
    start none_ (fun s call guard => seat_covers (requests s call guard)) ?_ ?_ ?_ reach).1.2.2
  · intro s call _ inv _
    obtain ⟨handed, seated, within⟩ := inv
    refine ⟨handed.start, ?_, fun id maxCameras created => within id maxCameras created.of_start⟩
    intro id user uuid camera
    obtain ⟨t, member, joined⟩ := seated id user uuid camera
    exact ⟨t, List.mem_append_left _ member, joined⟩
  · intro s i t c k reply world reached inv _ guard at_ next allowed exec
    obtain ⟨handed, seated, within⟩ := inv
    obtain ⟨typed', issued⟩ := reach_issued typed none_ reached at_ next
    have request := reached.calls none_ requests t (List.mem_of_getElem? at_)
    refine ⟨trivial, handed.exec typed' at_ request issued allowed exec, ?_,
      WithinLimit.exec seated handed typed' at_ issued allowed guard.2 exec⟩
    intro id user uuid camera
    exact (seated.before_exec typed' at_ issued allowed exec uuid camera).advance at_
  · intro s now world _ inv _ env
    obtain ⟨_, rfl⟩ := env
    obtain ⟨handed, seated, within⟩ := inv
    refine ⟨handed.tick, fun id user uuid camera => seated id user uuid (cameras_tick camera), ?_⟩
    intro id maxCameras created
    have le : (cameras (s.world.at_ now).redis id).card ≤ (cameras s.world.redis id).card :=
      Finset.card_le_card cameras_tick
    exact Int.le_trans (Int.ofNat_le.mpr le) (within id maxCameras created)

end Run

/-- The empty pool of the sample backend. -/
theorem camera_limit_sample : CameraLimit FewJoin (Sample.start .never 7) :=
  camera_limit rfl rfl

end Limit

namespace Sample

def ingressOf (userID : String) : IngressInfo := ⟨userID ++ "-ingress", "https://whip", userID⟩

/-- Two cameras join, one after the other, a session that allows one. -/
noncomputable def secondCamera : Option (Pool (system .never)) :=
  replay isRequest
    (.start (.createSession ⟨"alice", 1⟩) :: go 0 (create id₁) ++
      .start (.joinSession ⟨"ROOM-000007", "bob", "camera"⟩) ::
        go 1 ([.plain, .plain, .ingress (ingressOf "bob")] ++ List.replicate 6 .plain) ++
      .start (.joinSession ⟨"ROOM-000007", "carol", "camera"⟩) ::
        go 2 ([.plain, .plain, .ingress (ingressOf "carol")] ++ List.replicate 6 .plain))
    (start .never 7)

end Sample

/-- A session that allows one camera has two. -/
theorem camera_limit_exceeded : ¬ CameraLimit RequestsOnly (Sample.start .never 7) := by
  intro limit
  have observed : (Sample.secondCamera.any fun s => s.threads.any fun t =>
      decide (t.call = .createSession ⟨"alice", 1⟩ ∧ Sample.id₁ ∈ uuidsOf t.past ∧
        (cameras s.world.redis Sample.id₁).card = 2)) = true := by
    decide +kernel
  obtain ⟨s, computed, observed⟩ := (Option.any_eq_true _ _).mp observed
  obtain ⟨t, member, observed⟩ := List.any_eq_true.mp observed
  obtain ⟨call, fresh, two⟩ := of_decide_eq_true observed
  have reach := (Sample.reach_of_replay computed).mono fun _ _ => Sample.requestsOnly_of_isRequest
  have created : CreatedWith s Sample.id₁ 1 :=
    ⟨t, member, ⟨"alice", 1⟩, call, rfl, mem_of_mem_uuidsOf fresh⟩
  have within := limit s reach Sample.id₁ 1 created
  rw [two] at within
  exact absurd within (by decide)

end DirectLink
