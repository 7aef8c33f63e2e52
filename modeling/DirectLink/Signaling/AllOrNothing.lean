import DirectLink.Signaling.Faults

/-!
# Creating a session, all or nothing

`CreateSession` makes three fallible calls after it has drawn a room code; what it has done when one
of them fails stays done.
-/

namespace DirectLink

/-- The session of a reply is stored and indexed, and its creator has the role of a director. -/
def CreatedFor (req : CreateSessionRequest) (roomCode : String) (db : Redis.Db) : Prop :=
  ∃ id createdAt, Live db id ⟨id, roomCode, req.userId, createdAt, req.maxCameras, "active"⟩ ∧
    strOf (db (roomCodeKey roomCode)) = some id ∧ id ∈ setOf (db (userSessionsKey req.userId)) ∧
    id ∈ zsetOf (db activeSessionsKey) ∧
    (hashOf (db (accessKey id))).lookup req.userId = some "director"

/-- An error has left the store and the counters of sessions alone; a code names a session that is
there as a whole. -/
structure AllOrNothing (req : CreateSessionRequest) (w w' : World)
    (result : Except Status CreateSessionReply) : Prop where
  nothing : ∀ status, result = .error status → w'.redis = w.redis ∧
    w'.metrics.sessionsActive = w.metrics.sessionsActive ∧
    w'.metrics.sessionsCreatedTotal = w.metrics.sessionsCreatedTotal
  all : ∀ reply, result = .ok reply → CreatedFor req reply.roomCode w'.redis

/-- No call of `GrantAccess` failed. -/
def Granted (calls : List (ServerCall × Bool)) : Prop :=
  ∀ id userID role, (ServerCall.grantAccess id userID role, true) ∉ calls

variable {r : RedisStore} {req : CreateSessionRequest} {w w' : World}
variable {calls new : List (ServerCall × Bool)}

theorem Granted.append (granted : Granted calls) (others : Granted new) :
    Granted (calls ++ new) := by
  intro id userID role mem
  obtain earlier | later := List.mem_append.mp mem
  · exact granted id userID role earlier
  · exact others id userID role later

/-- Until the session is created, nothing that counts has changed. -/
structure Untouched (w : World) (s : Tried) : Prop where
  redis : s.world.redis = w.redis
  metrics : s.world.metrics = w.metrics
  granted : Granted s.calls

namespace Untouched

variable {s : Tried}

theorem nothing (untouched : Untouched w s) (status : Status) :
    AllOrNothing req w s.world (.error status) ↔ Granted s.calls := by
  refine iff_of_true ⟨?_, nofun⟩ untouched.granted
  intro _ _
  rw [untouched.redis, untouched.metrics]
  exact ⟨rfl, rfl, rfl⟩

/-- A call that leaves the world of interest alone. -/
theorem step (untouched : Untouched w s) {call : ServerCall × Bool}
    (other : ∀ id userID role, call ≠ (ServerCall.grantAccess id userID role, true))
    (redis : w'.redis = s.world.redis) (metrics : w'.metrics = s.world.metrics) :
    Untouched w ⟨w', s.calls ++ [call]⟩ := by
  refine ⟨redis.trans untouched.redis, metrics.trans untouched.metrics, ?_⟩
  refine untouched.granted.append ?_
  intro id userID role mem
  exact other id userID role (List.mem_singleton.mp mem).symm

end Untouched

/-- Drawing a code touches nothing. -/
theorem wp_newRoomCode (typed : Typed w.redis) {s : Tried} (untouched : Untouched w s) :
    OverStore.newRoomCode.wp (trialLogic r)
      (fun result s' => Untouched w s' ∧ ∀ code, result = .ok code → code ≠ "") s := by
  have loop : ∀ attempts s, Untouched w s →
      (OverStore.newRoomCodeFrom attempts).wp (trialLogic r)
        (fun result s' => Untouched w s' ∧ ∀ code, result = .ok code → code ≠ "") s := by
    intro attempts
    induction attempts with
    | zero => exact fun s untouched => ⟨untouched, (fun _ impossible => by cases impossible)⟩
    | succ attempts ih =>
      intro s untouched
      rw [OverStore.newRoomCodeFrom]
      refine wp_own_clean (fun _ => rfl) ?_
      intro drawn w₁ performs
      obtain ⟨rfl, world⟩ := performs
      have drawn : Untouched w ⟨w₁, s.calls ++ [(.own (.randInt 1000000), false)]⟩ :=
        untouched.step (by simp) (by rw [world]) (by rw [world])
      have typed' : Typed w₁.redis := by
        rw [drawn.redis]
        exact typed
      refine wp_lookup typed' ?_
      intro found failed _ _
      have looked (code : String) : Untouched w
          ⟨w₁, s.calls ++ [(.own (.randInt 1000000), false)] ++
            [(.getSessionByRoomCode code, failed)]⟩ :=
        drawn.step (by simp) rfl rfl
      cases found with
      | ok session => exact ih _ (looked _)
      | error err =>
        dsimp only
        split
        · refine ⟨looked _, ?_⟩
          intro code same
          cases same
          exact roomCodeOf_ne_empty _
        · exact ⟨looked _, (fun _ impossible => by cases impossible)⟩
  exact loop maxRoomAttempts s untouched

/-- The session that a request asks for. -/
structure Session.AskedBy (req : CreateSessionRequest) (new : Session) : Prop where
  uuid : isUuid new.id = true
  nonempty : new.roomCode ≠ ""
  owner : new.createdBy = req.userId
  cameras : new.maxCameras = req.maxCameras
  active : new.status = "active"

/-- After the creation and the grant, the session is there as a whole. -/
theorem createdFor_of_granted {new : Session} (asked : new.AskedBy req)
    (created : w'.redis = (w.afterAll (r.createOps new w.now)).redis) :
    CreatedFor req new.roomCode (w'.afterAll (r.grantOps new.id req.userId "director")).redis := by
  have uuid := asked.uuid
  have other : ∀ k : Key, k.Wf → k ≠ .access new.id →
      (w'.afterAll (r.grantOps new.id req.userId "director")).redis k.text = _ :=
    fun k wf ne => (RedisStore.granted_other uuid wf ne).trans (congrFun created k.text)
  have session := (other (.session new.id) uuid nofun).trans (RedisStore.created_session uuid)
  have roomCode := (other (.roomCode new.roomCode) trivial nofun).trans
    (RedisStore.created_roomCode uuid asked.nonempty)
  have user := (other (.userSessions new.createdBy) trivial nofun).trans
    (RedisStore.created_userSessions uuid)
  have active := (other .active trivial nofun).trans (RedisStore.created_active uuid)
  have live := Live.of_hash (congrArg hashOf session)
  refine ⟨new.id, new.createdAt.truncate, ?_, ?_, ?_, ?_, ?_⟩
  · have same : new.truncate = ⟨new.id, new.roomCode, req.userId, new.createdAt.truncate,
        req.maxCameras, "active"⟩ := by
      rw [← asked.owner, ← asked.cameras, ← asked.active]
      rfl
    rw [← same]
    exact live
  · exact congrArg strOf roomCode
  · rw [← asked.owner]
    exact (congrArg (new.id ∈ setOf ·) user).mpr (Finset.mem_insert_self ..)
  · refine (congrArg (new.id ∈ zsetOf ·) active).mpr ?_
    exact Finmap.mem_insert.mpr (.inl rfl)
  · rw [RedisStore.granted_access uuid]
    exact Finmap.lookup_insert _

/-- A grant that runs after the creation succeeds. -/
theorem createdFor_of_run {new : Session} {w'' : World} {result : Except Err Unit}
    (typed : Typed w.redis) (asked : new.AskedBy req)
    (created : w'.redis = (w.afterAll (r.createOps new w.now)).redis)
    (run : Alone (r.grantAccess new.id req.userId "director") w' result w'') :
    result = .ok () ∧ CreatedFor req new.roomCode w''.redis := by
  have typed' : Typed w'.redis := by
    rw [created]
    exact World.typed_afterAll typed fun _ mem => RedisStore.wf_of_mem_createOps asked.uuid mem
  have there : (w'.redis (sessionKey new.id)).isSome = true := by
    rw [created]
    exact congrArg Option.isSome (RedisStore.created_session asked.uuid)
  have alone := RedisStore.alone_of_wp (RedisStore.alone_grantAccess typed' asked.uuid) run
  rw [if_pos there] at alone
  obtain ⟨ok, granted⟩ := alone
  refine ⟨ok, ?_⟩
  rw [granted]
  exact createdFor_of_granted asked created

/-- **Creating a session** fails or succeeds as a whole, exactly if `GrantAccess` does not fail. -/
theorem wp_createSession_exact (typed : Typed w.redis) :
    (OverStore.createSession req).wp (trialLogic r)
      (fun result s' => AllOrNothing req w s'.world result ↔ Granted s'.calls) ⟨w, []⟩ := by
  have start : Untouched w ⟨w, []⟩ := ⟨rfl, rfl, fun _ _ _ => List.not_mem_nil⟩
  unfold OverStore.createSession
  split
  · exact start.nothing _
  split
  · exact start.nothing _
  refine wp_own_clean (fun _ => rfl) ?_
  intro id w₁ performs
  obtain ⟨uuid, _, world⟩ := performs
  have drawn : Untouched w ⟨w₁, [(.own .newUuid, false)]⟩ :=
    start.step nofun (by rw [world]) (by rw [world])
  refine Prog.wp_bind.mpr (Prog.wp_mono (wp_newRoomCode typed drawn) ?_)
  intro result s untouched
  obtain ⟨untouched, nonempty⟩ := untouched
  cases result with
  | error err => exact untouched.nothing _
  | ok code =>
    have nonempty := nonempty code rfl
    dsimp only
    refine wp_own_clean (fun _ => rfl) ?_
    intro createdAt w₂ world
    have read : Untouched w ⟨w₂, s.calls ++ [(.own .utcNow, false)]⟩ :=
      untouched.step (by simp) (by rw [world]) (by rw [world])
    refine wp_make nofun ?_ ?_
    · intro result w₃ run
      have typed' : Typed w₂.redis := by
        rw [read.redis]
        exact typed
      have asked : Session.AskedBy req
          ⟨id, code, req.userId, createdAt, req.maxCameras, "active"⟩ :=
        ⟨uuid, nonempty, rfl, rfl, rfl⟩
      obtain ⟨rfl, stored⟩ := RedisStore.alone_of_wp
        (RedisStore.alone_createSession typed' asked.uuid) run
      dsimp only
      refine wp_own_clean (fun _ => rfl) ?_
      intro _ w₄ counted
      refine wp_own_clean (fun _ => rfl) ?_
      intro _ w₅ counted'
      -- the store is the one after the creation, and the session was counted
      have redis : w₅.redis = w₃.redis := by rw [counted', counted]
      have metrics : w₃.metrics = w.metrics := by
        rw [stored, World.afterAll_frame]
        exact read.metrics
      have created : w₅.metrics.sessionsCreatedTotal = w.metrics.sessionsCreatedTotal + 1 := by
        rw [counted', counted, ← metrics]
        rfl
      refine wp_make nofun ?_ ?_
      · intro result w₆ run
        rw [stored] at redis
        obtain ⟨rfl, all⟩ := createdFor_of_run typed' asked redis run
        refine iff_of_true ⟨nofun, ?_⟩ ?_
        · intro reply same
          cases same
          exact all
        · dsimp only
          simp only [List.append_assoc]
          exact untouched.granted.append (by simp [Granted])
      · intro err result failure failed
        cases failed
        refine iff_of_false ?_ ?_
        · intro allOrNothing
          have same := (allOrNothing.nothing _ rfl).2.2
          dsimp only at same
          omega
        · intro granted'
          exact granted' id req.userId "director" (by simp)
    · intro err result failure failed
      cases failed
      have failed (session : Session) : Untouched w
          ⟨w₂, s.calls ++ [(.own .utcNow, false)] ++ [(.createSession session, true)]⟩ :=
        read.step nofun rfl rfl
      exact (failed _).nothing _

/-- Every run of `CreateSession`, whatever is stored and whichever calls fail, is all or nothing
exactly when its calls satisfy `C`. -/
def CreatesWhen (r : RedisStore) (C : List (ServerCall × Bool) → Prop) : Prop :=
  ∀ req w result s, Typed w.redis →
    (OverStore.createSession req).Runs (Trial r) ⟨w, []⟩ result s →
      (AllOrNothing req w s.world result ↔ C s.calls)

/-- **Creating a session is all or nothing** exactly if `GrantAccess` does not fail. -/
theorem create_session_exact (r : RedisStore) : CreatesWhen r Granted := by
  intro req w result s typed run
  exact Prog.wp_sound (L := trialLogic r) (wp_createSession_exact typed) run

namespace Sample

/-- A creation whose grant fails. -/
noncomputable def grantFails :=
  (OverStore.createSession ⟨"alice", 2⟩).replay (trialReplayer store)
    [.inr [.uuid id₁], .inr [.plain], .inr [.plain], .inr [.utc createdAt],
      .inr (List.replicate 7 .plain), .inr [.plain], .inr [.plain],
      .inl (.other "connection refused")]
    ⟨.empty 0 fun _ => 7, []⟩

end Sample

/-- A creation that fails has stored its session. -/
theorem create_session_partial : ¬ CreatesWhen Sample.store fun _ => True := by
  intro creates
  have observed : (Sample.grantFails.any fun run =>
      (match run.1 with
        | .error _ => true
        | .ok _ => false) &&
      decide (run.2.2.world.metrics.sessionsCreatedTotal = 1)) = true := by
    decide +kernel
  obtain ⟨⟨result, rest, s⟩, computed, observed⟩ := (Option.any_eq_true _ _).mp observed
  obtain ⟨failed, counted⟩ := Bool.and_eq_true_iff.mp observed
  have run := Prog.replay_runs computed
  cases result with
  | ok reply => cases failed
  | error status =>
    have same := ((creates _ _ _ _ typed_empty run).mpr trivial).nothing status rfl
    have counted := of_decide_eq_true counted
    rw [same.2.2] at counted
    cases counted

end DirectLink
