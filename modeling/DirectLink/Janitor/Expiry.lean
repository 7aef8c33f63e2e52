import DirectLink.Janitor.SweepAlone
import DirectLink.Session.Indexes

/-!
# When an expired session is torn down

A session is stored at one instant.  Its hash disappears `SessionTTL` later, and its score in
`sessions:active` is that same instant in whole seconds.  Store calls, sweeps and the passing time
follow, one at a time; whether some sweep sees the session depends on when the sweeps run.
-/

namespace DirectLink

open RedisStore

/-! ### Runs -/

/-- A sweep: when it ran, the rooms it cleaned up, and by how much `SessionsExpiredTotal` rose. -/
structure SweepRecord : Type where
  time : Nat
  rooms : List String
  counted : Nat

/-- `Tended b G w sweeps w'`: store calls that satisfy `G`, sweeps that acquire the lock, and time
lead from `w` to `w'`. -/
inductive Tended (b : Backend) (G : StoreCall → Prop) : World → List SweepRecord → World → Prop
  | start {w : World} : Tended b G w [] w
  | call {w w' w'' : World} {sweeps : List SweepRecord} {sc : StoreCall} {a : Result} :
    Tended b G w sweeps w' → G sc → Alone (sc.code b.server.store) w' a w'' →
      Tended b G w sweeps w''
  | sweep {w w' w'' : World} {sweeps : List SweepRecord} {instanceID : String}
    {rooms : List String} :
    Tended b G w sweeps w' → w'.redis janitorLockKey = none →
      SweepsAlone b instanceID (fun _ => false) w'.now w' rooms w'' →
        Tended b G w (sweeps ++ [⟨w'.now, rooms,
          w''.metrics.sessionsExpiredTotal - w'.metrics.sessionsExpiredTotal⟩]) w''
  | time {w w' : World} {sweeps : List SweepRecord} {t : Nat} :
    Tended b G w sweeps w' → w'.now ≤ t → Tended b G w sweeps (w'.at_ t)

/-- The call neither closes nor deletes the session nor creates it again. -/
def StoreCall.Spares (id : String) : StoreCall → Prop
  | .createSession new => new.1.id ≠ id
  | .updateSessionStatus id' status => id'.1 = id → status ≠ statusClosed
  | .deleteSession id' => id'.1 ≠ id
  | _ => True

/-- The sweep calls `DeleteRoom` once for the session and counts each session it tears down. -/
def SweepRecord.TornDown (id : String) (r : SweepRecord) : Prop :=
  r.rooms.count id = 1 ∧ r.counted = r.rooms.length

/-- The first sweep at or after `d` tears the session down, unless an earlier one did. -/
def TornDownOnceDue (id : String) (d : Nat) (sweeps : List SweepRecord) : Prop :=
  ∀ before r after, sweeps = before ++ r :: after → d ≤ r.time → (∀ r' ∈ before, r'.time < d) →
    r.TornDown id ∨ ∃ r' ∈ before, r'.TornDown id

/-- The time is in the second of `d`, and before `d`. -/
def LastSecond (d t : Nat) : Prop := unix d ≤ unix t ∧ t < d

/-- If there is a sweep at or after `d`, then one ran in the second of `d` but before `d`. -/
def SweptInLastSecond (d : Nat) (sweeps : List SweepRecord) : Prop :=
  (∃ r ∈ sweeps, d ≤ r.time) → ∃ r ∈ sweeps, LastSecond d r.time

/-! ### The store between the calls -/

/-- What holds between the calls: every hash can be read, and the active set does not expire. -/
structure StoreSound (w : World) : Prop where
  typed : Typed w.redis
  whole : WholeHashes w.redis
  lasting : expiryOf (w.redis activeSessionsKey) = none

section Kept

variable {b : Backend} {G : StoreCall → Prop} {w w' : World} {ops : List Op} {sc : StoreCall}
variable {a : Result} {sweeps : List SweepRecord} {id : String}

/-- The operation meets a session where it writes a status. -/
def Op.Meets (db : Redis.Db) : Op → Prop
  | .writeStatus id _ => (db (sessionKey id)).isSome = true
  | _ => True

theorem WholeHashes.after {op : Op} (whole : WholeHashes w.redis) (typed : Typed w.redis)
    (wf : op.Wf) (meets : op.Meets w.redis) : WholeHashes (w.after op).redis := by
  intro id uuid there
  have left : (w.after op).redis (sessionKey id) = _ := Op.apply_session wf uuid
  split at left
  · next own =>
    cases op <;> cases own
    case existsSession | readSession =>
      rw [left] at there
      obtain ⟨session, live⟩ := whole id uuid there
      refine ⟨session, ?_⟩
      rw [Live, left]
      exact live
    case expireSession ttl =>
      rw [left] at there
      obtain ⟨session, live⟩ := whole id uuid (by simpa [Op.effect, redate] using there)
      refine ⟨session, ?_⟩
      rw [Live, left, Op.effect, hashOf_redate]
      exact live
    case writeSession new =>
      refine ⟨new.truncate, Live.of_hash ?_⟩
      rw [left, Op.effect, hashOf_keep]
    case writeStatus status =>
      obtain ⟨session, live⟩ := whole id uuid meets
      obtain ⟨stored, hash, _, _⟩ := live.stored typed uuid
      refine ⟨{ stored with status }.truncate, Live.of_hash ?_⟩
      rw [left, Op.effect, hashOf_keep, hash, insert_status_encode]
    case delSession =>
      rw [left] at there
      cases there
  · rw [left] at there
    obtain ⟨session, live⟩ := whole id uuid there
    refine ⟨session, ?_⟩
    rw [Live, left]
    exact live

/-- One operation after the other meets a session where it writes a status. -/
def MeetsAll : List Op → World → Prop
  | [], _ => True
  | op :: ops, w => op.Meets w.redis ∧ MeetsAll ops (w.after op)

theorem meetsAll_of_forall (none_ : ∀ op ∈ ops, ∀ db, op.Meets db) : MeetsAll ops w := by
  induction ops generalizing w with
  | nil => trivial
  | cons op ops ih =>
    exact ⟨none_ op List.mem_cons_self _, ih fun op' mem => none_ op' (List.mem_cons_of_mem _ mem)⟩

theorem StoreSound.afterAll (sound : StoreSound w) (wf : ∀ op ∈ ops, op.Wf)
    (meets : MeetsAll ops w) : StoreSound (w.afterAll ops) := by
  refine ⟨World.typed_afterAll sound.typed wf, ?_, expiry_active_afterAll wf sound.lasting⟩
  have typed := sound.typed
  have whole := sound.whole
  clear sound
  induction ops generalizing w with
  | nil => exact whole
  | cons op ops ih =>
    have wfOp := wf op List.mem_cons_self
    exact ih (fun op' mem => wf op' (List.mem_cons_of_mem _ mem)) meets.2
      (World.typed_after typed wfOp) (whole.after typed wfOp meets.1)

/-- Only a status update writes a status, to a session it has just found. -/
theorem StoreCall.Does.meets {r : RedisStore} (does : sc.Does r w a ops) : MeetsAll ops w := by
  cases sc with
  | updateSessionStatus id status =>
    obtain rfl | ⟨there, rfl⟩ := does
    · trivial
    · unfold statusOps
      split
      · exact ⟨there, trivial, trivial⟩
      · exact ⟨there, trivial⟩
  | _ =>
    refine meetsAll_of_forall ?_
    intro op mem db
    cases does.issues mem <;> trivial

theorem StoreSound.empty {t : Nat} {rand : Nat → Nat} : StoreSound (.empty t rand) where
  typed := typed_empty
  whole _ _ there := by cases there
  lasting := rfl

theorem StoreSound.time (sound : StoreSound w) (t : Nat) : StoreSound (w.at_ t) := by
  refine ⟨sound.typed.expire t, ?_, ?_⟩
  · intro id uuid there
    rw [World.at_redis] at there
    obtain same | gone := Redis.Db.expire_cases w.redis (sessionKey id) t
    · rw [same] at there
      obtain ⟨session, live⟩ := sound.whole id uuid there
      refine ⟨session, ?_⟩
      rw [Live, World.at_redis, same]
      exact live
    · rw [gone] at there
      cases there
  · obtain same | gone := Redis.Db.expire_cases w.redis activeSessionsKey t
    · exact (congrArg expiryOf same).trans sound.lasting
    · exact (congrArg expiryOf gone).trans rfl

/-- A store call carries out its operations. -/
theorem StoreSound.does {r : RedisStore} (sound : StoreSound w) (alone : Alone (sc.code r) w a w') :
    StoreSound w' ∧ ∃ ops, sc.Does r w a ops ∧ w' = w.afterAll ops := by
  obtain ⟨ops, does, rfl⟩ := alone_of_wp (wp_does sound.typed) alone
  exact ⟨sound.afterAll does.wf does.meets, ops, does, rfl⟩

theorem StoreSound.swept {instanceID : String} {fails : String → Bool} {now : Nat}
    {rooms : List String} (sound : StoreSound w) (free : w.redis janitorLockKey = none)
    (sweeps : SweepsAlone b instanceID fails now w rooms w') :
    StoreSound w' ∧ w'.now = w.now ∧ Swept fails now w rooms w' := by
  obtain ⟨⟨ops, n, wf, carried⟩, swept⟩ := swept_alone sound.typed sound.whole free sweeps
  refine ⟨⟨carried.typed wf sound.typed, swept.whole sound.typed sound.whole, ?_⟩,
    carried.now, swept⟩
  rw [carried.redis]
  exact expiry_active_afterAll wf sound.lasting

theorem Tended.sound (tended : Tended b G w sweeps w') (sound : StoreSound w) : StoreSound w' := by
  induction tended with
  | start => exact sound
  | call _ _ alone ih => exact (ih.does alone).1
  | sweep _ free sweeps ih => exact (ih.swept free sweeps).1
  | time _ _ ih => exact ih.time _

end Kept

/-! ### One session -/

/-- The session with the deadline `d`, after some sweeps. -/
structure Watched (id : String) (d : Nat) (sweeps : List SweepRecord) (w : World) : Prop where
  sound : StoreSound w
  ordered : sweeps.Pairwise fun r r' => r.time ≤ r'.time
  past : ∀ r ∈ sweeps, r.time ≤ w.now
  only : ∀ r ∈ sweeps, id ∈ r.rooms → LastSecond d r.time
  dated : (w.redis (sessionKey id)).isSome = true →
    expiryOf (w.redis (sessionKey id)) = some d ∧ w.now < d
  waiting : (∀ r ∈ sweeps, ¬ LastSecond d r.time) →
    (zsetOf (w.redis activeSessionsKey)).lookup id = some (unix d) ∧
      (w.now < d → ∃ session, Live w.redis id session ∧ session.status ≠ statusClosed)
  done : (∃ r ∈ sweeps, LastSecond d r.time) →
    (zsetOf (w.redis activeSessionsKey)).lookup id = none ∧
      ∃ r ∈ sweeps, LastSecond d r.time ∧ r.TornDown id

section Watching

variable {b : Backend} {w w' : World} {ops : List Op} {sc : StoreCall} {op : Op}
variable {a : Result} {sweeps : List SweepRecord} {id : String} {d : Nat}

/-- The operation writes at most another status than closed to the session. -/
def Op.KeepsOpen (id : String) (op : Op) : Prop :=
  op.key = some (.session id) → ∃ status, status ≠ statusClosed ∧ op = .writeStatus id status

theorem session_after (typed : Typed w.redis) (wf : op.Wf) (uuid : isUuid id = true)
    (keeps : op.KeepsOpen id) (meets : op.Meets w.redis) :
    ((w.after op).redis (sessionKey id)).isSome = (w.redis (sessionKey id)).isSome ∧
      expiryOf ((w.after op).redis (sessionKey id)) = expiryOf (w.redis (sessionKey id)) ∧
        ((∃ session, Live w.redis id session ∧ session.status ≠ statusClosed) →
          ∃ session, Live (w.after op).redis id session ∧ session.status ≠ statusClosed) := by
  have left : (w.after op).redis (sessionKey id) = _ := Op.apply_session wf uuid
  split at left
  · next own =>
    obtain ⟨status, other, rfl⟩ := keeps own
    have there : (w.redis (sessionKey id)).isSome = true := meets
    refine ⟨?_, ?_, ?_⟩
    · rw [left, there]
      rfl
    · rw [left, Op.effect, expiryOf_keep]
    · intro holds
      rcases holds with ⟨session, live, _⟩
      obtain ⟨stored, hash, _, _⟩ := live.stored typed uuid
      refine ⟨{ stored with status }.truncate, Live.of_hash ?_, other⟩
      rw [left, Op.effect, hashOf_keep, hash, insert_status_encode]
  · refine ⟨by rw [left], by rw [left], ?_⟩
    intro holds
    rcases holds with ⟨session, live, isOpen⟩
    refine ⟨session, ?_, isOpen⟩
    rw [Live, left]
    exact live

/-- What such operations leave of the session. -/
theorem session_afterAll (typed : Typed w.redis) (wf : ∀ op ∈ ops, op.Wf)
    (uuid : isUuid id = true) (keeps : ∀ op ∈ ops, op.KeepsOpen id) (meets : MeetsAll ops w) :
    ((w.afterAll ops).redis (sessionKey id)).isSome = (w.redis (sessionKey id)).isSome ∧
      expiryOf ((w.afterAll ops).redis (sessionKey id)) = expiryOf (w.redis (sessionKey id)) ∧
        ((∃ session, Live w.redis id session ∧ session.status ≠ statusClosed) →
          ∃ session, Live (w.afterAll ops).redis id session ∧ session.status ≠ statusClosed) := by
  induction ops generalizing w with
  | nil => exact ⟨rfl, rfl, fun open_ => open_⟩
  | cons op ops ih =>
    have wfOp := wf op List.mem_cons_self
    obtain ⟨there, expiry, open_⟩ :=
      session_after typed wfOp uuid (keeps op List.mem_cons_self) meets.1
    obtain ⟨there', expiry', open'⟩ := ih (World.typed_after typed wfOp)
      (fun op' mem => wf op' (List.mem_cons_of_mem _ mem))
      (fun op' mem => keeps op' (List.mem_cons_of_mem _ mem)) meets.2
    exact ⟨there'.trans there, expiry'.trans expiry, fun before => open' (open_ before)⟩

/-- The operation keeps `P` of the score of the session. -/
def Op.KeepsScore (id : String) (P : Option Int → Prop) (op : Op) : Prop :=
  op.key = some .active → ∀ now e, P ((zsetOf e).lookup id) →
    P ((zsetOf (op.effect now e)).lookup id)

theorem score_afterAll {P : Option Int → Prop} (wf : ∀ op ∈ ops, op.Wf)
    (keeps : ∀ op ∈ ops, op.KeepsScore id P)
    (holds : P ((zsetOf (w.redis activeSessionsKey)).lookup id)) :
    P ((zsetOf ((w.afterAll ops).redis activeSessionsKey)).lookup id) := by
  induction ops generalizing w with
  | nil => exact holds
  | cons op ops ih =>
    refine ih (fun op' mem => wf op' (List.mem_cons_of_mem _ mem))
      (fun op' mem => keeps op' (List.mem_cons_of_mem _ mem)) ?_
    rw [World.after_redis, Op.apply_active (wf op List.mem_cons_self)]
    split
    · next own => exact keeps op List.mem_cons_self own _ _ holds
    · exact holds

/-- How a call that spares the session touches its hash and its score. -/
def Op.Touches (id : String) (db : Redis.Db) (op : Op) : Prop :=
  op.KeepsOpen id ∧ (op.key = some .active →
    (∃ score id', id' ≠ id ∧ op = .addActive score id') ∨
      ∃ id', op = .dropActive id' ∧ (id' = id → statusOf db id = some statusClosed))

theorem StoreCall.Does.touches {r : RedisStore} (does : sc.Does r w a ops) (spares : sc.Spares id) :
    ∀ op ∈ ops, op.Touches id w.redis := by
  intro op mem
  have aside : ∀ {op : Op}, op.key ≠ some (.session id) → op.key ≠ some .active →
      op.Touches id w.redis :=
    fun session active => ⟨fun own => absurd own session, fun own => absurd own active⟩
  cases does.issues mem with
  | writeSession | expireSession | delSession =>
    exact aside (fun own => spares (Key.session.inj (Option.some.inj own))) (by simp [Op.key])
  | addActive =>
    exact ⟨(fun own => by cases own), fun _ => .inl ⟨_, _, spares, rfl⟩⟩
  | @writeStatus _ status =>
    refine ⟨fun own => ?_, (fun own => by cases own)⟩
    cases own
    exact ⟨status, spares rfl, rfl⟩
  | dropClosing closing =>
    refine ⟨(fun own => by cases own), fun _ => .inr ⟨_, rfl, fun same => ?_⟩⟩
    exact absurd closing (spares same)
  | dropDeleted =>
    exact ⟨(fun own => by cases own), fun _ => .inr ⟨_, rfl, fun same => absurd same spares⟩⟩
  | @dropClosed _ id' _ closed =>
    refine ⟨(fun own => by cases own), fun _ => .inr ⟨id', rfl, ?_⟩⟩
    intro agrees
    subst agrees
    exact closed
  | _ => exact aside (by simp [Op.key]) (by simp [Op.key])

/-- Where such a call does not drop the session, its score stays. -/
theorem Op.Touches.keepsScore {P : Option Int → Prop} {db : Redis.Db} (touches : op.Touches id db)
    (open_ : statusOf db id = some statusClosed → P none) : op.KeepsScore id P := by
  intro own now e holds
  obtain ⟨score, id', other, rfl⟩ | ⟨id', rfl, closed⟩ := touches.2 own
  · rw [Op.effect, zsetOf_keep, Finmap.lookup_insert_of_ne _ other.symm]
    exact holds
  · rw [zsetOf_dropActive]
    by_cases same : id' = id
    · subst same
      rw [Finmap.lookup_erase]
      exact open_ (closed rfl)
    · rw [Finmap.lookup_erase_ne (Ne.symm same)]
      exact holds

/-- A creation starts the watch. -/
theorem Watched.created {new : NewSession} (sound : StoreSound w)
    {result : Except Err Unit} (isOpen : new.1.status ≠ statusClosed)
    (creates : Alone (b.server.store.createSession new.1) w result w') :
    Watched new.1.id (w.now + b.server.store.ttl) [] w' := by
  have uuid := new.2
  obtain ⟨_, rfl⟩ := alone_of_wp (alone_createSession sound.typed uuid) creates
  have does : (StoreCall.createSession new).Does b.server.store w (.unit result)
      (b.server.store.createOps new.1 w.now) := rfl
  have hash : (w.afterAll (b.server.store.createOps new.1 w.now)).redis (sessionKey new.1.id) =
      some ⟨.hash (encode new.1), some (w.now + b.server.store.ttl)⟩ := created_session uuid
  have now : (w.afterAll (b.server.store.createOps new.1 w.now)).now = w.now := World.afterAll_now
  constructor
  · exact sound.afterAll does.wf does.meets
  · exact List.Pairwise.nil
  · exact fun r mem => by cases mem
  · exact fun r mem => by cases mem
  · intro _
    rw [hash, now]
    have positive := b.server.store.ttl_pos
    exact ⟨rfl, by omega⟩
  · intro _
    rw [created_active uuid, zsetOf_keep]
    refine ⟨Finmap.lookup_insert _, fun _ => ⟨new.1.truncate, ?_, isOpen⟩⟩
    exact Live.of_hash (congrArg hashOf hash)
  · intro holds
    rcases holds with ⟨r, mem, _⟩
    cases mem

theorem Watched.time {t : Nat} (watched : Watched id d sweeps w) (later : w.now ≤ t) :
    Watched id d sweeps (w.at_ t) := by
  have active : (w.at_ t).redis activeSessionsKey = w.redis activeSessionsKey := by
    refine Redis.Db.expire_of_lasting ?_
    intro d' dated
    have lasting := watched.sound.lasting
    rw [expiryOf, dated] at lasting
    cases lasting
  constructor
  · exact watched.sound.time t
  · exact watched.ordered
  · exact fun r mem => (watched.past r mem).trans later
  · exact watched.only
  · intro there
    have before : (w.redis (sessionKey id)).isSome = true := by
      obtain same | gone := Redis.Db.expire_cases w.redis (sessionKey id) t
      · rw [World.at_redis, same] at there
        exact there
      · rw [World.at_redis, gone] at there
        cases there
    obtain ⟨expiry, _⟩ := watched.dated before
    have early : t < d := Redis.Db.lt_of_expire there expiry
    refine ⟨?_, early⟩
    rw [World.at_redis, Redis.Db.expire_of_lt expiry early]
    exact expiry
  · intro none_
    rw [active]
    obtain ⟨listed, open_⟩ := watched.waiting none_
    refine ⟨listed, ?_⟩
    intro early
    have early' : t < d := early
    obtain ⟨session, live, isOpen⟩ := open_ (by omega)
    obtain ⟨expiry, _⟩ := watched.dated live.isSome
    refine ⟨session, ?_, isOpen⟩
    rw [Live, World.at_redis, Redis.Db.expire_of_lt expiry early']
    exact live
  · intro some_
    rw [active]
    exact watched.done some_

theorem Watched.call {r : RedisStore} (watched : Watched id d sweeps w) (uuid : isUuid id = true)
    (spares : sc.Spares id) (alone : Alone (sc.code r) w a w') : Watched id d sweeps w' := by
  obtain ⟨sound, ops, does, rfl⟩ := watched.sound.does alone
  have touches := does.touches spares
  obtain ⟨there, expiry, open_⟩ := session_afterAll watched.sound.typed does.wf uuid
    (fun op mem => (touches op mem).1) does.meets
  have now : (w.afterAll ops).now = w.now := World.afterAll_now
  constructor
  · exact sound
  · exact watched.ordered
  · rw [now]
    exact watched.past
  · exact watched.only
  · rw [there, expiry, now]
    exact watched.dated
  · intro none_
    obtain ⟨listed, open'⟩ := watched.waiting none_
    rw [now]
    refine ⟨?_, fun early => open_ (open' early)⟩
    refine score_afterAll (P := (· = some (unix d))) does.wf ?_ listed
    intro op mem
    refine (touches op mem).keepsScore ?_
    intro closed
    -- it is open as long as its hash is there
    have stored : (w.redis (sessionKey id)).isSome = true := by
      by_contra missing
      rw [Option.not_isSome_iff_eq_none] at missing
      rw [statusOf, missing, hashOf_none, Finmap.lookup_empty] at closed
      cases closed
    obtain ⟨session, live, isOpen⟩ := open' (watched.dated stored).2
    rw [live.status watched.sound.typed uuid] at closed
    exact absurd (Option.some.inj closed) isOpen
  · intro some_
    obtain ⟨gone, torn⟩ := watched.done some_
    refine ⟨?_, torn⟩
    refine score_afterAll (P := (· = none)) does.wf ?_ gone
    exact fun op mem => (touches op mem).keepsScore fun _ => rfl

/-- The session is due from its last second on, until a sweep of that second. -/
theorem Watched.due_iff (watched : Watched id d sweeps w) : Due w.redis w.now id ↔
    (∀ r ∈ sweeps, ¬ LastSecond d r.time) ∧ unix d ≤ unix w.now := by
  constructor
  · intro holds
    rcases holds with ⟨score, listed, come⟩
    have none_ : ∀ r ∈ sweeps, ¬ LastSecond d r.time := by
      intro r mem last
      rw [(watched.done ⟨r, mem, last⟩).1] at listed
      cases listed
    rw [(watched.waiting none_).1] at listed
    cases listed
    exact ⟨none_, come⟩
  · intro holds
    rcases holds with ⟨none_, come⟩
    exact ⟨_, (watched.waiting none_).1, come⟩

theorem Watched.expired_iff (watched : Watched id d sweeps w) : Expired w.redis w.now id ↔
    (∀ r ∈ sweeps, ¬ LastSecond d r.time) ∧ LastSecond d w.now := by
  constructor
  · intro holds
    rcases holds with ⟨due, session, live, _⟩
    obtain ⟨none_, come⟩ := watched.due_iff.mp due
    exact ⟨none_, come, (watched.dated live.isSome).2⟩
  · intro holds
    rcases holds with ⟨none_, come, early⟩
    exact ⟨watched.due_iff.mpr ⟨none_, come⟩, (watched.waiting none_).2 early⟩

theorem Watched.not_dueClosed (watched : Watched id d sweeps w) :
    ¬ DueClosed w.redis w.now id := by
  intro holds
  rcases holds with ⟨due, session, live, closed⟩
  obtain ⟨none_, _⟩ := watched.due_iff.mp due
  obtain ⟨session', live', isOpen⟩ :=
    (watched.waiting none_).2 (watched.dated live.isSome).2
  rw [Live, live] at live'
  cases live'
  exact isOpen closed

/-- A sweep before or after the last second leaves the session alone. -/
theorem Watched.spared {rooms : List String} (watched : Watched id d sweeps w)
    (uuid : isUuid id = true) (swept : Swept (fun _ => false) w.now w rooms w')
    (spared : ¬ Expired w.redis w.now id) :
    w'.redis (sessionKey id) = w.redis (sessionKey id) ∧
      (zsetOf (w'.redis activeSessionsKey)).lookup id =
        (zsetOf (w.redis activeSessionsKey)).lookup id := by
  refine ⟨swept.session_same uuid fun torn => spared torn.1, swept.listed id ?_⟩
  intro either
  rcases either with torn | closed
  · exact spared torn.1
  · exact watched.not_dueClosed closed

/-- A sweep tears the session down exactly in its last second, and once. -/
theorem Watched.sweep {instanceID : String} {rooms : List String}
    (watched : Watched id d sweeps w) (uuid : isUuid id = true)
    (free : w.redis janitorLockKey = none)
    (swept : SweepsAlone b instanceID (fun _ => false) w.now w rooms w') :
    Watched id d (sweeps ++ [⟨w.now, rooms,
      w'.metrics.sessionsExpiredTotal - w.metrics.sessionsExpiredTotal⟩]) w' := by
  obtain ⟨sound, now, swept⟩ := watched.sound.swept free swept
  have expired := watched.expired_iff
  have same := watched.spared uuid swept
  constructor
  · exact sound
  · refine List.pairwise_append.mpr ⟨watched.ordered, List.pairwise_singleton _ _, ?_⟩
    intro r mem r' new
    rw [List.mem_singleton.mp new]
    exact watched.past r mem
  · intro r mem
    rw [now]
    obtain old | new := List.mem_append.mp mem
    · exact watched.past r old
    · rw [List.mem_singleton.mp new]
  · intro r mem inRooms
    obtain old | new := List.mem_append.mp mem
    · exact watched.only r old inRooms
    · rw [List.mem_singleton.mp new] at inRooms ⊢
      exact (expired.mp ((swept.cleaned id).mp inRooms)).2
  · intro there
    rw [now]
    by_cases torn : Expired w.redis w.now id
    · obtain ⟨session, live, _⟩ := torn.2
      rw [swept.closed id torn rfl, expiryOf_keep]
      exact watched.dated live.isSome
    · rw [(same torn).1] at there ⊢
      exact watched.dated there
  · intro none_
    have spared : ¬ Expired w.redis w.now id := fun torn =>
      none_ _ (List.mem_append_right _ List.mem_cons_self) (expired.mp torn).2
    obtain ⟨listed, open_⟩ := watched.waiting fun r mem => none_ r (List.mem_append_left _ mem)
    rw [(same spared).2, now]
    refine ⟨listed, fun early => ?_⟩
    obtain ⟨session, live, isOpen⟩ := open_ early
    refine ⟨session, ?_, isOpen⟩
    rw [Live, (same spared).1]
    exact live
  · intro holds
    rcases holds with ⟨r, mem, last⟩
    by_cases torn : Expired w.redis w.now id
    · refine ⟨swept.removed id (.inl ⟨torn, rfl⟩), _,
        List.mem_append_right _ List.mem_cons_self, (expired.mp torn).2, ?_, ?_⟩
      · exact List.count_eq_one_of_mem swept.once ((swept.cleaned id).mpr torn)
      · dsimp only
        rw [swept.counted]
        simp
    · obtain old | new := List.mem_append.mp mem
      · obtain ⟨gone, r', mem', rest⟩ := watched.done ⟨r, old, last⟩
        rw [(same torn).2]
        exact ⟨gone, r', List.mem_append_left _ mem', rest⟩
      · rw [List.mem_singleton.mp new] at last
        by_cases before : ∃ r ∈ sweeps, LastSecond d r.time
        · obtain ⟨gone, r', mem', rest⟩ := watched.done before
          rw [(same torn).2]
          exact ⟨gone, r', List.mem_append_left _ mem', rest⟩
        · refine absurd (expired.mpr ⟨?_, last⟩) torn
          exact fun r mem last' => before ⟨r, mem, last'⟩

/-- The run keeps the watch. -/
theorem Tended.watched (tended : Tended b (StoreCall.Spares id) w sweeps w')
    (uuid : isUuid id = true) (watched : Watched id d [] w) : Watched id d sweeps w' := by
  induction tended with
  | start => exact watched
  | call _ spares alone ih => exact ih.call uuid spares alone
  | sweep _ free sweeps ih => exact ih.sweep uuid free sweeps
  | time _ later ih => exact ih.time later

/-- Which sweep tears the session down. -/
theorem Watched.tornDown_iff (watched : Watched id d sweeps w) :
    TornDownOnceDue id d sweeps ↔ SweptInLastSecond d sweeps := by
  have last_of_torn : ∀ r ∈ sweeps, r.TornDown id → LastSecond d r.time := by
    intro r mem torn
    refine watched.only r mem (List.count_pos_iff.mp ?_)
    rw [torn.1]
    exact Nat.one_pos
  constructor
  · intro once holds
    rcases holds with ⟨r, mem, late⟩
    obtain ⟨first, found⟩ := Option.isSome_iff_exists.mp
      (List.find?_isSome (p := fun r => decide (d ≤ r.time)) |>.mpr ⟨r, mem, decide_eq_true late⟩)
    obtain ⟨come, before, after, split, early⟩ := List.find?_eq_some_iff_append.mp found
    have early' : ∀ r' ∈ before, r'.time < d := by
      intro r' mem'
      have not_come := early r' mem'
      simp only [Bool.not_eq_true', decide_eq_false_iff_not, not_le] at not_come
      exact not_come
    obtain torn | ⟨r', mem', torn⟩ := once before first after split (of_decide_eq_true come) early'
    · have last := last_of_torn first (List.mem_of_find?_eq_some found) torn
      exact absurd last.2 (not_lt.mpr (of_decide_eq_true come))
    · have inSweeps : r' ∈ sweeps := split ▸ List.mem_append_left _ mem'
      exact ⟨r', inSweeps, last_of_torn r' inSweeps torn⟩
  · intro swept before r after split late early
    obtain ⟨r', mem', last, torn⟩ :=
      (watched.done (swept ⟨r, split ▸ List.mem_append_right _ List.mem_cons_self, late⟩)).2
    -- the sweep in the last second came before
    refine .inr ⟨r', ?_, torn⟩
    rw [split] at mem'
    obtain earlier | later := List.mem_append.mp mem'
    · exact earlier
    · have ordered := watched.ordered
      rw [split] at ordered
      have sorted := (List.pairwise_append.mp ordered).2.1
      obtain rfl | after' := List.mem_cons.mp later
      · exact absurd last.2 (not_lt.mpr late)
      · have le := (List.pairwise_cons.mp sorted).1 r' after'
        exact absurd last.2 (not_lt.mpr (late.trans le))

end Watching

/-- A session is stored at one instant and neither closed, deleted nor created again by a call.
However the calls, the sweeps and the time follow, the first sweep at or after that instant and
`SessionTTL` tears it down, unless an earlier one did, exactly when the times of the sweeps satisfy
`C`. -/
def TearsDownWhen (b : Backend) (C : Nat → List SweepRecord → Prop) : Prop :=
  ∀ t rand w w₁ w₂ earlier sweeps (new : NewSession) result,
    Tended b (fun _ => True) (.empty t rand) earlier w → new.1.status ≠ statusClosed →
      Alone (b.server.store.createSession new.1) w result w₁ →
        Tended b (StoreCall.Spares new.1.id) w₁ sweeps w₂ →
          (TornDownOnceDue new.1.id (w.now + b.server.store.ttl) sweeps ↔
            C (w.now + b.server.store.ttl) sweeps)

/-- **Every expired session is torn down** exactly if no sweep runs once its hash has expired, or
one runs before that in the same second. -/
theorem expired_torn_down (b : Backend) : TearsDownWhen b SweptInLastSecond := by
  intro t rand w w₁ w₂ earlier sweeps new result before isOpen creates after
  have created := Watched.created (before.sound .empty) isOpen creates
  exact (after.watched new.2 created).tornDown_iff

/-- How sweeps in which nothing fails are replayed. -/
noncomputable def sweepReplayer : Replayer (S := backend) (SweepStep fun _ => false) where
  Hint := Hint
  perform h s c := (Hint.perform s.1 c h).map fun moved => (moved.1, moved.2, logged c s.2)
  sound h s c r s' computed := by
    obtain ⟨moved, performed, same⟩ := Option.map_eq_some_iff.mp computed
    cases same
    refine ⟨.inl ⟨?_, Hint.performs_of_perform performed⟩, rfl⟩
    intro refused
    cases c
    case redis c => cases c <;> simp [Refused] at refused
    all_goals exact refused

namespace Sample

def expiringSession : NewSession := ⟨expiring, uuid_id₁⟩

/-- The session is created at `t`, and `t'` comes. -/
def createdThen (t t' : Nat) : World :=
  ((World.empty t fun _ => 7).afterAll (store.createOps expiring t)).at_ t'

/-- A sweep, with the rooms it cleaned up and the world it left. -/
noncomputable def sweepFrom (w : World) (hints : List Hint) : Option (List String × World) :=
  (((backend.janitor "janitor-1").sweepAt w.now).replay sweepReplayer hints (w, [])).map
    fun run => (run.2.2.2, run.2.2.1)

theorem sweepsAlone_of_sweepFrom {w : World} {hints : List Hint} {swept : List String × World}
    (computed : sweepFrom w hints = some swept) :
    SweepsAlone backend "janitor-1" (fun _ => false) w.now w swept.1 swept.2 := by
  obtain ⟨run, replayed, same⟩ := Option.map_eq_some_iff.mp computed
  cases same
  exact Prog.replay_runs replayed

theorem alone_create (t : Nat) :
    ∃ result, Alone (store.createSession expiringSession.1) (.empty t fun _ => 7) result
      ((World.empty t fun _ => 7).afterAll (store.createOps expiring t)) := by
  obtain ⟨result, w, alone, _, rfl⟩ := alone_total (alone_createSession (r := store)
    (w := .empty t fun _ => 7) typed_empty expiringSession.2)
  exact ⟨result, alone⟩

end Sample

/-- The only sweep runs when the hash has expired. -/
theorem expired_kept : ¬ TearsDownWhen Sample.backend fun _ _ => True := by
  intro tears
  have observed : ((Sample.sweepFrom (Sample.createdThen 0 (86400 * second))
      [.plain, .order [Sample.id₁], .plain, .plain]).any fun swept =>
        decide (swept.1 = []) && decide ((Sample.createdThen 0 (86400 * second)).redis
          janitorLockKey = none)) = true := by
    decide +kernel
  obtain ⟨⟨rooms, w₂⟩, computed, observed⟩ := (Option.any_eq_true _ _).mp observed
  obtain ⟨noRooms, free⟩ := Bool.and_eq_true_iff.mp observed
  obtain rfl : rooms = [] := of_decide_eq_true noRooms
  obtain ⟨result, creates⟩ := Sample.alone_create 0
  have after := Tended.sweep (b := Sample.backend) (G := StoreCall.Spares Sample.id₁)
    (.time .start (Nat.zero_le _)) (of_decide_eq_true free)
    (Sample.sweepsAlone_of_sweepFrom computed)
  have once := (tears _ _ _ _ _ _ _ Sample.expiringSession _ .start (by decide) creates after).mpr
    trivial
  obtain torn | ⟨r, mem, _⟩ := once [] _ [] rfl (le_refl _) (fun r mem => by cases mem)
  · cases torn.1
  · cases mem

end DirectLink
