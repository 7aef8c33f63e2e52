import DirectLink.Interleaving.Duties
import DirectLink.Runs
import DirectLink.Session.StoreCommands

/-!
# Keys and their deadlines

A write of a hash or a set gives a new key no deadline; the pipelines of the store set it with the
next command, and no other command takes it away.

* `commands_meet_their_kind`: no command in flight meets a key of another type or touches a key
  other than its own, whatever the strings in the keys.
* `Owes`: a call has sent such a write and not had the deadline set since.
* `wp_date_call`: where nothing fails, a call that has returned owes nothing.
* `nothing_outlives_ttl`: so what is left when no call is in flight is gone one TTL later, but for
  the list of active sessions and a hash with nothing but a status.
-/

namespace DirectLink

open RedisStore

/-! ### Every key has its kind -/

section Kinds

variable {b : Backend} {faults : Cmd → Err → Prop} {s₀ s : Pool (b.system faults)}
variable {G : Pool (b.system faults) → Move (b.system faults) → Prop}

/-- **Commands meet their kind**: in every state that any calls reach, whatever fails, the next
Redis command of a call is answered, never refused for the type of the key, and it leaves every key
but its own alone: the keys of other sessions, users and codes and of other kinds. -/
theorem commands_meet_their_kind {i : Nat} {t : Thread (b.system faults)} {c : Redis.Cmd}
    {k : Except Err c.Reply → Go Result} (empty : s₀.world.redis = .empty)
    (none_ : s₀.threads = []) (reach : Pool.Reach G s₀ s) (at_ : s.threads[i]? = some t)
    (next : t.prog = .call (.redis c) k) (o : Redis.Order) :
    (Redis.exec o s.world.now s.world.redis c).1.isSome = true ∧
      ∃ op : Op, op.Wf ∧ op.cmd = c ∧ ∀ key : Key, key.Wf → op.key ≠ some key →
        (Redis.exec o s.world.now s.world.redis c).2 key.text = s.world.redis key.text := by
  have start : Typed s₀.world.redis := by
    rw [empty]
    exact typed_empty
  obtain ⟨typed, op, wf, rfl, _⟩ := reach_issued start none_ reach at_ next
  rw [exec_op typed wf]
  refine ⟨rfl, op, wf, rfl, ?_⟩
  intro key wf' other
  exact (Op.apply_at wf wf').trans (if_neg other)

end Kinds

namespace Sample

/-- A session was created, and a director is about to be granted access to it. -/
noncomputable def grants : Option (Pool (system .never)) :=
  replay isRequest (.start (.createSession ⟨"alice", 2⟩) :: go 0 (create id₁) ++
    .start (.joinSession ⟨"ROOM-000007", "bob", "director"⟩) :: go 1 (List.replicate 3 .plain))
    (start .never 7)

/-- Its next command writes to a hash. -/
def asksWrite (t : Thread (system .never)) : Bool :=
  match t.prog with
  | .call (.redis (.hset _ _)) _ => true
  | _ => false

end Sample

/-- The write of the access leaves the session that is stored alone. -/
theorem commands_meet_their_kind_run : ∃ (s : Pool (Sample.system .never))
    (t : Thread (Sample.system .never)) (key : String) (fields : List (String × String))
    (k : Except Err (Redis.Cmd.hset key fields).Reply → Go Result),
    Pool.Reach RequestsOnly (Sample.start .never 7) s ∧ s.threads[1]? = some t ∧
      t.prog = .call (.redis (.hset key fields)) k ∧
      (s.world.redis (sessionKey Sample.id₁)).isSome = true ∧ ∀ o,
        (Redis.exec o s.world.now s.world.redis (.hset key fields)).1.isSome = true ∧
          ∃ op : Op, op.Wf ∧ op.cmd = .hset key fields ∧
            ∀ key' : Key, key'.Wf → op.key ≠ some key' →
              (Redis.exec o s.world.now s.world.redis (.hset key fields)).2 key'.text =
                s.world.redis key'.text := by
  have observed : (Sample.grants.any fun s => s.threads[1]?.any Sample.asksWrite &&
      (s.world.redis (sessionKey Sample.id₁)).isSome) = true := by
    decide +kernel
  obtain ⟨s, computed, found⟩ := (Option.any_eq_true _ _).mp observed
  obtain ⟨asks, stored⟩ := Bool.and_eq_true_iff.mp found
  obtain ⟨t, at_, pending⟩ := (Option.any_eq_true _ _).mp asks
  have reach := (Sample.reach_of_replay computed).mono fun _ _ => Sample.requestsOnly_of_isRequest
  unfold Sample.asksWrite at pending
  split at pending
  · next key fields k next => exact ⟨s, t, key, fields, k, reach, at_, next, stored,
      commands_meet_their_kind rfl rfl reach at_ next⟩
  · cases pending

/-! ### Owing a deadline -/

/-- The fields are a status and the key that of a session: the write of `UpdateSessionStatus`. -/
def StatusWrite (key : String) (fields : List (String × String)) : Prop :=
  ∃ id status, isUuid id = true ∧ key = sessionKey id ∧ fields = [("status", status)]

/-- The command can bring the key into being without a deadline. -/
def Cmd.Starts (key : String) : Cmd → Prop
  | .redis (.hset k fields) => k = key ∧ ¬ StatusWrite k fields
  | .redis (.sadd k _) => k = key
  | _ => False

/-- The key was given a deadline, and the answer said so. -/
def Event.Dates (key : String) : Event backend → Prop
  | ⟨.redis (.expire k _), r⟩ => k = key ∧ r.isOk = true
  | _ => False

/-- The keys owed a deadline after one more event. -/
def owing (owed : Set String) (e : Event backend) : Set String :=
  {key | e.cmd.Starts key ∨ (key ∈ owed ∧ ¬ Event.Dates key e)}

/-- The history has begun the key and not had its deadline set since. -/
def Owes (past : List (Event backend)) (key : String) : Prop := key ∈ past.foldl owing ∅

theorem owes_append {past : List (Event backend)} {e : Event backend} {key : String} :
    Owes (past ++ [e]) key ↔ e.cmd.Starts key ∨ (Owes past key ∧ ¬ Event.Dates key e) := by
  rw [Owes, List.foldl_append]
  rfl

theorem owing_empty {e : Event backend} (none_ : ∀ key, ¬ e.cmd.Starts key) : owing ∅ e = ∅ := by
  refine Set.eq_empty_of_forall_notMem ?_
  intro key either
  rcases either with starts | ⟨impossible, _⟩
  · exact none_ key starts
  · exact impossible

/-- The key that one command begins is dated by the next. -/
theorem owing_paid {w e : Event backend} {k : String} (starts : ∀ key, w.cmd.Starts key → key = k)
    (dates : Event.Dates k e) (none_ : ∀ key, ¬ e.cmd.Starts key) : owing (owing ∅ w) e = ∅ := by
  refine Set.eq_empty_of_forall_notMem ?_
  intro key either
  rcases either with starts' | ⟨owed, undated⟩
  · exact none_ key starts'
  · rcases owed with started | ⟨impossible, _⟩
    · rw [starts key started] at undated
      exact undated dates
    · exact impossible

/-! ### A call without failures pays what it owes -/

/-- A time to live the command sets is the TTL of sessions or, for the lock, its own. -/
def TimedCmd (b : Backend) : Cmd → Prop
  | .redis (.set _ _ ttl) => ttl = some b.server.store.ttl
  | .redis (.setNX _ _ ttl) => ttl = some b.lockTTL
  | .redis (.expire _ ttl) => ttl = b.server.store.ttl
  | _ => True

/-- The command begins no key. -/
def Plain (b : Backend) (c : Cmd) : Prop := TimedCmd b c ∧ ∀ key, ¬ c.Starts key

/-- The logic whose local state is the set of keys owed a deadline, where no command fails. -/
abbrev dateLogic (b : Backend) : Logic backend :=
  ghostLogic (fun e => e.cmd.Sound e.reply ∧ e.cmd.Succeeds e.reply) owing fun _ c => TimedCmd b c

section Dates

variable {b : Backend} {α β : Type} {Q : β → Set String → Prop}

theorem timed_of_store {grows : Bool} {c : Cmd} (store : StoreCmd b.server.store grows c) :
    TimedCmd b c := by
  cases store with
  | after | timeNow => trivial
  | op o own =>
    cases o
    case setCode => exact congrArg some own.2
    case takeLock => exact own.elim
    case expireSession | expireAccess | expireIngress | expireUser => exact own
    all_goals trivial

theorem plain_of_store {c : Cmd} (store : StoreCmd b.server.store false c) : Plain b c := by
  refine ⟨timed_of_store store, ?_⟩
  intro key starts
  cases store with
  | after | timeNow => exact starts
  | op o own =>
    cases o
    case writeSession | writeStatus | writeRole | addIngress | addUserSession => cases own
    all_goals exact starts

theorem wp_date_issues {p : Go α} (plain : p.Issues (Plain b)) :
    p.wp (dateLogic b) (fun _ g => g = ∅) ∅ := by
  refine plain.wp (L := dateLogic b) (J := fun g => g = ∅) ?_ rfl
  intro g c same holds
  subst same
  rcases holds with ⟨timed, none_⟩
  exact ghostLogic_call.mpr ⟨timed, fun _ _ => owing_empty none_⟩

/-- A program that begins no key, before the rest. -/
theorem wp_date_plain {p : Go α} {f : α → Go β} (plain : p.Issues (Plain b))
    (rest : ∀ a, (f a).wp (dateLogic b) Q ∅) : (p >>= f).wp (dateLogic b) Q ∅ := by
  rw [Prog.wp_bind]
  refine Prog.wp_mono (wp_date_issues plain) ?_
  intro a g same
  subst same
  exact rest a

theorem wp_date_store {p : Go α} {f : α → Go β} (store : p.Issues (StoreCmd b.server.store false))
    (rest : ∀ a, (f a).wp (dateLogic b) Q ∅) : (p >>= f).wp (dateLogic b) Q ∅ :=
  wp_date_plain (store.mono fun _ => plain_of_store) rest

/-- A command that is none of Redis, before the rest. -/
theorem wp_date_other {c : Cmd} {f : c.Reply → Go β} (away : ∀ c', c ≠ .redis c')
    (rest : ∀ reply, c.Sound reply → (f reply).wp (dateLogic b) Q ∅) :
    (issue c >>= f).wp (dateLogic b) Q ∅ := by
  have plain : Plain b c := by
    cases c
    case redis c => exact absurd rfl (away c)
    all_goals exact ⟨trivial, fun _ impossible => impossible⟩
  refine ghostLogic_call.mpr ⟨plain.1, fun reply expected => ?_⟩
  rw [owing_empty plain.2]
  exact rest reply expected.1

/-- A Redis command of the store that begins no key. -/
theorem answers_date {o : Op} {P : o.cmd.Reply → Set String → Prop}
    (own : o.OfStore b.server.store false)
    (next : ∀ v, o.cmd.Sound v → P v ∅) : (dateLogic b).Answers ∅ o.cmd P := by
  have plain : Plain b (.redis o.cmd) := plain_of_store (.op o own)
  refine answers_ghost (fun _ expected => expected.2) plain.1 fun v expected => ?_
  rw [owing_empty plain.2]
  exact next v expected.1

/-- A write that begins the key `k` and the command that dates it. -/
theorem answers_date_pair {o u : Op} {k : String} {P : Set String → Prop}
    (own : o.OfStore b.server.store true) (own' : u.OfStore b.server.store true)
    (starts : ∀ key, (Cmd.redis o.cmd).Starts key → key = k)
    (dates : ∀ v, Event.Dates k ⟨.redis u.cmd, .ok v⟩)
    (none_ : ∀ key, ¬ (Cmd.redis u.cmd).Starts key) (next : P ∅) :
    (dateLogic b).Answers ∅ o.cmd fun _ g => (dateLogic b).Answers g u.cmd fun _ g' => P g' := by
  refine answers_ghost (fun _ expected => expected.2) (timed_of_store (.op o own)) fun v _ => ?_
  refine answers_ghost (fun _ expected => expected.2) (timed_of_store (.op u own')) fun v' _ => ?_
  rw [owing_paid starts (dates v') none_]
  exact next

theorem wp_date_grantAccess {id userID role : String} :
    (b.server.store.grantAccess id userID role).wp (dateLogic b) (fun _ g => g = ∅) ∅ := by
  refine wp_grantAccess (answers_date (o := .existsSession id) trivial ?_)
  intro found _
  cases found with
  | false => rfl
  | true =>
    exact answers_date_pair (o := .writeRole id userID role)
      (u := .expireAccess id b.server.store.ttl) (k := accessKey id) rfl rfl
      (fun _ starts => starts.1.symm) (fun _ => ⟨rfl, rfl⟩) (fun _ impossible => impossible) rfl

theorem wp_date_addIngressID {id ingressID : String} :
    (b.server.store.addIngressID id ingressID).wp (dateLogic b) (fun _ g => g = ∅) ∅ :=
  wp_addIngressID (answers_date_pair (o := .addIngress id ingressID)
    (u := .expireIngress id b.server.store.ttl) (k := ingressKey id) rfl rfl
    (fun _ starts => Eq.symm starts) (fun _ => ⟨rfl, rfl⟩) (fun _ impossible => impossible) rfl)

theorem wp_date_createSession {sess : Session} :
    (b.server.store.createSession sess).wp (dateLogic b) (fun _ g => g = ∅) ∅ := by
  refine wp_createSession (ghostLogic_call.mpr ⟨trivial, fun now _ => ?_⟩)
  have fresh : owing ∅ ⟨.timeNow, now⟩ = ∅ := owing_empty fun _ impossible => impossible
  rw [fresh]
  have indexed : (dateLogic b).AnswersAll ∅ [(Op.addUserSession sess.createdBy sess.id).cmd,
      (Op.expireUser sess.createdBy b.server.store.ttl).cmd,
      (Op.addActive (unix (now + b.server.store.ttl)) sess.id).cmd] fun g => g = ∅ := by
    refine answers_date_pair (k := userSessionsKey sess.createdBy) (P := fun g =>
      (dateLogic b).AnswersAll g [(Op.addActive (unix (now + b.server.store.ttl)) sess.id).cmd]
        fun g => g = ∅) rfl rfl (fun _ starts => Eq.symm starts) (fun _ => ⟨rfl, rfl⟩)
      (fun _ impossible => impossible) ?_
    refine answers_ghost (fun _ expected => expected.2) trivial fun v _ => ?_
    exact owing_empty fun _ impossible => impossible
  have begins : ∀ cs : List Redis.Cmd, (dateLogic b).AnswersAll ∅ cs (fun g => g = ∅) →
      (dateLogic b).AnswersAll ∅ ((Op.writeSession sess).cmd ::
        (Op.expireSession sess.id b.server.store.ttl).cmd :: cs) fun g => g = ∅ := by
    intro cs rest
    exact answers_date_pair (o := .writeSession sess) (u := .expireSession sess.id _)
      (k := sessionKey sess.id) (P := fun g => (dateLogic b).AnswersAll g cs fun g => g = ∅) rfl rfl
      (fun _ starts => starts.1.symm) (fun _ => ⟨rfl, rfl⟩) (fun _ impossible => impossible) rest
  rw [createPipeline]
  split
  · refine begins _ ?_
    refine answers_ghost (fun _ expected => expected.2) rfl fun v _ => ?_
    have mapped : owing ∅ ⟨.redis (.set (roomCodeKey sess.roomCode) sess.id
        (some b.server.store.ttl)), .ok v⟩ = ∅ := owing_empty fun _ impossible => impossible
    rw [mapped]
    exact indexed
  · exact begins _ indexed

theorem wp_date_updateSessionStatus {id status : String} (uuid : isUuid id = true) :
    (b.server.store.updateSessionStatus id status).wp (dateLogic b) (fun _ g => g = ∅) ∅ := by
  refine wp_updateSessionStatus (answers_date (o := .existsSession id) trivial ?_)
  intro found _
  cases found with
  | false => rfl
  | true =>
    refine answers_ghost (fun _ expected => expected.2) trivial fun v _ => ?_
    have written : owing ∅ ⟨.redis (Op.writeStatus id status).cmd, .ok v⟩ = ∅ :=
      owing_empty fun key starts => starts.2 ⟨id, status, uuid, rfl, rfl⟩
    rw [written]
    split
    · exact answers_date (o := .dropActive id) trivial fun _ _ => rfl
    · rfl

/-- The session found under a room code has a UUID. -/
theorem wp_date_found {code : String} {f : Except Err Session → Go β}
    (ok : ∀ sess, isUuid sess.id = true → (f (.ok sess)).wp (dateLogic b) Q ∅)
    (failed : ∀ err, (f (.error err)).wp (dateLogic b) Q ∅) :
    (b.server.store.getSessionByRoomCode code >>= f).wp (dateLogic b) Q ∅ := by
  rw [Prog.wp_bind]
  refine wp_getSessionByRoomCode (answers_date (o := .getCode code) trivial ?_)
  intro mapped named
  cases mapped with
  | none => exact failed _
  | some id =>
    have uuid : isUuid id = true := named code rfl id rfl
    refine answers_date (o := .readSession id) trivial ?_
    intro h sound
    cases parsed : parseSession h with
    | error err => exact failed err
    | ok sess =>
      have own := id_of_sound uuid sound parsed
      exact ok sess (own ▸ uuid)

theorem wp_date_newRoomCodeFrom {attempts : Nat} {f : Except Err String → Go β}
    (rest : ∀ a, (f a).wp (dateLogic b) Q ∅) :
    (newRoomCodeFrom b.server.store attempts >>= f).wp (dateLogic b) Q ∅ := by
  induction attempts with
  | zero => exact rest _
  | succ attempts ih =>
    rw [newRoomCodeFrom, Prog.bind_assoc]
    refine wp_date_other (by simp) ?_
    intro drawn _
    cases drawn with
    | error err => exact rest _
    | ok n =>
      dsimp only
      rw [Prog.bind_assoc]
      refine wp_date_found (fun sess _ => ih) fun err => ?_
      dsimp only
      split <;> exact rest _

theorem wp_date_deleteRoom {id : String} {f : Except Err Unit → Go β}
    (rest : ∀ a, (f a).wp (dateLogic b) Q ∅) :
    (b.server.deleteRoom id >>= f).wp (dateLogic b) Q ∅ := by
  have plain : ∀ c : Cmd, (∀ c', c ≠ .redis c') → Plain b c := by
    intro c away
    cases c
    case redis c => exact absurd rfl (away c)
    all_goals exact ⟨trivial, fun _ impossible => impossible⟩
  have finish : ∀ errs, (finishRoom id errs).Issues (Plain b) := by
    intro errs
    refine ⟨plain _ (by simp), ?_⟩
    intro reply
    cases reply <;> trivial
  refine wp_date_plain (Prog.Issues.bind (StoreCmd.getIngressIDs.mono fun _ => plain_of_store) ?_)
    rest
  intro listed
  cases listed with
  | error err => exact finish _
  | ok ids => exact (issues_deleteIngresses fun _ _ => plain _ (by simp)).bind finish

/-! ### Requests, sweeps and methods of the store -/

/-- After a program that owes nothing in the end. -/
theorem wp_date_bind {p : Go α} {f : α → Go β} (paid : p.wp (dateLogic b) (fun _ g => g = ∅) ∅)
    (rest : ∀ a, (f a).wp (dateLogic b) Q ∅) : (p >>= f).wp (dateLogic b) Q ∅ := by
  rw [Prog.wp_bind]
  refine Prog.wp_mono paid ?_
  intro a g same
  subst same
  exact rest a

theorem wp_date_joinSession {req : JoinRequest} :
    (b.server.joinSession req).wp (dateLogic b) (fun _ g => g = ∅) ∅ := by
  unfold Server.joinSession
  split; · rfl
  split; · rfl
  split; · rfl
  refine wp_date_found ?_ fun _ => rfl
  intro sess _
  dsimp only
  split; · rfl
  split
  · refine wp_date_other (by simp) ?_
    intro created _
    cases created with
    | error err => rfl
    | ok info =>
      refine wp_date_bind wp_date_grantAccess ?_
      intro granted
      cases granted with
      | error err => exact wp_date_other (by simp) fun _ _ => rfl
      | ok _ =>
        refine wp_date_bind wp_date_addIngressID ?_
        exact fun _ => wp_date_other (by simp) fun _ _ => rfl
  split
  · refine wp_date_bind wp_date_grantAccess ?_
    intro granted
    cases granted with
    | error err => rfl
    | ok _ =>
      refine wp_date_other (by simp) ?_
      intro now _
      split
      · rfl
      · exact wp_date_other (by simp) fun _ _ => rfl
  · rfl

theorem wp_date_createRequest {req : CreateSessionRequest} :
    (b.server.createSession req).wp (dateLogic b) (fun _ g => g = ∅) ∅ := by
  unfold Server.createSession
  split; · rfl
  split; · rfl
  refine wp_date_other (by simp) fun id _ => ?_
  refine wp_date_newRoomCodeFrom ?_
  intro drawn
  cases drawn with
  | error err => rfl
  | ok code =>
    refine wp_date_other (by simp) fun createdAt _ => ?_
    refine wp_date_bind wp_date_createSession ?_
    intro stored
    cases stored with
    | error err => rfl
    | ok _ =>
      refine wp_date_other (by simp) fun _ _ => wp_date_other (by simp) fun _ _ => ?_
      refine wp_date_bind wp_date_grantAccess ?_
      intro granted
      cases granted <;> rfl

theorem wp_date_closeSession {req : CloseSessionRequest} :
    (b.server.closeSession req).wp (dateLogic b) (fun _ g => g = ∅) ∅ := by
  unfold Server.closeSession
  split; · rfl
  split; · rfl
  refine wp_date_found ?_ fun _ => rfl
  intro sess uuid
  dsimp only
  split; · rfl
  refine wp_date_deleteRoom fun _ => ?_
  refine wp_date_bind (wp_date_updateSessionStatus uuid) ?_
  intro closed
  cases closed with
  | error err => rfl
  | ok _ => exact wp_date_other (by simp) fun _ _ => rfl

theorem wp_date_closeExpiredSessions {instanceID : String} {sessions : List Session}
    (uuid : ∀ sess ∈ sessions, isUuid sess.id = true) :
    ((b.janitor instanceID).closeExpiredSessions sessions).wp (dateLogic b) (fun _ g => g = ∅)
      ∅ := by
  induction sessions with
  | nil => rfl
  | cons sess sessions ih =>
    have rest := ih fun other member => uuid other (List.mem_cons_of_mem _ member)
    rw [Janitor.closeExpiredSessions, Janitor.closeExpiredSession, Prog.bind_assoc]
    refine wp_date_deleteRoom fun _ => ?_
    rw [Prog.bind_assoc]
    refine wp_date_bind (wp_date_updateSessionStatus (uuid sess List.mem_cons_self)) ?_
    intro closed
    cases closed with
    | error err => exact rest
    | ok _ =>
      exact wp_date_other (by simp) fun _ _ => wp_date_other (by simp) fun _ _ => rest

theorem wp_date_collectExpired {ids : List String} {sessions : List Session}
    {Q : Except Err (List Session) → Set String → Prop} (uuid : ∀ id ∈ ids, isUuid id = true)
    (found : ∀ sess ∈ sessions, isUuid sess.id = true)
    (ok : ∀ sessions : List Session, (∀ sess ∈ sessions, isUuid sess.id = true) →
      Q (.ok sessions) ∅) (failed : ∀ err, Q (.error err) ∅) :
    (b.server.store.collectExpired ids sessions).wp (dateLogic b) Q ∅ := by
  induction ids generalizing sessions with
  | nil => exact ok sessions found
  | cons id ids ih =>
    have isId := uuid id List.mem_cons_self
    have rest : ∀ sessions : List Session, (∀ sess ∈ sessions, isUuid sess.id = true) →
        (b.server.store.collectExpired ids sessions).wp (dateLogic b) Q ∅ :=
      fun _ => ih fun other member => uuid other (List.mem_cons_of_mem _ member)
    refine wp_collectExpired_cons (answers_date (o := .readSession id) trivial ?_)
    intro h sound
    cases parsed : parseSession h with
    | error err =>
      dsimp only
      split
      · exact rest sessions found
      · exact failed _
    | ok sess =>
      dsimp only
      split
      · exact answers_date (o := .dropActive id) trivial fun _ _ => rest sessions found
      · refine rest _ fun other member => ?_
        rcases List.mem_append.mp member with old | new
        · exact found other old
        · rw [List.mem_singleton.mp new, id_of_sound isId sound parsed]
          exact isId

theorem wp_date_sweepAt {instanceID : String} {now : Nat} :
    ((b.janitor instanceID).sweepAt now).wp (dateLogic b) (fun _ g => g = ∅) ∅ := by
  have release : ((b.janitor instanceID).releaseLock).wp (dateLogic b) (fun _ g => g = ∅) ∅ := by
    rw [Janitor.releaseLock, Prog.wp_bind]
    refine wp_redis (answers_ghost (fun _ expected => expected.2) trivial fun _ _ => ?_)
    exact owing_empty fun _ impossible => impossible
  rw [Janitor.sweepAt, Prog.wp_bind]
  refine wp_redis (answers_ghost (fun _ expected => expected.2) rfl fun taken _ => ?_)
  have locked : owing ∅ ⟨.redis (.setNX janitorLockKey (b.janitor instanceID).instanceID
      (some (b.janitor instanceID).lockTTL)), .ok taken⟩ = ∅ :=
    owing_empty fun _ impossible => impossible
  rw [locked]
  cases taken with
  | false => rfl
  | true =>
    dsimp only
    rw [Prog.wp_bind]
    refine wp_getExpiredSessions (answers_date (o := .readActive (unix now)) trivial ?_)
    intro ids sound
    refine wp_date_collectExpired sound.2 (fun _ impossible => by cases impossible) ?_
      fun err => release
    intro sessions uuid
    exact wp_date_bind (wp_date_closeExpiredSessions uuid) fun _ => release

/-- **A call pays what it owes**: where nothing fails, a call that has returned has had a deadline
set on every key it can have begun. -/
theorem wp_date_call (call : Call) :
    (b.code call).wp (dateLogic b) (fun _ g => g = ∅) ∅ := by
  cases call with
  | joinSession req => exact wp_date_bind wp_date_joinSession fun _ => rfl
  | createSession req => exact wp_date_bind wp_date_createRequest fun _ => rfl
  | closeSession req => exact wp_date_bind wp_date_closeSession fun _ => rfl
  | getMySessions req =>
    refine wp_date_bind ?_ fun _ => rfl
    unfold Server.getMySessions
    split; · rfl
    refine wp_date_store StoreCmd.getUserSessions ?_
    intro listed
    cases listed <;> rfl
  | sweepAt instanceID now => exact wp_date_bind wp_date_sweepAt fun _ => rfl
  | store call =>
    cases call with
    | createSession sess => exact wp_date_bind wp_date_createSession fun _ => rfl
    | updateSessionStatus id status =>
      exact wp_date_bind (wp_date_updateSessionStatus id.2) fun _ => rfl
    | grantAccess id userID role => exact wp_date_bind wp_date_grantAccess fun _ => rfl
    | addIngressID id ingressID => exact wp_date_bind wp_date_addIngressID fun _ => rfl
    | getSession id => exact wp_date_store StoreCmd.getSession fun _ => rfl
    | getSessionByRoomCode code => exact wp_date_store StoreCmd.getSessionByRoomCode fun _ => rfl
    | deleteSession id => exact wp_date_store StoreCmd.deleteSession fun _ => rfl
    | getExpiredSessions now => exact wp_date_store StoreCmd.getExpiredSessions fun _ => rfl
    | getRole id userID => exact wp_date_store StoreCmd.getRole fun _ => rfl
    | revokeAccess id userID =>
      exact wp_date_store (StoreCmd.retry (.dropRole id userID) trivial) fun _ => rfl
    | hasAccess id userID =>
      exact wp_date_store (StoreCmd.retry (.hasRole id userID) trivial) fun _ => rfl
    | getUserSessions userID => exact wp_date_store StoreCmd.getUserSessions fun _ => rfl
    | getIngressIDs id => exact wp_date_store StoreCmd.getIngressIDs fun _ => rfl
    | ping =>
      refine wp_date_issues (Prog.Issues.bind ?_ fun _ => trivial)
      refine ⟨plain_of_store (.op .ping trivial), fun reply => ?_⟩
      cases reply <;> trivial

end Dates

/-! ### What a key holds and until when -/

/-- What need not have a deadline: the list of active sessions, and a session that is nothing but
a status. -/
def Bare (key : String) (value : Redis.Value) : Prop :=
  key = activeSessionsKey ∨ ∃ id status, isUuid id = true ∧ key = sessionKey id ∧
    value = .hash ((∅ : Redis.Hash).insert "status" status)

theorem text_ne_sessionKey {k : Key} {id : String} (wf : k.Wf) (uuid : isUuid id = true)
    (other : ∀ id', k ≠ .session id') : k.text ≠ sessionKey id := by
  intro same
  have texts : k.text = (Key.session id).text := same
  exact other id (Key.text_injective wf uuid texts)

/-- A status alone stands at the key of a session, and at no other. -/
theorem Bare.other_value {k : Key} {value value' : Redis.Value} (lasts : Bare k.text value)
    (wf : k.Wf) (other : ∀ id, k ≠ .session id) : Bare k.text value' := by
  rcases lasts with active | ⟨id, _, uuid, same, _⟩
  · exact .inl active
  · exact absurd same (text_ne_sessionKey wf uuid other)

/-- The key has a deadline within `limit`, may last, or is owed one. -/
def Within (limit now : Nat) (owed : Prop) (key : String) (e : Option Redis.Entry) : Prop :=
  ∀ entry ∈ e, match entry.expireAt with
    | some d => d ≤ now + limit
    | none => Bare key entry.value ∨ owed

namespace Within

variable {limit now ttl : Nat} {owed owed' : Prop} {key : String} {e : Option Redis.Entry}
variable {value : Redis.Value}

theorem of_none : Within limit now owed key none := fun _ impossible => by cases impossible

theorem stays (within : Within limit now owed key e) (still : owed → owed') :
    Within limit now owed' key e := by
  intro post found
  rcases post with ⟨value, expireAt⟩
  have holds := within _ found
  cases expireAt with
  | some d => exact holds
  | none => exact holds.imp_right still

theorem dated (le : ttl ≤ limit) : Within limit now owed key (some ⟨value, some (now + ttl)⟩) := by
  intro _ impossible
  cases impossible
  exact Nat.add_le_add_left le now

theorem redated (le : ttl ≤ limit) : Within limit now owed key (redate e (now + ttl)) := by
  intro entry found
  obtain ⟨old, _, rfl⟩ := Option.map_eq_some_iff.mp found
  exact Nat.add_le_add_left le now

/-- A write keeps the deadline; without one the value may last or the deadline is owed. -/
theorem kept (within : Within limit now owed key e)
    (undated : (∀ entry ∈ e, Bare key entry.value ∨ owed) → Bare key value ∨ owed') :
    Within limit now owed' key (keep e value) := by
  intro _ impossible
  cases impossible
  cases e with
  | none => exact undated fun _ impossible => by cases impossible
  | some entry =>
    obtain ⟨old, expireAt⟩ := entry
    have holds := within _ rfl
    cases expireAt with
    | some d => exact holds
    | none =>
      refine undated ?_
      intro _ impossible
      cases impossible
      exact holds

theorem later {now' : Nat} (le : now ≤ now') (within : Within limit now owed key e) :
    Within limit now' owed key e := by
  intro post found
  rcases post with ⟨value, expireAt⟩
  have holds := within _ found
  cases expireAt with
  | some d => exact Nat.le_trans holds (Nat.add_le_add_right le limit)
  | none => exact holds

theorem expire {db : Redis.Db} (within : Within limit now owed key (db key)) (t : Nat) :
    Within limit now owed key (db.expire t key) := by
  rcases Redis.Db.expire_cases db key t with same | gone
  · rwa [same]
  · rw [gone]
    exact of_none

end Within

/-- What the store and the janitors set as a time to live at most. -/
def Backend.longest (b : Backend) : Nat := max b.server.store.ttl b.lockTTL

/-- **One command**: its key has a deadline, may last, or is owed one by whoever sent it. -/
theorem within_effect {b : Backend} {op : Op} {k : Key} {now : Nat} {owed owed' : Prop}
    {e : Option Redis.Entry} (wf : op.Wf) (timed : TimedCmd b (.redis op.cmd))
    (at_ : op.key = some k) (within : Within b.longest now owed k.text e)
    (starts : (Cmd.redis op.cmd).Starts k.text → owed')
    (still : (∀ v, ¬ Event.Dates k.text ⟨.redis op.cmd, .ok v⟩) → owed → owed') :
    Within b.longest now owed' k.text (op.effect now e) := by
  have store : b.server.store.ttl ≤ b.longest := Nat.le_max_left ..
  have lock : b.lockTTL ≤ b.longest := Nat.le_max_right ..
  -- what is left of a set or of the roles
  have removed : ∀ {value : Redis.Value}, e ≠ none → k.Wf → (∀ id, k ≠ .session id) →
      (owed → owed') → Within b.longest now owed' k.text (keep e value) := by
    intro value present wf other still
    refine within.kept fun undated => ?_
    obtain ⟨entry, found⟩ := Option.ne_none_iff_exists'.mp present
    exact (undated entry found).imp (fun lasts => lasts.other_value wf other) still
  cases op <;> cases at_
  case getCode | existsSession | readSession | readRole | hasRole | readIngress | readUser
      | readActive => exact within.stays (still fun _ impossible => impossible)
  case setCode code id ttl =>
    cases timed
    exact Within.dated store
  case delCode | delSession | delAccess => exact Within.of_none
  case expireSession | expireAccess | expireIngress | expireUser =>
    cases timed
    exact Within.redated store
  case writeSession sess =>
    refine within.kept fun _ => .inr (starts ⟨rfl, ?_⟩)
    intro holds
    rcases holds with ⟨id, status, _, _, fields⟩
    exact absurd (congrArg List.length fields) (by simp [sessionData])
  case writeStatus id status =>
    refine within.kept fun undated => ?_
    cases e with
    | none => exact .inl (.inr ⟨id, status, wf, rfl, rfl⟩)
    | some entry =>
      rcases undated entry rfl with (active | ⟨id', old, uuid, same, value⟩) | owes
      · exact .inl (.inl active)
      · refine .inl (.inr ⟨id, status, wf, rfl, ?_⟩)
        obtain ⟨v, expireAt⟩ := entry
        cases value
        exact congrArg Redis.Value.hash (Finmap.insert_insert ..)
      · exact .inr (still (fun _ impossible => impossible) owes)
  case writeRole id userID role =>
    refine within.kept fun _ => .inr (starts ⟨rfl, ?_⟩)
    intro holds
    rcases holds with ⟨id', status, uuid, same, _⟩
    exact text_ne_sessionKey (k := .access id) wf uuid (by simp) same
  case addIngress | addUserSession =>
    exact within.kept fun _ => .inr (starts rfl)
  case addActive => exact within.kept fun _ => .inl (.inl rfl)
  case dropActive =>
    rw [Op.effect]
    split
    · exact Within.of_none
    · exact within.kept fun _ => .inl (.inl rfl)
  case dropRole id userID =>
    rw [Op.effect]
    split
    · exact Within.of_none
    · next left =>
      refine removed ?_ wf (by simp) (still fun _ impossible => impossible)
      intro agrees
      subst agrees
      exact left rfl
  case dropUserSession userID id =>
    rw [Op.effect]
    split
    · exact Within.of_none
    · next left =>
      refine removed ?_ trivial (by simp) (still fun _ impossible => impossible)
      intro agrees
      subst agrees
      exact left rfl
  case takeLock value ttl =>
    cases timed
    rw [Op.effect]
    split
    · exact within.stays (still fun _ impossible => impossible)
    · exact Within.dated lock
  case dropLock =>
    rw [Op.effect]
    split
    · exact Within.of_none
    · exact within.stays (still fun _ impossible => impossible)

/-! ### Every reachable state -/

section Reach

variable {b : Backend} {s₀ s : Pool (b.system noFaults)}
variable {G : Pool (b.system noFaults) → Move (b.system noFaults) → Prop}

/-- Setting deadlines as a contract. -/
@[reducible] def Backend.dating (b : Backend) : Contract (b.system noFaults) where
  Expects e := e.cmd.Sound e.reply ∧ e.cmd.Succeeds e.reply
  Allows _ _ c := TimedCmd b c
  Post _ _ past := ∀ key, ¬ Owes past key

theorem covers_dating (call : Call) : b.dating.Covers call := by
  have paid : (b.code call).wp (dateLogic b) (fun _ g => g = ∅)
      (([] : List (Event backend)).foldl owing ∅) := wp_date_call call
  refine Prog.wp_mono (Prog.wp_of_ghost paid) ?_
  intro _ past none_ key owes
  rw [Owes, none_] at owes
  exact owes

/-- A call owes the key a deadline. -/
def DateOwed (s : Pool (b.system noFaults)) (key : String) : Prop :=
  ∃ t ∈ s.threads, Owes t.past key

/-- Every key has a deadline, may last, or is owed one by a call. -/
def Accounted (s : Pool (b.system noFaults)) : Prop :=
  ∀ key, Within b.longest s.world.now (DateOwed s key) key (s.world.redis key)

/-- Whoever owed the key still does, unless it was the thread that moved and the key was dated. -/
theorem DateOwed.advance {i : Nat} {t : Thread (b.system noFaults)} {e : Event backend}
    {key : String} (world : World) (prog : Go Result) (owed : DateOwed s key)
    (at_ : s.threads[i]? = some t)
    (undated : ¬ Event.Dates key e) : DateOwed (s.advance i t e world prog) key := by
  obtain ⟨t', member, owes⟩ := owed
  rcases Pool.mem_of_mem_advance e world prog at_ member with rfl | stays
  · have owes' : Owes (t'.past ++ [e]) key := owes_append.mpr (.inr ⟨owes, undated⟩)
    exact ⟨_, Pool.moved_mem_advance at_, owes'⟩
  · exact ⟨t', stays, owes⟩

theorem dateOwed_of_starts {i : Nat} {t : Thread (b.system noFaults)} {e : Event backend}
    {key : String} (world : World) (prog : Go Result) (at_ : s.threads[i]? = some t)
    (starts : e.cmd.Starts key) :
    DateOwed (s.advance i t e world prog) key := by
  have owes : Owes (t.past ++ [e]) key := owes_append.mpr (.inl starts)
  exact ⟨_, Pool.moved_mem_advance at_, owes⟩

/-- A command dates its own key only. -/
theorem not_dates_of_ne {op : Op} {key : String} {v : op.cmd.Reply}
    (other : ∀ k, op.key = some k → key ≠ k.text) :
    ¬ Event.Dates key ⟨.redis op.cmd, .ok v⟩ := by
  cases op
  case expireSession | expireAccess | expireIngress | expireUser =>
    intro holds
    rcases holds with ⟨texts, _⟩
    exact other _ rfl texts.symm
  all_goals exact fun impossible => impossible

theorem accounted_op {i : Nat} {t : Thread (b.system noFaults)} {op : Op} {v : op.cmd.Reply}
    {prog : Go Result} (inv : Accounted s) (at_ : s.threads[i]? = some t) (wf : op.Wf)
    (timed : TimedCmd b (.redis op.cmd)) :
    Accounted (s.advance i t ⟨.redis op.cmd, .ok v⟩ (s.world.after op) prog) := by
  intro key
  by_cases own : ∃ k, op.key = some k ∧ key = k.text
  · obtain ⟨k, at', rfl⟩ := own
    have inside := within_effect wf timed at' (inv k.text)
      (dateOwed_of_starts (e := ⟨.redis op.cmd, .ok v⟩) (s.world.after op) prog at_)
      fun undated owed => owed.advance _ _ at_ (undated v)
    have after : (s.world.after op).redis k.text =
        op.effect s.world.now (s.world.redis k.text) := by
      rw [World.after_redis, Op.apply_at wf (wf.key at'), if_pos at']
    rw [← after] at inside
    exact inside
  · have other : ∀ k, op.key = some k → key ≠ k.text := fun k at' same => own ⟨k, at', same⟩
    have elsewhere : (s.world.after op).redis key = s.world.redis key := by
      rw [World.after_redis, Op.apply]
      cases at' : op.key with
      | none => rfl
      | some k => exact Redis.Db.assign_of_ne (other k at')
    have outside := (inv key).stays fun owed : DateOwed s key =>
      owed.advance (s.world.after op) prog at_ (not_dates_of_ne (v := v) other)
    rw [← elsewhere] at outside
    exact outside

theorem accounted_other {i : Nat} {t : Thread (b.system noFaults)} {c : Cmd} {r : c.Reply}
    {world : World} {prog : Go Result} (inv : Accounted s) (at_ : s.threads[i]? = some t)
    (away : ∀ c', c ≠ .redis c') (exec : Exec noFaults s.world c r world) :
    Accounted (s.advance i t ⟨c, r⟩ world prog) := by
  obtain ⟨redis, now⟩ := exec_frame away exec
  have undated : ∀ key, ¬ Event.Dates key ⟨c, r⟩ := by
    cases c
    case redis c => exact absurd rfl (away c)
    all_goals exact fun _ impossible => impossible
  intro key
  have stays := (inv key).stays fun owed : DateOwed s key =>
    owed.advance world prog at_ (undated key)
  rw [← redis, ← now] at stays
  exact stays

theorem accounted_advance {i : Nat} {t : Thread (b.system noFaults)} {c : Cmd} {r : c.Reply}
    {world : World} {prog : Go Result} (inv : Accounted s) (typed : Typed s.world.redis)
    (at_ : s.threads[i]? = some t) (issued : Issued t.call t.past c) (timed : TimedCmd b c)
    (exec : Exec noFaults s.world c r world) :
    Accounted (s.advance i t ⟨c, r⟩ world prog) := by
  cases c
  case redis c =>
    obtain ⟨op, wf, rfl, _⟩ := issued
    rcases exec with performs | ⟨err, impossible, _⟩
    · obtain ⟨o, rfl, rfl⟩ := performs_op typed wf performs
      exact accounted_op inv at_ wf timed
    · exact impossible.elim
  all_goals exact accounted_other inv at_ (fun c' => by simp) exec

/-- **Deadlines are set or owed**: however calls of any kind interleave, where nothing fails. -/
theorem reach_accounted (empty : s₀.world.redis = .empty) (none_ : s₀.threads = [])
    (reach : Pool.Reach G s₀ s) :
    Accounted s ∧ ∀ t ∈ s.threads, b.dating.Follows t ∧ b.dating.Kept t := by
  have start : Typed s₀.world.redis := by
    rw [empty]
    exact typed_empty
  refine Pool.Reach.contract (C := b.dating) (I := Accounted) ?_ none_ (fun _ call _ =>
    covers_dating call) ?_ ?_ ?_ reach
  · intro key
    rw [empty]
    exact Within.of_none
  · intro s call _ inv _ key
    refine (inv key).stays ?_
    intro holds
    rcases holds with ⟨t, member, owes⟩
    exact ⟨t, List.mem_append_left _ member, owes⟩
  · intro s i t c k r world reached inv _ _ at_ next timed exec
    obtain ⟨typed, issued⟩ := reach_issued start none_ reached at_ next
    exact ⟨⟨(typed_exec typed issued exec).1, succeeds_of_exec typed issued exec⟩,
      accounted_advance inv typed at_ issued timed exec⟩
  · intro s t world _ inv _ holds key
    rcases holds with ⟨le, rfl⟩
    exact ((inv key).expire t).later le

/-- **Nothing outlives its time to live**: where nothing fails and no call is in flight, every key
is gone once the TTL of sessions and that of the lock have passed, but for the list of active
sessions and a session of which nothing but the status was written. -/
theorem nothing_outlives_ttl (empty : s₀.world.redis = .empty) (none_ : s₀.threads = [])
    (reach : Pool.Reach G s₀ s) (quiet : s.Quiet) {t : Nat} (late : s.world.now + b.longest ≤ t)
    (key : String) :
    (s.world.at_ t).redis key = none ∨
      ∃ entry, s.world.redis key = some entry ∧ Bare key entry.value := by
  obtain ⟨accounted, kept⟩ := reach_accounted empty none_ reach
  have settled : ¬ DateOwed s key := by
    intro holds
    rcases holds with ⟨t, member, owes⟩
    obtain ⟨result, returned⟩ := (quiet t member).exists_eq
    exact (kept t member).1.post returned key owes
  cases found : s.world.redis key with
  | none =>
    left
    rw [World.at_redis, Redis.Db.expire_apply, found]
    rfl
  | some entry =>
    have within := accounted key entry found
    cases deadline : entry.expireAt with
    | none =>
      rw [deadline] at within
      exact .inr ⟨entry, rfl, within.resolve_right settled⟩
    | some d =>
      rw [deadline] at within
      left
      rw [World.at_redis, Redis.Db.expire_apply, found, Option.filter_some, deadline]
      refine if_neg ?_
      simp only [Option.all_some, decide_eq_true_eq, Nat.not_lt]
      exact Nat.le_trans within late

end Reach

namespace Sample

/-- A session is created. -/
noncomputable def createdOnce : Option (Pool (system .never)) :=
  replay isRequest (.start (.createSession ⟨"alice", 2⟩) :: go 0 (create id₁)) (start .never 7)

end Sample

theorem nothing_outlives_ttl_run : ∃ s : Pool (Sample.system .never),
    Pool.Reach RequestsOnly (Sample.start .never 7) s ∧ s.Quiet ∧
      (s.world.redis (sessionKey Sample.id₁)).isSome = true ∧ ∀ key,
        (s.world.at_ (s.world.now + Sample.backend.longest)).redis key = none ∨
          ∃ entry, s.world.redis key = some entry ∧ Bare key entry.value := by
  have observed : (Sample.createdOnce.any fun s => Sample.atRest s &&
      (s.world.redis (sessionKey Sample.id₁)).isSome) = true := by
    decide +kernel
  obtain ⟨s, computed, observed⟩ := (Option.any_eq_true _ _).mp observed
  obtain ⟨rest, stored⟩ := Bool.and_eq_true_iff.mp observed
  have reach := (Sample.reach_of_replay computed).mono fun _ _ => Sample.requestsOnly_of_isRequest
  have quiet := Sample.quiet_of_atRest rest
  exact ⟨s, reach, quiet, stored, nothing_outlives_ttl rfl rfl reach quiet le_rfl⟩

end DirectLink
