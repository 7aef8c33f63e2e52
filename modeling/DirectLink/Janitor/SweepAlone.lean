import DirectLink.Runs
import DirectLink.Session.Sequential
import DirectLink.Session.StoreFaults

/-!
# A sweep that runs alone

What one sweep does when no other client is at work and no key expires meanwhile, for every choice
of the cleanups and the updates that fail.  The run is followed operation by operation: which
sessions the sweep collects, what it does to each of them whatever happened to the others, and that
it leaves the lock as it found it.
-/

namespace DirectLink

open RedisStore

theorem sessionKey_inj {id id' : String} : sessionKey id = sessionKey id' ↔ id = id' := by
  rw [sessionKey, sessionKey, String.append_right_inj]

/-! ### Which calls fail -/

/-- The command writes the status of a session whose update fails. -/
def Refused (fails : String → Bool) : Cmd → Prop
  | .redis (.hset key _) => ∃ id, fails id = true ∧ key = sessionKey id
  | _ => False

/-- The command is part of an update that fails, or of the cleanup of a room. -/
def CanFail (fails : String → Bool) : Cmd → Prop
  | .redis (.existsKey key) | .redis (.hset key _) => ∃ id, fails id = true ∧ key = sessionKey id
  | .redis (.smembers _) | .deleteIngress _ | .deleteRoom _ => True
  | _ => False

theorem Refused.canFail {fails : String → Bool} {c : Cmd} (refused : Refused fails c) :
    CanFail fails c := by
  cases c
  case redis c => cases c <;> first | exact refused | exact refused.elim
  all_goals exact refused.elim

/-- A command is carried out, or it fails and has no effect. -/
def SweepExec (fails : String → Bool) (w : World) (c : Cmd) (r : c.Reply) (w' : World) : Prop :=
  (¬ Refused fails c ∧ Performs w c r w') ∨
    (CanFail fails c ∧ (∃ err, c.Reports r err) ∧ w' = w)

/-- The rooms for which `DeleteRoom` was called: each call asks LiveKit once to delete the room. -/
def logged : Cmd → List String → List String
  | .deleteRoom room, rooms => rooms ++ [room]
  | _, rooms => rooms

/-- One command of a sweep, in a world with the rooms that were cleaned up so far. -/
def SweepStep (fails : String → Bool) (s : World × List String) (c : Cmd) (r : c.Reply)
    (s' : World × List String) : Prop :=
  SweepExec fails s.1 c r s'.1 ∧ s'.2 = logged c s.2

/-- `SweepAt(now)` leads alone from `w` to `w'` and cleans up the rooms, in this order. -/
def SweepsAlone (b : Backend) (instanceID : String) (fails : String → Bool) (now : Nat) (w : World)
    (rooms : List String) (w' : World) : Prop :=
  ((b.janitor instanceID).sweepAt now).Runs (SweepStep fails) (w, []) () (w', rooms)

/-- The commands of a sweep: they can always be carried out or fail. -/
def Cmd.OfSweep : Cmd → Prop
  | .redis _ | .deleteIngress _ | .deleteRoom _ | .after _ | .metric _ => True
  | _ => False

/-- The logic of a sweep that runs alone. -/
@[reducible] def sweepLogic (fails : String → Bool) : Logic backend where
  State := World × List String
  Allows _ c := c.OfSweep
  Step := SweepStep fails

section Rules

variable {fails : String → Bool} {w : World} {rooms : List String} {r : RedisStore} {α : Type}

theorem Cmd.OfSweep.enabled {c : Cmd} (ofSweep : c.OfSweep) (s : World × List String) :
    ∃ reply s', SweepStep fails s c reply s' := by
  by_cases refused : Refused fails c
  · cases c
    case redis c =>
      exact ⟨.error (.other "refused"), (s.1, logged (.redis c) s.2),
        .inr ⟨refused.canFail, ⟨_, rfl⟩, rfl⟩, rfl⟩
    all_goals exact refused.elim
  · cases c
    case redis c =>
      have order := Redis.Order.preferring [] List.nodup_nil
      exact ⟨_, (_, logged (.redis c) s.2), .inl ⟨refused, order, rfl, rfl⟩, rfl⟩
    case deleteIngress id => exact ⟨.ok (), (_, _), .inl ⟨refused, rfl, rfl⟩, rfl⟩
    case deleteRoom id => exact ⟨.ok (), (_, _), .inl ⟨refused, rfl, rfl⟩, rfl⟩
    case after backoff => exact ⟨.ok (), (_, _), .inl ⟨refused, rfl, rfl⟩, rfl⟩
    case metric op => exact ⟨(), (_, _), .inl ⟨refused, rfl⟩, rfl⟩
    all_goals exact ofSweep.elim

/-- An operation that does not fail. -/
theorem answers_sweep (op : Op) {P : op.cmd.Reply → World × List String → Prop}
    (typed : Typed w.redis) (wf : op.Wf) (sure : ¬ CanFail fails (.redis op.cmd))
    (next : ∀ o, P (op.reply o (op.entry w.redis)) (w.after op, rooms)) :
    (sweepLogic fails).Answers (w, rooms) op.cmd P := by
  refine ⟨trivial, ?_⟩
  intro reply s' step
  obtain ⟨⟨_, performs⟩ | ⟨fail, _⟩, same⟩ := step
  · obtain ⟨o, rfl, after⟩ := performs_op typed wf performs
    obtain ⟨w', rooms'⟩ := s'
    cases after
    cases same
    exact ⟨_, rfl, next o⟩
  · exact absurd fail sure

/-- An operation that only reads and does not fail. -/
theorem answers_sweep_read (op : Op) {P : op.cmd.Reply → World × List String → Prop}
    (typed : Typed w.redis) (wf : op.Wf) (reads : op.Reads)
    (sure : ¬ CanFail fails (.redis op.cmd))
    (next : ∀ o, P (op.reply o (op.entry w.redis)) (w, rooms)) :
    (sweepLogic fails).Answers (w, rooms) op.cmd P := by
  refine answers_sweep op typed wf sure ?_
  intro o
  rw [World.after_of_reads w reads]
  exact next o

/-- A wait between two attempts. -/
theorem waits_sweep {s : World × List String} {backoff : Int}
    {P : Except Err Unit → World × List String → Prop} (next : P (.ok ()) s) :
    (sweepLogic fails).Call s (.after backoff) P := by
  refine ⟨trivial, ?_⟩
  intro reply s' step
  obtain ⟨⟨_, rfl, after⟩ | ⟨fail, _⟩, same⟩ := step
  · obtain ⟨w', rooms'⟩ := s'
    cases after
    cases same
    exact next
  · exact fail.elim

/-! ### One session -/

/-- The database, its clock and the metrics are as before. -/
structure StoreKept (w w' : World) : Prop where
  redis : w'.redis = w.redis
  now : w'.now = w.now
  metrics : w'.metrics = w.metrics

theorem StoreKept.trans {w w' w'' : World} (first : StoreKept w w') (second : StoreKept w' w'') :
    StoreKept w w'' :=
  ⟨second.redis.trans first.redis, second.now.trans first.now, second.metrics.trans first.metrics⟩

/-- The commands of `DeleteRoom` before its last one. -/
def Cmd.Cleans : Cmd → Prop
  | .redis (.smembers _) | .deleteIngress _ | .after _ => True
  | _ => False

/-- Whatever of the cleanup is carried out or fails, the store is left alone. -/
theorem wp_cleans {p : Go α} (issues : p.Issues Cmd.Cleans) :
    p.wp (sweepLogic fails) (fun _ t => StoreKept w t.1 ∧ t.2 = rooms) (w, rooms) := by
  refine issues.wp (L := sweepLogic fails) (J := fun t => StoreKept w t.1 ∧ t.2 = rooms) ?_
    ⟨⟨rfl, rfl, rfl⟩, rfl⟩
  intro t c kept cleans
  obtain ⟨stays, same⟩ := kept
  cases c
  case redis c =>
    cases c
    case smembers key =>
      refine ⟨trivial, ?_⟩
      intro reply t' step
      obtain ⟨⟨_, _, _, after⟩ | ⟨_, _, after⟩, same'⟩ := step
      · exact ⟨after ▸ ⟨stays.redis, stays.now, stays.metrics⟩, same'.trans same⟩
      · exact ⟨after ▸ stays, same'.trans same⟩
    all_goals exact cleans.elim
  case deleteIngress id =>
    refine ⟨trivial, ?_⟩
    intro reply t' step
    obtain ⟨⟨_, _, after⟩ | ⟨_, _, after⟩, same'⟩ := step
    · exact ⟨after ▸ ⟨stays.redis, stays.now, stays.metrics⟩, same'.trans same⟩
    · exact ⟨after ▸ stays, same'.trans same⟩
  case after backoff => exact waits_sweep ⟨stays, same⟩
  all_goals exact cleans.elim

/-- `DeleteRoom` leaves the store alone and asks once for the deletion of the room. -/
theorem wp_deleteRoom_sweep {s : Server} {id : String} :
    (s.deleteRoom id).wp (sweepLogic fails)
      (fun _ t => StoreKept w t.1 ∧ t.2 = rooms ++ [id]) (w, rooms) := by
  have finish : ∀ {t : World × List String} {errs}, StoreKept w t.1 → t.2 = rooms →
      (finishRoom id errs).wp (sweepLogic fails)
        (fun _ t => StoreKept w t.1 ∧ t.2 = rooms ++ [id]) t := by
    intro t errs stays same
    refine ⟨trivial, ?_⟩
    intro reply t' step
    have done : StoreKept w t'.1 ∧ t'.2 = rooms ++ [id] := by
      obtain ⟨⟨_, _, after⟩ | ⟨_, _, after⟩, same'⟩ := step
      · exact ⟨after ▸ ⟨stays.redis, stays.now, stays.metrics⟩, same ▸ same'⟩
      · exact ⟨after ▸ stays, same ▸ same'⟩
    cases reply <;> exact done
  have read : (s.store.getIngressIDs id).Issues Cmd.Cleans :=
    issues_retryRedisOp_redis trivial fun _ => trivial
  refine Prog.wp_bind.mpr (Prog.wp_mono (wp_cleans read) ?_)
  intro listed t kept
  obtain ⟨stays, same⟩ := kept
  cases listed with
  | error err => exact finish stays same
  | ok ids =>
    have delete : (deleteIngresses ids []).Issues Cmd.Cleans :=
      issues_deleteIngresses fun _ _ => trivial
    refine Prog.wp_bind.mpr (Prog.wp_mono (wp_cleans delete) ?_)
    intro errs t' kept'
    obtain ⟨stays', same'⟩ := kept'
    exact finish (stays.trans stays') (same'.trans same)

/-- An update that fails has no effect. -/
theorem wp_update_refused {id : String} (failing : fails id = true) :
    (r.updateSessionStatus id statusClosed).wp (sweepLogic fails)
      (fun result t => (∃ err, result = .error err) ∧ t = (w, rooms)) (w, rooms) := by
  have waits : ∀ (t : World × List String) backoff, t = (w, rooms) →
      (sweepLogic fails).Call t (.after backoff) fun reply t' => t' = (w, rooms) ∧
        ∀ err, reply = .error err → t' = (w, rooms) := by
    intro t backoff start
    refine waits_sweep ⟨start, ?_⟩
    intro err impossible
    cases impossible
  rw [updateSessionStatus, Prog.wp_bind]
  have check : (r.retryRedisOp (redis (.existsKey (sessionKey id)))).wp (sweepLogic fails)
      (fun _ t => t = (w, rooms)) (w, rooms) := by
    refine wp_retryRedisOp_inv (L := sweepLogic fails) (J := fun t => t = (w, rooms)) ?_ waits rfl
    intro t agrees
    subst agrees
    refine ⟨trivial, ?_⟩
    intro reply t' step
    have same : t' = (w, rooms) := by
      obtain ⟨⟨_, _, _, after⟩ | ⟨_, _, after⟩, same⟩ := step
      · exact Prod.ext after same
      · exact Prod.ext after same
    exact ⟨same, same⟩
  refine Prog.wp_mono check ?_
  intro found t agrees
  subst agrees
  rcases found with err | found
  · exact ⟨⟨err, rfl⟩, rfl⟩
  cases found with
  | false => exact ⟨⟨_, rfl⟩, rfl⟩
  | true =>
    rw [Prog.wp_bind]
    have write : (r.retryRedisOp (redis (.hset (sessionKey id) [("status", statusClosed)]))).wp
        (sweepLogic fails) (fun result t => (∃ err, result = .error err) ∧ t = (w, rooms))
        (w, rooms) := by
      refine wp_retryRedisOp_inv (L := sweepLogic fails) (J := fun t => t = (w, rooms)) ?_ ?_ rfl
      · intro t agrees
        subst agrees
        refine ⟨trivial, ?_⟩
        intro reply t' step
        obtain ⟨⟨performed, _⟩ | ⟨_, ⟨err, reported⟩, after⟩, same⟩ := step
        · exact absurd ⟨id, failing, rfl⟩ performed
        · exact ⟨Prod.ext after same, ⟨err, reported⟩, Prod.ext after same⟩
      · intro t backoff start
        refine waits_sweep ⟨start, ?_⟩
        intro err impossible
        cases impossible
    refine Prog.wp_mono write ?_
    intro written t holds
    rcases holds with ⟨⟨err, rfl⟩, rfl⟩
    exact ⟨⟨err, rfl⟩, rfl⟩

/-- An update that does not fail closes the session and takes it out of the active ones. -/
theorem wp_update_sweep {id : String} (passing : fails id = false) (typed : Typed w.redis)
    (uuid : isUuid id = true) (stored : (w.redis (sessionKey id)).isSome = true) :
    (r.updateSessionStatus id statusClosed).wp (sweepLogic fails)
      (fun result t => result = .ok () ∧ t = (w.afterAll (statusOps id statusClosed), rooms))
      (w, rooms) := by
  have sure : ¬ ∃ id', fails id' = true ∧ sessionKey id = sessionKey id' := by
    intro holds
    rcases holds with ⟨id', failing, same⟩
    rw [← sessionKey_inj.mp same, passing] at failing
    cases failing
  refine wp_updateSessionStatus ?_
  refine answers_sweep_read (.existsSession id) typed uuid trivial sure ?_
  intro _
  have entry : (Op.existsSession id).entry w.redis = w.redis (sessionKey id) := rfl
  rw [Op.reply, entry, stored]
  refine answers_sweep (.writeStatus id statusClosed) typed uuid sure ?_
  intro _
  rw [if_pos rfl]
  refine answers_sweep (.dropActive id) (World.typed_after typed uuid) uuid (fun no => no) ?_
  intro _
  exact ⟨rfl, rfl⟩

/-! ### The loops -/

/-- A sweep has carried out the operations `ops` and counted `closed` sessions. -/
structure Carried (w : World) (ops : List Op) (closed : Nat) (w' : World) : Prop where
  redis : w'.redis = (w.afterAll ops).redis
  now : w'.now = w.now
  metrics : w'.metrics =
    { w.metrics with
      sessionsActive := w.metrics.sessionsActive - closed
      sessionsExpiredTotal := w.metrics.sessionsExpiredTotal + closed }

/-- Operations depend on the database and the clock. -/
theorem World.afterAll_congr {w w' : World} {ops : List Op} (redis : w'.redis = w.redis)
    (now : w'.now = w.now) : (w'.afterAll ops).redis = (w.afterAll ops).redis := by
  induction ops generalizing w w' with
  | nil => exact redis
  | cons op ops ih =>
    refine ih ?_ now
    rw [World.after_redis, World.after_redis, redis, now]

theorem World.afterAll_now {w : World} {ops : List Op} : (w.afterAll ops).now = w.now := by
  rw [World.afterAll_frame]

theorem World.afterAll_metrics {w : World} {ops : List Op} :
    (w.afterAll ops).metrics = w.metrics := by
  rw [World.afterAll_frame]

theorem Carried.trans {w w' w'' : World} {ops ops' : List Op} {n n' : Nat}
    (first : Carried w ops n w') (second : Carried w' ops' n' w'') :
    Carried w (ops ++ ops') (n + n') w'' := by
  constructor
  · rw [second.redis, World.afterAll_append]
    exact World.afterAll_congr first.redis (first.now.trans World.afterAll_now.symm)
  · exact second.now.trans first.now
  · have active : w.metrics.sessionsActive - n - n' =
        w.metrics.sessionsActive - (n + n' : Nat) := by
      omega
    rw [second.metrics, first.metrics, ← active, ← Nat.add_assoc]

theorem carried_ops (w : World) (ops : List Op) : Carried w ops 0 (w.afterAll ops) := by
  refine ⟨rfl, World.afterAll_now, ?_⟩
  rw [World.afterAll_metrics]
  simp

theorem StoreKept.carried {w w' : World} (stays : StoreKept w w') : Carried w [] 0 w' := by
  refine ⟨stays.redis, stays.now, ?_⟩
  rw [stays.metrics]
  simp

/-- The operations of the updates that do not fail. -/
def closingOps (fails : String → Bool) (ids : List String) : List Op :=
  (ids.filter fun id => !fails id).flatMap fun id => statusOps id statusClosed

theorem wf_closingOps {ids : List String} (uuids : ∀ id ∈ ids, isUuid id = true) :
    ∀ op ∈ closingOps fails ids, op.Wf := by
  intro op mem
  obtain ⟨id, inIds, own⟩ := List.mem_flatMap.mp mem
  have uuid := uuids id (List.mem_of_mem_filter inIds)
  simp only [statusOps, if_true, List.mem_cons, List.not_mem_nil, or_false] at own
  obtain rfl | rfl := own <;> exact uuid

/-- Closing sessions removes no session hash. -/
theorem stored_closingOps {ids : List String} {id : String}
    (uuids : ∀ id ∈ ids, isUuid id = true) (uuid : isUuid id = true)
    (stored : (w.redis (sessionKey id)).isSome = true) :
    ((w.afterAll (closingOps fails ids)).redis (sessionKey id)).isSome = true := by
  have kept : ∀ (ops : List Op) (e : Option Redis.Entry), (∀ op ∈ ops, op ∈ closingOps fails ids) →
      e.isSome = true → ((Key.session id).entryAfter w.now ops e).isSome = true := by
    intro ops
    induction ops with
    | nil => exact fun e _ some_ => some_
    | cons op ops ih =>
      intro e among some_
      refine ih _ (fun op' mem => among op' (List.mem_cons_of_mem _ mem)) ?_
      obtain ⟨id', _, own⟩ := List.mem_flatMap.mp (among op List.mem_cons_self)
      simp only [statusOps, if_true, List.mem_cons, List.not_mem_nil, or_false] at own
      dsimp only
      split
      · next same =>
        obtain rfl | rfl := own
        · rfl
        · cases same
      · exact some_
  rw [World.afterAll_session (wf_closingOps uuids) uuid]
  exact kept _ _ (fun op mem => mem) stored

variable {b : Backend} {instanceID : String}

/-- One expired session: it is cleaned up, and closed and counted unless its update fails. -/
theorem wp_closeExpiredSession {sess : Session} (typed : Typed w.redis)
    (uuid : isUuid sess.id = true) (stored : (w.redis (sessionKey sess.id)).isSome = true) :
    ((b.janitor instanceID).closeExpiredSession sess).wp (sweepLogic fails)
      (fun _ t => t.2 = rooms ++ [sess.id] ∧ Carried w (closingOps fails [sess.id])
        ([sess.id].filter fun id => !fails id).length t.1) (w, rooms) := by
  have cleanup : ((b.janitor instanceID).deleteRoom sess.id).wp (sweepLogic fails)
      (fun _ t => StoreKept w t.1 ∧ t.2 = rooms ++ [sess.id]) (w, rooms) := wp_deleteRoom_sweep
  refine Prog.wp_bind.mpr (Prog.wp_mono cleanup ?_)
  intro _ t kept
  obtain ⟨w₁, rooms₁⟩ := t
  obtain ⟨stays, same⟩ := kept
  have first := stays.carried
  have redis : w₁.redis = w.redis := stays.redis
  cases failing : fails sess.id with
  | true =>
    refine Prog.wp_bind.mpr (Prog.wp_mono (wp_update_refused failing) ?_)
    intro result t refused
    obtain ⟨⟨err, rfl⟩, rfl⟩ := refused
    refine ⟨same, ?_⟩
    simpa [closingOps, failing] using first
  | false =>
    refine Prog.wp_bind.mpr (Prog.wp_mono
      (wp_update_sweep failing (redis ▸ typed) uuid (redis ▸ stored)) ?_)
    intro result t updated
    obtain ⟨rfl, rfl⟩ := updated
    -- the two counters of a closed session
    refine ⟨trivial, ?_⟩
    intro _ holds post
    rcases holds with ⟨w₂, rooms₂⟩
    rcases post with ⟨⟨_, expired⟩ | ⟨no, _⟩, same₂⟩
    · refine ⟨trivial, ?_⟩
      intro _ holds post
      rcases holds with ⟨w₃, rooms₃⟩
      rcases post with ⟨⟨_, active⟩ | ⟨no, _⟩, same₃⟩
      · refine ⟨same₃.trans (same₂.trans same), ?_⟩
        have counted : Carried (w₁.afterAll (statusOps sess.id statusClosed)) [] 1 w₃ := by
          cases expired
          cases active
          exact ⟨rfl, rfl, rfl⟩
        have whole := (first.trans (carried_ops w₁ _)).trans counted
        simpa [closingOps, failing] using whole
      · exact no.elim
    · exact no.elim

/-- The sweep goes through the sessions one after the other, whatever happened to the others. -/
theorem wp_closeExpiredSessions {sessions : List Session} (typed : Typed w.redis)
    (uuids : ∀ id ∈ sessions.map Session.id, isUuid id = true)
    (stored : ∀ id ∈ sessions.map Session.id, (w.redis (sessionKey id)).isSome = true) :
    ((b.janitor instanceID).closeExpiredSessions sessions).wp (sweepLogic fails)
      (fun _ t => t.2 = rooms ++ sessions.map Session.id ∧
        Carried w (closingOps fails (sessions.map Session.id))
          ((sessions.map Session.id).filter fun id => !fails id).length t.1) (w, rooms) := by
  induction sessions generalizing w rooms with
  | nil => exact ⟨(List.append_nil _).symm, carried_ops w []⟩
  | cons sess sessions ih =>
    have uuid := uuids sess.id List.mem_cons_self
    have uuids' : ∀ id ∈ sessions.map Session.id, isUuid id = true :=
      fun id mem => uuids id (List.mem_cons_of_mem _ mem)
    refine Prog.wp_bind.mpr
      (Prog.wp_mono (wp_closeExpiredSession typed uuid (stored _ List.mem_cons_self)) ?_)
    intro _ t done
    obtain ⟨w₁, rooms₁⟩ := t
    obtain ⟨same, first⟩ := done
    have one : ∀ id ∈ [sess.id], isUuid id = true := by
      intro id mem
      rwa [List.mem_singleton.mp mem]
    have redis : w₁.redis = (w.afterAll (closingOps fails [sess.id])).redis := first.redis
    have typed' : Typed w₁.redis := by
      rw [redis]
      exact World.typed_afterAll typed (wf_closingOps one)
    refine Prog.wp_mono (ih typed' uuids' ?_) ?_
    · intro id mem
      rw [redis]
      exact stored_closingOps one (uuids' id mem) (stored id (List.mem_cons_of_mem _ mem))
    · intro _ t rest
      obtain ⟨same', second⟩ := rest
      refine ⟨by simpa using same'.trans (congrArg (· ++ _) same), ?_⟩
      have both := first.trans second
      have ops : closingOps fails [sess.id] ++ closingOps fails (sessions.map Session.id) =
          closingOps fails ((sess :: sessions).map Session.id) := by
        rw [closingOps, closingOps, closingOps, ← List.flatMap_append, ← List.filter_append]
        rfl
      have count : ([sess.id].filter fun id => !fails id).length +
          ((sessions.map Session.id).filter fun id => !fails id).length =
            (((sess :: sessions).map Session.id).filter fun id => !fails id).length := by
        rw [← List.length_append, ← List.filter_append]
        rfl
      rw [ops, count] at both
      exact both

/-! ### The whole sweep -/

/-- The session is stored as closed. -/
def closedIn (db : Redis.Db) (id : String) : Bool :=
  match parseSession (hashOf (db (sessionKey id))) with
  | .ok session => decide (session.status = statusClosed)
  | .error _ => false

theorem closedIn_error {db : Redis.Db} {id : String} {err : Err}
    (parsed : parseSession (hashOf (db (sessionKey id))) = .error err) :
    closedIn db id = false := by
  rw [closedIn, parsed]

theorem closedIn_ok {db : Redis.Db} {id : String} {session : Session}
    (parsed : parseSession (hashOf (db (sessionKey id))) = .ok session) :
    closedIn db id = decide (session.status = statusClosed) := by
  rw [closedIn, parsed]

/-- The hash of the session is whole: where there is one, it can be read. -/
def Whole (db : Redis.Db) (id : String) : Prop :=
  (db (sessionKey id)).isSome = true → ∃ session, Live db id session

/-- The loop of `GetExpiredSessions` keeps the open sessions and drops the closed ones. -/
theorem wp_collectExpired_sweep {db : Redis.Db} {ids : List String} {sessions : List Session}
    (typed : Typed w.redis) (uuids : ∀ id ∈ ids, isUuid id = true)
    (same : ∀ id ∈ ids, w.redis (sessionKey id) = db (sessionKey id))
    (readable : ∀ id ∈ ids, Whole db id) :
    (r.collectExpired ids sessions).wp (sweepLogic fails) (fun result t =>
      result = .ok (sessions ++ ids.filterMap (expiredOf db)) ∧
        t = (w.afterAll ((ids.filter (closedIn db)).map .dropActive), rooms)) (w, rooms) := by
  induction ids generalizing w sessions with
  | nil => exact ⟨by simp, rfl⟩
  | cons id ids ih =>
    have uuid := uuids id List.mem_cons_self
    have uuids' : ∀ id ∈ ids, isUuid id = true :=
      fun id mem => uuids id (List.mem_cons_of_mem _ mem)
    have same' : ∀ id ∈ ids, w.redis (sessionKey id) = db (sessionKey id) :=
      fun id mem => same id (List.mem_cons_of_mem _ mem)
    have readable' : ∀ id ∈ ids, Whole db id :=
      fun id mem => readable id (List.mem_cons_of_mem _ mem)
    refine wp_collectExpired_cons ?_
    refine answers_sweep_read (.readSession id) typed uuid trivial (fun no => no) ?_
    intro _
    have entry : (Op.readSession id).entry w.redis = db (sessionKey id) :=
      same id List.mem_cons_self
    rw [Op.reply, entry]
    cases parsed : parseSession (hashOf (db (sessionKey id))) with
    | error err =>
      have gone : db (sessionKey id) = none := by
        by_contra there
        obtain ⟨session, live⟩ :=
          readable id List.mem_cons_self (Option.isSome_iff_ne_none.mpr there)
        rw [Live, parsed] at live
        cases live
      have missing : err = .sentinel .sessionNotFound := by
        rw [gone, hashOf_none, parseSession_empty] at parsed
        exact (Except.error.inj parsed).symm
      subst missing
      have skipped : Err.is .sessionNotFound (.sentinel .sessionNotFound) = true := rfl
      dsimp only
      rw [if_pos skipped]
      refine Prog.wp_mono (ih typed uuids' same' readable') ?_
      intro result t collected
      have open_ := closedIn_error parsed
      rwa [List.filterMap_cons_none (expiredOf_error parsed),
        List.filter_cons_of_neg (by simp [open_])]
    | ok session =>
      dsimp only
      split
      · next isClosed =>
        refine answers_sweep (.dropActive id) typed uuid (fun no => no) ?_
        intro _
        have dropped_ : ∀ id' ∈ ids, (w.after (.dropActive id)).redis (sessionKey id') =
            db (sessionKey id') := by
          intro id' mem
          have wf : (Op.dropActive id).Wf := uuid
          have other : (Op.dropActive id).key ≠ some (.session id') := by simp [Op.key]
          rw [World.after_redis, Op.apply_session wf (uuids' id' mem), if_neg other]
          exact same' id' mem
        refine Prog.wp_mono (ih (World.typed_after typed uuid) uuids' dropped_ readable') ?_
        intro result t collected
        have closed : closedIn db id = true :=
          (closedIn_ok parsed).trans (decide_eq_true isClosed)
        rw [List.filterMap_cons_none (expiredOf_closed parsed isClosed),
          List.filter_cons_of_pos closed]
        exact collected
      · next isOpen =>
        refine Prog.wp_mono (ih typed uuids' same' readable') ?_
        intro result t collected
        have open_ : closedIn db id = false :=
          (closedIn_ok parsed).trans (decide_eq_false isOpen)
        rw [List.filterMap_cons_some (expiredOf_open parsed isOpen),
          List.filter_cons_of_neg (by simp [open_])]
        simpa using collected

/-- An open session is read back under its id. -/
theorem live_of_expiredOf {db : Redis.Db} {id : String} {session : Session} (typed : Typed db)
    (uuid : isUuid id = true) (expired : expiredOf db id = some session) :
    session.id = id ∧ Live db id session ∧ session.status ≠ statusClosed := by
  unfold expiredOf at expired
  split at expired
  · next found parsed =>
    split at expired
    · cases expired
    · next isOpen =>
      cases expired
      have live : Live db id session := parsed
      exact ⟨live.id typed uuid, live, isOpen⟩
  · cases expired

/-- The rooms cleaned up are those of the listed sessions that are open. -/
theorem map_id_expired {db : Redis.Db} {ids : List String} (typed : Typed db)
    (uuids : ∀ id ∈ ids, isUuid id = true) :
    (ids.filterMap (expiredOf db)).map Session.id =
      ids.filter fun id => (expiredOf db id).isSome := by
  induction ids with
  | nil => rfl
  | cons id ids ih =>
    have rest := ih fun id' mem => uuids id' (List.mem_cons_of_mem _ mem)
    cases expired : expiredOf db id with
    | none =>
      rw [List.filterMap_cons_none expired, rest, List.filter_cons_of_neg (by simp [expired])]
    | some session =>
      obtain ⟨own, _⟩ := live_of_expiredOf typed (uuids id List.mem_cons_self) expired
      rw [List.filterMap_cons_some expired, List.map_cons, rest,
        List.filter_cons_of_pos (by simp [expired]), own]

theorem expiredOf_isSome {db : Redis.Db} {id : String} (typed : Typed db)
    (uuid : isUuid id = true) :
    (expiredOf db id).isSome = true ↔
      ∃ session, Live db id session ∧ session.status ≠ statusClosed := by
  constructor
  · intro some_
    obtain ⟨session, expired⟩ := Option.isSome_iff_exists.mp some_
    exact ⟨session, (live_of_expiredOf typed uuid expired).2⟩
  · intro holds
    rcases holds with ⟨session, live, isOpen⟩
    rw [expiredOf_open live isOpen]
    rfl

theorem mem_expired_iff {db : Redis.Db} {ids : List String} {id : String} (typed : Typed db)
    (uuids : ∀ id ∈ ids, isUuid id = true) :
    id ∈ (ids.filterMap (expiredOf db)).map Session.id ↔
      id ∈ ids ∧ ∃ session, Live db id session ∧ session.status ≠ statusClosed := by
  rw [map_id_expired typed uuids, List.mem_filter]
  exact and_congr_right fun listed => expiredOf_isSome typed (uuids id listed)

/-- The operations of a sweep that lists the sessions `ids`. -/
def sweepOps (b : Backend) (instanceID : String) (fails : String → Bool) (db : Redis.Db)
    (ids : List String) : List Op :=
  .takeLock instanceID b.lockTTL :: (ids.filter (closedIn db)).map .dropActive ++
    closingOps fails ((ids.filterMap (expiredOf db)).map Session.id) ++ [.dropLock instanceID]

/-- The sweep lists what is due, in some order, tears down the sessions that are open, one after
the other, and releases the lock. -/
theorem wp_sweepAt {now : Nat} (typed : Typed w.redis)
    (readable : ∀ id, isUuid id = true → Whole w.redis id)
    (free : w.redis janitorLockKey = none) :
    ((b.janitor instanceID).sweepAt now).wp (sweepLogic fails) (fun _ t => ∃ o : Redis.Order,
      let ids := o.list ((zsetOf (w.redis activeSessionsKey)).upTo (unix now))
      let expired := (ids.filterMap (expiredOf w.redis)).map Session.id
      t.2 = expired ∧ Carried w (sweepOps b instanceID fails w.redis ids)
        (expired.filter fun id => !fails id).length t.1) (w, []) := by
  have lockWf : ∀ ttl, (Op.takeLock instanceID ttl).Wf := fun _ => trivial
  rw [Janitor.sweepAt]
  refine Prog.wp_bind.mpr (wp_redis ?_)
  refine answers_sweep (.takeLock instanceID b.lockTTL) typed trivial (fun no => no) ?_
  intro _
  have entry : (Op.takeLock instanceID b.lockTTL).entry w.redis = none := free
  rw [Op.reply, entry]
  dsimp only [Option.isSome_none, Bool.not_false]
  have typed₁ : Typed (w.after (.takeLock instanceID b.lockTTL)).redis :=
    World.typed_after typed trivial
  have active : (w.after (.takeLock instanceID b.lockTTL)).redis activeSessionsKey =
      w.redis activeSessionsKey := by
    rw [World.after_redis, Op.apply_active (lockWf _), if_neg (by simp [Op.key])]
  have hashes : ∀ id, isUuid id = true →
      (w.after (.takeLock instanceID b.lockTTL)).redis (sessionKey id) =
        w.redis (sessionKey id) := by
    intro id uuid
    rw [World.after_redis, Op.apply_session (lockWf _) uuid, if_neg (by simp [Op.key])]
  refine Prog.wp_bind.mpr (wp_getExpiredSessions ?_)
  refine answers_sweep_read (.readActive (unix now)) typed₁ trivial trivial (fun no => no) ?_
  intro o
  have listed : (Op.readActive (unix now)).entry
      (w.after (.takeLock instanceID b.lockTTL)).redis = w.redis activeSessionsKey := active
  rw [Op.reply, listed]
  have uuids : ∀ id ∈ o.list ((zsetOf (w.redis activeSessionsKey)).upTo (unix now)),
      isUuid id = true :=
    fun id mem => typed.uuid_of_listed mem
  generalize idsEq : o.list ((zsetOf (w.redis activeSessionsKey)).upTo (unix now)) = ids
  rw [idsEq] at uuids
  refine Prog.wp_mono (wp_collectExpired_sweep typed₁ uuids (fun id mem => hashes id (uuids id mem))
    fun id mem => readable id (uuids id mem)) ?_
  intro result t collected
  obtain ⟨rfl, rfl⟩ := collected
  dsimp only
  rw [List.nil_append]
  have drops : ∀ id ∈ ids.filter (closedIn w.redis), isUuid id = true :=
    fun id mem => uuids id (List.mem_of_mem_filter mem)
  have dropsWf : ∀ op ∈ (ids.filter (closedIn w.redis)).map Op.dropActive, op.Wf := by
    intro op mem
    obtain ⟨id, inIds, rfl⟩ := List.mem_map.mp mem
    exact drops id inIds
  have typed₂ := World.typed_afterAll typed₁ dropsWf
  have expired : ∀ id ∈ (ids.filterMap (expiredOf w.redis)).map Session.id,
      isUuid id = true ∧ (w.redis (sessionKey id)).isSome = true := by
    intro id mem
    obtain ⟨inIds, _, live, _⟩ := (mem_expired_iff typed uuids).mp mem
    exact ⟨uuids id inIds, live.isSome⟩
  refine Prog.wp_bind.mpr (Prog.wp_mono (wp_closeExpiredSessions typed₂
    (fun id mem => (expired id mem).1) ?_) ?_)
  · intro id mem
    obtain ⟨uuid, stored⟩ := expired id mem
    have kept := dropped_session (w := w.after (.takeLock instanceID b.lockTTL)) drops uuid
    rw [dropped, hashes id uuid] at kept
    rw [kept]
    exact stored
  intro _ t done
  obtain ⟨w₃, rooms₃⟩ := t
  obtain ⟨cleaned, third⟩ := done
  have carried := (carried_ops w [.takeLock instanceID b.lockTTL]).trans
    ((carried_ops _ ((ids.filter (closedIn w.redis)).map Op.dropActive)).trans third)
  have typed₃ : Typed w₃.redis := by
    rw [third.redis]
    exact World.typed_afterAll typed₂ (wf_closingOps fun id mem => (expired id mem).1)
  refine Prog.wp_bind.mpr (wp_redis ?_)
  refine answers_sweep (.dropLock instanceID) typed₃ trivial (fun no => no) ?_
  intro _
  refine ⟨o, ?_⟩
  rw [idsEq]
  refine ⟨cleaned, ?_⟩
  have whole := carried.trans (carried_ops w₃ [.dropLock instanceID])
  simpa [sweepOps] using whole

end Rules

/-! ### What a sweep leaves -/

/-- The session is listed as active with a score that has come. -/
def Due (db : Redis.Db) (now : Nat) (id : String) : Prop :=
  ∃ score, (zsetOf (db activeSessionsKey)).lookup id = some score ∧ score ≤ unix now

/-- The session is due, has a hash and is not closed. -/
def Expired (db : Redis.Db) (now : Nat) (id : String) : Prop :=
  Due db now id ∧ ∃ session, Live db id session ∧ session.status ≠ statusClosed

/-- The session is due, has a hash and is closed. -/
def DueClosed (db : Redis.Db) (now : Nat) (id : String) : Prop :=
  Due db now id ∧ ∃ session, Live db id session ∧ session.status = statusClosed

/-- No session hash is partial. -/
def WholeHashes (db : Redis.Db) : Prop := ∀ id, isUuid id = true → Whole db id

/-- What a sweep at `now` makes of `w`, where the updates in `fails` fail. -/
structure Swept (fails : String → Bool) (now : Nat) (w : World) (rooms : List String)
    (w' : World) : Prop where
  once : rooms.Nodup
  cleaned : ∀ id, id ∈ rooms ↔ Expired w.redis now id
  closed : ∀ id, Expired w.redis now id → fails id = false →
    w'.redis (sessionKey id) = keep (w.redis (sessionKey id))
      (.hash ((hashOf (w.redis (sessionKey id))).insert "status" statusClosed))
  removed : ∀ id, Expired w.redis now id ∧ fails id = false ∨ DueClosed w.redis now id →
    (zsetOf (w'.redis activeSessionsKey)).lookup id = none
  listed : ∀ id, ¬ (Expired w.redis now id ∧ fails id = false ∨ DueClosed w.redis now id) →
    (zsetOf (w'.redis activeSessionsKey)).lookup id = (zsetOf (w.redis activeSessionsKey)).lookup id
  counted : w'.metrics =
    { w.metrics with
      sessionsActive := w.metrics.sessionsActive - (rooms.filter fun id => !fails id).length
      sessionsExpiredTotal :=
        w.metrics.sessionsExpiredTotal + (rooms.filter fun id => !fails id).length }
  others : ∀ key, key ≠ activeSessionsKey → key ≠ janitorLockKey →
    (∀ id, Expired w.redis now id → fails id = false → key ≠ sessionKey id) →
      w'.redis key = w.redis key
  free : w'.redis janitorLockKey = none

section Readout

variable {now : Nat} {ops : List Op} {e : Option Redis.Entry} {id : String}

theorem Key.entryAfter_append {k : Key} {ops' : List Op} :
    k.entryAfter now (ops ++ ops') e = k.entryAfter now ops' (k.entryAfter now ops e) :=
  List.foldl_append ..

/-- A key that no operation is about keeps its entry, also where it is the key of no kind. -/
theorem World.afterAll_other {w : World} {key : String}
    (away : ∀ op ∈ ops, ∀ k : Key, op.key = some k → key ≠ k.text) :
    (w.afterAll ops).redis key = w.redis key := by
  induction ops generalizing w with
  | nil => rfl
  | cons op ops ih =>
    refine (ih fun op' mem => away op' (List.mem_cons_of_mem _ mem)).trans ?_
    rw [World.after_redis, Op.apply]
    cases at_ : op.key with
    | none => rfl
    | some k => exact Redis.Db.assign_of_ne (away op List.mem_cons_self k at_)

/-- An entry with the status closed. -/
def marked (e : Option Redis.Entry) : Option Redis.Entry :=
  keep e (.hash ((hashOf e).insert "status" statusClosed))

@[simp] theorem marked_marked : marked (marked e) = marked e := by
  simp [marked, keep, hashOf, Finmap.insert_insert]

/-- Only the status closed is written to the session. -/
def OnlyCloses (id : String) (ops : List Op) : Prop :=
  ∀ op ∈ ops, op.key = some (.session id) → op = .writeStatus id statusClosed

theorem entryAfter_marked (only : OnlyCloses id ops) :
    (Key.session id).entryAfter now ops (marked e) = marked e := by
  induction ops with
  | nil => rfl
  | cons op ops ih =>
    rw [Key.entryAfter_cons]
    have rest := ih fun op' mem => only op' (List.mem_cons_of_mem _ mem)
    split
    · next own =>
      rw [only op List.mem_cons_self own]
      exact (congrArg _ marked_marked).trans rest
    · exact rest

/-- However often it is written, the session is closed then and otherwise as it was. -/
theorem entryAfter_closes (only : OnlyCloses id ops)
    (closes : Op.writeStatus id statusClosed ∈ ops) :
    (Key.session id).entryAfter now ops e = marked e := by
  induction ops generalizing e with
  | nil => cases closes
  | cons op ops ih =>
    have only' : OnlyCloses id ops := fun op' mem => only op' (List.mem_cons_of_mem _ mem)
    rw [Key.entryAfter_cons]
    split
    · next own =>
      rw [only op List.mem_cons_self own]
      exact entryAfter_marked only'
    · next other =>
      obtain rfl | later := List.mem_cons.mp closes
      · exact absurd rfl other
      · exact ih only' later

/-- The active sessions are changed by removals only. -/
def OnlyDrops (ops : List Op) : Prop :=
  ∀ op ∈ ops, op.key = some .active → ∃ id, op = .dropActive id

theorem zsetOf_dropActive :
    zsetOf ((Op.dropActive id).effect now e) = (zsetOf e).erase id := by
  rw [Op.effect]
  split
  · next empty => exact empty.symm
  · rfl

/-- What is not removed keeps its score. -/
theorem lookup_active_kept (only : OnlyDrops ops) (kept : Op.dropActive id ∉ ops) :
    (zsetOf (Key.active.entryAfter now ops e)).lookup id = (zsetOf e).lookup id := by
  induction ops generalizing e with
  | nil => rfl
  | cons op ops ih =>
    rw [List.mem_cons, not_or] at kept
    rw [Key.entryAfter_cons, ih (fun op' mem => only op' (List.mem_cons_of_mem _ mem)) kept.2]
    split
    · next own =>
      obtain ⟨id', rfl⟩ := only op List.mem_cons_self own
      rw [zsetOf_dropActive]
      refine Finmap.lookup_erase_ne ?_
      intro same
      subst same
      exact kept.1 rfl
    · rfl

/-- What is removed is gone. -/
theorem lookup_active_gone (only : OnlyDrops ops) (gone : Op.dropActive id ∈ ops) :
    (zsetOf (Key.active.entryAfter now ops e)).lookup id = none := by
  induction ops generalizing e with
  | nil => cases gone
  | cons op ops ih =>
    have only' : OnlyDrops ops := fun op' mem => only op' (List.mem_cons_of_mem _ mem)
    rw [Key.entryAfter_cons]
    by_cases later : Op.dropActive id ∈ ops
    · exact ih only' later
    · obtain rfl | impossible := List.mem_cons.mp gone
      · have own : (Op.dropActive id).key = some .active := rfl
        rw [lookup_active_kept only' later, if_pos own, zsetOf_dropActive, Finmap.lookup_erase]
      · exact absurd impossible later

end Readout

section Result

variable {b : Backend} {instanceID : String} {fails : String → Bool} {now : Nat} {w w' : World}
variable {ids rooms : List String} {op : Op} {id : String}

theorem closedIn_eq {db : Redis.Db} :
    closedIn db id = true ↔ ∃ session, Live db id session ∧ session.status = statusClosed := by
  cases parsed : parseSession (hashOf (db (sessionKey id))) with
  | error err => simp [Live, parsed, closedIn_error parsed]
  | ok session => simp [Live, parsed, closedIn_ok parsed]

/-- The operations of a sweep, one by one. -/
theorem mem_sweepOps {db : Redis.Db}
    (same : (ids.filterMap (expiredOf db)).map Session.id = rooms) :
    op ∈ sweepOps b instanceID fails db ids ↔
      op = .takeLock instanceID b.lockTTL ∨
      (∃ id, (id ∈ ids ∧ closedIn db id = true ∨ id ∈ rooms ∧ fails id = false) ∧
        op = .dropActive id) ∨
      (∃ id, (id ∈ rooms ∧ fails id = false) ∧ op = .writeStatus id statusClosed) ∨
      op = .dropLock instanceID := by
  rw [sweepOps, same, closingOps]
  simp only [statusOps, if_true, List.mem_append, List.mem_cons, List.mem_map, List.mem_filter,
    List.mem_flatMap, List.not_mem_nil, or_false, Bool.not_eq_true']
  grind

theorem wf_sweepOps {db : Redis.Db} (typed : Typed db) (uuids : ∀ id ∈ ids, isUuid id = true) :
    ∀ op ∈ sweepOps b instanceID fails db ids, op.Wf := by
  have room : ∀ id ∈ (ids.filterMap (expiredOf db)).map Session.id, isUuid id = true :=
    fun id mem => uuids id ((mem_expired_iff typed uuids).mp mem).1
  intro op mem
  obtain rfl | ⟨id, inIds | inRooms, rfl⟩ | ⟨id, inRooms, rfl⟩ | rfl := (mem_sweepOps rfl).mp mem
  · trivial
  · exact uuids id inIds.1
  · exact room id inRooms.1
  · exact room id inRooms.1
  · trivial

theorem onlyDrops_sweepOps {db : Redis.Db} : OnlyDrops (sweepOps b instanceID fails db ids) := by
  intro op mem own
  obtain rfl | ⟨id, _, rfl⟩ | ⟨id, _, rfl⟩ | rfl := (mem_sweepOps rfl).mp mem
  · cases own
  · exact ⟨id, rfl⟩
  · cases own
  · cases own

/-- Nothing between the first and the last operation of a sweep is about the lock. -/
theorem entryAfter_lock_sweepOps {db : Redis.Db} :
    Key.lock.entryAfter now (sweepOps b instanceID fails db ids) none = none := by
  have middle : ∀ op ∈ (ids.filter (closedIn db)).map Op.dropActive ++
      closingOps fails ((ids.filterMap (expiredOf db)).map Session.id),
      op.key ≠ some .lock := by
    intro op mem
    obtain dropped_ | closing := List.mem_append.mp mem
    · obtain ⟨id, _, rfl⟩ := List.mem_map.mp dropped_
      simp [Op.key]
    · obtain ⟨id, _, own⟩ := List.mem_flatMap.mp closing
      simp only [statusOps, if_true, List.mem_cons, List.not_mem_nil, or_false] at own
      obtain rfl | rfl := own <;> simp [Op.key]
  rw [sweepOps, List.cons_append, List.cons_append, Key.entryAfter_cons, Key.entryAfter_append,
    Key.entryAfter_of_ne middle]
  simp [Op.key, Op.effect, strOf]

/-- What a sweep has carried out, read off key by key. -/
theorem swept_of_carried {o : Redis.Order} (typed : Typed w.redis)
    (listed : o.list ((zsetOf (w.redis activeSessionsKey)).upTo (unix now)) = ids)
    (same : rooms = (ids.filterMap (expiredOf w.redis)).map Session.id)
    (free : w.redis janitorLockKey = none)
    (carried : Carried w (sweepOps b instanceID fails w.redis ids)
      (rooms.filter fun id => !fails id).length w') : Swept fails now w rooms w' := by
  have due : ∀ id, id ∈ ids ↔ Due w.redis now id := by
    intro id
    rw [← listed, Redis.Order.mem_list, Redis.ZSet.mem_upTo]
    rfl
  have uuids : ∀ id ∈ ids, isUuid id = true := by
    rw [← listed]
    exact fun id mem => typed.uuid_of_listed mem
  have nodup : ids.Nodup := listed ▸ o.nodup _
  have cleaned : ∀ id, id ∈ rooms ↔ Expired w.redis now id := by
    intro id
    rw [same, mem_expired_iff typed uuids, due]
    exact Iff.rfl
  have uuid_of_room : ∀ id ∈ rooms, isUuid id = true := by
    intro id mem
    exact uuids id ((due id).mpr ((cleaned id).mp mem).1)
  have ops : ∀ op, op ∈ sweepOps b instanceID fails w.redis ids ↔ _ :=
    fun op => mem_sweepOps same.symm
  have wf : ∀ op ∈ sweepOps b instanceID fails w.redis ids, op.Wf := wf_sweepOps typed uuids
  have after : ∀ {k : Key}, k.Wf → w'.redis k.text =
      k.entryAfter w.now (sweepOps b instanceID fails w.redis ids) (w.redis k.text) := by
    intro k wfKey
    rw [carried.redis]
    exact World.afterAll_at wf wfKey
  have drops : OnlyDrops (sweepOps b instanceID fails w.redis ids) := onlyDrops_sweepOps
  have removes : ∀ id, .dropActive id ∈ sweepOps b instanceID fails w.redis ids ↔
      Expired w.redis now id ∧ fails id = false ∨ DueClosed w.redis now id := by
    intro id
    rw [ops, ← cleaned, DueClosed, ← due, ← closedIn_eq]
    simp only [reduceCtorEq, Op.dropActive.injEq, and_false, exists_false, false_or,
      or_false, exists_eq_right']
    exact or_comm
  have active : w'.redis activeSessionsKey =
      Key.active.entryAfter w.now (sweepOps b instanceID fails w.redis ids)
        (w.redis activeSessionsKey) :=
    after (k := .active) trivial
  constructor
  · rw [same, map_id_expired typed uuids]
    exact nodup.filter _
  · exact cleaned
  · intro id expired passing
    have mem := (cleaned id).mpr expired
    refine (after (k := .session id) (uuid_of_room id mem)).trans (entryAfter_closes ?_ ?_)
    · intro op inOps own
      obtain rfl | ⟨id', _, rfl⟩ | ⟨id', _, rfl⟩ | rfl := (ops op).mp inOps
      · cases own
      · cases own
      · cases own
        rfl
      · cases own
    · exact (ops _).mpr (.inr (.inr (.inl ⟨id, ⟨mem, passing⟩, rfl⟩)))
  · intro id gone
    rw [active]
    exact lookup_active_gone drops ((removes id).mpr gone)
  · intro id stays
    rw [active]
    exact lookup_active_kept drops (mt (removes id).mp stays)
  · exact carried.metrics
  · intro key active lock sessions
    rw [carried.redis]
    refine World.afterAll_other ?_
    intro op mem k own
    obtain rfl | ⟨id, _, rfl⟩ | ⟨id, ⟨inRooms, passing⟩, rfl⟩ | rfl := (ops op).mp mem
    · cases own
      exact lock
    · cases own
      exact active
    · cases own
      exact sessions id ((cleaned id).mp inRooms) passing
    · cases own
      exact lock
  · have none_ : w.redis Key.lock.text = none := free
    have same := after (k := .lock) trivial
    rw [none_, entryAfter_lock_sweepOps] at same
    exact same

/-- A sweep alone carries out operations, and this is what they make of the store. -/
theorem swept_alone (typed : Typed w.redis) (whole : WholeHashes w.redis)
    (free : w.redis janitorLockKey = none)
    (sweeps : SweepsAlone b instanceID fails now w rooms w') :
    (∃ ops n, (∀ op ∈ ops, op.Wf) ∧ Carried w ops n w') ∧ Swept fails now w rooms w' := by
  obtain ⟨o, same, carried⟩ :=
    Prog.wp_sound (L := sweepLogic fails) (wp_sweepAt typed whole free) sweeps
  dsimp only at same carried
  rw [← same] at carried
  have uuids : ∀ id ∈ o.list ((zsetOf (w.redis activeSessionsKey)).upTo (unix now)),
      isUuid id = true :=
    fun id mem => typed.uuid_of_listed mem
  exact ⟨⟨_, _, wf_sweepOps typed uuids, carried⟩, swept_of_carried typed rfl same free carried⟩

theorem Carried.typed {ops : List Op} {n : Nat} (carried : Carried w ops n w')
    (wf : ∀ op ∈ ops, op.Wf) (typed : Typed w.redis) : Typed w'.redis := by
  rw [carried.redis]
  exact World.typed_afterAll typed wf

/-- The session hashes that a sweep does not close stay as they are. -/
theorem Swept.session_same (swept : Swept fails now w rooms w') (uuid : isUuid id = true)
    (stays : ¬ (Expired w.redis now id ∧ fails id = false)) :
    w'.redis (sessionKey id) = w.redis (sessionKey id) := by
  refine swept.others _ ?_ ?_ ?_
  · intro same
    have uuid' : (Key.session id).Wf := uuid
    cases Key.text_injective uuid' (by exact trivial : Key.active.Wf) same
  · intro same
    have uuid' : (Key.session id).Wf := uuid
    cases Key.text_injective uuid' (by exact trivial : Key.lock.Wf) same
  · intro id' expired passing same
    rw [sessionKey_inj.mp same] at stays
    exact stays ⟨expired, passing⟩

/-- A session that a sweep closes can be read as closed. -/
theorem Swept.live_closed (swept : Swept fails now w rooms w') (typed : Typed w.redis)
    (uuid : isUuid id = true) (expired : Expired w.redis now id) (passing : fails id = false) :
    ∃ session, Live w'.redis id session ∧ session.status = statusClosed := by
  obtain ⟨session, live, _⟩ := expired.2
  obtain ⟨stored, hash, _, _⟩ := live.stored typed uuid
  have after : hashOf (w'.redis (sessionKey id)) =
      encode { stored with status := statusClosed } := by
    rw [swept.closed id expired passing, hashOf_keep, hash, insert_status_encode]
  exact ⟨_, Live.of_hash after, rfl⟩

theorem Swept.whole (swept : Swept fails now w rooms w') (typed : Typed w.redis)
    (whole : WholeHashes w.redis) : WholeHashes w'.redis := by
  intro id uuid there
  by_cases closing : Expired w.redis now id ∧ fails id = false
  · obtain ⟨session, live, _⟩ := swept.live_closed typed uuid closing.1 closing.2
    exact ⟨session, live⟩
  · have same := swept.session_same uuid closing
    rw [same] at there
    obtain ⟨session, live⟩ := whole id uuid there
    refine ⟨session, ?_⟩
    rw [Live, same]
    exact live

/-- What is left to tear down after a sweep: the sessions whose update failed. -/
theorem Swept.expired_iff (swept : Swept fails now w rooms w') (typed : Typed w.redis) :
    Expired w'.redis now id ↔ Expired w.redis now id ∧ fails id = true := by
  have uuid_of_due : Due w.redis now id → isUuid id = true := by
    intro holds
    rcases holds with ⟨score, found, _⟩
    exact typed.uuid_of_active found
  by_cases gone : Expired w.redis now id ∧ fails id = false ∨ DueClosed w.redis now id
  · constructor
    · intro holds
      rcases holds with ⟨⟨score, found, _⟩, _⟩
      rw [swept.removed id gone] at found
      cases found
    · intro holds
      rcases holds with ⟨expired, failing⟩
      obtain ⟨_, passing⟩ | ⟨_, session, live, closed⟩ := gone
      · rw [failing] at passing
        cases passing
      · obtain ⟨_, session', live', isOpen⟩ := expired
        rw [Live, live] at live'
        cases live'
        exact absurd closed isOpen
  · have due : Due w'.redis now id ↔ Due w.redis now id := by
      rw [Due, Due, swept.listed id gone]
    rw [not_or] at gone
    have live : ∀ session, isUuid id = true →
        (Live w'.redis id session ↔ Live w.redis id session) := by
      intro session uuid
      rw [Live, Live, swept.session_same uuid gone.1]
    constructor
    · intro holds
      rcases holds with ⟨due', session, live', isOpen⟩
      have due₀ := due.mp due'
      have expired : Expired w.redis now id :=
        ⟨due₀, session, (live session (uuid_of_due due₀)).mp live', isOpen⟩
      exact ⟨expired, by simpa using fun passing => gone.1 ⟨expired, passing⟩⟩
    · intro holds
      rcases holds with ⟨⟨due₀, session, live₀, isOpen⟩, _⟩
      exact ⟨due.mpr due₀, session, (live session (uuid_of_due due₀)).mpr live₀, isOpen⟩

/-- **A sweep closes exactly the expired sessions, each independently**: from a store without
partial hashes in which the lock is free, whatever cleanups and updates fail, a sweep comes to its
end, tears down each expired session once and no other, and a second sweep tears down exactly those
whose update had failed. -/
theorem sweep_closes_expired (typed : Typed w.redis) (whole : WholeHashes w.redis)
    (free : w.redis janitorLockKey = none) :
    (∃ rooms w', SweepsAlone b instanceID fails now w rooms w') ∧
      ∀ rooms w', SweepsAlone b instanceID fails now w rooms w' → Swept fails now w rooms w' ∧
        ∀ instanceID' fails' rooms' w'', SweepsAlone b instanceID' fails' now w' rooms' w'' →
          rooms'.Nodup ∧ ∀ id, id ∈ rooms' ↔ Expired w.redis now id ∧ fails id = true := by
  constructor
  · obtain ⟨_, t, run, _⟩ := Prog.wp_total (L := sweepLogic fails)
      (fun s _ ofSweep => ofSweep.enabled s)
      (wp_sweepAt (b := b) (w := w) typed whole free)
    exact ⟨t.2, t.1, run⟩
  · intro rooms w' sweeps
    obtain ⟨⟨ops, n, wf, carried⟩, swept⟩ := swept_alone typed whole free sweeps
    have typed' := carried.typed wf typed
    refine ⟨swept, ?_⟩
    intro instanceID' fails' rooms' w'' again
    obtain ⟨_, swept'⟩ := swept_alone typed' (swept.whole typed whole) swept.free again
    refine ⟨swept'.once, ?_⟩
    intro id
    rw [swept'.cleaned, swept.expired_iff typed]

end Result

namespace Sample

def expiring : Session := ⟨id₁, "ROOM-000007", "alice", createdAt, 2, "active"⟩

/-- A world with one session. -/
def oneActive : World := (World.empty 0 fun _ => 7).afterAll (store.createOps expiring 0)

theorem typed_oneActive : Typed oneActive.redis := by
  have uuid : isUuid expiring.id = true := by decide
  exact World.typed_afterAll typed_empty fun _ mem => RedisStore.wf_of_mem_createOps uuid mem

theorem wholeHashes_oneActive : WholeHashes oneActive.redis := by
  have uuid : isUuid expiring.id = true := by decide
  intro id wf there
  by_cases own : id = expiring.id
  · subst own
    exact ⟨_, Live.of_hash (congrArg hashOf (created_session (w := .empty 0 _) uuid))⟩
  · have other : oneActive.redis (sessionKey id) = none :=
      created_other (w := .empty 0 _) (k := .session id) uuid wf (by simpa using own) (by simp)
        (by simp) (by simp)
    rw [other] at there
    cases there

theorem lock_oneActive : oneActive.redis janitorLockKey = none :=
  created_other (w := .empty 0 _) (k := .lock) (by decide) trivial (by simp) (by simp) (by simp)
    (by simp)

def expiringToo : Session := ⟨id₂, "ROOM-000008", "bob", createdAt, 2, "active"⟩

/-- A world with two sessions. -/
def twoActive : World := oneActive.afterAll (store.createOps expiringToo oneActive.now)

theorem typed_twoActive : Typed twoActive.redis := by
  have uuid : isUuid expiringToo.id = true := uuid_id₂
  exact World.typed_afterAll typed_oneActive fun _ mem => RedisStore.wf_of_mem_createOps uuid mem

/-- The creation of the second session leaves the other sessions as they are. -/
theorem twoActive_session {id : String} (uuid : isUuid id = true) (other : id ≠ id₂) :
    twoActive.redis (sessionKey id) = oneActive.redis (sessionKey id) :=
  created_other (w := oneActive) (k := .session id) uuid_id₂ uuid
    (fun same => other (Key.session.inj same)) (by simp) (by simp) (by simp)

theorem live_expiringToo : Live twoActive.redis id₂ expiringToo.truncate :=
  Live.of_hash (congrArg hashOf (created_session (w := oneActive) uuid_id₂))

theorem wholeHashes_twoActive : WholeHashes twoActive.redis := by
  intro id wf there
  by_cases own : id = id₂
  · subst own
    exact ⟨_, live_expiringToo⟩
  · have same := twoActive_session wf own
    rw [same] at there
    obtain ⟨session, live⟩ := wholeHashes_oneActive id wf there
    exact ⟨session, by rwa [Live, same]⟩

theorem lock_twoActive : twoActive.redis janitorLockKey = none :=
  (created_other (w := oneActive) (k := .lock) uuid_id₂ trivial (by simp) (by simp) (by simp)
    (by simp)).trans lock_oneActive

/-- Both are listed with the same end. -/
theorem active_twoActive : zsetOf (twoActive.redis activeSessionsKey) =
    (Finmap.insert id₁ (unix (86400 * second)) ∅).insert id₂ (unix (86400 * second)) := by
  have active : twoActive.redis activeSessionsKey = _ := created_active (w := oneActive) uuid_id₂
  have uuid : isUuid expiring.id = true := uuid_id₁
  have before : oneActive.redis activeSessionsKey = _ := created_active (w := .empty 0 _) uuid
  rw [active, zsetOf_keep, before, zsetOf_keep]
  rfl

theorem expired_first : Expired twoActive.redis (86400 * second) id₁ := by
  have other : id₁ ≠ id₂ := by decide
  refine ⟨⟨unix (86400 * second), ?_, le_refl _⟩, expiring.truncate, ?_, by decide⟩
  · rw [active_twoActive, Finmap.lookup_insert_of_ne _ other, Finmap.lookup_insert]
  · rw [Live, twoActive_session uuid_id₁ other]
    exact Live.of_hash (congrArg hashOf (created_session (w := .empty 0 _) uuid_id₁))

theorem expired_second : Expired twoActive.redis (86400 * second) id₂ := by
  refine ⟨⟨unix (86400 * second), ?_, le_refl _⟩, expiringToo.truncate, live_expiringToo,
    by decide⟩
  rw [active_twoActive, Finmap.lookup_insert]

end Sample

/-- A sweep at the end of the TTL of two sessions in which the update of the first fails: both are
torn down, the second is closed, and the next sweep tears down the first again and only the
first. -/
theorem sweep_closes_expired_sample :
    ∃ rooms w', SweepsAlone Sample.backend "janitor-1" (· == Sample.id₁) (86400 * second)
      Sample.twoActive rooms w' ∧ Sample.id₁ ∈ rooms ∧ Sample.id₂ ∈ rooms ∧
        closedIn w'.redis Sample.id₂ = true ∧
        ∀ rooms' w'', SweepsAlone Sample.backend "janitor-2" (fun _ => false) (86400 * second) w'
          rooms' w'' → Sample.id₁ ∈ rooms' ∧ Sample.id₂ ∉ rooms' := by
  obtain ⟨⟨rooms, w', sweeps⟩, always⟩ : (∃ rooms w', SweepsAlone Sample.backend "janitor-1"
      (· == Sample.id₁) (86400 * second) Sample.twoActive rooms w') ∧ _ :=
    sweep_closes_expired Sample.typed_twoActive Sample.wholeHashes_twoActive Sample.lock_twoActive
  have passing : (Sample.id₂ == Sample.id₁) = false := by decide
  obtain ⟨swept, again⟩ := always rooms w' sweeps
  refine ⟨rooms, w', sweeps, (swept.cleaned _).mpr Sample.expired_first,
    (swept.cleaned _).mpr Sample.expired_second,
    closedIn_eq.mpr (swept.live_closed Sample.typed_twoActive Sample.uuid_id₂ Sample.expired_second
      passing), ?_⟩
  intro rooms' w'' sweeps'
  obtain ⟨_, torn⟩ := again _ _ rooms' w'' sweeps'
  refine ⟨(torn _).mpr ⟨Sample.expired_first, by simp⟩, ?_⟩
  intro mem
  rw [((torn _).mp mem).2] at passing
  cases passing

end DirectLink
