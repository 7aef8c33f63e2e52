import DirectLink.Interleaving.Duties
import DirectLink.Janitor.SweepAlone
import DirectLink.Session.Indexes

/-!
# What a sweep leaves in the active set

A sweep in which nothing fails goes through the members of `sessions:active` that are due.  While
time passes between its commands, the members it has yet to deal with are `StillDue`: each of its
commands takes one off the list, or finds the hash of a session missing, and then that member stays.
-/

namespace DirectLink

open RedisStore

/-! ### Looking up the hashes -/

/-- Where the command looks up a session hash, it is there, and readable if its fields are asked
for. -/
def Finds (db : Redis.Db) : Cmd → Prop
  | .redis (.hgetall key) => ∃ session, parseSession (hashOf (db key)) = .ok session
  | .redis (.existsKey key) => (db key).isSome = true
  | _ => True

/-- A command of a sweep that nothing disturbs but the passing time.  The second component says
that every hash looked up so far was found. -/
def LookupStep (s : World × Prop) (c : Cmd) (r : c.Reply) (s' : World × Prop) : Prop :=
  ∃ t, s.1.now ≤ t ∧ Performs (s.1.at_ t) c r s'.1 ∧ (s'.2 ↔ s.2 ∧ Finds (s.1.at_ t).redis c)

/-- `SweepAt(now)`, in which nothing fails, leads from `w` to `w'`; `found` says that every hash it
looked up was found. -/
def SweepsThrough (b : Backend) (instanceID : String) (now : Nat) (w : World) (found : Prop)
    (w' : World) : Prop :=
  ((b.janitor instanceID).sweepAt now).Runs LookupStep (w, True) () (w', found)

/-- The logic of a sweep that nothing disturbs but the passing time. -/
@[reducible] def lookupLogic : Logic backend where
  State := World × Prop
  Allows _ c := c.OfSweep
  Step := LookupStep

/-! ### The members that are due -/

/-- No member of the active set has a score that has come. -/
def NoneDue (db : Redis.Db) (now : Nat) : Prop := ∀ id, ¬ Due db now id

/-- The sweep still deals with `pend`: with all members that are due, unless it missed a hash. -/
structure StillDue (now : Nat) (pend : List String) (s : World × Prop) : Prop where
  typed : Typed s.1.redis
  lasting : expiryOf (s.1.redis activeSessionsKey) = none
  nodup : pend.Nodup
  due : ∀ id ∈ pend, Due s.1.redis now id
  found : s.2 ↔ ∀ id, Due s.1.redis now id → id ∈ pend

namespace StillDue

variable {now : Nat} {pend pend' : List String} {s s' : World × Prop} {w : World} {found : Prop}
variable {id : String}

theorem uuid (pending : StillDue now pend s) (mem : id ∈ pend) : isUuid id = true := by
  obtain ⟨score, there, _⟩ := pending.due id mem
  exact pending.typed.uuid_of_active there

theorem due_congr {db db' : Redis.Db} (active : db' activeSessionsKey = db activeSessionsKey) :
    Due db' now id ↔ Due db now id := by
  rw [Due, Due, active]

/-- What is due, as the sweep lists it. -/
theorem listed (o : Redis.Order) (typed : Typed w.redis)
    (lasting : expiryOf (w.redis activeSessionsKey) = none) (all : found) :
    StillDue now (o.list ((zsetOf (w.redis activeSessionsKey)).upTo (unix now))) (w, found) where
  typed
  lasting
  nodup := o.nodup _
  due id mem := Redis.ZSet.mem_upTo.mp (Redis.Order.mem_list.mp mem)
  found := by
    refine iff_of_true all ?_
    intro id due
    exact Redis.Order.mem_list.mpr (Redis.ZSet.mem_upTo.mpr due)

/-- Whatever leaves the active set alone and misses nothing. -/
theorem same (pending : StillDue now pend s) (typed : Typed s'.1.redis)
    (active : s'.1.redis activeSessionsKey = s.1.redis activeSessionsKey) (found : s'.2 ↔ s.2) :
    StillDue now pend s' where
  typed
  lasting := by
    rw [active]
    exact pending.lasting
  nodup := pending.nodup
  due id mem := (due_congr active).mpr (pending.due id mem)
  found := by
    rw [found, pending.found]
    exact forall_congr' fun id => by rw [due_congr active]

/-- The time passes. -/
theorem wait (pending : StillDue now pend (w, found)) (t : Nat) :
    StillDue now pend (w.at_ t, found) := by
  refine pending.same (pending.typed.expire t) ?_ Iff.rfl
  have lasting : expiryOf (w.redis activeSessionsKey) = none := pending.lasting
  refine Redis.Db.expire_of_lasting ?_
  intro d dated
  rw [expiryOf, dated] at lasting
  cases lasting

/-- The hash of the first member is missing. -/
theorem missed (pending : StillDue now (id :: pend) s) (same : s'.1 = s.1) (missing : ¬ s'.2) :
    StillDue now pend s' where
  typed := same ▸ pending.typed
  lasting := same ▸ pending.lasting
  nodup := pending.nodup.of_cons
  due id mem := same ▸ pending.due id (List.mem_cons_of_mem _ mem)
  found := by
    have fresh := (List.nodup_cons.mp pending.nodup).1
    have due := pending.due id List.mem_cons_self
    rw [← same] at due
    exact ⟨fun found => absurd found missing, fun all => absurd (all id due) fresh⟩

/-- The sweep gives up. -/
theorem stuck (pending : StillDue now (id :: pend) s) (same : s'.1 = s.1) (missing : ¬ s'.2) :
    StillDue now [] s' where
  typed := same ▸ pending.typed
  lasting := same ▸ pending.lasting
  nodup := List.nodup_nil
  due id mem := by cases mem
  found := by
    have due := pending.due id List.mem_cons_self
    rw [← same] at due
    exact ⟨fun found => absurd found missing, fun all => by cases all id due⟩

/-- The first member is removed. -/
theorem removed (pending : StillDue now (id :: pend) (w, found)) :
    StillDue now pend (w.after (.dropActive id), found) := by
  have uuid := pending.uuid List.mem_cons_self
  have wf : (Op.dropActive id).Wf := uuid
  have fresh := (List.nodup_cons.mp pending.nodup).1
  have active : zsetOf ((w.after (.dropActive id)).redis activeSessionsKey) =
      (zsetOf (w.redis activeSessionsKey)).erase id := by
    have own : (Op.dropActive id).key = some .active := rfl
    rw [World.after_redis, Op.apply_active wf, if_pos own]
    exact zsetOf_dropActive
  have due : ∀ id', Due (w.after (.dropActive id)).redis now id' ↔
      id' ≠ id ∧ Due w.redis now id' := by
    intro id'
    rw [Due, Due, active]
    by_cases own : id' = id
    · subst own
      simp
    · rw [Finmap.lookup_erase_ne own]
      simp [own]
  constructor
  · exact World.typed_after pending.typed uuid
  · exact expiry_active_after wf pending.lasting
  · exact pending.nodup.of_cons
  · intro id' mem
    refine (due id').mpr ⟨?_, pending.due id' (List.mem_cons_of_mem _ mem)⟩
    intro same
    subst same
    exact fresh mem
  · refine pending.found.trans (forall_congr' fun id' => ?_)
    dsimp only
    rw [due, List.mem_cons]
    grind

theorem perm (pending : StillDue now pend s) (perm : pend.Perm pend') : StillDue now pend' s where
  typed := pending.typed
  lasting := pending.lasting
  nodup := perm.nodup_iff.mp pending.nodup
  due id mem := pending.due id (perm.mem_iff.mpr mem)
  found := by
    rw [pending.found]
    exact forall_congr' fun id => by rw [perm.mem_iff]

/-- At the end, nothing is due exactly if no hash was missed. -/
theorem noneDue (pending : StillDue now [] s) : NoneDue s.1.redis now ↔ s.2 := by
  rw [pending.found, NoneDue]
  exact forall_congr' fun id => by simp

end StillDue

/-! ### Going through them -/

section Rules

variable {now : Nat} {pend : List String} {s : World × Prop} {w : World} {found : Prop}
variable {r : RedisStore} {id : String} {α : Type}

/-- An operation, carried out when its time has come. -/
theorem answers_lookup (op : Op) {P : op.cmd.Reply → World × Prop → Prop}
    (pending : StillDue now pend (w, found)) (wf : op.Wf)
    (next : ∀ o t found', StillDue now pend (w.at_ t, found) →
      (found' ↔ found ∧ Finds (w.at_ t).redis (.redis op.cmd)) →
        P (op.reply o (op.entry (w.at_ t).redis)) ((w.at_ t).after op, found')) :
    lookupLogic.Answers (w, found) op.cmd P := by
  refine ⟨trivial, ?_⟩
  intro reply holds post
  rcases holds with ⟨w', found'⟩
  rcases post with ⟨t, _, performs, finds⟩
  have pending' := pending.wait t
  obtain ⟨o, rfl, rfl⟩ := performs_op pending'.typed wf performs
  exact ⟨_, rfl, next o t found' pending' finds⟩

/-- An operation that leaves the active set alone and looks nothing up. -/
theorem answers_aside (op : Op) {P : op.cmd.Reply → World × Prop → Prop}
    (pending : StillDue now pend s) (wf : op.Wf) (aside : op.key ≠ some .active)
    (sure : ∀ db, Finds db (.redis op.cmd))
    (next : ∀ v s', StillDue now pend s' → P v s') : lookupLogic.Answers s op.cmd P := by
  obtain ⟨w, found⟩ := s
  refine answers_lookup op pending wf ?_
  intro o t found' pending' finds
  refine next _ _ (pending'.same (World.typed_after pending'.typed wf) ?_ ?_)
  · rw [World.after_redis, Op.apply_active wf, if_neg aside]
  · simpa [sure] using finds

/-- The commands of the cleanup of a room, and the counters. -/
def Cmd.Aside : Cmd → Prop
  | .redis (.smembers _) | .deleteIngress _ | .deleteRoom _ | .after _ | .metric _ => True
  | _ => False

/-- These leave the store alone. -/
theorem call_aside {c : Cmd} (aside : c.Aside) (pending : StillDue now pend s) :
    lookupLogic.Call s c fun _ s' => StillDue now pend s' := by
  have ofSweep : c.OfSweep := by
    cases c <;> trivial
  refine ⟨ofSweep, ?_⟩
  intro reply holds post
  rcases holds with ⟨w', found'⟩
  rcases post with ⟨t, _, performs, finds⟩
  have pending' := pending.wait t
  have unchanged : w'.redis = (s.1.at_ t).redis ∧ Finds (s.1.at_ t).redis c := by
    cases c
    case redis c =>
      cases c <;> first | exact aside.elim | skip
      obtain ⟨_, _, rfl⟩ := performs
      exact ⟨rfl, trivial⟩
    case deleteIngress | deleteRoom | after =>
      obtain ⟨_, rfl⟩ := performs
      exact ⟨rfl, trivial⟩
    case metric =>
      obtain rfl := performs
      exact ⟨rfl, trivial⟩
    all_goals exact aside.elim
  refine pending'.same ?_ (congrArg (fun db => db activeSessionsKey) unchanged.1) ?_
  · dsimp only
    rw [unchanged.1]
    exact pending'.typed
  · exact finds.trans (and_iff_left unchanged.2)

theorem wp_deleteRoom_pending {server : Server} (pending : StillDue now pend s) :
    (server.deleteRoom id).wp lookupLogic (fun _ s' => StillDue now pend s') s := by
  have finish : ∀ errs, (finishRoom id errs).Issues Cmd.Aside :=
    fun errs => ⟨trivial, fun reply => by cases reply <;> trivial⟩
  have read : (server.store.getIngressIDs id).Issues Cmd.Aside :=
    issues_retryRedisOp_redis trivial fun _ => trivial
  have issues : (server.deleteRoom id).Issues Cmd.Aside := by
    refine read.bind fun listed => ?_
    cases listed with
    | error err => exact finish _
    | ok ids => exact (issues_deleteIngresses fun _ _ => trivial).bind finish
  exact issues.wp (fun s c pending aside => call_aside aside pending) pending

/-- Closing a session takes it off the list. -/
theorem wp_close_pending (pending : StillDue now (id :: pend) s) :
    (r.updateSessionStatus id statusClosed).wp lookupLogic (fun _ s' => StillDue now pend s')
      s := by
  obtain ⟨w, found⟩ := s
  have uuid := pending.uuid List.mem_cons_self
  refine wp_updateSessionStatus (answers_lookup (.existsSession id) pending uuid ?_)
  intro o t found₁ pending₁ finds
  have read : (w.at_ t).after (.existsSession id) = w.at_ t :=
    World.after_of_reads _ (by exact trivial)
  rw [read]
  cases there : ((Op.existsSession id).entry (w.at_ t).redis).isSome with
  | false =>
    rw [Op.reply, there]
    refine pending₁.missed rfl ?_
    rw [finds]
    intro holds
    rcases holds with ⟨_, exists_⟩
    exact absurd (there.symm.trans exists_) (by simp)
  | true =>
    rw [Op.reply, there]
    have kept : StillDue now (id :: pend) (w.at_ t, found₁) :=
      pending₁.same pending₁.typed rfl (finds.trans (and_iff_left there))
    refine answers_aside (.writeStatus id statusClosed) kept uuid (by simp [Op.key])
      (fun _ => trivial) ?_
    intro _ holds pending₂
    rcases holds with ⟨w₂, found₂⟩
    rw [if_pos rfl]
    refine answers_lookup (.dropActive id) pending₂ uuid ?_
    intro _ t' found₃ pending₃ finds₃
    have dropping : StillDue now (id :: pend) (w₂.at_ t', found₃) :=
      pending₃.same pending₃.typed rfl (finds₃.trans (and_iff_left trivial))
    exact dropping.removed

theorem wp_closeExpiredSession_pending {b : Backend} {instanceID : String} {sess : Session}
    (pending : StillDue now (sess.id :: pend) s) :
    ((b.janitor instanceID).closeExpiredSession sess).wp lookupLogic
      (fun _ s' => StillDue now pend s') s := by
  have cleanup : ((b.janitor instanceID).deleteRoom sess.id).wp lookupLogic
      (fun _ s' => StillDue now (sess.id :: pend) s') s := wp_deleteRoom_pending pending
  refine Prog.wp_bind.mpr (Prog.wp_mono cleanup ?_)
  intro _ s₁ pending₁
  refine Prog.wp_bind.mpr (Prog.wp_mono (wp_close_pending pending₁) ?_)
  intro result s₂ pending₂
  cases result with
  | error err => exact pending₂
  | ok _ =>
    -- the two counters of a closed session
    refine (call_aside (c := .metric .sessionsExpiredInc) trivial pending₂).mono ?_
    intro _ s₃ pending₃
    refine (call_aside (c := .metric .sessionsActiveDec) trivial pending₃).mono ?_
    exact fun _ s₄ pending₄ => pending₄

theorem wp_closeExpiredSessions_pending {b : Backend} {instanceID : String}
    {sessions : List Session} (pending : StillDue now (sessions.map Session.id) s) :
    ((b.janitor instanceID).closeExpiredSessions sessions).wp lookupLogic
      (fun _ s' => StillDue now [] s') s := by
  induction sessions generalizing s with
  | nil => exact pending
  | cons sess sessions ih =>
    refine Prog.wp_bind.mpr (Prog.wp_mono (wp_closeExpiredSession_pending pending) ?_)
    exact fun _ s' pending' => ih pending'

/-- What is left to deal with once the sessions are collected. -/
def collected : Except Err (List Session) → List String
  | .ok sessions => sessions.map Session.id
  | .error _ => []

/-- The loop of `GetExpiredSessions` takes the closed sessions off the list. -/
theorem wp_collectExpired_pending {ids : List String} {sessions : List Session}
    (pending : StillDue now (ids ++ sessions.map Session.id) s) :
    (r.collectExpired ids sessions).wp lookupLogic
      (fun result s' => StillDue now (collected result) s') s := by
  induction ids generalizing s sessions with
  | nil => exact pending
  | cons id ids ih =>
    obtain ⟨w, found⟩ := s
    have uuid := pending.uuid List.mem_cons_self
    refine wp_collectExpired_cons (answers_lookup (.readSession id) pending uuid ?_)
    intro o t found₁ pending₁ finds
    have read : (w.at_ t).after (.readSession id) = w.at_ t :=
      World.after_of_reads _ (by exact trivial)
    have entry : (Op.readSession id).entry (w.at_ t).redis = (w.at_ t).redis (sessionKey id) := rfl
    rw [read, Op.reply, entry]
    cases parsed : parseSession (hashOf ((w.at_ t).redis (sessionKey id))) with
    | error err =>
      have missing : ¬ found₁ := by
        rw [finds]
        intro holds
        rcases holds with ⟨_, session, live⟩
        rw [parsed] at live
        cases live
      dsimp only
      split
      · exact ih (pending₁.missed rfl missing)
      · exact pending₁.stuck rfl missing
    | ok session =>
      have kept : StillDue now (id :: ids ++ sessions.map Session.id) (w.at_ t, found₁) :=
        pending₁.same pending₁.typed rfl (finds.trans (and_iff_left ⟨session, parsed⟩))
      dsimp only
      split
      · refine answers_lookup (.dropActive id) kept uuid ?_
        intro _ t' found₂ pending₂ finds₂
        have dropping : StillDue now (id :: ids ++ sessions.map Session.id)
            ((w.at_ t).at_ t', found₂) :=
          pending₂.same pending₂.typed rfl (finds₂.trans (and_iff_left trivial))
        exact ih dropping.removed
      · have live : Live (w.at_ t).redis id session := parsed
        have own := live.id kept.typed uuid
        refine ih (kept.perm ?_)
        rw [List.map_append, List.map_singleton, own, ← List.append_assoc]
        exact (List.perm_append_singleton id _).symm

/-- The sweep ends with nothing left to deal with. -/
theorem wp_sweepAt_pending {b : Backend} {instanceID : String} (typed : Typed w.redis)
    (lasting : expiryOf (w.redis activeSessionsKey) = none)
    (free : w.redis janitorLockKey = none) :
    ((b.janitor instanceID).sweepAt now).wp lookupLogic (fun _ s' => StillDue now [] s')
      (w, True) := by
  obtain ⟨due, start⟩ : ∃ due, StillDue now due (w, True) :=
    ⟨_, .listed (.preferring [] List.nodup_nil) typed lasting trivial⟩
  have release : ∀ s', StillDue now [] s' →
      ((b.janitor instanceID).releaseLock).wp lookupLogic (fun _ s' => StillDue now [] s') s' := by
    intro s' pending
    refine Prog.wp_bind.mpr (wp_redis ?_)
    refine answers_aside (.dropLock instanceID) pending trivial (by simp [Op.key])
      (fun _ => trivial) ?_
    exact fun _ s'' pending' => pending'
  refine Prog.wp_bind.mpr (wp_redis ?_)
  refine answers_lookup (.takeLock instanceID b.lockTTL) start trivial ?_
  intro _ t found₁ pending₁ finds₁
  have entry : (Op.takeLock instanceID b.lockTTL).entry (w.at_ t).redis = none := by
    change w.redis.expire t janitorLockKey = none
    rw [Redis.Db.expire_apply, free, Option.filter_none]
  rw [Op.reply, entry]
  dsimp only [Option.isSome_none, Bool.not_false]
  have taken : StillDue now due ((w.at_ t).after (.takeLock instanceID b.lockTTL), found₁) := by
    refine pending₁.same (World.typed_after pending₁.typed trivial) ?_ ?_
    · rw [World.after_redis, Op.apply_active (by exact trivial), if_neg (by simp [Op.key])]
    · exact finds₁.trans (and_iff_left trivial)
  refine Prog.wp_bind.mpr (wp_getExpiredSessions ?_)
  refine answers_lookup (.readActive (unix now)) taken trivial ?_
  intro o t' found₂ pending₂ finds₂
  have all : found₂ := finds₂.mpr ⟨finds₁.mpr ⟨trivial, trivial⟩, trivial⟩
  have reads : (Op.readActive (unix now)).Reads := trivial
  rw [World.after_of_reads _ reads]
  have due' : StillDue now (o.list _) _ := .listed o pending₂.typed pending₂.lasting all
  rw [← List.append_nil (o.list _), ← List.map_nil (f := Session.id)] at due'
  refine Prog.wp_mono (wp_collectExpired_pending due') ?_
  intro result s' pending'
  cases result with
  | error err => exact release s' pending'
  | ok sessions =>
    refine Prog.wp_bind.mpr (Prog.wp_mono (wp_closeExpiredSessions_pending pending') ?_)
    exact fun _ s'' pending'' => release s'' pending''

end Rules

/-! ### Sweeps from reachable states -/

section Reach

variable {b : Backend} {faults : Cmd → Err → Prop}
variable {G : Pool (b.system faults) → Move (b.system faults) → Prop}
variable {s₀ s : Pool (b.system faults)}

/-- Whatever is called and whatever fails, the active set has no deadline. -/
theorem reach_lasting (typed : Typed s₀.world.redis) (none_ : s₀.threads = [])
    (lasting : expiryOf (s₀.world.redis activeSessionsKey) = none) (reach : Pool.Reach G s₀ s) :
    expiryOf (s.world.redis activeSessionsKey) = none := by
  refine Pool.Reach.invariant (Y := b.system faults)
    (I := fun s => expiryOf (World.redis s.world activeSessionsKey) = none) lasting ?_ reach
  intro s m s' reached inv _ step
  cases step with
  | start call => exact inv
  | @exec i t c k r world at_ next exec =>
    obtain ⟨typed', issued⟩ := reach_issued typed none_ reached at_ next
    rw [Pool.advance_world]
    obtain same | ⟨op, wf, _, _, changed⟩ := exec_redis_cases typed' issued exec
    · rw [same]
      exact inv
    · rw [changed]
      exact expiry_active_after wf inv
  | @tick t world env =>
    obtain ⟨_, rfl⟩ := env
    obtain same | gone := Redis.Db.expire_cases s.world.redis activeSessionsKey t
    · exact (congrArg expiryOf same).trans inv
    · exact (congrArg expiryOf gone).trans rfl

/-- **The active set does not accumulate dead entries**, exactly if each hash is found: after a
sweep from a reachable state that takes the lock and in which nothing fails, no member is due if and
only if every session hash it looked up was there and could be read. -/
theorem active_set_cleared {instanceID : String} {now : Nat} {found : Prop} {w' : World}
    (empty : s₀.world.redis = .empty) (none_ : s₀.threads = []) (reach : Pool.Reach G s₀ s)
    (free : s.world.redis janitorLockKey = none)
    (sweeps : SweepsThrough b instanceID now s.world found w') : NoneDue w'.redis now ↔ found := by
  have typed : Typed s₀.world.redis := by
    rw [empty]
    exact typed_empty
  have lasting : expiryOf (s₀.world.redis activeSessionsKey) = none := by
    rw [empty]
    rfl
  have holds : ((b.janitor instanceID).sweepAt now).wp lookupLogic
      (fun _ s' => StillDue now [] s') (s.world, True) :=
    wp_sweepAt_pending (reach_duties typed none_ reach).1
      (reach_lasting typed none_ lasting reach) free
  exact (Prog.wp_sound (L := lookupLogic) holds sweeps).noneDue

end Reach

/-- How sweeps that nothing disturbs are replayed, without letting time pass. -/
noncomputable def lookupReplayer : Replayer (S := backend) LookupStep where
  Hint := Hint
  perform h s c := (Hint.perform (s.1.at_ s.1.now) c h).map fun moved =>
    (moved.1, moved.2, s.2 ∧ Finds (s.1.at_ s.1.now).redis c)
  sound h s c r s' computed := by
    obtain ⟨moved, performed, same⟩ := Option.map_eq_some_iff.mp computed
    cases same
    exact ⟨s.1.now, le_refl _, Hint.performs_of_perform performed, Iff.rfl⟩

namespace Sample

/-- A session is created, more is done, and a sweep sees its score as having come. -/
noncomputable def sweptAfter (more : List (Choice (system .never) Hint)) (hints : List Hint) :
    Option (Pool (system .never) × World × Prop) :=
  (replay isStoreCall
    (.start (.store (.createSession ⟨expiring, uuid_id₁⟩)) :: go 0 (List.replicate 7 .plain) ++
      more)
    (start .never 7)).bind fun s =>
  (((backend.janitor "janitor-1").sweepAt (86400 * second)).replay lookupReplayer hints
    (s.world, True)).map fun run => (s, run.2.2.1, run.2.2.2)

/-- The sweep runs while the hash is there. -/
noncomputable def earlySweep :=
  sweptAfter [] (.plain :: .order [id₁] :: List.replicate 9 .plain)

/-- The sweep runs when the hash has expired. -/
noncomputable def lateSweep :=
  sweptAfter [.tick (86400 * second)] [.plain, .order [id₁], .plain, .plain]

theorem sweepsThrough_of_replay {more : List (Choice (system .never) Hint)} {hints : List Hint}
    {run : Pool (system .never) × World × Prop} (computed : sweptAfter more hints = some run) :
    Pool.Reach (fun _ _ => True) (start .never 7) run.1 ∧
      SweepsThrough backend "janitor-1" (86400 * second) run.1.world run.2.2 run.2.1 := by
  obtain ⟨s, replayed, swept⟩ := Option.bind_eq_some_iff.mp computed
  obtain ⟨run, sweeps, same⟩ := Option.map_eq_some_iff.mp swept
  cases same
  exact ⟨(reach_of_replay replayed).mono fun _ _ _ => trivial, Prog.replay_runs sweeps⟩

end Sample

/-- A sweep finds the hash of the only session and leaves nothing that is due. -/
theorem active_set_cleared_sample : ∃ s w' found,
    Pool.Reach (fun _ _ => True) (Sample.start .never 7) s ∧
      SweepsThrough Sample.backend "janitor-1" (86400 * second) s.world found w' ∧ found := by
  have observed : (Sample.earlySweep.any fun run =>
      decide (run.1.world.redis janitorLockKey = none) &&
        decide (run.2.1.redis activeSessionsKey = none)) = true := by
    decide +kernel
  obtain ⟨⟨s, w', found⟩, computed, observed⟩ := (Option.any_eq_true _ _).mp observed
  obtain ⟨free, gone⟩ := Bool.and_eq_true_iff.mp observed
  obtain ⟨reach, sweeps⟩ := Sample.sweepsThrough_of_replay computed
  have clear : NoneDue w'.redis (86400 * second) := by
    intro id holds
    rcases holds with ⟨score, listed, _⟩
    rw [of_decide_eq_true gone, zsetOf_none, Finmap.lookup_empty] at listed
    cases listed
  exact ⟨s, w', found, reach, sweeps,
    (active_set_cleared rfl rfl reach (of_decide_eq_true free) sweeps).mp clear⟩

/-- The hash of a session that no sweep closed is gone when its score has come, and its entry
stays. -/
theorem active_set_leaks : ¬ ∀ s, Pool.Reach (fun _ _ => True) (Sample.start .never 7) s →
    s.world.redis janitorLockKey = none → ∀ instanceID now found w',
      SweepsThrough Sample.backend instanceID now s.world found w' → NoneDue w'.redis now := by
  intro clears
  have observed : (Sample.lateSweep.any fun run =>
      decide (run.1.world.redis janitorLockKey = none) &&
        decide ((zsetOf (run.2.1.redis activeSessionsKey)).lookup Sample.id₁ =
          some (unix (86400 * second)))) = true := by
    decide +kernel
  obtain ⟨⟨s, w', found⟩, computed, observed⟩ := (Option.any_eq_true _ _).mp observed
  obtain ⟨free, left⟩ := Bool.and_eq_true_iff.mp observed
  obtain ⟨reach, sweeps⟩ := Sample.sweepsThrough_of_replay computed
  exact clears s reach (of_decide_eq_true free) _ _ _ _ sweeps Sample.id₁
    ⟨_, of_decide_eq_true left, le_refl _⟩

end DirectLink
