import DirectLink.Signaling.CameraJoin

/-!
# A close that fails, a close that succeeds

`CloseSession` deletes the ingresses and the room before it writes the status: a deletion is not
undone when the write fails, and one that failed is not tried again once the session is closed.
Every command can fail, carried out or not.
-/

namespace DirectLink

/-- A sweep that runs later finds the session. -/
def Scheduled (r : RedisStore) (w : World) (sessionID : String) : Prop :=
  ∃ t sessions w', w.now ≤ t ∧ Alone (r.getExpiredSessions t) (w.at_ t) (.ok sessions) w' ∧
    ∃ sess ∈ sessions, sess.id = sessionID

/-- An error has left the status, the room and the ingresses alone; with success the session is
closed, and its recorded ingresses and its room are deleted or will be tried again. -/
structure UsableOrClosed (r : RedisStore) (sessionID : String) (w w' : World)
    (result : Except Status CloseSessionReply) : Prop where
  status : ∀ err, result = .error err → statusOf w'.redis sessionID = statusOf w.redis sessionID
  alive : ∀ err, result = .error err → w'.livekit.alive = w.livekit.alive
  room : ∀ err, result = .error err →
    (sessionID ∈ w'.livekit.deletedRooms ↔ sessionID ∈ w.livekit.deletedRooms)
  closed : ∀ reply, result = .ok reply → statusOf w'.redis sessionID = some statusClosed
  ingressesGone : ∀ reply, result = .ok reply →
    ∀ ingressID ∈ setOf (w.redis (ingressKey sessionID)),
      ingressID ∉ w'.livekit.alive ∨ Scheduled r w' sessionID
  roomGone : ∀ reply, result = .ok reply →
    sessionID ∈ w'.livekit.deletedRooms ∨ Scheduled r w' sessionID

/-- `SMEMBERS` of the recorded ingresses. -/
abbrev listIngresses (sessionID : String) : Cmd := .redis (.smembers (ingressKey sessionID))

/-- `HSET` of the status. -/
abbrev writeClosed (sessionID : String) : Cmd :=
  .redis (.hset (sessionKey sessionID) [("status", statusClosed)])

/-- A failure keeps an ingress: the ids could not be listed, or its deletion was refused. -/
def IngressKept (sessionID : String) (fates : List (Cmd × Fate)) (ingressID : String) : Prop :=
  Unanswered fates (listIngresses sessionID) ∨ AllRefused fates (.deleteIngress ingressID)

/-- The write of the status and the deletions fail together or not at all: with the write answered
nothing that was there is kept by a failure, and without an answer all of it is, and no write was
carried out. -/
structure FailTogether (sessionID : String) (w : World) (fates : List (Cmd × Fate)) : Prop where
  ingresses : (writeClosed sessionID, Fate.answered) ∈ fates →
    ∀ ingressID ∈ setOf (w.redis (ingressKey sessionID)), ingressID ∈ w.livekit.alive →
      ¬ IngressKept sessionID fates ingressID
  room : (writeClosed sessionID, Fate.answered) ∈ fates →
    sessionID ∈ w.livekit.deletedRooms ∨ ¬ AllRefused fates (.deleteRoom sessionID)
  unwritten : (writeClosed sessionID, Fate.answered) ∉ fates →
    (writeClosed sessionID, Fate.lost) ∉ fates
  noIngress : (writeClosed sessionID, Fate.answered) ∉ fates →
    ∀ ingressID ∈ setOf (w.redis (ingressKey sessionID)), ingressID ∈ w.livekit.alive →
      IngressKept sessionID fates ingressID
  noRoom : (writeClosed sessionID, Fate.answered) ∉ fates →
    sessionID ∈ w.livekit.deletedRooms ∨ AllRefused fates (.deleteRoom sessionID)

variable {r : RedisStore} {w w' : World} {t : Fated} {fates : List (Cmd × Fate)}
variable {sessionID : String}

/-! ### A closed session is found by no sweep -/

theorem not_scheduled_of_closed (typed : Typed w.redis)
    (closed : statusOf w.redis sessionID = some statusClosed) : ¬ Scheduled r w sessionID := by
  intro ⟨t, sessions, w', _, run, sess, listed, own⟩
  have typed' : Typed (w.at_ t).redis := typed.expire t
  obtain ⟨order, collects⟩ := RedisStore.alone_of_wp
    (RedisStore.alone_getExpiredSessions typed') run
  rw [collects.listed sessions rfl, List.nil_append] at listed
  obtain ⟨id, ranged, kept⟩ := List.mem_filterMap.mp listed
  have uuid : isUuid id = true := typed'.uuid_of_listed ranged
  unfold RedisStore.expiredOf at kept
  split at kept
  · next found parsed =>
    split at kept
    · cases kept
    · next isOpen =>
      cases kept
      have live : Live (w.at_ t).redis id sess := parsed
      have same : id = sessionID := (live.id typed' uuid).symm.trans own
      subst same
      have status := live.status typed' uuid
      obtain left | expired := w.redis.expire_cases (sessionKey id) t
      · have status' : statusOf (w.at_ t).redis id = statusOf w.redis id :=
          congrArg (fun e => (hashOf e).lookup "status") left
        rw [status', closed] at status
        exact isOpen (Option.some.inj status).symm
      · have present := live.isSome
        rw [World.at_redis, expired] at present
        cases present
  · cases kept

/-! ### What the commands of a close bring about -/

/-- The commands of a close once the session is found. -/
inductive CloseStep (sessionID : String) : Cmd → Prop
  | list : CloseStep sessionID (listIngresses sessionID)
  | deleteIngress (ingressID : String) : CloseStep sessionID (.deleteIngress ingressID)
  | deleteRoom (room : String) : CloseStep sessionID (.deleteRoom room)
  | find : CloseStep sessionID (.redis (.existsKey (sessionKey sessionID)))
  | write : CloseStep sessionID (writeClosed sessionID)
  | drop : CloseStep sessionID (.redis (.zrem activeSessionsKey sessionID))
  | after (backoff : Int) : CloseStep sessionID (.after backoff)
  | metric (op : MetricOp) : CloseStep sessionID (.metric op)

/-- Those of them that are issued after the cleanup. -/
inductive WriteStep (sessionID : String) : Cmd → Prop
  | find : WriteStep sessionID (.redis (.existsKey (sessionKey sessionID)))
  | write : WriteStep sessionID (writeClosed sessionID)
  | drop : WriteStep sessionID (.redis (.zrem activeSessionsKey sessionID))
  | after (backoff : Int) : WriteStep sessionID (.after backoff)
  | metric (op : MetricOp) : WriteStep sessionID (.metric op)

/-- What a command of a close does when it is carried out: each of the four effects has one
command. -/
structure CloseEffect (sessionID : String) (c : Cmd) (w w' : World) : Prop where
  typed : Typed w'.redis
  recorded : setOf (w'.redis (ingressKey sessionID)) = setOf (w.redis (ingressKey sessionID))
  closes : c = writeClosed sessionID → statusOf w'.redis sessionID = some statusClosed
  status : writeClosed sessionID ≠ c → statusOf w'.redis sessionID = statusOf w.redis sessionID
  kills : ∀ ingressID, c = .deleteIngress ingressID → ingressID ∉ w'.livekit.alive
  alive : ∀ ingressID, .deleteIngress ingressID ≠ c →
    (ingressID ∉ w'.livekit.alive ↔ ingressID ∉ w.livekit.alive)
  deletes : ∀ room, c = .deleteRoom room → room ∈ w'.livekit.deletedRooms
  rooms : ∀ room, .deleteRoom room ≠ c →
    (room ∈ w'.livekit.deletedRooms ↔ room ∈ w.livekit.deletedRooms)

namespace CloseStep

/-- A command on the store that writes no status. -/
theorem op (op : Op) {reply : Except Err op.cmd.Reply} (uuid : isUuid sessionID = true)
    (typed : Typed w.redis) (wf : op.Wf) (noAdd : ∀ id ingressID, op ≠ .addIngress id ingressID)
    (noSession : ∀ new, op ≠ .writeSession new)
    (noStatus : ∀ id status, op ≠ .writeStatus id status) (noDel : ∀ id, op ≠ .delSession id)
    (other : writeClosed sessionID ≠ .redis op.cmd)
    (performs : Performs w (.redis op.cmd) reply w') :
    CloseEffect sessionID (.redis op.cmd) w w' := by
  obtain ⟨_, _, rfl⟩ := performs_op typed wf performs
  constructor
  · exact World.typed_after typed wf
  · ext ingressID
    exact (mem_ingress_apply_iff wf uuid).trans (or_iff_left (noAdd _ _))
  · exact fun same => absurd same.symm other
  · exact fun _ => statusOf_same wf uuid noSession noStatus noDel
  · exact nofun
  · exact fun _ _ => Iff.rfl
  · exact nofun
  · exact fun _ _ => Iff.rfl

theorem effect {c : Cmd} {reply : c.Reply} (kind : CloseStep sessionID c)
    (uuid : isUuid sessionID = true) (typed : Typed w.redis) (performs : Performs w c reply w') :
    CloseEffect sessionID c w w' := by
  cases kind with
  | list =>
    exact op (.readIngress sessionID) uuid typed uuid nofun nofun nofun nofun nofun performs
  | find =>
    exact op (.existsSession sessionID) uuid typed uuid nofun nofun nofun nofun nofun performs
  | drop =>
    exact op (.dropActive sessionID) uuid typed uuid nofun nofun nofun nofun nofun performs
  | write =>
    have wf : (Op.writeStatus sessionID statusClosed).Wf := uuid
    obtain ⟨_, _, rfl⟩ := performs_op typed wf performs
    refine ⟨World.typed_after typed wf, ?_, ?_, fun other => absurd rfl other, nofun,
      fun _ _ => Iff.rfl, nofun, fun _ _ => Iff.rfl⟩
    · ext ingressID
      exact (mem_ingress_apply_iff wf uuid).trans (or_iff_left nofun)
    · exact fun _ => (statusOf_writeStatus wf uuid).trans (if_pos rfl)
  | deleteIngress ingressID =>
    obtain ⟨_, rfl⟩ := performs
    refine ⟨typed, rfl, nofun, fun _ => rfl, ?_, ?_, nofun, fun _ _ => Iff.rfl⟩
    · intro _ impossible
      cases impossible
      exact Finset.notMem_erase ingressID _
    · intro other different
      have ne : other ≠ ingressID := fun same => different (congrArg _ same)
      exact not_congr (Finset.mem_erase.trans (and_iff_right ne))
  | deleteRoom room =>
    obtain ⟨_, rfl⟩ := performs
    refine ⟨typed, rfl, nofun, fun _ => rfl, nofun, fun _ _ => Iff.rfl, ?_, ?_⟩
    · intro _ impossible
      cases impossible
      exact List.mem_cons_self
    · intro other different
      have ne : other ≠ room := fun same => different (congrArg _ same)
      exact List.mem_cons.trans (or_iff_right ne)
  | after =>
    obtain ⟨_, rfl⟩ := performs
    exact ⟨typed, rfl, nofun, fun _ => rfl, nofun, fun _ _ => Iff.rfl, nofun, fun _ _ => Iff.rfl⟩
  | metric =>
    cases performs
    exact ⟨typed, rfl, nofun, fun _ => rfl, nofun, fun _ _ => Iff.rfl, nofun, fun _ _ => Iff.rfl⟩

end CloseStep

namespace WriteStep

theorem closeStep {c : Cmd} (kind : WriteStep sessionID c) : CloseStep sessionID c := by
  cases kind with
  | find => exact .find
  | write => exact .write
  | drop => exact .drop
  | after backoff => exact .after backoff
  | metric op => exact .metric op

theorem ne_list {c : Cmd} (kind : WriteStep sessionID c) : listIngresses sessionID ≠ c := by
  intro same
  subst same
  cases kind

theorem ne_delete {c : Cmd} (kind : WriteStep sessionID c) (ingressID : String) :
    .deleteIngress ingressID ≠ c := by
  intro same
  subst same
  cases kind

end WriteStep

/-- What has changed since `w` is what was carried out. -/
structure Underway (sessionID : String) (w : World) (t : Fated) : Prop where
  typed : Typed t.world.redis
  recorded : setOf (t.world.redis (ingressKey sessionID)) = setOf (w.redis (ingressKey sessionID))
  status : statusOf t.world.redis sessionID = statusOf w.redis sessionID ∨
    statusOf t.world.redis sessionID = some statusClosed
  closed : statusOf t.world.redis sessionID = some statusClosed ↔
    statusOf w.redis sessionID = some statusClosed ∨ CarriedOut t.fates (writeClosed sessionID)
  dead : ∀ ingressID, ingressID ∉ t.world.livekit.alive ↔
    ingressID ∉ w.livekit.alive ∨ CarriedOut t.fates (.deleteIngress ingressID)
  rooms : ∀ room, room ∈ t.world.livekit.deletedRooms ↔
    room ∈ w.livekit.deletedRooms ∨ CarriedOut t.fates (.deleteRoom room)

theorem Underway.keeps {c : Cmd} (uuid : isUuid sessionID = true)
    (closing : Underway sessionID w t) (kind : CloseStep sessionID c) :
    fatedLogic.Call t c fun _ t' => Underway sessionID w t' := by
  have effect : ∀ reply w', Performs t.world c reply w' → CloseEffect sessionID c t.world w' :=
    fun reply w' performs => kind.effect uuid closing.typed performs
  refine ⟨trivial, fun reply t' step => ⟨?_, ?_, ?_, ?_, fun ingressID => ?_, fun room => ?_⟩⟩
  · exact step.exec.elim (P := fun w' => Typed w'.redis) closing.typed
      fun _ performs => (effect _ _ performs).typed
  · exact step.exec.elim
      (P := fun w' => setOf (w'.redis (ingressKey sessionID)) =
        setOf (w.redis (ingressKey sessionID))) closing.recorded
      fun _ performs => (effect _ _ performs).recorded.trans closing.recorded
  · refine step.exec.elim
      (P := fun w' => statusOf w'.redis sessionID = statusOf w.redis sessionID ∨
        statusOf w'.redis sessionID = some statusClosed) closing.status fun _ performs => ?_
    by_cases own : c = writeClosed sessionID
    · exact .inr ((effect _ _ performs).closes own)
    · rw [(effect _ _ performs).status (Ne.symm own)]
      exact closing.status
  · refine (fated_latch (X := fun w' => statusOf w'.redis sessionID = some statusClosed)
      closing.closed ?_ ?_).2 reply t' step
    · intro _ _ performs
      exact (CloseStep.write.effect uuid closing.typed performs).closes rfl
    · intro other _ _ performs
      rw [(effect _ _ performs).status (Ne.symm other)]
  · refine (fated_latch (X := fun w' => ingressID ∉ w'.livekit.alive)
      (closing.dead ingressID) ?_ ?_).2 reply t' step
    · intro _ _ performs
      exact ((CloseStep.deleteIngress ingressID).effect uuid closing.typed performs).kills _ rfl
    · exact fun other _ _ performs => (effect _ _ performs).alive _ (Ne.symm other)
  · refine (fated_latch (X := fun w' => room ∈ w'.livekit.deletedRooms)
      (closing.rooms room) ?_ ?_).2 reply t' step
    · intro _ _ performs
      exact ((CloseStep.deleteRoom room).effect uuid closing.typed performs).deletes _ rfl
    · exact fun other _ _ performs => (effect _ _ performs).rooms _ (Ne.symm other)

/-! ### The order of the commands -/

/-- The log holds nothing of the close yet. -/
structure Unbegun (sessionID : String) (fates : List (Cmd × Fate)) : Prop where
  unlisted : ¬ Occurs fates (listIngresses sessionID)
  noIngress : ∀ ingressID, ¬ Occurs fates (.deleteIngress ingressID)
  noRoom : ∀ room, ¬ Occurs fates (.deleteRoom room)
  unwritten : ¬ Occurs fates (writeClosed sessionID)

/-- A reading of the session. -/
inductive Cmd.Looks : Cmd → Prop
  | get (key : String) : Looks (.redis (.get key))
  | hgetall (key : String) : Looks (.redis (.hgetall key))
  | after (backoff : Int) : Looks (.after backoff)

theorem Underway.start (typed : Typed w.redis) (unbegun : Unbegun sessionID fates) :
    Underway sessionID w ⟨w, fates⟩ := by
  refine ⟨typed, rfl, .inl rfl, (or_iff_left fun carried => ?_).symm,
    fun ingressID => (or_iff_left fun carried => ?_).symm,
    fun room => (or_iff_left fun carried => ?_).symm⟩
  · exact unbegun.unwritten carried.occurs
  · exact unbegun.noIngress _ carried.occurs
  · exact unbegun.noRoom _ carried.occurs

/-- The cleanup is over: the deletion of the room was issued, and those of the recorded ingresses
exactly if they were listed. -/
structure CleanedUp (sessionID : String) (w : World) (fates : List (Cmd × Fate)) : Prop where
  listed : Occurs fates (listIngresses sessionID)
  all : (listIngresses sessionID, Fate.answered) ∈ fates →
    ∀ ingressID ∈ setOf (w.redis (ingressKey sessionID)), Occurs fates (.deleteIngress ingressID)
  only : ∀ ingressID, Occurs fates (.deleteIngress ingressID) →
    (listIngresses sessionID, Fate.answered) ∈ fates ∧
      ingressID ∈ setOf (w.redis (ingressKey sessionID))
  room : Occurs fates (.deleteRoom sessionID)

/-- The cleanup is over, and what has changed is what was carried out. -/
structure Cleaned (sessionID : String) (w : World) (t : Fated) : Prop
    extends Underway sessionID w t where
  log : CleanedUp sessionID w t.fates

section Calls

variable (uuid : isUuid sessionID = true)

include uuid

/-- The commands after the cleanup keep what is known of it. -/
theorem Cleaned.keeps {c : Cmd} (kind : WriteStep sessionID c) (cleaned : Cleaned sessionID w t) :
    fatedLogic.Call t c fun _ t' => Cleaned sessionID w t' := by
  refine ⟨trivial, fun reply t' step =>
    ⟨(cleaned.toUnderway.keeps uuid kind.closeStep).2 reply t' step, ?_⟩⟩
  obtain ⟨fate, extended⟩ := step.fates_eq
  have listed : (listIngresses sessionID, Fate.answered) ∈ t'.fates ↔
      (listIngresses sessionID, Fate.answered) ∈ t.fates := by
    rw [extended]
    exact mem_append_of_other (by simpa using kind.ne_list)
  refine ⟨step.occurs cleaned.log.listed, ?_, ?_, step.occurs cleaned.log.room⟩
  · intro ok ingressID recorded
    exact step.occurs (cleaned.log.all (listed.mp ok) ingressID recorded)
  · intro ingressID issued
    rw [extended] at issued
    obtain ⟨ok, recorded⟩ :=
      cleaned.log.only ingressID ((occurs_snoc.mp issued).resolve_right (kind.ne_delete ingressID))
    exact ⟨listed.mpr ok, recorded⟩

end Calls

/-! ### The whole close -/

namespace CleanedUp

/-- After the cleanup a recorded ingress is kept exactly if its deletion was not carried out. -/
theorem kept_iff (cleaned : CleanedUp sessionID w fates) {ingressID : String}
    (recorded : ingressID ∈ setOf (w.redis (ingressKey sessionID))) :
    IngressKept sessionID fates ingressID ↔ ¬ CarriedOut fates (.deleteIngress ingressID) := by
  constructor
  · intro either carried
    rcases either with unanswered | refused
    · exact unanswered.2 (cleaned.only ingressID carried.occurs).1
    · exact refused.2 carried
  · intro missed
    by_cases listed : (listIngresses sessionID, Fate.answered) ∈ fates
    · exact .inr ⟨cleaned.all listed ingressID recorded, missed⟩
    · exact .inl ⟨cleaned.listed, listed⟩

theorem room_refused_iff (cleaned : CleanedUp sessionID w fates) :
    AllRefused fates (.deleteRoom sessionID) ↔ ¬ CarriedOut fates (.deleteRoom sessionID) :=
  and_iff_right cleaned.room

end CleanedUp

/-- A close that has not written the status. -/
theorem Cleaned.failed (cleaned : Cleaned sessionID w t)
    (active : statusOf w.redis sessionID ≠ some statusClosed)
    (unanswered : (writeClosed sessionID, Fate.answered) ∉ t.fates) {status : Status} :
    UsableOrClosed r sessionID w t.world (.error status) ↔ FailTogether sessionID w t.fates := by
  have closed := cleaned.closed.trans (or_iff_right active)
  constructor
  · intro usable
    refine ⟨fun answered => absurd answered unanswered, fun answered => absurd answered unanswered,
      ?_, ?_, ?_⟩
    · intro _ lost
      have same := usable.status status rfl
      rw [closed.mpr ⟨.lost, nofun, lost⟩] at same
      exact active same.symm
    · intro _ ingressID recorded alive
      refine (cleaned.log.kept_iff recorded).mpr fun carried => ?_
      refine (cleaned.dead ingressID).mpr (.inr carried) ?_
      rw [usable.alive status rfl]
      exact alive
    · intro _
      by_cases deleted : sessionID ∈ w.livekit.deletedRooms
      · exact .inl deleted
      · refine .inr (cleaned.log.room_refused_iff.mpr fun carried => deleted ?_)
        exact (usable.room status rfl).mp ((cleaned.rooms sessionID).mpr (.inr carried))
  · intro together
    have unwritten : ¬ CarriedOut t.fates (writeClosed sessionID) := by
      intro holds
      rcases holds with ⟨fate, carried, mem⟩
      cases fate with
      | answered => exact unanswered mem
      | lost => exact together.unwritten unanswered mem
      | refused => exact carried rfl
    refine ⟨?_, ?_, ?_, nofun, nofun, nofun⟩ <;> intro _ _
    · exact cleaned.status.resolve_right fun wrote => unwritten (closed.mp wrote)
    · ext ingressID
      refine not_iff_not.mp ((cleaned.dead ingressID).trans (or_iff_left_of_imp ?_))
      intro carried alive
      have recorded := (cleaned.log.only ingressID carried.occurs).2
      exact (cleaned.log.kept_iff recorded).mp
        (together.noIngress unanswered ingressID recorded alive) carried
    · refine (cleaned.rooms sessionID).trans (or_iff_left_of_imp fun carried => ?_)
      exact (together.noRoom unanswered).resolve_right fun refused => refused.2 carried

/-- A close that has written the status. -/
theorem Cleaned.succeeded (cleaned : Cleaned sessionID w t)
    (answered : (writeClosed sessionID, Fate.answered) ∈ t.fates) {reply : CloseSessionReply} :
    UsableOrClosed r sessionID w t.world (.ok reply) ↔ FailTogether sessionID w t.fates := by
  have closed := cleaned.closed.mpr (.inr (carriedOut_of_answered answered))
  have unscheduled := not_scheduled_of_closed (r := r) cleaned.typed closed
  constructor
  · intro gone
    refine ⟨?_, ?_, fun failed => absurd answered failed, fun failed => absurd answered failed,
      fun failed => absurd answered failed⟩
    · intro _ ingressID recorded alive kept
      have dead := (gone.ingressesGone reply rfl ingressID recorded).resolve_right unscheduled
      rcases (cleaned.dead ingressID).mp dead with before | carried
      · exact before alive
      · exact (cleaned.log.kept_iff recorded).mp kept carried
    · intro _
      have deleted := (gone.roomGone reply rfl).resolve_right unscheduled
      exact ((cleaned.rooms sessionID).mp deleted).imp_right fun carried refused =>
        refused.2 carried
  · intro together
    refine ⟨nofun, nofun, nofun, fun _ _ => closed, ?_, ?_⟩
    · intro _ _ ingressID recorded
      refine .inl ((cleaned.dead ingressID).mpr ?_)
      by_cases alive : ingressID ∈ w.livekit.alive
      · refine .inr (not_not.mp fun missed => ?_)
        exact together.ingresses answered ingressID recorded alive
          ((cleaned.log.kept_iff recorded).mpr missed)
      · exact .inl alive
    · intro _ _
      refine .inl ((cleaned.rooms sessionID).mpr ((together.room answered).imp_right ?_))
      exact fun kept => not_not.mp fun missed => kept (cleaned.log.room_refused_iff.mpr missed)

/-- Only readings so far. -/
def Looking (w : World) (t : Fated) : Prop :=
  t.world = w ∧ ∀ entry ∈ t.fates, Cmd.Looks entry.1

theorem Looking.keeps {c : Cmd} (looks : c.Looks) (looking : Looking w t)
    (same : ∀ reply w', Performs w c reply w' → w' = w) :
    fatedLogic.Call t c fun _ t' => Looking w t' := by
  obtain ⟨rfl, all⟩ := looking
  refine ⟨trivial, fun reply t' step => ⟨?_, ?_⟩⟩
  · exact step.exec.elim (P := fun w' => w' = t.world) rfl fun _ => same _ _
  · obtain ⟨fate, extended⟩ := step.fates_eq
    intro entry mem
    rw [extended] at mem
    rcases mem_snoc_iff.mp mem with old | rfl
    · exact all entry old
    · exact looks

theorem Looking.after (looking : Looking w t) (backoff : Int) :
    fatedLogic.Call t (.after backoff) fun _ t' => Looking w t' :=
  looking.keeps (.after backoff) fun _ _ performs => performs.2

namespace Sample

end Sample

end DirectLink
