import DirectLink.Session.Fates
import DirectLink.Signaling.Server

/-!
# A camera joins, or leaves no ingress

`joinAsCamera` creates an ingress, grants access and records the ingress; a failed grant is to be
rolled back by deleting the ingress, a failed recording is only logged.  Every command can fail,
carried out or not: what counts is what became of `CreateIngress`, of the rollback and of the
`SADD` that records the ingress.
-/

namespace DirectLink

/-- LiveKit created the ingress between `w` and `w'`. -/
def CreatedBetween (w w' : World) (ingressID : String) : Prop :=
  w.livekit.rooms ingressID = none ∧ w'.livekit.rooms ingressID ≠ none

/-- With credentials, an ingress was created, and what was created is alive and recorded; with an
error, what was created is not alive. -/
structure CompleteOrClean (sessionID : String) (w w' : World)
    (result : Except Status JoinReply) : Prop where
  created : ∀ reply, result = .ok reply → ∃ ingressID, CreatedBetween w w' ingressID
  complete : ∀ reply, result = .ok reply → ∀ ingressID, CreatedBetween w w' ingressID →
    ingressID ∈ w'.livekit.alive ∧ ingressID ∈ setOf (w'.redis (ingressKey sessionID))
  clean : ∀ status, result = .error status → ∀ ingressID, CreatedBetween w w' ingressID →
    ingressID ∉ w'.livekit.alive

/-- The ingresses recorded for a session were created. -/
def RecordsCreated (w : World) (sessionID : String) : Prop :=
  ∀ ingressID ∈ setOf (w.redis (ingressKey sessionID)), w.livekit.rooms ingressID ≠ none

/-- The failures a join withstands: LiveKit's reply to `CreateIngress` is not lost, and neither the
rollback nor the recording is refused each time it is tried. -/
structure IngressInHand (fates : List (Cmd × Fate)) : Prop where
  create : ∀ req, (Cmd.createIngress req, Fate.lost) ∉ fates
  rollback : ∀ ingressID, ¬ AllRefused fates (.deleteIngress ingressID)
  recording : ∀ key ingressID, ¬ AllRefused fates (.redis (.sadd key ingressID))

variable {r : RedisStore} {req : JoinRequest} {sess : Session} {w w' : World} {t : Fated}
variable {ingressID : String}

/-- After the creation of one ingress, it is the one created. -/
theorem createdBetween_iff {ingressID room : String} (fresh : w.livekit.rooms ingressID = none)
    (created : w'.livekit.rooms = (w.livekit.create ingressID room).rooms) {other : String} :
    CreatedBetween w w' other ↔ other = ingressID := by
  unfold CreatedBetween
  rw [created]
  constructor
  · intro ⟨absent, present⟩
    by_contra different
    have same : (w.livekit.create ingressID room).rooms other = w.livekit.rooms other :=
      Function.update_of_ne different ..
    rw [same] at present
    exact present absent
  · intro agrees
    subst agrees
    refine ⟨fresh, ?_⟩
    have present : (w.livekit.create other room).rooms other = some room :=
      Function.update_self ..
    rw [present]
    simp

/-- With credentials, all is complete exactly if the one ingress that was created is recorded. -/
theorem completeOrClean_iff_recorded {ingressID room : String} {reply : JoinReply}
    (fresh : w.livekit.rooms ingressID = none)
    (created : w'.livekit = w.livekit.create ingressID room) :
    CompleteOrClean sess.id w w' (.ok reply) ↔
      ingressID ∈ setOf (w'.redis (ingressKey sess.id)) := by
  have between : ∀ other, CreatedBetween w w' other ↔ other = ingressID :=
    fun _ => createdBetween_iff fresh (by rw [created])
  have alive : ingressID ∈ w'.livekit.alive := by
    rw [created]
    exact Finset.mem_insert_self ..
  constructor
  · intro completeOrClean
    exact (completeOrClean.complete reply rfl ingressID ((between ingressID).mpr rfl)).2
  · intro recorded
    refine ⟨?_, ?_, fun _ impossible => by cases impossible⟩
    · intro _ _
      exact ⟨ingressID, (between ingressID).mpr rfl⟩
    · intro _ _ other same
      rw [(between other).mp same]
      exact ⟨alive, recorded⟩

/-! ### After the creation -/

/-- The ingress was created, is alive, and is recorded exactly if it was or its `SADD` was carried
out. -/
structure Joining (w : World) (sess : Session) (ingressID : String) (t : Fated) : Prop where
  typed : Typed t.world.redis
  livekit : t.world.livekit = w.livekit.create ingressID sess.id
  recorded : ingressID ∈ setOf (t.world.redis (ingressKey sess.id)) ↔
    ingressID ∈ setOf (w.redis (ingressKey sess.id)) ∨
      CarriedOut t.fates (.redis (.sadd (ingressKey sess.id) ingressID))
  create : ∀ req, (Cmd.createIngress req, Fate.lost) ∉ t.fates
  noRollback : ∀ other, ¬ Occurs t.fates (.deleteIngress other)
  recordsOne : ∀ key other, Occurs t.fates (.redis (.sadd key other)) →
    key = ingressKey sess.id ∧ other = ingressID

/-- The commands of a join that neither create nor delete an ingress nor record one. -/
inductive BesideIngress : Cmd → Prop
  | store (op : Op) : op.Wf → (∀ key other, op.cmd ≠ .sadd key other) →
    BesideIngress (.redis op.cmd)
  | after (backoff : Int) : BesideIngress (.after backoff)
  | metric (op : MetricOp) : BesideIngress (.metric op)

namespace BesideIngress

variable {c : Cmd}

theorem ne_sadd (besides : BesideIngress c) (key other : String) :
    Cmd.redis (.sadd key other) ≠ c := by
  intro same
  cases besides with
  | store _ _ none => exact none key other (Cmd.redis.inj same).symm
  | after => cases same
  | metric => cases same

theorem frame {reply : c.Reply} (besides : BesideIngress c) (typed : Typed w.redis)
    (performs : Performs w c reply w') : Typed w'.redis ∧ w'.livekit = w.livekit := by
  cases besides with
  | store op wf noAdd =>
    obtain ⟨_, _, rfl⟩ := performs_op typed wf performs
    exact ⟨World.typed_after typed wf, rfl⟩
  | after =>
    obtain ⟨_, rfl⟩ := performs
    exact ⟨typed, rfl⟩
  | metric =>
    cases performs
    exact ⟨typed, rfl⟩

theorem recorded {reply : c.Reply} (besides : BesideIngress c) (uuid : isUuid sess.id = true)
    (typed : Typed w.redis) (performs : Performs w c reply w') :
    ingressID ∈ setOf (w'.redis (ingressKey sess.id)) ↔
      ingressID ∈ setOf (w.redis (ingressKey sess.id)) := by
  cases besides with
  | store op wf noAdd =>
    obtain ⟨_, _, rfl⟩ := performs_op typed wf performs
    refine (mem_ingress_apply_iff wf uuid).trans (or_iff_left ?_)
    intro same
    subst same
    exact noAdd _ _ rfl
  | after =>
    obtain ⟨_, rfl⟩ := performs
    exact Iff.rfl
  | metric =>
    cases performs
    exact Iff.rfl

end BesideIngress

namespace Joining

theorem created (typed : Typed w.redis) {req : CreateIngressRequest} :
    Joining w sess ingressID
      ⟨{ w with livekit := w.livekit.create ingressID sess.id },
        [(.createIngress req, .answered)]⟩ := by
  refine ⟨typed, rfl, (or_iff_left ?_).symm, ?_, ?_, ?_⟩
  · intro ⟨fate, _, mem⟩
    cases List.mem_singleton.mp mem
  · intro _ mem
    cases List.mem_singleton.mp mem
  · intro _ ⟨fate, mem⟩
    cases List.mem_singleton.mp mem
  · intro _ _ ⟨fate, mem⟩
    cases List.mem_singleton.mp mem

/-- The recording and what is beside the ingress keep it so. -/
theorem keeps {c : Cmd} (uuid : isUuid sess.id = true) (joining : Joining w sess ingressID t)
    (kind : c = .redis (.sadd (ingressKey sess.id) ingressID) ∨ BesideIngress c) :
    fatedLogic.Call t c fun _ t' => Joining w sess ingressID t' := by
  have wf : (Op.addIngress sess.id ingressID).Wf := uuid
  have effect : ∀ reply w', Performs t.world c reply w' →
      Typed w'.redis ∧ w'.livekit = w.livekit.create ingressID sess.id := by
    intro reply w' performs
    rcases kind with rfl | besides
    · obtain ⟨_, _, rfl⟩ := performs_op joining.typed wf performs
      exact ⟨World.typed_after joining.typed wf, joining.livekit⟩
    · obtain ⟨typed, livekit⟩ := besides.frame joining.typed performs
      exact ⟨typed, livekit.trans joining.livekit⟩
  have recorded : fatedLogic.Call t c fun _ t' =>
      ingressID ∈ setOf (t'.world.redis (ingressKey sess.id)) ↔
        ingressID ∈ setOf (w.redis (ingressKey sess.id)) ∨
          CarriedOut t'.fates (.redis (.sadd (ingressKey sess.id) ingressID)) := by
    refine fated_latch (X := fun w' => ingressID ∈ setOf (w'.redis (ingressKey sess.id)))
      joining.recorded ?_ ?_
    · intro reply w' performs
      obtain ⟨_, _, rfl⟩ := performs_op joining.typed wf performs
      exact (mem_ingress_apply_iff wf uuid).mpr (.inr rfl)
    · intro other reply w' performs
      exact (kind.resolve_left other).recorded uuid joining.typed performs
  refine ⟨trivial, fun reply t' step => ?_⟩
  obtain ⟨typed, livekit⟩ := step.exec.elim
    (P := fun w' => Typed w'.redis ∧ w'.livekit = w.livekit.create ingressID sess.id)
    ⟨joining.typed, joining.livekit⟩ fun reply' performs => effect reply' _ performs
  obtain ⟨fate, extended⟩ := step.fates_eq
  refine ⟨typed, livekit, recorded.2 reply t' step, ?_, ?_, ?_⟩ <;> rw [extended]
  · intro req mem
    rcases mem_snoc_iff.mp mem with old | new
    · exact joining.create req old
    · cases new
      rcases kind with impossible | besides
      · cases impossible
      · cases besides
  · intro other issued
    rcases occurs_snoc.mp issued with old | rfl
    · exact joining.noRollback other old
    · rcases kind with impossible | besides
      · cases impossible
      · cases besides
  · intro key other issued
    rcases occurs_snoc.mp issued with old | new
    · exact joining.recordsOne key other old
    · rcases kind with rfl | besides
      · cases new
        exact ⟨rfl, rfl⟩
      · exact absurd new (besides.ne_sadd key other)

end Joining

/-- Nothing is recorded yet. -/
def Unrecorded (fates : List (Cmd × Fate)) : Prop :=
  ∀ key other, ¬ Occurs fates (.redis (.sadd key other))

/-- With access granted, all is complete exactly if the ingress is recorded. -/
theorem Joining.granted {reply : JoinReply} (joining : Joining w sess ingressID t)
    (fresh : w.livekit.rooms ingressID = none) (known : RecordsCreated w sess.id)
    (issued : Occurs t.fates (.redis (.sadd (ingressKey sess.id) ingressID))) :
    CompleteOrClean sess.id w t.world (.ok reply) ↔ IngressInHand t.fates := by
  have unknown : ingressID ∉ setOf (w.redis (ingressKey sess.id)) :=
    fun recorded => known _ recorded fresh
  rw [completeOrClean_iff_recorded fresh joining.livekit, joining.recorded, or_iff_right unknown]
  constructor
  · intro carried
    refine ⟨joining.create, fun other refused => joining.noRollback other refused.1, ?_⟩
    intro key other refused
    obtain ⟨rfl, rfl⟩ := joining.recordsOne key other refused.1
    exact refused.2 carried
  · intro inHand
    by_contra missed
    exact inHand.recording _ _ ⟨issued, missed⟩

section Calls

variable (uuid : isUuid sess.id = true)

include uuid

theorem wp_grantAccess_joining {userID role : String} (joining : Joining w sess ingressID t)
    (unrecorded : Unrecorded t.fates) :
    (r.grantAccess sess.id userID role).wp fatedLogic
      (fun _ t' => Joining w sess ingressID t' ∧ Unrecorded t'.fates) t := by
  have issues : (r.grantAccess sess.id userID role).Issues BesideIngress := by
    refine RedisStore.issues_grantAccess ?_ ?_ ?_ .after
    · exact .store (.existsSession sess.id) uuid nofun
    · exact .store (.writeRole sess.id userID role) uuid nofun
    · exact .store (.expireAccess sess.id r.ttl) ⟨uuid, r.ttl_pos⟩ nofun
  refine issues.wp (L := fatedLogic)
    (J := fun t => Joining w sess ingressID t ∧ Unrecorded t.fates) ?_
    ⟨joining, unrecorded⟩
  intro t c holds besides
  rcases holds with ⟨joining, unrecorded⟩
  refine ⟨trivial, fun reply t' step => ⟨(joining.keeps uuid (.inr besides)).2 reply t' step, ?_⟩⟩
  obtain ⟨fate, extended⟩ := step.fates_eq
  intro key other issued
  rw [extended] at issued
  rcases occurs_snoc.mp issued with old | new
  · exact unrecorded key other old
  · exact besides.ne_sadd key other new

/-- The recording is tried at least once, and then again as the retry loop has it. -/
theorem wp_addIngressID_joining (joining : Joining w sess ingressID t) :
    (r.addIngressID sess.id ingressID).wp fatedLogic
      (fun _ t' => Joining w sess ingressID t' ∧
        Occurs t'.fates (.redis (.sadd (ingressKey sess.id) ingressID))) t := by
  have expire : BesideIngress (.redis (.expire (ingressKey sess.id) r.ttl)) :=
    .store (.expireIngress sess.id r.ttl) ⟨uuid, r.ttl_pos⟩ nofun
  have keeps : ∀ t c, (Joining w sess ingressID t ∧
      Occurs t.fates (.redis (.sadd (ingressKey sess.id) ingressID))) → BesideIngress c →
      fatedLogic.Call t c fun _ t' => Joining w sess ingressID t' ∧
        Occurs t'.fates (.redis (.sadd (ingressKey sess.id) ingressID)) := by
    intro t c holds besides
    rcases holds with ⟨joining, issued⟩
    exact ⟨trivial, fun reply t' step =>
      ⟨(joining.keeps uuid (.inr besides)).2 reply t' step, step.occurs issued⟩⟩
  refine RedisStore.wp_retryRedisOp_failing (L := fatedLogic) (J := Joining w sess ingressID)
    (K := fun t => Joining w sess ingressID t ∧
      Occurs t.fates (.redis (.sadd (ingressKey sess.id) ingressID))) ?_ ?_ joining
  · intro t joining
    rw [pipeExec]
    refine ⟨trivial, fun reply t' step => ?_⟩
    have joining' := (joining.keeps uuid (.inl rfl)).2 reply t' step
    refine Prog.wp_mono (Prog.Issues.wp (L := fatedLogic) ?_ keeps
      ⟨joining', step.occurs_self⟩) ?_
    · refine (RedisStore.issues_pipeExec ?_).bind fun result => ?_
      · intro c mem
        rw [List.mem_singleton.mp mem]
        exact expire
      · cases reply <;> trivial
    · intro _ _ kept
      exact ⟨kept, fun _ _ => kept⟩
  · intro t backoff kept
    refine (keeps t _ kept (.after backoff)).mono ?_
    intro reply t' kept'
    exact ⟨kept'.1, fun _ _ => kept'⟩

end Calls

/-! ### The whole join -/

/-- The rollback after a grant that did not succeed. -/
theorem wp_rollback {status : Status} (joining : Joining w sess ingressID t)
    (fresh : w.livekit.rooms ingressID = none) (unrecorded : Unrecorded t.fates) :
    (do
        let _ ← issue (.deleteIngress ingressID)
        return .error status : Go (Except Status JoinReply)).wp fatedLogic
      (fun result t' => CompleteOrClean sess.id w t'.world result ↔ IngressInHand t'.fates) t := by
  have create : ∀ {fate} req, (Cmd.createIngress req, Fate.lost) ∉
      t.fates ++ [(.deleteIngress ingressID, fate)] := by
    intro fate req mem
    rcases mem_snoc_iff.mp mem with old | new
    · exact joining.create req old
    · cases new
  have recording : ∀ {fate} key other, ¬ AllRefused
      (t.fates ++ [(.deleteIngress ingressID, fate)]) (.redis (.sadd key other)) := by
    intro fate key other refused
    rcases occurs_snoc.mp refused.1 with old | new
    · exact unrecorded key other old
    · cases new
  refine fated_keeps ?_ ?_
  · intro fate reply w' carried holds
    rcases holds with ⟨_, rfl⟩
    refine iff_of_true ⟨(fun _ impossible => by cases impossible),
      (fun _ impossible => by cases impossible), ?_⟩ ⟨create, ?_, recording⟩
    · intro _ _ other between
      have rooms : (t.world.livekit.deleteIngress ingressID).rooms =
          (w.livekit.create ingressID sess.id).rooms := by
        rw [joining.livekit]
        rfl
      rw [(createdBetween_iff fresh rooms).mp between]
      exact Finset.notMem_erase ingressID _
    · intro other refused
      rcases occurs_snoc.mp refused.1 with old | new
      · exact joining.noRollback other old
      · exact refused.2 (carriedOut_snoc.mpr (.inr ⟨new, carried⟩))
  · refine iff_of_false ?_ ?_
    · intro completeOrClean
      have between : CreatedBetween w t.world ingressID :=
        (createdBetween_iff fresh (by rw [joining.livekit])).mpr rfl
      refine completeOrClean.clean _ rfl ingressID between ?_
      rw [joining.livekit]
      exact Finset.mem_insert_self ..
    · intro inHand
      refine inHand.rollback ingressID ⟨occurs_snoc.mpr (.inr rfl), fun carried => ?_⟩
      rw [carriedOut_snoc_refused] at carried
      exact joining.noRollback ingressID carried.occurs

/-- **A camera join** completes or leaves no ingress, exactly if it keeps the ingress in hand. -/
theorem wp_joinAsCamera {s : Server} (typed : Typed w.redis) (uuid : isUuid sess.id = true)
    (known : RecordsCreated w sess.id) :
    (s.joinAsCamera req sess).wp fatedLogic
      (fun result t => CompleteOrClean sess.id w t.world result ↔ IngressInHand t.fates)
      ⟨w, []⟩ := by
  rw [Server.joinAsCamera]
  refine fated_issue fun reply t step => ?_
  cases step with
  | answered performs =>
    obtain ⟨info, fresh, rfl, rfl⟩ := performs
    refine Prog.wp_bind.mpr (Prog.wp_mono
      (wp_grantAccess_joining uuid (.created typed) ?_) ?_)
    · intro _ _ ⟨_, mem⟩
      cases List.mem_singleton.mp mem
    · intro granted t post
      rcases post with ⟨joining, unrecorded⟩
      cases granted with
      | error err => exact wp_rollback joining fresh unrecorded
      | ok _ =>
        refine Prog.wp_bind.mpr (Prog.wp_mono (wp_addIngressID_joining uuid joining) ?_)
        intro _ t post
        rcases post with ⟨joining, issued⟩
        refine fated_issue fun _ t' step => ?_
        have joining' := (joining.keeps uuid (.inr (.metric _))).2 _ t' step
        exact joining'.granted fresh known (step.occurs issued)
  | lost reports performs =>
    obtain rfl := reports
    obtain ⟨info, fresh, _, rfl⟩ := performs
    refine iff_of_false ?_ fun inHand => inHand.create _ (List.mem_singleton_self _)
    intro completeOrClean
    have between : CreatedBetween w
        { w with livekit := w.livekit.create info.ingressId sess.id } info.ingressId :=
      (createdBetween_iff fresh rfl).mpr rfl
    exact completeOrClean.clean _ rfl _ between (Finset.mem_insert_self ..)
  | refused reports =>
    obtain rfl := reports
    refine iff_of_true ⟨(fun _ impossible => by cases impossible),
      (fun _ impossible => by cases impossible), ?_⟩ ⟨?_, ?_, ?_⟩
    · intro _ _ ingressID created
      exact absurd created.1 created.2
    · intro _ mem
      cases List.mem_singleton.mp mem
    · intro _ ⟨⟨_, mem⟩, _⟩
      cases List.mem_singleton.mp mem
    · intro _ _ ⟨⟨_, mem⟩, _⟩
      cases List.mem_singleton.mp mem

/-- Every run of `joinAsCamera` for a session, whatever becomes of its commands, completes or
leaves no ingress exactly when `C` holds of them. -/
def JoinsWhen (s : Server) (C : List (Cmd × Fate) → Prop) : Prop :=
  ∀ req sess w result t, Typed w.redis → isUuid sess.id = true → RecordsCreated w sess.id →
    (s.joinAsCamera req sess).Runs FatedStep ⟨w, []⟩ result t →
      (CompleteOrClean sess.id w t.world result ↔ C t.fates)

/-- **A camera join completes or leaves no ingress** exactly if LiveKit's reply to `CreateIngress`
is not lost and neither the rollback nor the recording is refused for good. -/
theorem camera_join_exact (s : Server) : JoinsWhen s IngressInHand := by
  intro req sess w result t typed uuid known run
  exact Prog.wp_sound (L := fatedLogic) (wp_joinAsCamera typed uuid known) run

namespace Sample

def session : Session := ⟨id₁, "ROOM-000007", "alice", createdAt, 2, "active"⟩

/-- A world with one session. -/
def oneSession : World := (World.empty 0 fun _ => 7).afterAll (store.createOps session 0)

theorem typed_oneSession : Typed oneSession.redis := by
  have uuid : isUuid session.id = true := by decide
  exact World.typed_afterAll typed_empty fun _ mem => RedisStore.wf_of_mem_createOps uuid mem

/-- A join whose context is cancelled after access is granted. -/
noncomputable def unrecorded :=
  (backend.server.joinAsCamera ⟨"ROOM-000007", "bob", "camera"⟩ session).replay fatedReplayer
    [.ingress ⟨"IN_1", "https://whip", "key"⟩, .plain, .plain, .plain,
      .refused (.sentinel .contextCanceled), .refused (.sentinel .contextCanceled), .plain]
    ⟨oneSession, []⟩

end Sample

/-- A join that returned credentials has not recorded its ingress. -/
theorem camera_join_unrecorded : ¬ JoinsWhen Sample.backend.server fun _ => True := by
  intro joins
  have observed : (Sample.unrecorded.any fun run =>
      (match run.1 with
        | .error _ => false
        | .ok _ => true) &&
      decide (run.2.2.world.livekit.rooms "IN_1" ≠ none) &&
      decide ("IN_1" ∉ setOf (run.2.2.world.redis (ingressKey Sample.id₁)))) = true := by
    decide +kernel
  obtain ⟨⟨result, rest, t⟩, computed, observed⟩ := (Option.any_eq_true _ _).mp observed
  obtain ⟨observed, unrecorded⟩ := Bool.and_eq_true_iff.mp observed
  obtain ⟨ok, created⟩ := Bool.and_eq_true_iff.mp observed
  have run := Prog.replay_runs computed
  cases result with
  | error status => cases ok
  | ok reply =>
    have known : RecordsCreated Sample.oneSession Sample.session.id := by
      have none_recorded :
          setOf (Sample.oneSession.redis (ingressKey Sample.session.id)) = ∅ := by
        decide +kernel
      intro ingressID recorded
      rw [none_recorded] at recorded
      exact absurd recorded (Finset.notMem_empty _)
    have complete := ((joins _ _ _ _ _ Sample.typed_oneSession (by decide) known run).mpr
      trivial).complete reply rfl "IN_1" ⟨rfl, of_decide_eq_true created⟩
    exact of_decide_eq_true unrecorded complete.2

end DirectLink
