import DirectLink.Interleaving.Traces
import DirectLink.Runs

/-!
# What a closed session leaves behind

A close or a sweep lists the ingresses of its session, deletes them, and writes the status last; a
join reads the status first and creates its ingress, grants access and records the ingress later.
Where the two do not overlap, no ingress of a closed session stays alive and no access to it is
granted any more.
-/

namespace DirectLink

open RedisStore

namespace Stage

/-- The call can still write an entry of the access list of the session. -/
def Grants (id : String) : Stage → Prop
  | written session | dated session | published session | counted session | vouched session =>
    session.id = id
  | admitted id' | holding id' _ | granting id' _ => id' = id
  | _ => False

/-- A camera has its ingress still to be created or recorded. -/
def Unrecorded (id : String) : Stage → Prop
  | admitted id' => id' = id
  | holding id' held | granting id' held | granted id' held => id' = id ∧ held.isSome = true
  | _ => False

/-- The ingress exists and is still to be recorded or deleted again. -/
def Holds (id ingress : String) : Stage → Prop
  | holding id' held | granting id' held | granted id' held => id' = id ∧ held = some ingress
  | undoing id' ingress' => id' = id ∧ ingress' = ingress
  | _ => False

/-- The ingress is still to be deleted again. -/
def Undoes (ingress : String) : Stage → Prop
  | undoing _ ingress' => ingress' = ingress
  | _ => False

/-- The ingresses of the session are listed and its status is not written yet. -/
def TearsDown (id : String) : Stage → Prop
  | clearing id' _ _ | cleared id' _ | confirmed id' _ => id' = id
  | _ => False

variable {call : Call} {stage : Stage} {e : Event backend} {id ingress : String}

/-- Where no ingress is unrecorded, an ingress held is to be deleted again. -/
theorem Holds.undoes (holds : stage.Holds id ingress) (none_ : ¬ stage.Unrecorded id) :
    stage.Undoes ingress := by
  cases stage <;> simp_all [Holds, Unrecorded, Undoes]

theorem Undoes.of_settled (settled : stage.Settled) : ¬ stage.Undoes ingress := by
  cases stage <;> first | exact id | exact settled.elim

/-- A call comes to grant access as it finds the session open, or stores it. -/
theorem grants_of_next (after : (stage.next call e).Grants id) :
    stage.Grants id ∨ (∃ new, stage = building new ∧ new.id = id) ∨
      ∃ key h session, stage = looking id ∧ e = ⟨.redis (.hgetall key), .ok h⟩ ∧
        parseSession h = .ok session ∧ session.status ≠ "closed" := by
  unfold next opened created at after
  repeat' split at after
  all_goals simp only [Grants] at after
  all_goals try subst after
  all_goals first
    | exact .inl rfl
    | exact .inr (.inl ⟨_, rfl, rfl⟩)
    | exact .inr (.inr ⟨_, _, _, rfl, rfl, by assumption, by assumption⟩)

/-- A camera comes to create its ingress as it finds the session open. -/
theorem unrecorded_of_next (after : (stage.next call e).Unrecorded id) :
    stage.Unrecorded id ∨ stage = looking id ∧ stage.next call e = admitted id := by
  unfold next opened created at after ⊢
  repeat' split at after
  all_goals simp only [Unrecorded] at after
  all_goals try subst after
  all_goals first
    | exact .inl rfl
    | simp_all [Unrecorded]

/-- A teardown begins as it lists the ingresses. -/
theorem tearsDown_of_next (after : (stage.next call e).TearsDown id) :
    stage.TearsDown id ∨ ∃ found key ids, stage = due [] (id :: found) ∧
      e = ⟨.redis (.smembers key), .ok ids⟩ := by
  unfold next opened created at after
  repeat' split at after
  all_goals simp only [TearsDown] at after
  all_goals try subst after
  all_goals first
    | exact .inl rfl
    | exact .inr ⟨_, _, _, rfl, rfl⟩

/-- An ingress is held until it is recorded or deleted again. -/
theorem holds_next (call : Call) (e : Event backend) (holds : stage.Holds id ingress) :
    (stage.next call e).Holds id ingress ∨
      (∃ key member r, stage = granted id (some ingress) ∧ e = ⟨.redis (.sadd key member), r⟩) ∨
      ∃ ingress' r, stage = undoing id ingress ∧ e = ⟨.deleteIngress ingress', r⟩ := by
  unfold Holds at holds
  split at holds
  all_goals
    first
      | exact holds.elim
      | obtain ⟨rfl, rfl⟩ := holds
  all_goals
    dsimp only [next]
    repeat' split
  all_goals first
    | exact .inl ⟨rfl, rfl⟩
    | exact .inr (.inl ⟨_, _, _, rfl, rfl⟩)
    | exact .inr (.inr ⟨_, _, rfl, rfl⟩)

/-- What a teardown has made sure of, of an alive ingress of the session that no join is about to
delete again: it is among those to be deleted, unless the session can not be read; and it is not
there once the session was found to exist. -/
def Covers (id ingress : String) (live : Prop) : Stage → Prop
  | clearing id' left _ => id' = id → live → ingress ∈ left
  | cleared id' _ => id' = id → ¬ live
  | confirmed id' _ => id' ≠ id
  | _ => True

theorem covers_of_standing {live : Prop} (standing : ¬ stage.TearsDown id) :
    stage.Covers id ingress live := by
  cases stage <;> simp only [TearsDown] at standing <;> simp only [Covers]
  case clearing => exact fun same => absurd same standing
  case cleared => exact fun same => absurd same standing
  case confirmed => exact standing

theorem Covers.mono {live live' : Prop} (covers : stage.Covers id ingress live)
    (weaker : live' → live) : stage.Covers id ingress live' := by
  cases stage <;> simp only [Covers] at covers ⊢
  case clearing => exact fun same live' => covers same (weaker live')
  case cleared => exact fun same live' => covers same (weaker live')
  case confirmed => exact covers

/-- A teardown goes on to make sure of an ingress that was listed, is not the one it deletes, and
is not there when the session is found. -/
theorem covers_next {live : Prop} (covers : stage.Covers id ingress live)
    (listed : ∀ found key ids, stage = due [] (id :: found) →
      e = ⟨.redis (.smembers key), .ok ids⟩ → live → ingress ∈ ids)
    (deletes : ∀ first left found other r, stage = clearing id (first :: left) found →
      e = ⟨.deleteIngress other, r⟩ → first ≠ ingress)
    (exists_ : ∀ found key, stage = cleared id found → e ≠ ⟨.redis (.existsKey key), .ok true⟩) :
    (stage.next call e).Covers id ingress live := by
  cases stage
  case due unread found =>
    rcases unread with _ | ⟨first, unread⟩
    · rcases found with _ | ⟨first, found⟩
      · exact trivial
      · dsimp only [next]
        split
        · intro same live
          subst same
          exact listed _ _ _ rfl rfl live
        · exact trivial
    · dsimp only [next]
      split <;> exact trivial
  case clearing id' left found =>
    rcases left with _ | ⟨first, left⟩
    · dsimp only [next]
      split
      · intro same live
        exact absurd (covers same live) List.not_mem_nil
      · exact covers
    · dsimp only [next]
      split
      · intro same live
        subst same
        rcases List.mem_cons.mp (covers rfl live) with first_ | later
        · exact absurd first_.symm (deletes _ _ _ _ _ rfl rfl)
        · exact later
      · exact covers
  case cleared id' found =>
    dsimp only [next]
    split
    · intro same
      subst same
      exact exists_ _ _ rfl rfl
    · exact trivial
    · exact covers
  case confirmed id' found =>
    dsimp only [next]
    split
    · exact trivial
    · exact covers
  all_goals
    dsimp only [next, opened, created]
    repeat' split
  all_goals exact trivial

end Stage

/-- The ingress was created in the room of the session and not deleted since. -/
def AliveIn (w : World) (id ingress : String) : Prop :=
  w.livekit.rooms ingress = some id ∧ ingress ∈ w.livekit.alive

section Teardown

variable {b : Backend} {s : Pool (b.system noFaults)} {ttl : Nat}

/-- A status is written only while no call can still grant access to the session. -/
def ClosesGranted (s : Pool (b.system noFaults)) : Move (b.system noFaults) → Prop
  | .exec _ e => ∀ id status, e.cmd = .redis (Op.writeStatus id status).cmd →
      ∀ t ∈ s.threads, ¬ t.stage.Grants id
  | _ => True

/-- The ingresses of a session are listed only while no camera has its own still to be recorded. -/
def ListsRecorded (s : Pool (b.system noFaults)) : Move (b.system noFaults) → Prop
  | .exec _ e => ∀ id, e.cmd = .redis (Op.readIngress id).cmd →
      ∀ t ∈ s.threads, ¬ t.stage.Unrecorded id
  | _ => True

/-- A camera finds a session open only while no teardown has listed its ingresses. -/
def AdmitsStanding (s : Pool (b.system noFaults)) : Move (b.system noFaults) → Prop
  | .exec i e => ∀ t id, s.threads[i]? = some t → t.stage = .looking id →
      t.stage.next t.call e = .admitted id → ∀ t' ∈ s.threads, ¬ t'.stage.TearsDown id
  | _ => True

/-- Requests and sweeps, and no join overlaps the teardown of its session. -/
def Apart (s : Pool (b.system noFaults)) (m : Move (b.system noFaults)) : Prop :=
  RequestsOnly s m ∧ ClosesGranted s m ∧ ListsRecorded s m ∧ AdmitsStanding s m

/-- The status of the session was written. -/
def Closing (s : Pool (b.system noFaults)) (id : String) : Prop :=
  isUuid id = true ∧ s.Seen ⟨.redis (Op.writeStatus id statusClosed).cmd, .ok ()⟩

/-- A join is about to delete the ingress again. -/
def Undone (s : Pool (b.system noFaults)) (ingress : String) : Prop :=
  ∃ t ∈ s.threads, t.stage.Undoes ingress

/-- The session can be read. -/
def Readable (db : Redis.Db) (id : String) : Prop := ∃ session, Live db id session

/-- Where the alive ingresses of a session are recorded or held, what teardowns have made sure of,
and what stays of a session once its status was written. -/
structure Orderly (s : Pool (b.system noFaults)) : Prop where
  recorded : ∀ id ingress, isUuid id = true → AliveIn s.world id ingress →
    Readable s.world.redis id → ingress ∈ setOf (s.world.redis (ingressKey id)) ∨
      ∃ t ∈ s.threads, t.stage.Holds id ingress
  alone : ∀ t ∈ s.threads, ∀ t' ∈ s.threads, ∀ id, t.stage.TearsDown id → ¬ t'.stage.Unrecorded id
  torn : ∀ t ∈ s.threads, ∀ id ingress, AliveIn s.world id ingress → ¬ Undone s ingress →
    t.stage.Covers id ingress (Readable s.world.redis id)
  broken : ∀ id, isUuid id = true → Stored s id → Readable s.world.redis id ∨ Closing s id
  known : ∀ id, Closing s id → Public s id
  ungranted : ∀ id, Closing s id → ∀ t ∈ s.threads,
    ¬ t.stage.Grants id ∧ ¬ t.stage.Unrecorded id
  undone : ∀ id, Closing s id → ∀ ingress, AliveIn s.world id ingress → Undone s ingress
  status : ∀ id, Closing s id → ∀ status, statusOf s.world.redis id = some status →
    status = statusClosed

variable {t : Thread (b.system noFaults)} {id ingress : String}

theorem orderly_idle {now : Nat} {rand : Nat → Nat} : Orderly (b.idle noFaults now rand) where
  recorded id ingress _ alive := by cases alive.1
  alone t member := by cases member
  torn t member := by cases member
  broken id _ stored := by cases stored
  known id closing := by
    obtain ⟨_, _, member, _⟩ := closing
    cases member
  ungranted id _ t member := by cases member
  undone id _ ingress alive := by cases alive.1
  status id _ status stored := by cases stored

/-! ### A call is started, time passes -/

theorem Undone.start {call : Call} (undone : Undone s ingress) :
    Undone (⟨s.world, s.threads ++ [⟨call, [], b.code call⟩]⟩ : Pool (b.system noFaults))
      ingress := by
  obtain ⟨t, member, undoes⟩ := undone
  exact ⟨t, List.mem_append_left _ member, undoes⟩

theorem closing_start {call : Call} :
    Closing (⟨s.world, s.threads ++ [⟨call, [], b.code call⟩]⟩ : Pool (b.system noFaults)) id ↔
      Closing s id :=
  and_congr_right fun _ => Pool.seen_start

theorem Orderly.start {call : Call} (orderly : Orderly s) :
    Orderly (⟨s.world, s.threads ++ [⟨call, [], b.code call⟩]⟩ : Pool (b.system noFaults)) where
  recorded id ingress uuid alive readable := by
    rcases orderly.recorded id ingress uuid alive readable with member | ⟨t, member, holds⟩
    · exact .inl member
    · exact .inr ⟨t, List.mem_append_left _ member, holds⟩
  alone t member t' member' id tears := by
    rcases mem_start member with old | new
    · rcases mem_start member' with old' | new'
      · exact orderly.alone t old t' old' id tears
      · rw [new']
        exact not_false
    · rw [new] at tears
      exact tears.elim
  torn t member id ingress alive undone := by
    rcases mem_start member with old | new
    · exact orderly.torn t old id ingress alive fun before => undone before.start
    · rw [new]
      exact trivial
  broken id uuid stored := (orderly.broken id uuid stored).imp_right closing_start.mpr
  known id closing := (orderly.known id (closing_start.mp closing)).start
  ungranted id closing t member := by
    rcases mem_start member with old | new
    · exact orderly.ungranted id (closing_start.mp closing) t old
    · rw [new]
      exact ⟨not_false, not_false⟩
  undone id closing ingress alive :=
    (orderly.undone id (closing_start.mp closing) ingress alive).start
  status id closing := orderly.status id (closing_start.mp closing)

theorem Orderly.tick {now : Nat} (orderly : Orderly s) (traced : Traced ttl s) :
    Orderly (⟨s.world.at_ now, s.threads⟩ : Pool (b.system noFaults)) where
  recorded id ingress uuid alive readable := by
    obtain ⟨session, live⟩ := readable
    obtain ⟨same, live'⟩ := live.of_tick
    -- the ingresses of a session that can be read have not expired
    have kept : s.world.redis.expire now (ingressKey id) = s.world.redis (ingressKey id) := by
      refine Redis.Db.expire_of_lasting ?_
      intro d' deadline
      obtain ⟨d, expiry, le⟩ := traced.outlives id session d' uuid live' deadline
      have later := Redis.Db.lt_of_expire live.isSome expiry
      exact Nat.lt_of_lt_of_le later le
    rw [World.at_redis, kept]
    exact orderly.recorded id ingress uuid alive ⟨session, live'⟩
  alone := orderly.alone
  torn t member id ingress alive undone := by
    refine (orderly.torn t member id ingress alive undone).mono ?_
    intro readable
    obtain ⟨session, live⟩ := readable
    exact ⟨session, live.of_tick.2⟩
  broken id uuid stored := by
    rcases Redis.Db.expire_cases s.world.redis (sessionKey id) now with kept | gone
    · rw [Stored, World.at_redis, kept] at stored
      refine (orderly.broken id uuid stored).imp_left ?_
      intro readable
      obtain ⟨session, live⟩ := readable
      refine ⟨session, ?_⟩
      rw [Live, World.at_redis, kept]
      exact live
    · rw [Stored, World.at_redis, gone] at stored
      cases stored
  known := orderly.known
  ungranted := orderly.ungranted
  undone := orderly.undone
  status id closing status stored := by
    rcases Redis.Db.expire_cases s.world.redis (sessionKey id) now with kept | gone
    · rw [statusOf, World.at_redis, kept] at stored
      exact orderly.status id closing status stored
    · rw [statusOf, World.at_redis, gone] at stored
      cases stored

/-! ### A thread moves -/

section Exec

variable {i : Nat} {e : Event backend} {world : World} {prog : Go Result}

/-- The deletion of an ingress is issued by a teardown that has it first, or by the join that
created it. -/
theorem Stage.Acts.deletes {stage : Stage} {w w' : World} {r : Except Err Unit}
    (acts : stage.Acts ttl w ⟨.deleteIngress ingress, r⟩ w') :
    (∃ id left found, stage = .clearing id (ingress :: left) found) ∨
      ∃ id, stage = .undoing id ingress := by
  cases acts with
  | op op o wf permitted answered after => cases congrArg Event.cmd answered
  | other away issued performs => exact issued

/-- An ingress that is alive was so before, or has just been created. -/
theorem alive_of_acts {stage : Stage} {w w' : World} (acts : stage.Acts ttl w e w')
    (alive : AliveIn w' id ingress) :
    (AliveIn w id ingress ∧ ∀ r, e ≠ ⟨.deleteIngress ingress, r⟩) ∨
      stage = .admitted id ∧ ∃ req info, e = ⟨.createIngress req, .ok info⟩ ∧
        info.ingressId = ingress := by
  cases acts with
  | op op o wf permitted answered after =>
    subst answered after
    refine .inl ⟨alive, ?_⟩
    intro r impossible
    cases congrArg Event.cmd impossible
  | other away issued performs =>
    obtain ⟨c, r⟩ := e
    dsimp only at away issued performs
    cases c
    case redis c => exact absurd rfl (away c)
    case createIngress req =>
      obtain ⟨info, fresh, rfl, rfl⟩ := performs
      obtain ⟨id', admitted, same⟩ := issued
      by_cases new : info.ingressId = ingress
      · subst new
        have room : some req.roomName = some id := by
          rw [← alive.1]
          exact (Function.update_self info.ingressId _ w.livekit.rooms).symm
        rw [← same, Option.some.inj room] at admitted
        exact .inr ⟨admitted, req, info, rfl, rfl⟩
      · refine .inl ⟨⟨?_, ?_⟩, ?_⟩
        · exact (Function.update_of_ne (Ne.symm new) ..).symm.trans alive.1
        · exact (Finset.mem_insert.mp alive.2).resolve_left (Ne.symm new)
        · intro r impossible
          cases congrArg Event.cmd impossible
    case deleteIngress other =>
      obtain ⟨rfl, rfl⟩ := performs
      obtain ⟨ne, member⟩ := Finset.mem_erase.mp alive.2
      refine .inl ⟨⟨alive.1, member⟩, ?_⟩
      intro r same
      cases congrArg Event.cmd same
      exact ne rfl
    case newUuid =>
      obtain ⟨_, _, rfl⟩ := performs
      refine .inl ⟨alive, ?_⟩
      intro r impossible
      cases congrArg Event.cmd impossible
    case deleteRoom | timeNow | randInt | after =>
      obtain ⟨_, rfl⟩ := performs
      refine .inl ⟨alive, ?_⟩
      intro r impossible
      cases congrArg Event.cmd impossible
    case utcNow | metric =>
      cases performs
      refine .inl ⟨alive, ?_⟩
      intro r impossible
      cases congrArg Event.cmd impossible

/-- A session that can be read could be read before, once it was published. -/
theorem Readable.before (typed : Typed s.world.redis) (once : CreatedOnce s)
    (at_ : s.threads[i]? = some t) (acts : t.stage.Acts ttl s.world e world)
    (uuid : isUuid id = true) (public_ : Public s id) (readable : Readable world.redis id) :
    Readable s.world.redis id := by
  obtain ⟨session, live⟩ := readable
  cases acts with
  | other away _ performs =>
    rw [(frame_of_other away performs).1] at live
    exact ⟨session, live⟩
  | op op o wf permitted answered after =>
    rw [after, World.after_redis] at live
    rcases live_apply typed wf uuid live with ⟨old, status, live', _, _⟩ | ⟨new, rfl, own, _⟩
    · exact ⟨old, live'⟩
    · have building : t.stage = .building new := permitted
      have impossible := public_.of_creation once (List.mem_of_getElem? at_)
        (by rw [building, ← own]; rfl)
      rw [building] at impossible
      cases impossible

/-- An ingress that is not deleted stays about to be deleted again. -/
theorem Undone.advance (at_ : s.threads[i]? = some t) (acts : t.stage.Acts ttl s.world e world)
    (kept : ∀ r, e ≠ ⟨.deleteIngress ingress, r⟩) (undone : Undone s ingress) :
    Undone (s.advance i t e world prog) ingress := by
  refine Pool.exists_advance at_ undone ?_
  intro undoes
  rw [stage_moved]
  cases at_stage : t.stage
  case undoing id' ingress' =>
    rw [at_stage] at undoes
    dsimp only [Stage.next]
    split
    · next other r =>
      rw [at_stage] at acts
      rcases acts.deletes with ⟨_, _, _, impossible⟩ | ⟨_, same⟩
      · cases impossible
      · cases same
        cases undoes
        exact absurd rfl (kept r)
    · exact undoes
  all_goals
    rw [at_stage] at undoes
    exact undoes.elim

theorem Closing.advance (at_ : s.threads[i]? = some t) (closing : Closing s id) :
    Closing (s.advance i t e world prog) id :=
  ⟨closing.1, (Pool.seen_advance at_).mpr (.inl closing.2)⟩

/-- The recorded ingresses of a session stay recorded. -/
theorem mem_ingress_kept {op : Op} {db : Redis.Db} {now : Nat} (wf : op.Wf)
    (uuid : isUuid id = true) (member : ingress ∈ setOf (db (ingressKey id))) :
    ingress ∈ setOf (op.apply now db (ingressKey id)) := by
  rw [Op.apply_ingress wf uuid]
  split
  · next own =>
    cases op <;> cases own <;> simp only [Op.effect, setOf_redate, setOf_keep]
    case addIngress other => exact Finset.mem_insert_of_mem member
    all_goals exact member
  · exact member

/-- A camera records its ingress. -/
theorem recorded_of_sadd {w w' : World} {key member : String} {r : Except Err Unit}
    (acts : (Stage.granted id (some ingress)).Acts ttl w ⟨.redis (.sadd key member), r⟩ w') :
    ingress ∈ setOf (w'.redis (ingressKey id)) := by
  cases acts with
  | other away _ _ => exact absurd rfl (away _)
  | op op o wf permitted answered after =>
    cases op
    case addIngress id' ingress' =>
      cases permitted
      have own : (Op.addIngress id ingress).apply w.now w.redis (ingressKey id) =
          keep (w.redis (ingressKey id))
            (.set (insert ingress (setOf (w.redis (ingressKey id))))) :=
        Redis.Db.assign_self
      rw [after, World.after_redis, own, setOf_keep]
      exact Finset.mem_insert_self ingress _
    case addUserSession =>
      obtain ⟨_, impossible, _⟩ := permitted
      cases impossible
    all_goals cases congrArg Event.cmd answered

theorem Orderly.exec_recorded (orderly : Orderly s) (traced : Traced ttl s) (once : CreatedOnce s)
    (typed : Typed s.world.redis) (at_ : s.threads[i]? = some t)
    (acts : t.stage.Acts ttl s.world e world) (id ingress : String) (uuid : isUuid id = true)
    (alive : AliveIn (s.advance i t e world prog).world id ingress)
    (readable : Readable (s.advance i t e world prog).world.redis id) :
    ingress ∈ setOf ((s.advance i t e world prog).world.redis (ingressKey id)) ∨
      ∃ t' ∈ (s.advance i t e world prog).threads, t'.stage.Holds id ingress := by
  rw [Pool.advance_world] at alive readable ⊢
  rcases alive_of_acts acts alive with ⟨before, kept⟩ | ⟨admitted, req, info, rfl, rfl⟩
  · have public_ := traced.room ingress id before.1
    have readable' := readable.before typed once at_ acts uuid public_
    rcases orderly.recorded id ingress uuid before readable' with member | ⟨t', member', holds⟩
    · refine .inl ?_
      cases acts with
      | other away _ performs =>
        rw [(frame_of_other away performs).1]
        exact member
      | op op o wf permitted answered after =>
        rw [after, World.after_redis]
        exact mem_ingress_kept wf uuid member
    · rcases Pool.mem_of_mem_advance e world prog at_ member' with rfl | stays
      · rcases Stage.holds_next t'.call e holds with
          still | ⟨key, member, r, granted, rfl⟩ | ⟨other, r, undoing, rfl⟩
        · refine .inr ⟨_, Pool.moved_mem_advance at_, ?_⟩
          rw [stage_moved]
          exact still
        · refine .inl ?_
          rw [granted] at acts
          exact recorded_of_sadd acts
        · rw [undoing] at acts
          rcases acts.deletes with ⟨_, _, _, impossible⟩ | ⟨_, same⟩
          · cases impossible
          · cases same
            exact absurd rfl (kept r)
      · exact .inr ⟨t', stays, holds⟩
  · refine .inr ⟨_, Pool.moved_mem_advance at_, ?_⟩
    rw [stage_moved, admitted]
    exact ⟨rfl, rfl⟩

/-- A teardown lists the ingresses of its own session. -/
theorem listed_of_acts {w w' : World} {found : List String} {key : String} {ids : List String}
    {stage : Stage} (due : stage = .due [] (id :: found))
    (acts : stage.Acts ttl w ⟨.redis (.smembers key), .ok ids⟩ w') :
    (∀ ingress, ingress ∈ ids ↔ ingress ∈ setOf (w.redis (ingressKey id))) ∧
      (Cmd.redis (.smembers key)) = .redis (Op.readIngress id).cmd := by
  cases acts with
  | other away _ _ => exact absurd rfl (away _)
  | op op o wf permitted answered after =>
    rw [due] at permitted
    cases op
    case readIngress id' =>
      obtain ⟨found', same⟩ := permitted
      cases same
      have event := congrArg Event.cmd answered
      cases event
      have replies := Except.ok.inj (eq_of_heq (Event.mk.inj answered).2)
      refine ⟨?_, rfl⟩
      intro ingress
      rw [replies]
      exact Redis.Order.mem_list
    case readUser => cases permitted
    all_goals cases congrArg Event.cmd answered

theorem Orderly.exec_alone (orderly : Orderly s) (at_ : s.threads[i]? = some t)
    (acts : t.stage.Acts ttl s.world e world) (lists : ListsRecorded s (.exec i e))
    (admits : AdmitsStanding s (.exec i e)) (t₁ : Thread (b.system noFaults))
    (member₁ : t₁ ∈ (s.advance i t e world prog).threads) (t₂ : Thread (b.system noFaults))
    (member₂ : t₂ ∈ (s.advance i t e world prog).threads) (id : String)
    (tears : t₁.stage.TearsDown id) : ¬ t₂.stage.Unrecorded id := by
  have self := List.mem_of_getElem? at_
  intro unrecorded
  -- an unrecorded ingress was so before, or no teardown is under way
  have unrecorded₀ : (∃ t₀ ∈ s.threads, t₀.stage.Unrecorded id) ∨
      ∀ t' ∈ s.threads, ¬ t'.stage.TearsDown id := by
    rcases Pool.mem_advance member₂ with old | rfl
    · exact .inl ⟨t₂, old, unrecorded⟩
    · rw [stage_moved] at unrecorded
      rcases Stage.unrecorded_of_next unrecorded with before | ⟨looking, admitted⟩
      · exact .inl ⟨t, self, before⟩
      · exact .inr (admits t id at_ looking admitted)
  have tears₀ : (∃ t₀ ∈ s.threads, t₀.stage.TearsDown id) ∨
      ((∀ t' ∈ s.threads, ¬ t'.stage.Unrecorded id) ∧ t₁.stage = t.stage.next t.call e ∧
        ∃ found, t.stage = .due [] (id :: found)) := by
    rcases Pool.mem_advance member₁ with old | rfl
    · exact .inl ⟨t₁, old, tears⟩
    · rw [stage_moved] at tears ⊢
      rcases Stage.tearsDown_of_next tears with before | ⟨found, key, ids, due, rfl⟩
      · exact .inl ⟨t, self, before⟩
      · refine .inr ⟨?_, rfl, found, due⟩
        obtain ⟨_, same⟩ := listed_of_acts due acts
        exact lists id same
  rcases tears₀ with ⟨t₀, member₀, tears'⟩ | ⟨none_, _, found, due⟩
  · rcases unrecorded₀ with ⟨t', member', unrecorded'⟩ | none_
    · exact orderly.alone t₀ member₀ t' member' id tears' unrecorded'
    · exact none_ t₀ member₀ tears'
  · rcases Pool.mem_advance member₂ with old | rfl
    · exact none_ t₂ old unrecorded
    · rw [stage_moved] at unrecorded
      rcases Stage.unrecorded_of_next unrecorded with before | ⟨looking, _⟩
      · exact none_ t self before
      · rw [due] at looking
        cases looking

/-- A session that a teardown found to exist is stored. -/
theorem stored_of_exists {found : List String} {key : String}
    (cleared : t.stage = .cleared id found)
    (acts : t.stage.Acts ttl s.world ⟨.redis (.existsKey key), .ok true⟩ world) : Stored s id := by
  cases acts with
  | other away _ _ => exact absurd rfl (away _)
  | op op o wf permitted answered after =>
    rw [cleared] at permitted
    cases op
    case existsSession id' =>
      rcases permitted with ⟨_, impossible, _⟩ | ⟨_, impossible⟩ | ⟨found', same⟩
      · cases impossible
      · cases impossible
      · cases same
        cases congrArg Event.cmd answered
        exact (Except.ok.inj (eq_of_heq (Event.mk.inj answered).2)).symm
    all_goals cases congrArg Event.cmd answered

theorem Orderly.exec_torn (orderly : Orderly s) (traced : Traced ttl s) (once : CreatedOnce s)
    (typed : Typed s.world.redis) (uuids : ∀ id, Public s id → isUuid id = true)
    (at_ : s.threads[i]? = some t)
    (acts : t.stage.Acts ttl s.world e world) (lists : ListsRecorded s (.exec i e))
    (t' : Thread (b.system noFaults)) (member : t' ∈ (s.advance i t e world prog).threads)
    (id ingress : String) (alive : AliveIn (s.advance i t e world prog).world id ingress)
    (undone : ¬ Undone (s.advance i t e world prog) ingress) :
    t'.stage.Covers id ingress (Readable (s.advance i t e world prog).world.redis id) := by
  have self := List.mem_of_getElem? at_
  rw [Pool.advance_world] at alive ⊢
  rcases alive_of_acts acts alive with ⟨before, kept⟩ | ⟨admitted, req, info, rfl, rfl⟩
  · have public_ := traced.room ingress id before.1
    have uuid := uuids id public_
    have readable : Readable world.redis id → Readable s.world.redis id :=
      fun readable => readable.before typed once at_ acts uuid public_
    have standing : ¬ Undone s ingress := fun before => undone (before.advance at_ acts kept)
    rcases Pool.mem_advance member with old | rfl
    · exact (orderly.torn t' old id ingress before standing).mono readable
    · rw [stage_moved]
      refine (Stage.covers_next (orderly.torn t self id ingress before standing) ?_ ?_ ?_).mono
        readable
      · intro found key ids due event live
        subst event
        obtain ⟨listed, same⟩ := listed_of_acts due acts
        rcases orderly.recorded id ingress uuid before live with recorded | ⟨t', member', holds⟩
        · exact (listed ingress).mpr recorded
        · exact absurd ⟨t', member', holds.undoes (lists id same t' member')⟩ standing
      · intro first left found other r clearing event same
        subst event same
        rw [clearing] at acts
        rcases acts.deletes with ⟨_, _, _, first_⟩ | ⟨_, impossible⟩
        · cases first_
          exact kept r rfl
        · cases impossible
      · intro found key cleared event
        subst event
        have covers := orderly.torn t self id ingress before standing
        rw [cleared] at covers
        have stored := stored_of_exists cleared acts
        rcases orderly.broken id uuid stored with readable' | closing
        · exact covers rfl readable'
        · exact standing (orderly.undone id closing ingress before)
  · rcases Pool.mem_advance member with old | rfl
    · refine Stage.covers_of_standing fun tears => ?_
      refine orderly.alone t' old t self id tears ?_
      rw [admitted]
      rfl
    · rw [stage_moved, admitted]
      exact trivial

theorem Orderly.exec_broken (orderly : Orderly s) (at_ : s.threads[i]? = some t)
    (acts : t.stage.Acts ttl s.world e world) (id : String) (uuid : isUuid id = true)
    (stored : Stored (s.advance i t e world prog) id) :
    Readable (s.advance i t e world prog).world.redis id ∨
      Closing (s.advance i t e world prog) id := by
  rw [Stored, Pool.advance_world] at stored
  rw [Pool.advance_world]
  have before : Stored s id → hashOf (world.redis (sessionKey id)) =
      hashOf (s.world.redis (sessionKey id)) →
        Readable world.redis id ∨ Closing (s.advance i t e world prog) id := by
    intro stored' same
    rcases orderly.broken id uuid stored' with ⟨session, live⟩ | closing
    · refine .inl ⟨session, ?_⟩
      rw [Live, same]
      exact live
    · exact .inr (closing.advance at_)
  cases acts with
  | other away _ performs =>
    rw [(frame_of_other away performs).1] at stored
    exact before stored (by rw [(frame_of_other away performs).1])
  | op op o wf permitted answered after =>
    rw [after, World.after_redis] at stored before ⊢
    by_cases own : op.key = some (.session id)
    case pos =>
      cases op <;> cases own
      case writeSession new =>
        have entry : (Op.writeSession new).apply s.world.now s.world.redis (sessionKey new.id) =
            keep (s.world.redis (sessionKey new.id)) (.hash (encode new)) := Redis.Db.assign_self
        refine .inl ⟨new.truncate, Live.of_hash ?_⟩
        rw [entry, hashOf_keep]
      case writeStatus status =>
        obtain ⟨rfl, _⟩ := permitted
        exact .inr ⟨uuid, (Pool.seen_advance at_).mpr (.inr answered.symm)⟩
      case expireSession ttl' =>
        have entry : (Op.expireSession id ttl').apply s.world.now s.world.redis (sessionKey id) =
            redate (s.world.redis (sessionKey id)) (s.world.now + ttl') := Redis.Db.assign_self
        rw [entry, redate, Option.isSome_map] at stored
        rw [entry] at before
        exact before stored hashOf_redate
      case delSession => exact permitted.elim
      case existsSession =>
        have same : (Op.existsSession id).apply s.world.now s.world.redis (sessionKey id) =
            s.world.redis (sessionKey id) := Redis.Db.assign_self
        rw [same] at stored before
        exact before stored rfl
      case readSession =>
        have same : (Op.readSession id).apply s.world.now s.world.redis (sessionKey id) =
            s.world.redis (sessionKey id) := Redis.Db.assign_self
        rw [same] at stored before
        exact before stored rfl
    case neg =>
      rw [Op.apply_session wf uuid, if_neg own] at stored before
      exact before stored rfl

/-- A status is written by a teardown that found its session. -/
theorem confirmed_of_closing {stage : Stage} {w w' : World} (uuid : isUuid id = true)
    (acts : stage.Acts ttl w ⟨.redis (Op.writeStatus id statusClosed).cmd, .ok ()⟩ w') :
    (∃ found, stage = .confirmed id found) ∧ w' = w.after (.writeStatus id statusClosed) := by
  cases acts with
  | other away _ _ => exact absurd rfl (away _)
  | op op o wf permitted answered after =>
    have event : (Op.writeStatus id statusClosed).cmd = op.cmd :=
      Cmd.redis.inj (congrArg Event.cmd answered)
    have wfKey : (Key.session id).Wf := uuid
    cases op
    case writeStatus id' status =>
      have wfKey' : (Key.session id').Wf := wf
      cases Key.text_injective wfKey wfKey' (Redis.Cmd.hset.inj event).1
      obtain ⟨rfl, found, confirmed⟩ := permitted
      exact ⟨⟨found, confirmed⟩, after⟩
    case writeSession new =>
      have fields := congrArg List.length (Redis.Cmd.hset.inj event).2
      exact absurd fields (by simp [sessionData])
    case writeRole id' userID role =>
      have wfKey' : (Key.access id').Wf := wf
      cases Key.text_injective wfKey wfKey' (Redis.Cmd.hset.inj event).1
    all_goals cases event

/-- The status of a session was written before, or is so now. -/
theorem closing_of_advance (at_ : s.threads[i]? = some t)
    (acts : t.stage.Acts ttl s.world e world) (closing : Closing (s.advance i t e world prog) id) :
    Closing s id ∨ (∃ found, t.stage = .confirmed id found) ∧
      e = ⟨.redis (Op.writeStatus id statusClosed).cmd, .ok ()⟩ ∧
        world = s.world.after (.writeStatus id statusClosed) := by
  obtain ⟨uuid, seen⟩ := closing
  rcases (Pool.seen_advance at_).mp seen with old | rfl
  · exact .inl ⟨uuid, old⟩
  · obtain ⟨confirmed, after⟩ := confirmed_of_closing uuid acts
    exact .inr ⟨confirmed, rfl, after⟩

theorem Orderly.exec_known (orderly : Orderly s) (traced : Traced ttl s)
    (at_ : s.threads[i]? = some t) (acts : t.stage.Acts ttl s.world e world) (id : String)
    (closing : Closing (s.advance i t e world prog) id) :
    Public (s.advance i t e world prog) id := by
  rcases closing_of_advance at_ acts closing with old | ⟨⟨found, confirmed⟩, _, _⟩
  · exact (orderly.known id old).advance at_
  · have knows : t.stage.Knows id := by
      rw [confirmed]
      exact .inl rfl
    exact (traced.known t (List.mem_of_getElem? at_) id knows).advance at_

/-- A session that a call read. -/
theorem live_of_acts {w w' : World} {key : String} {h : Redis.Hash} {session : Session}
    {stage : Stage} (looking : stage = .looking id)
    (acts : stage.Acts ttl w ⟨.redis (.hgetall key), .ok h⟩ w')
    (parsed : parseSession h = .ok session) : Live w.redis id session := by
  cases acts with
  | other away _ _ => exact absurd rfl (away _)
  | op op o wf permitted answered after =>
    rw [looking] at permitted
    cases op
    case readSession id' =>
      rcases permitted with impossible | ⟨_, impossible⟩ | same | ⟨_, _, impossible⟩
      · cases impossible
      · cases impossible
      · cases same
        cases congrArg Event.cmd answered
        rw [Except.ok.inj (eq_of_heq (Event.mk.inj answered).2)] at parsed
        exact parsed
      · cases impossible
    all_goals cases congrArg Event.cmd answered

theorem Orderly.exec_ungranted (orderly : Orderly s) (typed : Typed s.world.redis)
    (once : CreatedOnce s) (at_ : s.threads[i]? = some t)
    (acts : t.stage.Acts ttl s.world e world) (closes : ClosesGranted s (.exec i e)) (id : String)
    (closing : Closing (s.advance i t e world prog) id) (t' : Thread (b.system noFaults))
    (member : t' ∈ (s.advance i t e world prog).threads) :
    ¬ t'.stage.Grants id ∧ ¬ t'.stage.Unrecorded id := by
  have self := List.mem_of_getElem? at_
  rcases closing_of_advance at_ acts closing with old | ⟨⟨found, confirmed⟩, event, _⟩
  · rcases Pool.mem_advance member with old' | rfl
    · exact orderly.ungranted id old t' old'
    · obtain ⟨ungranted, recorded⟩ := orderly.ungranted id old t self
      rw [stage_moved]
      -- a closed session is not found open
      have closed : ∀ key h session, t.stage = .looking id →
          e = ⟨.redis (.hgetall key), .ok h⟩ → parseSession h = .ok session →
            session.status = "closed" := by
        intro key h session looking event parsed
        subst event
        have live := live_of_acts looking acts parsed
        exact orderly.status id old _ (live.status typed old.1)
      have no_grant : ¬ (t.stage.next t.call e).Grants id := by
        intro grants
        rcases Stage.grants_of_next grants with
          before | ⟨new, building, own⟩ | ⟨key, h, session, looking, event, parsed, open_⟩
        · exact ungranted before
        · have impossible := (orderly.known id old).of_creation once self
            (by rw [building, ← own]; rfl)
          rw [building] at impossible
          cases impossible
        · exact open_ (closed key h session looking event parsed)
      refine ⟨no_grant, ?_⟩
      intro unrecorded
      rcases Stage.unrecorded_of_next unrecorded with before | ⟨looking, admitted⟩
      · exact recorded before
      · rw [admitted] at no_grant
        exact no_grant rfl
  · rcases Pool.mem_advance member with old' | rfl
    · refine ⟨closes id statusClosed (by rw [event]) t' old', ?_⟩
      refine orderly.alone t self t' old' id ?_
      rw [confirmed]
      rfl
    · rw [stage_moved, confirmed, event]
      exact ⟨not_false, not_false⟩

theorem Orderly.exec_undone (orderly : Orderly s) (at_ : s.threads[i]? = some t)
    (acts : t.stage.Acts ttl s.world e world) (id : String)
    (closing : Closing (s.advance i t e world prog) id) (ingress : String)
    (alive : AliveIn (s.advance i t e world prog).world id ingress) :
    Undone (s.advance i t e world prog) ingress := by
  have self := List.mem_of_getElem? at_
  rw [Pool.advance_world] at alive
  rcases closing_of_advance at_ acts closing with old | ⟨⟨found, confirmed⟩, event, after⟩
  · rcases alive_of_acts acts alive with ⟨before, kept⟩ | ⟨admitted, _⟩
    · exact (orderly.undone id old ingress before).advance at_ acts kept
    · have ungranted := (orderly.ungranted id old t self).1
      rw [admitted] at ungranted
      exact absurd rfl ungranted
  · rcases alive_of_acts acts alive with ⟨before, kept⟩ | ⟨admitted, _⟩
    · refine Undone.advance at_ acts kept ?_
      by_contra standing
      have covers := orderly.torn t self id ingress before standing
      rw [confirmed] at covers
      exact covers rfl
    · rw [confirmed] at admitted
      cases admitted

theorem Orderly.exec_status (orderly : Orderly s) (once : CreatedOnce s)
    (at_ : s.threads[i]? = some t) (acts : t.stage.Acts ttl s.world e world) (id : String)
    (closing : Closing (s.advance i t e world prog) id) (status : String)
    (stored : statusOf (s.advance i t e world prog).world.redis id = some status) :
    status = statusClosed := by
  have uuid := closing.1
  rw [Pool.advance_world] at stored
  rcases closing_of_advance at_ acts closing with old | ⟨_, _, after⟩
  · cases acts with
    | other away _ performs =>
      rw [(frame_of_other away performs).1] at stored
      exact orderly.status id old status stored
    | op op o wf permitted answered after =>
      rw [after, World.after_redis] at stored
      rcases statusOf_apply s.world.now s.world.redis wf uuid with
        same | ⟨new, rfl, own, _⟩ | ⟨status', rfl, written⟩ | rfl
      · rw [same] at stored
        exact orderly.status id old status stored
      · have building : t.stage = .building new := permitted
        have impossible := (orderly.known id old).of_creation once (List.mem_of_getElem? at_)
          (by rw [building, ← own]; rfl)
        rw [building] at impossible
        cases impossible
      · obtain ⟨rfl, _⟩ := permitted
        rw [written] at stored
        exact (Option.some.inj stored).symm
      · exact permitted.elim
  · rw [after, World.after_redis, statusOf_writeStatus uuid uuid, if_pos rfl] at stored
    exact (Option.some.inj stored).symm

/-- One command of a request or a sweep keeps the order. -/
theorem Orderly.exec (orderly : Orderly s) (traced : Traced ttl s) (once : CreatedOnce s)
    (typed : Typed s.world.redis) (uuids : ∀ id, Public s id → isUuid id = true)
    (at_ : s.threads[i]? = some t) (acts : t.stage.Acts ttl s.world e world)
    (apart : Apart s (.exec i e)) : Orderly (s.advance i t e world prog) where
  recorded := orderly.exec_recorded traced once typed at_ acts
  alone := orderly.exec_alone at_ acts apart.2.2.1 apart.2.2.2
  torn := orderly.exec_torn traced once typed uuids at_ acts apart.2.2.1
  broken := orderly.exec_broken at_ acts
  known := orderly.exec_known traced at_ acts
  ungranted := orderly.exec_ungranted typed once at_ acts apart.2.1
  undone := orderly.exec_undone at_ acts
  status := orderly.exec_status once at_ acts

end Exec

/-- An entry of the access list is written by a call that was granting access. -/
theorem grants_of_writeRole {w w' : World} {stage : Stage} {e : Event backend}
    {userID role : String} (uuid : isUuid id = true) (acts : stage.Acts ttl w e w')
    (writes : e.cmd = .redis (Op.writeRole id userID role).cmd) : stage.Grants id := by
  cases acts with
  | other away _ _ => exact absurd writes (away _)
  | op op o wf permitted answered after =>
    have event : op.cmd = (Op.writeRole id userID role).cmd := by
      rw [answered] at writes
      exact Cmd.redis.inj writes
    have wfKey : (Key.access id).Wf := uuid
    cases op
    case writeRole id' userID' role' =>
      have wfKey' : (Key.access id').Wf := wf
      cases Key.text_injective wfKey' wfKey (Redis.Cmd.hset.inj event).1
      rcases permitted with ⟨new, vouched, own⟩ | ⟨held, granting⟩
      · rw [vouched]
        exact own
      · rw [granting]
        rfl
    case writeSession new =>
      have wfKey' : (Key.session new.id).Wf := wf
      cases Key.text_injective wfKey' wfKey (Redis.Cmd.hset.inj event).1
    case writeStatus id' status =>
      have wfKey' : (Key.session id').Wf := wf
      cases Key.text_injective wfKey' wfKey (Redis.Cmd.hset.inj event).1
    all_goals cases event

/-! ### Runs -/

variable {now : Nat} {rand : Nat → Nat}

/-- Published ids are UUIDs. -/
theorem reach_uuid_of_public {G : Pool (b.system noFaults) → Move (b.system noFaults) → Prop}
    (requests : ∀ s m, G s m → RequestsOnly s m)
    (reach : Pool.Reach G (b.idle noFaults now rand) s) (id : String) (public_ : Public s id) :
    isUuid id = true := by
  obtain ⟨t, member, has⟩ := public_
  have saw := saw_of_uuid (uuid_of_public has)
  obtain ⟨_, kept⟩ := reach_stages typed_empty rfl requests reach t member
  exact (kept.expects saw).2

theorem reach_orderly (reach : Pool.Reach Apart (b.idle noFaults now rand) s) : Orderly s := by
  have requests : ∀ s m, Apart (b := b) s m → RequestsOnly s m := fun _ _ apart => apart.1
  refine Pool.Reach.invariant (I := Orderly) orderly_idle ?_ reach
  intro s m s' reached orderly apart step
  obtain ⟨typed, once, traced⟩ := reach_traced requests reached
  cases step with
  | start call => exact orderly.start
  | exec at_ next exec =>
    obtain ⟨_, acts⟩ := reach_acts typed_empty rfl requests reached at_ next exec
    have uuids := reach_uuid_of_public requests reached
    exact orderly.exec traced once typed uuids at_ acts apart
  | tick env =>
    obtain ⟨_, rfl⟩ := env
    exact orderly.tick traced

/-! ### The session of a close -/

/-- The session a room code was found to be mapped to, and whether its status was written since. -/
def closingOf (found : Option (String × Bool)) (e : Event backend) : Option (String × Bool) :=
  match found, e with
  | none, ⟨.redis (.get _), .ok (some id)⟩ => some (id, false)
  | some (id, wrote), ⟨.redis (.hset key fields), .ok _⟩ =>
    some (id, wrote || decide (key = sessionKey id ∧ fields = [("status", statusClosed)]))
  | found, _ => found

/-- The session that a call has found its room code to be mapped to. -/
def foundOf (past : List (Event backend)) : Option String :=
  (past.foldl closingOf none).map Prod.fst

/-- What is noted as written was written. -/
theorem saw_of_closingOf {past : List (Event backend)}
    (noted : past.foldl closingOf none = some (id, true)) :
    Saw past (.redis (Op.writeStatus id statusClosed).cmd) (.ok ()) := by
  induction past using List.reverseRecOn with
  | nil => cases noted
  | append_singleton past e ih =>
    rw [List.foldl_append, List.foldl_cons, List.foldl_nil] at noted
    generalize before : past.foldl closingOf none = found at noted ih
    unfold closingOf at noted
    split at noted
    · cases noted
    · next id' wrote key fields r =>
      obtain ⟨rfl, written⟩ := Prod.mk.inj (Option.some.inj noted)
      rcases Bool.or_eq_true_iff.mp written with earlier | now
      · refine List.mem_append_left _ (ih ?_)
        rw [earlier]
      · obtain ⟨rfl, rfl⟩ := of_decide_eq_true now
        exact List.mem_append_right _ (List.mem_singleton.mpr rfl)
    · exact List.mem_append_left _ (ih noted)

/-- A close that has succeeded wrote the status of the session it found. -/
@[reducible] def Backend.closings (b : Backend) : Contract (b.system noFaults) where
  Expects e := e.cmd.Succeeds e.reply ∧ e.cmd.Sound e.reply
  Allows _ _ _ := True
  Post call result past := ∀ req id, call = .closeSession req → result = .close (.ok ⟨true⟩) →
    foundOf past = some id →
      isUuid id = true ∧ Saw past (.redis (Op.writeStatus id statusClosed).cmd) (.ok ())

/-- The logic of closings. -/
abbrev closingLogic (b : Backend) : Logic backend :=
  ghostLogic b.closings.Expects closingOf fun _ _ => True

theorem answers_closing {found : Option (String × Bool)} {c : Redis.Cmd}
    {P : c.Reply → Option (String × Bool) → Prop}
    (next : ∀ v, c.Sound v → P v (closingOf found ⟨.redis c, .ok v⟩)) :
    (closingLogic b).Answers found c P :=
  answers_ghost (fun _ expected => expected.1) trivial fun v expected => next v expected.2

/-- A teardown writes no hash. -/
theorem wp_deleteRoom_closing (found : String × Bool) :
    (b.server.deleteRoom id).wp (closingLogic b) (fun _ noted => noted = some found)
      (some found) := by
  have away : ∀ c,
      (∃ ingressID, c = Cmd.deleteIngress ingressID) ∨ (∃ room, c = Cmd.deleteRoom room) →
      (closingLogic b).Call (some found) c fun _ noted => noted = some found := by
    intro c kind
    rcases kind with ⟨_, rfl⟩ | ⟨_, rfl⟩
    · exact ghostLogic_call.mpr ⟨trivial, fun _ _ => rfl⟩
    · exact ghostLogic_call.mpr ⟨trivial, fun _ _ => rfl⟩
  rw [Server.deleteRoom, Prog.wp_bind]
  refine wp_getIngressIDs (answers_closing ?_)
  intro ids _
  dsimp only
  rw [Prog.wp_bind]
  refine Prog.wp_mono (Prog.Issues.wp (J := fun noted => noted = some found)
    (issues_deleteIngresses (P := fun c => ∃ ingressID, c = .deleteIngress ingressID)
      fun ingressID _ => ⟨ingressID, rfl⟩) ?_ rfl) ?_
  · intro noted c same kind
    subst same
    exact away c (.inl kind)
  · intro errs noted same
    subst same
    rw [finishRoom]
    refine (away (.deleteRoom id) (.inr ⟨id, rfl⟩)).mono ?_
    intro reply noted same
    cases reply <;> exact same

theorem wp_closeSession_closing {req : CloseSessionRequest} :
    (b.server.closeSession req).wp (closingLogic b) (fun reply noted => reply = .ok ⟨true⟩ →
      ∃ id, isUuid id = true ∧ noted = some (id, true)) none := by
  have failed : ∀ {status : Status} {P : Prop},
      (Except.error status : Except Status CloseSessionReply) = .ok ⟨true⟩ → P := by
    intro status P impossible
    cases impossible
  rw [Server.closeSession]
  split; · exact failed
  split; · exact failed
  rw [Prog.wp_bind]
  refine wp_getSessionByRoomCode (answers_closing ?_)
  intro mapped sound
  cases mapped with
  | none => exact failed
  | some id =>
    have uuid : isUuid id = true := sound req.roomCode rfl id rfl
    refine answers_closing ?_
    intro h read
    cases parsed : parseSession h with
    | error err => exact failed
    | ok session =>
      have own : session.id = id := id_of_sound uuid read parsed
      subst own
      dsimp only
      split; · exact failed
      rw [Prog.wp_bind]
      refine Prog.wp_mono (wp_deleteRoom_closing (session.id, false)) ?_
      intro _ noted same
      subst same
      rw [Prog.wp_bind]
      refine wp_updateSessionStatus (answers_closing ?_)
      intro exists_ _
      cases exists_ with
      | false => exact failed
      | true =>
        refine answers_closing ?_
        intro _ _
        rw [if_pos (show "closed" = statusClosed from rfl)]
        refine answers_closing ?_
        intro _ _
        have noted : closingOf (some (session.id, false))
            ⟨.redis (.hset (sessionKey session.id) [("status", "closed")]), .ok ()⟩ =
              some (session.id, true) := by
          simp [closingOf, statusClosed]
        refine ghostLogic_call.mpr ⟨trivial, ?_⟩
        intro _ _ _
        exact ⟨session.id, uuid, noted⟩

theorem covers_closings (call : Call) : b.closings.Covers call := by
  have hist : (b.code call).wp (closingLogic b) (fun result noted => ∀ req id,
      call = .closeSession req → result = .close (.ok ⟨true⟩) → noted.map Prod.fst = some id →
        isUuid id = true ∧ noted = some (id, true))
      (([] : List (Event backend)).foldl closingOf none) := by
    cases call with
    | closeSession req =>
      refine Prog.wp_bind.mpr (Prog.wp_mono wp_closeSession_closing ?_)
      intro reply noted wrote req' id _ succeeded found
      obtain ⟨id', uuid, rfl⟩ := wrote (Result.close.inj succeeded)
      cases found
      exact ⟨uuid, rfl⟩
    | _ =>
      refine Prog.wp_of_forall (fun _ _ => trivial) ?_
      intro result noted req id impossible
      cases impossible
  refine Prog.wp_mono (Prog.wp_of_ghost hist) ?_
  intro result past holds req id same succeeded found
  obtain ⟨uuid, noted⟩ := holds req id same succeeded found
  exact ⟨uuid, saw_of_closingOf noted⟩

/-- A close that has returned success has written the status of its session. -/
theorem closing_of_returned (reach : Pool.Reach Apart (b.idle noFaults now rand) s)
    (member : t ∈ s.threads) {req : CloseSessionRequest} (call : t.call = .closeSession req)
    (returned : t.prog = .done (.close (.ok ⟨true⟩))) (found : foundOf t.past = some id) :
    Closing s id := by
  have typed : Typed (b.idle noFaults now rand).world.redis := typed_empty
  have follows : ∀ t ∈ s.threads, b.closings.Follows t ∧ b.closings.Kept t := by
    refine (Pool.Reach.contract (C := b.closings) (I := fun _ => True) trivial rfl
      (fun _ call _ => covers_closings call) (fun _ _ _ _ _ => trivial) ?_
      (fun _ _ _ _ _ _ _ => trivial) reach).2
    intro s i t c k r world reached _ _ _ at_ next _ exec
    obtain ⟨typed', issued⟩ := reach_issued typed rfl reached at_ next
    exact ⟨⟨succeeds_of_exec typed' issued exec, (typed_exec typed' issued exec).1⟩, trivial⟩
  obtain ⟨uuid, saw⟩ := (follows t member).1.post returned req id call rfl found
  exact ⟨uuid, t, member, saw⟩

/-- In every state that moves under `G` reach: when a close of a session has returned success and no
call is in flight, no ingress of the session is alive; and no access to a session is granted once
its status was written. -/
def LeavesNothing (G : Pool (b.system noFaults) → Move (b.system noFaults) → Prop)
    (s₀ : Pool (b.system noFaults)) : Prop :=
  ∀ s, Pool.Reach G s₀ s →
    (s.Quiet → ∀ t ∈ s.threads, ∀ req id, t.call = .closeSession req →
      t.prog = .done (.close (.ok ⟨true⟩)) → foundOf t.past = some id →
        ∀ ingress, ¬ AliveIn s.world id ingress) ∧
    ∀ i e s' id userID role, G s (.exec i e) → Pool.Step s (.exec i e) s' →
      e.cmd = .redis (Op.writeRole id userID role).cmd → ¬ Closing s id

end Teardown

/-- **A closed session leaves nothing behind**, as long as no join overlaps the teardown of its
session. -/
theorem closed_leaves_nothing (b : Backend) (now : Nat) (rand : Nat → Nat) :
    LeavesNothing Apart (b.idle noFaults now rand) := by
  intro s reach
  have requests : ∀ s m, Apart (b := b) s m → RequestsOnly s m := fun _ _ apart => apart.1
  have orderly := reach_orderly reach
  constructor
  · intro quiet t member req id call returned found ingress alive
    have closing := closing_of_returned reach member call returned found
    obtain ⟨t', member', undoes⟩ := orderly.undone id closing ingress alive
    obtain ⟨result, returned'⟩ := (quiet t' member').exists_eq
    obtain ⟨follows, _⟩ := reach_stages typed_empty rfl requests reach t' member'
    exact Stage.Undoes.of_settled (follows.post returned').1 undoes
  · intro i e s' id userID role apart step granting closing
    cases step with
    | exec at_ next exec =>
      obtain ⟨_, acts⟩ := reach_acts typed_empty rfl requests reach at_ next exec
      have ungranted := (orderly.ungranted id closing _ (List.mem_of_getElem? at_)).1
      exact ungranted (grants_of_writeRole closing.1 acts granting)

namespace Sample

def ingress₁ : IngressInfo := ⟨"IN_1", "https://whip", "key-1"⟩

/-- A camera finds the session open; the owner closes it; then the camera goes on. -/
noncomputable def joinedLate : Option (Pool (system .never)) :=
  replay isRequest
    (.start (.createSession ⟨"alice", 2⟩) :: go 0 (create id₁) ++
      .start (.joinSession ⟨"ROOM-000007", "bob", "camera"⟩) :: go 1 [.plain, .plain] ++
      .start (.closeSession ⟨"ROOM-000007", "alice"⟩) :: go 2 (List.replicate 8 .plain) ++
      go 1 (.ingress ingress₁ :: List.replicate 6 .plain))
    (start .never 7)

/-- The call is a close that returned success. -/
def isClosed (t : Thread (system F)) : Bool :=
  match t.call, t.prog with
  | .closeSession _, .done (.close (.ok ⟨true⟩)) => true
  | _, _ => false

end Sample

/-- A camera that found the session open before a close leaves its ingress alive after it. -/
theorem closed_leaves_ingress : ¬ LeavesNothing RequestsOnly (Sample.start .never 7) := by
  intro leaves
  have observed : (Sample.joinedLate.any fun s =>
      ((s.threads.all fun t => decide t.prog.Returned) &&
        s.threads.any fun t => Sample.isClosed t && decide (foundOf t.past = some Sample.id₁)) &&
      (decide (s.world.livekit.rooms "IN_1" = some Sample.id₁) &&
        decide ("IN_1" ∈ s.world.livekit.alive))) = true := by
    decide +kernel
  obtain ⟨s, computed, observed⟩ := (Option.any_eq_true _ _).mp observed
  obtain ⟨calls, alive⟩ := Bool.and_eq_true_iff.mp observed
  obtain ⟨returned, closed⟩ := Bool.and_eq_true_iff.mp calls
  obtain ⟨room, member⟩ := Bool.and_eq_true_iff.mp alive
  have quiet : s.Quiet := by
    intro t member
    exact of_decide_eq_true (List.all_eq_true.mp returned t member)
  have reach := (Sample.reach_of_replay computed).mono fun _ _ => Sample.requestsOnly_of_isRequest
  obtain ⟨t, inPool, observed⟩ := List.any_eq_true.mp closed
  obtain ⟨succeeded, found⟩ := Bool.and_eq_true_iff.mp observed
  unfold Sample.isClosed at succeeded
  split at succeeded
  · next req call returned =>
    exact (leaves s reach).1 quiet t inPool req Sample.id₁ call returned (of_decide_eq_true found)
      "IN_1" ⟨of_decide_eq_true room, of_decide_eq_true member⟩
  · cases succeeded

end DirectLink
