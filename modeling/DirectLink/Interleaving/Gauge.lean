import DirectLink.Interleaving.Traces
import DirectLink.Runs
import Mathlib.Algebra.BigOperators.Ring.Finset
import Mathlib.Algebra.Order.BigOperators.Group.List
import Mathlib.Data.Set.Card

/-!
# The gauge of active sessions

`CreateSession` increments the gauge some commands after it has stored the session, and a close or
a sweep decrements it some commands after it has written the status.  As long as every status write
meets an active session, the gauge and what the calls in flight still owe it make up the number of
active sessions.
-/

namespace DirectLink

open RedisStore

namespace Stage

/-- What a call will still add to the gauge. -/
def owed : Stage → Int
  | written _ | dated _ | published _ => 1
  | closed _ _ => -1
  | _ => 0

/-- The session of a creation that has stored it and not counted it yet. -/
def uncounted? : Stage → Option String
  | written session | dated session | published session => some session.id
  | _ => none

/-- The status of the session is written and the gauge not decremented yet. -/
def closes (id : String) : Stage → Nat
  | closed id' _ => if id' = id then 1 else 0
  | _ => 0

/-- The creation has incremented the gauge. -/
def counts? : Stage → Option String
  | counted session | vouched session | finished session => some session.id
  | _ => none

variable {call : Call} {stage : Stage} {e : Event backend} {id : String}

theorem building_of_next {new : Session} (after : stage.next call e = building new) :
    stage = building new ∨ new.status = "active" := by
  unfold next opened created at after
  repeat' split at after
  all_goals simp only [reduceCtorEq, building.injEq] at after
  all_goals subst after
  all_goals first
    | exact .inl rfl
    | exact .inr rfl

theorem closed_of_next {found : List String} (after : stage.next call e = closed id found) :
    stage = closed id found ∨
      stage = confirmed id found ∧ ∃ key fields r, e = ⟨.redis (.hset key fields), r⟩ := by
  unfold next opened created at after
  repeat' split at after
  all_goals simp only [reduceCtorEq, closed.injEq] at after
  all_goals obtain ⟨rfl, rfl⟩ := after
  all_goals first
    | exact .inl rfl
    | exact .inr ⟨rfl, _, _, _, rfl⟩

/-- The stages at which a hash is written. -/
theorem hset_of_issues {ttl : Nat} {key : String} {fields : List (String × String)}
    (issued : stage.Issues ttl (.redis (.hset key fields))) :
    (∃ new, stage = building new) ∨ (∃ id found, stage = confirmed id found ∧ key = sessionKey id) ∨
      (∃ new, stage = vouched new) ∨ ∃ id ingress, stage = granting id ingress := by
  obtain ⟨op, wf, same, permitted⟩ := issued
  cases op
  case writeSession new => exact .inl ⟨new, permitted⟩
  case writeStatus id status =>
    obtain ⟨_, found, at_stage⟩ := permitted
    cases same
    exact .inr (.inl ⟨id, found, at_stage, rfl⟩)
  case writeRole id user role =>
    rcases permitted with ⟨new, at_stage, _⟩ | ⟨ingress, at_stage⟩
    · exact .inr (.inr (.inl ⟨new, at_stage⟩))
    · exact .inr (.inr (.inr ⟨id, ingress, at_stage⟩))
  all_goals cases same

theorem uncounted_of_next (after : (stage.next call e).uncounted? = some id) :
    stage.uncounted? = some id ∨ ∃ new, stage = building new ∧ new.id = id := by
  unfold next opened created at after
  repeat' split at after
  all_goals simp only [uncounted?, Option.some.injEq, reduceCtorEq] at after
  all_goals subst after
  all_goals first
    | exact .inl rfl
    | exact .inr ⟨_, rfl, rfl⟩

theorem uuid_of_uncounted (has : stage.uncounted? = some id) : stage.uuid? = some id := by
  cases stage <;> simp_all [uncounted?, uuid?]

theorem uuid_of_counts (has : stage.counts? = some id) : stage.uuid? = some id := by
  cases stage <;> simp_all [counts?, uuid?]

/-- A creation that has counted its session owes nothing. -/
theorem uncounted_of_counts (has : stage.counts? = some id) : stage.uncounted? = none := by
  cases stage <;> simp_all [counts?, uncounted?]

/-- Only a creation still to count its session owes the gauge an increment. -/
theorem owed_le (stage : Stage) : stage.owed ≤ if stage.uncounted?.isSome then 1 else 0 := by
  cases stage <;> simp [owed, uncounted?]

theorem sum_owed_le (stages : List Stage) :
    (stages.map owed).sum ≤ ((stages.filterMap uncounted?).length : Int) := by
  induction stages with
  | nil => exact Int.le_refl 0
  | cons stage stages ih =>
    have head := stage.owed_le
    rw [List.map_cons, List.sum_cons]
    cases has : stage.uncounted? with
    | none =>
      rw [has, if_neg (by decide)] at head
      rw [List.filterMap_cons_none has]
      omega
    | some id =>
      rw [has, Option.isSome_some, if_pos rfl] at head
      rw [List.filterMap_cons_some has, List.length_cons]
      omega

/-- Where nothing is left undone, nothing is owed. -/
theorem Settled.owed (settled : stage.Settled) : stage.owed = 0 := by
  cases stage <;> first | rfl | exact settled.elim

/-- What is owed changes only with the commands that settle it or make it due. -/
theorem owed_next (noSet : ∀ key fields r, e ≠ ⟨.redis (.hset key fields), r⟩)
    (noInc : ∀ r, e ≠ ⟨.metric .sessionsActiveInc, r⟩)
    (noDec : ∀ r, e ≠ ⟨.metric .sessionsActiveDec, r⟩) :
    (stage.next call e).owed = stage.owed ∧
      (stage.next call e).uncounted? = stage.uncounted? ∧
        ∀ id, (stage.next call e).closes id = stage.closes id := by
  unfold next opened created
  repeat' split
  all_goals first
    | exact ⟨rfl, rfl, fun _ => rfl⟩
    | exact absurd rfl (noSet _ _ _)
    | exact absurd rfl (noInc _)
    | exact absurd rfl (noDec _)

end Stage

/-- An event in the account of one session key: whether the hash written last is the one of the
key, and how often the gauge was decremented then. -/
def account (key : String) (tally : Bool × Nat) (e : Event backend) : Bool × Nat :=
  match e with
  | ⟨.redis (.hset key' _), _⟩ => (decide (key' = key), tally.2)
  | ⟨.metric .sessionsActiveDec, _⟩ => (tally.1, tally.2 + if tally.1 then 1 else 0)
  | _ => tally

/-- How often a call decremented the gauge after it wrote the status of the session. -/
def decrements (id : String) (past : List (Event backend)) : Nat :=
  (past.foldl (account (sessionKey id)) (false, 0)).2

/-- The sessions stored as active. -/
def activeIds (db : Redis.Db) : Set String :=
  {id | isUuid id = true ∧ statusOf db id = some "active"}

section Gauge

variable {b : Backend} {s : Pool (b.system noFaults)} {ttl : Nat}

/-- A status is written only to a session that is stored as active. -/
def ClosesActive (s : Pool (b.system noFaults)) : Move (b.system noFaults) → Prop
  | .exec _ e => ∀ id status, e.cmd = .redis (Op.writeStatus id status).cmd →
      statusOf s.world.redis id = some "active"
  | _ => True

/-- A status is written only to a session whose creation has incremented the gauge. -/
def ClosesCounted (s : Pool (b.system noFaults)) : Move (b.system noFaults) → Prop
  | .exec _ e => ∀ id status, e.cmd = .redis (Op.writeStatus id status).cmd →
      ∃ t ∈ s.threads, t.stage.counts? = some id
  | _ => True

/-- No key expires. -/
def NothingExpires (s : Pool (b.system noFaults)) : Move (b.system noFaults) → Prop
  | .tick now => s.world.redis.expire now = s.world.redis
  | _ => True

/-- Requests and sweeps, and no key expires. -/
def Lasting (s : Pool (b.system noFaults)) (m : Move (b.system noFaults)) : Prop :=
  RequestsOnly s m ∧ NothingExpires s m

/-- The gauge is exact when no call is in flight, and no session decrements it twice. -/
def GaugeExact (G : Pool (b.system noFaults) → Move (b.system noFaults) → Prop)
    (s₀ : Pool (b.system noFaults)) : Prop :=
  ∀ s, Pool.Reach G s₀ s →
    (s.Quiet → s.world.metrics.sessionsActive = (activeIds s.world.redis).ncard) ∧
      ∀ id, isUuid id = true → (s.threads.map fun t => decrements id t.past).sum ≤ 1

/-- The gauge is never negative. -/
def GaugeNonneg (G : Pool (b.system noFaults) → Move (b.system noFaults) → Prop)
    (s₀ : Pool (b.system noFaults)) : Prop :=
  ∀ s, Pool.Reach G s₀ s → 0 ≤ s.world.metrics.sessionsActive

variable {t : Thread (b.system noFaults)} {id : String}

/-- The active sessions are among those that were created. -/
theorem finite_activeIds (traced : Traced ttl s) : (activeIds s.world.redis).Finite := by
  refine Set.Finite.subset (List.finite_toSet (s.threads.filterMap fun t => t.stage.uuid?)) ?_
  intro id active
  obtain ⟨uuid, status⟩ := active
  obtain ⟨t, member, session, stored, rfl⟩ := traced.hash id uuid (stored_of_status status)
  exact List.mem_filterMap.mpr ⟨t, member, uuid_of_stored stored⟩

/-! ### The sessions stored as active -/

theorem activeIds_writeSession {now : Nat} {db : Redis.Db} {new : Session}
    (wf : (Op.writeSession new).Wf) (active : new.status = "active") :
    activeIds ((Op.writeSession new).apply now db) = insert new.id (activeIds db) := by
  ext id
  simp only [activeIds, Set.mem_insert_iff, Set.mem_ofPred_eq]
  constructor
  · intro member
    obtain ⟨uuid, status⟩ := member
    rw [statusOf_writeSession wf uuid] at status
    by_cases same : id = new.id
    · exact .inl same
    · rw [if_neg same] at status
      exact .inr ⟨uuid, status⟩
  · intro member
    have uuid : isUuid id = true := by
      rcases member with rfl | old
      · exact wf
      · exact old.1
    refine ⟨uuid, ?_⟩
    rw [statusOf_writeSession wf uuid]
    by_cases same : id = new.id
    · rw [if_pos same, active]
    · rw [if_neg same]
      exact (member.resolve_left same).2

theorem activeIds_writeStatus {now : Nat} {db : Redis.Db} {id : String}
    (wf : (Op.writeStatus id statusClosed).Wf) :
    activeIds ((Op.writeStatus id statusClosed).apply now db) = activeIds db \ {id} := by
  ext id'
  simp only [activeIds, Set.mem_sdiff, Set.mem_singleton_iff, Set.mem_ofPred_eq]
  constructor
  · intro member
    obtain ⟨uuid, status⟩ := member
    rw [statusOf_writeStatus wf uuid] at status
    by_cases same : id' = id
    · rw [if_pos same] at status
      exact absurd (Option.some.inj status) (by decide)
    · rw [if_neg same] at status
      exact ⟨⟨uuid, status⟩, same⟩
  · intro member
    obtain ⟨⟨uuid, status⟩, other⟩ := member
    rw [statusOf_writeStatus wf uuid, if_neg other]
    exact ⟨uuid, status⟩

theorem activeIds_same {db db' : Redis.Db}
    (same : ∀ id, isUuid id = true → statusOf db' id = statusOf db id) :
    activeIds db' = activeIds db := by
  ext id
  simp only [activeIds, Set.mem_ofPred_eq]
  constructor
  · intro member
    rw [same id member.1] at member
    exact member
  · intro member
    rw [← same id member.1] at member
    exact member

/-! ### What the events of one call say -/

theorem active_of_building {call : Call} {past : List (Event backend)} {new : Session}
    (building : stageOf call past = .building new) : new.status = "active" := by
  induction past using List.reverseRecOn with
  | nil => cases building
  | append_singleton past e ih =>
    rw [stageOf_append] at building
    rcases Stage.building_of_next building with before | active
    · exact ih before
    · exact active

/-- A call that is to decrement the gauge wrote the status of its session last. -/
theorem account_of_closed {call : Call} {past : List (Event backend)} {found : List String}
    (key : String)
    (issued : ∀ pre (e : Event backend) post, past = pre ++ e :: post →
      (stageOf call pre).Issues ttl e.cmd)
    (closed : stageOf call past = .closed id found) :
    (past.foldl (account key) (false, 0)).1 = decide (sessionKey id = key) := by
  induction past using List.reverseRecOn with
  | nil => cases closed
  | append_singleton past e ih =>
    have issued' : (stageOf call past).Issues ttl e.cmd := issued past e [] rfl
    have earlier : ∀ pre (e' : Event backend) post, past = pre ++ e' :: post →
        (stageOf call pre).Issues ttl e'.cmd := by
      intro pre e' post split
      refine issued pre e' (post ++ [e]) ?_
      rw [split, List.append_assoc, List.cons_append]
    rw [stageOf_append] at closed
    rw [List.foldl_append, List.foldl_cons, List.foldl_nil]
    rcases Stage.closed_of_next closed with before | ⟨confirmed, key', fields, r, rfl⟩
    · have kept : ∀ tally, (account key tally e).1 = tally.1 := by
        intro tally
        unfold account
        split
        · rw [before] at issued'
          rcases Stage.hset_of_issues issued' with ⟨_, other⟩ | ⟨_, _, other, _⟩ | ⟨_, other⟩ |
            ⟨_, _, other⟩ <;> cases other
        · rfl
        · rfl
      rw [kept]
      exact ih earlier before
    · rw [confirmed] at issued'
      rcases Stage.hset_of_issues issued' with ⟨_, other⟩ | ⟨_, _, same, rfl⟩ | ⟨_, other⟩ |
        ⟨_, _, other⟩
      · cases other
      · cases same
        rfl
      · cases other
      · cases other

/-! ### The balance -/

/-- The gauge, the calls in flight and the sessions stored as active agree, and so do the decrements
of each session, made or due, and its status. -/
structure Balanced (s : Pool (b.system noFaults)) : Prop where
  gauge : s.world.metrics.sessionsActive + (s.threads.map fun t => t.stage.owed).sum =
    (activeIds s.world.redis).ncard
  closings : ∀ id, isUuid id = true →
    (s.threads.map fun t => (decrements id t.past + t.stage.closes id : Int)).sum =
      if statusOf s.world.redis id = some statusClosed then 1 else 0

theorem balanced_idle {now : Nat} {rand : Nat → Nat} : Balanced (b.idle noFaults now rand) where
  gauge := by
    have none_ : activeIds (World.empty now rand).redis = ∅ := by
      ext id
      simp only [activeIds, Set.mem_ofPred_eq, Set.mem_empty_iff_false, iff_false, not_and]
      intro _ status
      cases status
    change (0 : Int) + 0 = ((activeIds (World.empty now rand).redis).ncard : Int)
    rw [none_, Set.ncard_empty]
    rfl
  closings id _ := by
    have status : statusOf (World.empty now rand).redis id ≠ some statusClosed := by
      intro impossible
      cases impossible
    exact (if_neg status).symm

theorem Balanced.start {call : Call} (balanced : Balanced s) :
    Balanced (⟨s.world, s.threads ++ [⟨call, [], b.code call⟩]⟩ : Pool (b.system noFaults)) where
  gauge := by
    rw [Pool.sum_start]
    have owed : (⟨call, [], b.code call⟩ : Thread (b.system noFaults)).stage.owed = 0 := rfl
    rw [owed, Int.add_zero]
    exact balanced.gauge
  closings id uuid := by
    rw [Pool.sum_start]
    have nothing : decrements id ([] : List (Event backend)) = 0 := rfl
    have closes : (⟨call, [], b.code call⟩ : Thread (b.system noFaults)).stage.closes id = 0 := rfl
    rw [closes]
    dsimp only
    rw [nothing]
    exact (Int.add_zero _).trans (balanced.closings id uuid)

theorem Balanced.tick {now : Nat} (balanced : Balanced s)
    (lasting : s.world.redis.expire now = s.world.redis) :
    Balanced (⟨s.world.at_ now, s.threads⟩ : Pool (b.system noFaults)) where
  gauge := by
    rw [World.at_redis, lasting]
    exact balanced.gauge
  closings id uuid := by
    rw [World.at_redis, lasting]
    exact balanced.closings id uuid

section Exec

variable {i : Nat} {e : Event backend} {world : World} {prog : Go Result}

theorem decrements_append {past : List (Event backend)} :
    decrements id (past ++ [e]) =
      (account (sessionKey id) (past.foldl (account (sessionKey id)) (false, 0)) e).2 := by
  rw [decrements, List.foldl_append, List.foldl_cons, List.foldl_nil]

/-- The balance after a move, from what the move changes. -/
theorem Balanced.exec_change (balanced : Balanced s) (at_ : s.threads[i]? = some t)
    (gauge : world.metrics.sessionsActive + (t.stage.next t.call e).owed - t.stage.owed =
      s.world.metrics.sessionsActive + (activeIds world.redis).ncard -
        (activeIds s.world.redis).ncard)
    (closings : ∀ id, isUuid id = true →
      (decrements id (t.past ++ [e]) + (t.stage.next t.call e).closes id : Int) +
        (if statusOf s.world.redis id = some statusClosed then 1 else 0) =
      decrements id t.past + t.stage.closes id +
        if statusOf world.redis id = some statusClosed then 1 else 0) :
    Balanced (s.advance i t e world prog) where
  gauge := by
    rw [Pool.sum_advance _ at_, Pool.advance_world, stage_moved]
    have before := balanced.gauge
    omega
  closings id uuid := by
    rw [Pool.sum_advance _ at_, Pool.advance_world, stage_moved]
    dsimp only
    have before := balanced.closings id uuid
    have change := closings id uuid
    omega

/-- The balance after a move that changes no status, no gauge and nothing owed. -/
theorem Balanced.exec_same (balanced : Balanced s) (at_ : s.threads[i]? = some t)
    (noSet : ∀ key fields r, e ≠ ⟨.redis (.hset key fields), r⟩)
    (noInc : ∀ r, e ≠ ⟨.metric .sessionsActiveInc, r⟩)
    (noDec : ∀ r, e ≠ ⟨.metric .sessionsActiveDec, r⟩)
    (metrics : world.metrics.sessionsActive = s.world.metrics.sessionsActive)
    (status : ∀ id, isUuid id = true → statusOf world.redis id = statusOf s.world.redis id) :
    Balanced (s.advance i t e world prog) := by
  refine balanced.exec_change at_ ?_ ?_
  · rw [metrics, activeIds_same status, (Stage.owed_next noSet noInc noDec).1]
    omega
  · intro id uuid
    have count : decrements id (t.past ++ [e]) = decrements id t.past := by
      rw [decrements_append, decrements]
      unfold account
      split
      · exact absurd rfl (noSet _ _ _)
      · exact absurd rfl (noDec _)
      · rfl
    rw [count, (Stage.owed_next noSet noInc noDec).2.2, status id uuid]

/-- An event that is no decrement changes no count. -/
theorem decrements_same {past : List (Event backend)}
    (noDec : ∀ r, e ≠ ⟨.metric .sessionsActiveDec, r⟩) :
    decrements id (past ++ [e]) = decrements id past := by
  rw [decrements_append, decrements]
  unfold account
  split
  · rfl
  · exact absurd rfl (noDec _)
  · rfl

theorem no_metric_of_op {op : Op} {m : MetricOp} {reply : Except Err op.cmd.Reply} {r : Unit} :
    (⟨.redis op.cmd, reply⟩ : Event backend) ≠ ⟨.metric m, r⟩ := by
  intro same
  cases congrArg Event.cmd same

/-- A creation stores its session as active. -/
theorem Balanced.exec_writeSession (balanced : Balanced s) (traced : Traced ttl s)
    (once : CreatedOnce s) (at_ : s.threads[i]? = some t) {new : Session}
    (wf : (Op.writeSession new).Wf) (building : t.stage = .building new)
    (answered : e = ⟨.redis (Op.writeSession new).cmd, .ok ()⟩)
    (after : world = s.world.after (.writeSession new)) :
    Balanced (s.advance i t e world prog) := by
  have self := List.mem_of_getElem? at_
  have active := active_of_building building
  have unstored : statusOf s.world.redis new.id = none := by
    cases status : statusOf s.world.redis new.id with
    | none => rfl
    | some _ =>
      obtain ⟨t', member', other, stored, own⟩ := traced.hash new.id wf (stored_of_status status)
      have has : t'.stage.uuid? = some new.id := by rw [uuid_of_stored stored, own]
      have same := once t' member' t self new.id has (by rw [building]; rfl)
      rw [same, building] at stored
      cases stored
  have moved : t.stage.next t.call e = .written new := by
    rw [building, answered]
    rfl
  refine balanced.exec_change at_ ?_ ?_
  · have fresh : new.id ∉ activeIds s.world.redis := by
      intro member
      rw [member.2] at unstored
      cases unstored
    have more := Set.ncard_insert_of_notMem fresh (finite_activeIds traced)
    rw [moved, building, after, World.after_metrics, World.after_redis,
      activeIds_writeSession wf active, more]
    simp only [Stage.owed]
    omega
  · intro id uuid
    have noDec : ∀ r, e ≠ ⟨.metric .sessionsActiveDec, r⟩ := by
      intro r
      rw [answered]
      exact no_metric_of_op
    rw [decrements_same noDec, moved, building, after, World.after_redis,
      statusOf_writeSession wf uuid]
    by_cases same : id = new.id
    · rw [same, unstored, if_pos rfl, active, if_neg (by simp), if_neg (by decide)]
      rfl
    · rw [if_neg same]
      rfl

/-- A close or a sweep writes the status of an active session. -/
theorem Balanced.exec_writeStatus (balanced : Balanced s) (traced : Traced ttl s)
    (at_ : s.threads[i]? = some t) {found : List String}
    (wf : (Op.writeStatus id statusClosed).Wf) (confirmed : t.stage = .confirmed id found)
    (answered : e = ⟨.redis (Op.writeStatus id statusClosed).cmd, .ok ()⟩)
    (after : world = s.world.after (.writeStatus id statusClosed))
    (active : statusOf s.world.redis id = some "active") :
    Balanced (s.advance i t e world prog) := by
  have moved : t.stage.next t.call e = .closed id found := by
    rw [confirmed, answered]
    rfl
  refine balanced.exec_change at_ ?_ ?_
  · have member : id ∈ activeIds s.world.redis := ⟨wf, active⟩
    have fewer := Set.ncard_sdiff_singleton_add_one member (finite_activeIds traced)
    rw [moved, confirmed, after, World.after_metrics, World.after_redis, activeIds_writeStatus wf]
    simp only [Stage.owed]
    omega
  · intro id' uuid
    have noDec : ∀ r, e ≠ ⟨.metric .sessionsActiveDec, r⟩ := by
      intro r
      rw [answered]
      exact no_metric_of_op
    rw [decrements_same noDec, moved, confirmed, after, World.after_redis,
      statusOf_writeStatus wf uuid]
    by_cases same : id' = id
    · rw [same, active, if_pos rfl, if_pos rfl, if_neg (by decide)]
      simp only [Stage.closes, if_pos]
      omega
    · rw [if_neg same]
      simp only [Stage.closes]
      rw [if_neg fun eq => same eq.symm]

/-- An entry of an access list is no status. -/
theorem Balanced.exec_writeRole (balanced : Balanced s) (at_ : s.threads[i]? = some t)
    {userID role : String} (wf : (Op.writeRole id userID role).Wf)
    (permitted : t.stage.Permits ttl (.writeRole id userID role))
    (answered : e = ⟨.redis (Op.writeRole id userID role).cmd, .ok ()⟩)
    (after : world = s.world.after (.writeRole id userID role)) :
    Balanced (s.advance i t e world prog) := by
  have status : ∀ id', isUuid id' = true →
      statusOf world.redis id' = statusOf s.world.redis id' := by
    intro id' uuid
    rw [after, World.after_redis]
    refine statusOf_same wf uuid ?_ ?_ ?_
    all_goals
      intros
      intro impossible
      cases impossible
  have owed : (t.stage.next t.call e).owed = t.stage.owed ∧
      ∀ id', (t.stage.next t.call e).closes id' = t.stage.closes id' := by
    rw [answered]
    rcases permitted with ⟨new, vouched, _⟩ | ⟨ingress, granting⟩
    · rw [vouched]
      exact ⟨rfl, fun _ => rfl⟩
    · rw [granting]
      exact ⟨rfl, fun _ => rfl⟩
  have noDec : ∀ r, e ≠ ⟨.metric .sessionsActiveDec, r⟩ := by
    intro r
    rw [answered]
    exact no_metric_of_op
  refine balanced.exec_change at_ ?_ ?_
  · rw [after, World.after_metrics, ← after, activeIds_same status, owed.1]
    omega
  · intro id' uuid
    rw [decrements_same noDec, owed.2, status id' uuid]

/-- A creation counts its session. -/
theorem Balanced.exec_inc (balanced : Balanced s) (at_ : s.threads[i]? = some t) {new : Session}
    {r : Unit} (published : t.stage = .published new)
    (event : e = ⟨.metric .sessionsActiveInc, r⟩)
    (after : world = { s.world with metrics := s.world.metrics.apply .sessionsActiveInc }) :
    Balanced (s.advance i t e world prog) := by
  have moved : t.stage.next t.call e = .counted new := by
    rw [published, event]
    rfl
  refine balanced.exec_change at_ ?_ ?_
  · rw [moved, published, after]
    simp only [Stage.owed, Metrics.apply]
    omega
  · intro id uuid
    have noDec : ∀ r, e ≠ ⟨.metric .sessionsActiveDec, r⟩ := by
      intro r
      rw [event]
      intro impossible
      cases congrArg Event.cmd impossible
    rw [decrements_same noDec, moved, published, after]
    rfl

/-- A close or a sweep takes its session off the gauge. -/
theorem Balanced.exec_dec (balanced : Balanced s) (at_ : s.threads[i]? = some t)
    {closedId : String} {found : List String} {r : Unit}
    (issued : ∀ pre (e : Event backend) post, t.past = pre ++ e :: post →
      (stageOf t.call pre).Issues ttl e.cmd)
    (closed : t.stage = .closed closedId found) (event : e = ⟨.metric .sessionsActiveDec, r⟩)
    (after : world = { s.world with metrics := s.world.metrics.apply .sessionsActiveDec }) :
    Balanced (s.advance i t e world prog) := by
  have moved : t.stage.next t.call e = .due [] found := by
    rw [closed, event]
    rfl
  refine balanced.exec_change at_ ?_ ?_
  · rw [moved, closed, after]
    simp only [Stage.owed, Metrics.apply]
    omega
  · intro id uuid
    have flag := account_of_closed (sessionKey id) issued closed
    have same : sessionKey closedId = sessionKey id ↔ closedId = id := by
      simp [sessionKey]
    have count : decrements id (t.past ++ [e]) =
        decrements id t.past + if closedId = id then 1 else 0 := by
      rw [decrements_append, decrements, event, account, flag]
      simp only [decide_eq_true_eq, same]
    rw [count, moved, closed, after]
    simp only [Stage.closes]
    split <;> simp

/-- A command that is neither one of Redis nor of the metrics leaves the metrics alone. -/
theorem metrics_of_other {w w' : World} {c : Cmd} {r : c.Reply} (away : ∀ c', c ≠ .redis c')
    (other : ∀ m, c ≠ .metric m) (performs : Performs w c r w') : w'.metrics = w.metrics := by
  cases c with
  | redis c => exact absurd rfl (away c)
  | metric m => exact absurd rfl (other m)
  | createIngress req =>
    obtain ⟨_, _, _, rfl⟩ := performs
    rfl
  | newUuid =>
    obtain ⟨_, _, rfl⟩ := performs
    rfl
  | deleteIngress | deleteRoom | timeNow | randInt | after =>
    obtain ⟨_, rfl⟩ := performs
    rfl
  | utcNow =>
    cases performs
    rfl

/-- One command of a request or a sweep keeps the balance. -/
theorem Balanced.exec (balanced : Balanced s) (traced : Traced ttl s) (once : CreatedOnce s)
    (at_ : s.threads[i]? = some t)
    (issued : ∀ pre (e : Event backend) post, t.past = pre ++ e :: post →
      (stageOf t.call pre).Issues ttl e.cmd)
    (acts : t.stage.Acts ttl s.world e world) (guard : ClosesActive s (.exec i e)) :
    Balanced (s.advance i t e world prog) := by
  cases acts with
  | op op o wf permitted answered after =>
    have noMetric : ∀ m r, e ≠ ⟨.metric m, r⟩ := by
      intro m r
      rw [answered]
      exact no_metric_of_op
    cases op
    case writeSession new =>
      exact balanced.exec_writeSession traced once at_ wf permitted answered after
    case writeStatus id status =>
      obtain ⟨rfl, found, confirmed⟩ := permitted
      have active := guard id statusClosed (by rw [answered])
      exact balanced.exec_writeStatus traced at_ wf confirmed answered after active
    case writeRole id userID role => exact balanced.exec_writeRole at_ wf permitted answered after
    case delSession => exact permitted.elim
    all_goals
      refine balanced.exec_same at_ ?_ (noMetric _) (noMetric _) (by rw [after]; rfl) ?_
      · intro key fields r impossible
        rw [answered] at impossible
        cases congrArg Event.cmd impossible
      · intro id uuid
        rw [after, World.after_redis]
        refine statusOf_same wf uuid ?_ ?_ ?_
        all_goals
          intros
          intro impossible
          cases impossible
  | other away issued performs =>
    have frame := frame_of_other away performs
    have noSet : ∀ key fields r, e ≠ ⟨.redis (.hset key fields), r⟩ := by
      intro key fields r same
      exact away _ (congrArg Event.cmd same)
    have status : ∀ id, isUuid id = true → statusOf world.redis id = statusOf s.world.redis id := by
      intro id _
      rw [frame.1]
    obtain ⟨c, r⟩ := e
    dsimp only at away issued performs
    cases c
    case redis c => exact absurd rfl (away c)
    case metric m =>
      cases m
      case sessionsActiveInc =>
        obtain ⟨new, published⟩ := issued
        exact balanced.exec_inc at_ published rfl performs
      case sessionsActiveDec =>
        obtain ⟨id, found, closed⟩ := issued
        exact balanced.exec_dec at_ ‹_› closed rfl performs
      all_goals
        refine balanced.exec_same at_ noSet ?_ ?_ (by rw [performs]; rfl) status
        all_goals
          intro r impossible
          cases congrArg Event.cmd impossible
    all_goals
      have metrics := metrics_of_other (fun _ => by simp) (fun _ => by simp) performs
      refine balanced.exec_same at_ noSet ?_ ?_ (by rw [metrics]) status
      all_goals
        intro r impossible
        cases congrArg Event.cmd impossible

end Exec

/-! ### Creations that have not counted their session -/

/-- The session of a creation that has not counted it yet is active. -/
def UncountedActive (s : Pool (b.system noFaults)) : Prop :=
  ∀ t ∈ s.threads, ∀ id, t.stage.uncounted? = some id → id ∈ activeIds s.world.redis

/-- A session stays active unless its status is written. -/
theorem mem_activeIds_apply {op : Op} {now : Nat} {db : Redis.Db} (wf : op.Wf)
    (permitted : t.stage.Permits ttl op) (building : ∀ new, op = .writeSession new →
      new.status = "active") (noStatus : ∀ status, op ≠ .writeStatus id status)
    (active : id ∈ activeIds db) : id ∈ activeIds (op.apply now db) := by
  obtain ⟨uuid, status⟩ := active
  refine ⟨uuid, ?_⟩
  rcases statusOf_apply now db wf uuid with
    same | ⟨new, rfl, _, written⟩ | ⟨status', impossible, _⟩ | rfl
  · rw [same, status]
  · rw [written, building new rfl]
  · exact absurd impossible (noStatus status')
  · exact permitted.elim

theorem UncountedActive.exec {i : Nat} {e : Event backend} {world : World} {prog : Go Result}
    (uncounted : UncountedActive s) (once : CreatedOnce s) (at_ : s.threads[i]? = some t)
    (acts : t.stage.Acts ttl s.world e world) (guard : ClosesCounted s (.exec i e)) :
    UncountedActive (s.advance i t e world prog) := by
  have self := List.mem_of_getElem? at_
  -- a creation that owes an increment did so before, or stores its session now
  have before : ∀ t' ∈ (s.advance i t e world prog).threads, ∀ id,
      t'.stage.uncounted? = some id → (∃ t₀ ∈ s.threads, t₀.stage.uncounted? = some id) ∨
        ∃ new, t.stage = .building new ∧ new.id = id ∧
          t'.stage = t.stage.next t.call e := by
    intro t' member id has
    rcases Pool.mem_advance member with old | rfl
    · exact .inl ⟨t', old, has⟩
    · rw [stage_moved] at has
      rcases Stage.uncounted_of_next has with old | ⟨new, building, own⟩
      · exact .inl ⟨t, self, old⟩
      · exact .inr ⟨new, building, own, stage_moved⟩
  intro t' member id has
  rw [Pool.advance_world]
  cases acts with
  | other away _ performs =>
    rw [(frame_of_other away performs).1]
    rcases before t' member id has with ⟨t₀, member₀, has₀⟩ | ⟨new, building, _, moved⟩
    · exact uncounted t₀ member₀ id has₀
    · rw [moved, building] at has
      dsimp only [Stage.next] at has
      split at has
      · exact absurd rfl (away _)
      · cases has
  | op op o wf permitted answered after =>
    rw [after, World.after_redis]
    rcases before t' member id has with ⟨t₀, member₀, has₀⟩ | ⟨new, building, own, moved⟩
    · refine mem_activeIds_apply wf permitted ?_ ?_ (uncounted t₀ member₀ id has₀)
      · intro new same
        subst same
        exact active_of_building permitted
      · intro status same
        subst same
        obtain ⟨t₁, member₁, counted⟩ := guard id status (by rw [answered])
        have one := once t₁ member₁ t₀ member₀ id (Stage.uuid_of_counts counted)
          (Stage.uuid_of_uncounted has₀)
        rw [one] at counted
        rw [Stage.uncounted_of_counts counted] at has₀
        cases has₀
    · have stores : op = .writeSession new := by
        rw [building] at permitted
        cases op
        case writeSession other =>
          exact congrArg Op.writeSession (Stage.building.inj permitted).symm
        all_goals simp [Stage.Permits] at permitted
      subst stores
      rw [activeIds_writeSession wf (active_of_building building), own]
      exact Set.mem_insert id _

/-- What the creations owe is no more than the active sessions. -/
theorem UncountedActive.owed_le (uncounted : UncountedActive s) (traced : Traced ttl s)
    (sole : ∀ id, s.Sole (· = ⟨Cmd.newUuid, id⟩)) :
    (s.threads.map fun t => t.stage.owed).sum ≤ (activeIds s.world.redis).ncard := by
  let ids := s.threads.filterMap fun t => t.stage.uncounted?
  have count : (s.threads.map fun t => t.stage.owed).sum ≤ (ids.length : Int) := by
    have bound := Stage.sum_owed_le (s.threads.map Thread.stage)
    rw [List.map_map, List.filterMap_map] at bound
    exact bound
  have nodup : ids.Nodup := by
    refine List.pairwise_filterMap.mpr (List.pairwise_iff_getElem.mpr ?_)
    intro i j lt lt' before id has id' has' same
    subst same
    have saw := saw_of_uuid (Stage.uuid_of_uncounted has)
    have saw' := saw_of_uuid (Stage.uuid_of_uncounted has')
    have one := sole id i j _ _ _ _ (List.getElem?_eq_getElem lt) (List.getElem?_eq_getElem lt')
      saw saw' rfl rfl
    omega
  have subset : (ids.toFinset : Set String) ⊆ activeIds s.world.redis := by
    intro id member
    obtain ⟨t, member', has⟩ := List.mem_filterMap.mp (List.mem_toFinset.mp member)
    exact uncounted t member' id has
  have le := Set.ncard_le_ncard subset (finite_activeIds traced)
  rw [Set.ncard_coe_finset, List.toFinset_card_of_nodup nodup] at le
  have length : (ids.length : Int) ≤ (activeIds s.world.redis).ncard := by exact_mod_cast le
  exact Int.le_trans count length

/-! ### Runs -/

variable {now : Nat} {rand : Nat → Nat}

/-- The gauge is balanced in every state reached by moves that write a status only to active
sessions. -/
theorem reach_balanced {G : Pool (b.system noFaults) → Move (b.system noFaults) → Prop}
    (guarded : ∀ s m, G s m → Lasting s m ∧ ClosesActive s m)
    (reach : Pool.Reach G (b.idle noFaults now rand) s) : Balanced s := by
  have requests : ∀ s m, G s m → RequestsOnly s m := fun s m guard => (guarded s m guard).1.1
  refine Pool.Reach.invariant (I := Balanced) balanced_idle ?_ reach
  intro s m s' reached balanced guard step
  obtain ⟨typed, once, traced⟩ := reach_traced requests reached
  cases step with
  | start call => exact balanced.start
  | @exec i t c k r world at_ next exec =>
    obtain ⟨_, acts⟩ := reach_acts typed_empty rfl requests reached at_ next exec
    obtain ⟨_, kept⟩ := reach_stages typed_empty rfl requests reached t (List.mem_of_getElem? at_)
    have issued := fun pre e post split => (kept pre e post split).1
    exact balanced.exec traced once at_ issued acts (guarded _ _ guard).2
  | tick env =>
    obtain ⟨_, rfl⟩ := env
    exact balanced.tick (guarded _ _ guard).1.2

/-- **The gauge is exact**, as long as a status is written only to active sessions. -/
theorem gaugeExact_of_closesActive :
    GaugeExact (fun s m => Lasting s m ∧ ClosesActive s m) (b.idle noFaults now rand) := by
  intro s reach
  have balanced := reach_balanced (fun _ _ guard => guard) reach
  constructor
  · intro quiet
    have nothing : (s.threads.map fun t => t.stage.owed).sum = 0 := by
      refine List.sum_eq_zero ?_
      intro owed member
      obtain ⟨t, member', rfl⟩ := List.mem_map.mp member
      obtain ⟨result, returned⟩ := (quiet t member').exists_eq
      obtain ⟨follows, _⟩ :=
        reach_stages typed_empty rfl (fun _ _ guard => guard.1.1) reach t member'
      exact (follows.post returned).1.owed
    have gauge := balanced.gauge
    rw [nothing, Int.add_zero] at gauge
    exact gauge
  · intro id uuid
    have closings := balanced.closings id uuid
    have le : (((s.threads.map fun t => decrements id t.past).sum : Nat) : Int) ≤
        (s.threads.map fun t => (decrements id t.past + t.stage.closes id : Int)).sum := by
      rw [Nat.cast_list_sum, List.map_map]
      refine List.sum_le_sum ?_
      intro t _
      exact Int.le_add_of_nonneg_right (Int.natCast_nonneg _)
    rw [closings] at le
    split at le <;> omega

/-- The gauge is not negative, as long as a status is written only to active sessions that were
counted. -/
theorem gaugeNonneg_of_closesCounted :
    GaugeNonneg (fun s m => Lasting s m ∧ ClosesActive s m ∧ ClosesCounted s m)
      (b.idle noFaults now rand) := by
  intro s reach
  have balanced := reach_balanced (fun _ _ guard => ⟨guard.1, guard.2.1⟩) reach
  obtain ⟨_, _, traced⟩ := reach_traced (fun _ _ guard => guard.1.1) reach
  have uncounted : UncountedActive s := by
    refine Pool.Reach.invariant (I := UncountedActive) ?_ ?_ reach
    · intro t member
      cases member
    · intro s m s' reached uncounted guard step
      have requests := fun s m
        (guard : Lasting (b := b) s m ∧ ClosesActive s m ∧ ClosesCounted s m) => guard.1.1
      obtain ⟨_, once, _⟩ := reach_traced requests reached
      cases step with
      | start call =>
        intro t member id has
        rcases mem_start member with old | new
        · exact uncounted t old id has
        · rw [new] at has
          cases has
      | exec at_ next exec =>
        obtain ⟨_, acts⟩ := reach_acts typed_empty rfl requests reached at_ next exec
        exact uncounted.exec once at_ acts guard.2.2
      | tick env =>
        obtain ⟨_, rfl⟩ := env
        intro t member id has
        rw [World.at_redis, guard.1.2]
        exact uncounted t member id has
  have owed := uncounted.owed_le traced fun id => reach_sole_uuid id rfl reach
  have gauge := balanced.gauge
  omega

end Gauge

/-- **The gauge of active sessions**: it is exact as long as a status is written only to active
sessions, and never negative as long as these were counted. -/
theorem gauge_exact (b : Backend) (now : Nat) (rand : Nat → Nat) :
    GaugeExact (fun s m => Lasting s m ∧ ClosesActive s m) (b.idle noFaults now rand) ∧
      GaugeNonneg (fun s m => Lasting s m ∧ ClosesActive s m ∧ ClosesCounted s m)
        (b.idle noFaults now rand) :=
  ⟨gaugeExact_of_closesActive, gaugeNonneg_of_closesCounted⟩

namespace Sample

/-- Requests, and time stands still. -/
def isRequestUntimed (s : Pool (system F)) (m : Move (system F)) : Bool :=
  isRequest s m &&
    match m with
    | .tick _ => false
    | _ => true

/-- A session is created, closed, and closed again. -/
noncomputable def closedTwice : Option (Pool (system .never)) :=
  replay isRequestUntimed
    (.start (.createSession ⟨"alice", 2⟩) :: go 0 (create id₁) ++
      .start (.closeSession ⟨"ROOM-000007", "alice"⟩) :: go 1 (List.replicate 8 .plain) ++
      .start (.closeSession ⟨"ROOM-000007", "alice"⟩) :: go 2 (List.replicate 8 .plain))
    (start .never 7)

end Sample

/-- A session closed twice is taken off the gauge twice. -/
theorem gauge_not_exact :
    ¬ (GaugeExact Lasting (Sample.start .never 7) ∧
      GaugeNonneg Lasting (Sample.start .never 7)) := by
  intro both
  have observed : (Sample.closedTwice.any fun s =>
      (s.threads.all fun t => decide t.prog.Returned) &&
        decide (s.world.metrics.sessionsActive = -1)) = true := by
    decide +kernel
  obtain ⟨s, computed, observed⟩ := (Option.any_eq_true _ _).mp observed
  obtain ⟨returned, negative⟩ := Bool.and_eq_true_iff.mp observed
  have quiet : s.Quiet := by
    intro t member
    exact of_decide_eq_true (List.all_eq_true.mp returned t member)
  have reach : Pool.Reach Lasting (Sample.start .never 7) s := by
    refine (Sample.reach_of_replay computed).mono fun s m passed => ?_
    obtain ⟨request, untimed⟩ := Bool.and_eq_true_iff.mp passed
    refine ⟨Sample.requestsOnly_of_isRequest request, ?_⟩
    cases m with
    | tick t => cases untimed
    | _ => trivial
  have exact_ := (both.1 s reach).1 quiet
  rw [of_decide_eq_true negative] at exact_
  omega

end DirectLink
