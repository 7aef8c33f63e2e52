import DirectLink.Interleaving.Commands
import DirectLink.Interleaving.Duties
import DirectLink.Runs

/-!
# Sweeps take turns

A sweep runs between taking `janitor:lock` and releasing it.  The lock is set once, with an expiry,
and only a sweep that took it releases it: sweeps exclude each other for as long as no lock expires
under the sweep that took it.
-/

namespace DirectLink

open RedisStore

/-! ### Sweeps in progress -/

/-- The sweep lock was taken. -/
def acquires : Event backend → Bool
  | ⟨.redis (.setNX _ _ _), .ok true⟩ => true
  | _ => false

/-- A release of the sweep lock was tried. -/
def releases (e : Event backend) : Bool :=
  match e.cmd with
  | .redis (.delIfEq _ _) => true
  | _ => false

/-- A call with this history has taken the sweep lock and not released it. -/
def Holding (past : List (Event backend)) : Prop :=
  past.any acquires = true ∧ past.any releases = false

instance : DecidablePred Holding := fun _ => inferInstanceAs (Decidable (_ ∧ _))

/-- The release of the sweep lock comes next. -/
def AtRelease {α : Type} : Go α → Bool
  | .call (.redis (.delIfEq _ _)) _ => true
  | _ => false

variable {b : Backend} {faults : Cmd → Err → Prop}

/-- The sweep has taken the lock and has not come to the end of its loop. -/
def Sweeping (t : Thread (b.system faults)) : Prop :=
  Holding t.past ∧ AtRelease t.prog = false

instance : DecidablePred fun t : Thread (b.system faults) => Sweeping t :=
  fun _ => inferInstanceAs (Decidable (_ ∧ _))

/-- In every state that moves under `G` reach, at most one sweep is in progress. -/
def SweepsExclude (G : Pool (b.system faults) → Move (b.system faults) → Prop)
    (s₀ : Pool (b.system faults)) : Prop :=
  ∀ s, Pool.Reach G s₀ s → ∀ (i j : Nat) (t t' : Thread (b.system faults)),
    s.threads[i]? = some t → s.threads[j]? = some t' → Sweeping t → Sweeping t' → i = j

/-- Time passes without the lock expiring under the sweep that took it. -/
def LockOutlives (s : Pool (b.system faults)) : Move (b.system faults) → Prop
  | .tick t => (∃ thread ∈ s.threads, Holding thread.past) →
      s.world.redis.expire t janitorLockKey = s.world.redis janitorLockKey
  | _ => True

/-! ### Only sweeps release -/

/-- The command does not release the lock. -/
def Spares (c : Cmd) : Prop := ∀ key value, c ≠ .redis (.delIfEq key value)

theorem usual_spares : Usual Spares where
  other c away key value same := away _ same
  simple c unlock _ key value same := unlock key value (Cmd.redis.inj same)
  session session key value same := by cases same
  closed id key value same := by cases same

section Spares

variable {r : RedisStore} {α : Type}

theorem spares_redis {c : Redis.Cmd} (other : ∀ key value, c ≠ .delIfEq key value) :
    (r.retryRedisOp (redis c)).Issues Spares := by
  refine issues_retryRedisOp_redis ?_ fun _ => usual_spares.other _ (by simp)
  intro key value same
  exact other key value (Cmd.redis.inj same)

theorem spares_deleteSession {id : String} : (r.deleteSession id).Issues Spares := by
  refine usual_spares.getSession.bind ?_
  intro found
  cases found with
  | error err => trivial
  | ok session =>
    refine issues_retryRedisOp (issues_pipeExec ?_) fun _ => usual_spares.other _ (by simp)
    intro c mem key value same
    rw [deletePipeline] at mem
    split at mem <;> simp [Cmd.redis.inj same] at mem

theorem spares_getRole {id userID : String} : (r.getRole id userID).Issues Spares := by
  have read : Spares (.redis (.hget (accessKey id) userID)) := by
    intro key value same
    cases same
  refine issues_retryRedisOp
    (Prog.Issues.bind (Prog.Issues.bind ⟨read, fun _ => trivial⟩ ?_) ?_)
    fun _ => usual_spares.other _ (by simp)
  · intro reply
    rcases reply with err | none | role <;> trivial
  · intro found
    cases found with
    | ok role => trivial
    | error err =>
      dsimp only
      split <;> trivial

theorem spares_ping : RedisStore.ping.Issues Spares := by
  refine ⟨usual_spares.simple _ (by simp) (by simp), ?_⟩
  intro reply
  cases reply <;> trivial

theorem spares_store (call : StoreCall) : (call.code r).Issues Spares := by
  have waits : ∀ backoff, Spares (.after backoff) := fun _ => usual_spares.other _ (by simp)
  have simple : ∀ c : Redis.Cmd, (∀ key value, c ≠ .delIfEq key value) → Spares (.redis c) :=
    fun c other key value same => other key value (Cmd.redis.inj same)
  cases call with
  | createSession session => exact usual_spares.createSession.bind fun _ => trivial
  | getSession id => exact usual_spares.getSession.bind fun _ => trivial
  | getSessionByRoomCode code =>
    exact usual_spares.getSessionByRoomCode.bind fun _ => trivial
  | updateSessionStatus id status =>
    refine Prog.Issues.bind ?_ fun _ => trivial
    exact issues_updateSessionStatus (simple _ (by simp)) (simple _ (by simp))
      (fun _ => simple _ (by simp)) waits
  | deleteSession id => exact spares_deleteSession.bind fun _ => trivial
  | getExpiredSessions now => exact usual_spares.getExpiredSessions.bind fun _ => trivial
  | getRole id userID => exact spares_getRole.bind fun _ => trivial
  | grantAccess id userID role =>
    exact (usual_spares.grantAccess (simple _ (by simp))).bind fun _ => trivial
  | revokeAccess id userID => exact (spares_redis (by simp)).bind fun _ => trivial
  | hasAccess id userID => exact (spares_redis (by simp)).bind fun _ => trivial
  | getUserSessions userID => exact usual_spares.getUserSessions.bind fun _ => trivial
  | addIngressID id ingressID => exact usual_spares.addIngressID.bind fun _ => trivial
  | getIngressIDs id => exact (spares_redis (by simp)).bind fun _ => trivial
  | ping => exact spares_ping.bind fun _ => trivial

end Spares

/-- Everything but a sweep leaves the lock alone. -/
theorem spares_code {call : Call} (other : ∀ instanceID now, call ≠ .sweepAt instanceID now) :
    (b.code call).Issues Spares := by
  cases asked : call.isStore with
  | false =>
    refine usual_spares.request asked ?_ ?_ fun instanceID now sweep => absurd sweep (other _ _)
    · intro req id _ key value same
      cases same
    · intro req id _ key value same
      cases same
  | true =>
    cases call with
    | store call => exact spares_store call
    | _ => cases asked

/-! ### The contract of the lock -/

/-- The lock is released by a call that has taken it and not released it. -/
@[reducible] def Backend.lockDuty (b : Backend) (faults : Cmd → Err → Prop) :
    Contract (b.system faults) where
  Expects _ := True
  Allows _ past c := ¬ Spares c → Holding past
  Post _ _ _ := True

section Contract

variable {past : List (Event backend)}

/-- The logic of that contract. -/
abbrev lockLogic : Logic backend :=
  histLogic (fun _ => True) fun past c => ¬ Spares c → Holding past

theorem Holding.append {new : List (Event backend)} (holding : Holding past)
    (spares : ∀ e ∈ new, Spares e.cmd) : Holding (past ++ new) := by
  obtain ⟨taken, kept⟩ := holding
  refine ⟨?_, ?_⟩
  · rw [List.any_append, taken, Bool.true_or]
  · rw [List.any_append, kept, Bool.false_or, List.any_eq_false]
    intro e mem release
    unfold releases at release
    split at release
    · next same => exact spares e mem _ _ same
    · cases release

/-- Whoever holds the lock after an event has held it before or just taken it. -/
theorem Holding.of_snoc {c : Cmd} {reply : c.Reply}
    (holding : Holding (past ++ [⟨c, reply⟩])) :
    Spares c ∧ (Holding past ∨ acquires ⟨c, reply⟩ = true) := by
  obtain ⟨taken, kept⟩ := holding
  rw [List.any_append, Bool.or_eq_false_iff] at kept
  rw [List.any_append, Bool.or_eq_true_iff] at taken
  refine ⟨?_, ?_⟩
  · intro key value same
    subst same
    exact absurd kept.2 nofun
  · refine taken.imp (fun taken => ⟨taken, kept.1⟩) ?_
    intro last
    simpa using last

/-- A part of a sweep that leaves the lock alone. -/
theorem wp_holding {α : Type} {p : Go α} (holding : Holding past) (issues : p.Issues Spares) :
    p.wp lockLogic (fun _ => Holding) past := by
  refine Prog.wp_mono (issues.wp_hist fun _ _ spares release => absurd spares release) ?_
  intro _ past' new
  obtain ⟨new, rfl, spares⟩ := new
  exact holding.append spares

theorem lock_covers_sweep {instanceID : String} {now : Nat} :
    (b.lockDuty faults).Covers (.sweepAt instanceID now) := by
  have release : ∀ past, Holding past →
      ((b.janitor instanceID).releaseLock).wp lockLogic (fun _ _ => True) past := by
    intro past holding
    exact histLogic_call.mpr ⟨fun _ => holding, fun _ _ => trivial⟩
  have sweep : (b.system faults).code (.sweepAt instanceID now) =
      ((b.janitor instanceID).sweepAt now >>= fun _ => Prog.done Result.swept) := rfl
  rw [Contract.Covers, sweep, Prog.wp_bind, Janitor.sweepAt]
  refine histLogic_call.mpr ⟨fun release => absurd (by simp [Spares]) release, ?_⟩
  intro taken _
  rcases taken with err | taken
  · trivial
  cases taken with
  | false => trivial
  | true =>
    have holding : Holding ([] ++ [(⟨.redis (.setNX janitorLockKey instanceID (some b.lockTTL)),
        .ok true⟩ : Event backend)]) := ⟨rfl, rfl⟩
    dsimp only [Prog.bind]
    refine Prog.wp_bind.mpr
      (Prog.wp_mono (wp_holding holding usual_spares.getExpiredSessions) ?_)
    intro expired past holding
    cases expired with
    | error err => exact release past holding
    | ok sessions =>
      dsimp only
      have loop : ((b.janitor instanceID).closeExpiredSessions sessions).Issues Spares :=
        usual_spares.closeExpiredSessions fun _ => usual_spares.deleteRoom
      refine Prog.wp_bind.mpr (Prog.wp_mono (wp_holding holding loop) ?_)
      intro _ past' holding'
      exact release past' holding'

theorem lock_covers (call : Call) : (b.lockDuty faults).Covers call := by
  by_cases sweep : ∃ instanceID now, call = .sweepAt instanceID now
  · obtain ⟨instanceID, now, rfl⟩ := sweep
    exact lock_covers_sweep
  · push Not at sweep
    have issues : ((b.system faults).code call).Issues Spares := spares_code sweep
    refine Prog.wp_mono (issues.wp_hist fun _ _ spares release => absurd spares release) ?_
    intro _ _ _
    trivial

end Contract

/-! ### At most one holder -/

/-- Whoever holds the lock finds it in the store, and nobody else holds it. -/
structure LockInv (s : Pool (b.system faults)) : Prop where
  held : ∀ t ∈ s.threads, Holding t.past → (s.world.redis janitorLockKey).isSome = true
  sole : ∀ (i j : Nat) (t t' : Thread (b.system faults)), s.threads[i]? = some t →
    s.threads[j]? = some t' → Holding t.past → Holding t'.past → i = j

section Reach

variable {call : Call} {past : List (Event backend)} {w w' : World} {c : Cmd} {reply : c.Reply}

/-- A command that spares the lock leaves it in the store. -/
theorem lock_stays (typed : Typed w.redis) (issued : Issued call past c)
    (exec : Exec faults w c reply w') (spares : Spares c)
    (there : (w.redis janitorLockKey).isSome = true) :
    (w'.redis janitorLockKey).isSome = true := by
  obtain same | ⟨op, wf, rfl, _, moved⟩ := exec_redis_cases typed issued exec
  · rw [same]
    exact there
  · rw [moved]
    have at_ : op.apply w.now w.redis janitorLockKey = _ := Op.apply_at (k := .lock) wf trivial
    rw [at_]
    split
    · next own =>
      cases op <;> cases own
      case takeLock value ttl =>
        rw [Op.effect]
        exact (congrArg Option.isSome (if_pos there)).trans there
      case dropLock value => exact absurd rfl (spares _ _)
    · exact there

/-- The lock is taken where there was none, and is there then. -/
theorem lock_taken (typed : Typed w.redis) (issued : Issued call past c)
    (exec : Exec faults w c reply w') (taken : acquires ⟨c, reply⟩ = true) :
    w.redis janitorLockKey = none ∧ (w'.redis janitorLockKey).isSome = true := by
  cases c
  case redis c =>
    obtain ⟨op, wf, rfl, _⟩ := issued
    cases op with
    | takeLock value ttl =>
      obtain ⟨o, rfl, rfl⟩ | ⟨err, _, rfl, _⟩ := exec_op_cases typed wf exec
      · have entry : (Op.takeLock value ttl).entry w.redis = w.redis janitorLockKey := rfl
        rw [Op.reply, entry] at taken
        cases absent : w.redis janitorLockKey with
        | some entry =>
          rw [absent] at taken
          cases taken
        | none =>
          refine ⟨rfl, ?_⟩
          have at_ : (w.after (.takeLock value ttl)).redis janitorLockKey = _ :=
            Op.apply_at (k := .lock) wf trivial
          have own : (Op.takeLock value ttl).key = some .lock := rfl
          have entry' : w.redis Key.lock.text = none := absent
          rw [at_, if_pos own, entry']
          rfl
      · cases taken
    | _ => cases taken
  all_goals cases taken

/-- **Taking turns**, step by step: each command keeps the lock in the hands of at most one
sweep. -/
theorem LockInv.advance {s : Pool (b.system faults)} {i : Nat} {t : Thread (b.system faults)}
    {prog : Go Result} (inv : LockInv s) (typed : Typed s.world.redis)
    (at_ : s.threads[i]? = some t) (issued : Issued t.call t.past c)
    (duty : ¬ Spares c → Holding t.past) (exec : Exec faults s.world c reply w') :
    LockInv (s.advance i t ⟨c, reply⟩ w' prog) := by
  -- who holds the lock afterwards held it before or has just taken it
  have holder : ∀ {j : Nat} {t' : Thread (b.system faults)},
      (s.advance i t ⟨c, reply⟩ w' prog).threads[j]? = some t' → Holding t'.past → Spares c ∧
        ((∃ t₀, s.threads[j]? = some t₀ ∧ Holding t₀.past) ∨
          (j = i ∧ acquires ⟨c, reply⟩ = true)) := by
    intro j t' there holding
    obtain ⟨rfl, rfl⟩ | ⟨other, old⟩ := Pool.getElem?_advance there
    · obtain ⟨spares, held⟩ := holding.of_snoc
      exact ⟨spares, held.imp (fun held => ⟨t, at_, held⟩) fun taken => ⟨rfl, taken⟩⟩
    · refine ⟨?_, .inl ⟨t', old, holding⟩⟩
      by_contra release
      exact other (inv.sole _ _ _ _ old at_ holding (duty release))
  have noHolder : ∀ t₀ ∈ s.threads, acquires ⟨c, reply⟩ = true → ¬ Holding t₀.past := by
    intro t₀ mem taken held
    have there := inv.held t₀ mem held
    rw [(lock_taken typed issued exec taken).1] at there
    cases there
  constructor
  · intro t' mem holding
    obtain ⟨j, there⟩ := List.mem_iff_getElem?.mp mem
    obtain ⟨spares, ⟨t₀, old, held⟩ | ⟨rfl, taken⟩⟩ := holder there holding
    · exact lock_stays typed issued exec spares (inv.held t₀ (List.mem_of_getElem? old) held)
    · exact (lock_taken typed issued exec taken).2
  · intro j j' t₁ t₂ there there' holding holding'
    obtain ⟨_, ⟨t₀, old, held⟩ | ⟨rfl, taken⟩⟩ := holder there holding
    · obtain ⟨_, ⟨t₀', old', held'⟩ | ⟨rfl, taken⟩⟩ := holder there' holding'
      · exact inv.sole _ _ _ _ old old' held held'
      · exact absurd held (noHolder t₀ (List.mem_of_getElem? old) taken)
    · obtain ⟨_, ⟨t₀', old', held'⟩ | ⟨rfl, _⟩⟩ := holder there' holding'
      · exact absurd held' (noHolder t₀' (List.mem_of_getElem? old') taken)
      · rfl

variable {s₀ s : Pool (b.system faults)}

/-- **Taking turns**: while no lock expires under the sweep that took it, at most one sweep holds
the lock. -/
theorem reach_lockInv (typed : Typed s₀.world.redis) (none_ : s₀.threads = [])
    (reach : Pool.Reach LockOutlives s₀ s) : LockInv s := by
  have start : LockInv s₀ := by
    constructor
    · intro t mem
      rw [none_] at mem
      cases mem
    · intro i j t t' there
      rw [none_] at there
      cases there
  refine (Pool.Reach.contract (C := b.lockDuty faults) (I := LockInv) start none_
    (fun _ call _ => lock_covers call) ?_ ?_ ?_ reach).1
  · intro s call _ inv _
    constructor
    · intro t mem holding
      obtain old | new := List.mem_append.mp mem
      · exact inv.held t old holding
      · rw [List.mem_singleton.mp new] at holding
        cases holding.1
    · intro i j t t' there there' holding holding'
      obtain old | rfl := Pool.getElem?_start there
      · obtain old' | rfl := Pool.getElem?_start there'
        · exact inv.sole _ _ _ _ old old' holding holding'
        · cases holding'.1
      · cases holding.1
  · intro s i t c k reply world reached inv _ _ at_ next duty exec
    obtain ⟨typed', issued⟩ := reach_issued typed none_ reached at_ next
    exact ⟨trivial, inv.advance typed' at_ issued duty exec⟩
  · intro s time world _ inv outlives env
    obtain ⟨_, rfl⟩ := env
    refine ⟨?_, inv.sole⟩
    intro t mem holding
    rw [World.at_redis, outlives ⟨t, mem, holding⟩]
    exact inv.held t mem holding

/-- **Sweeps exclude each other** while no lock expires under the sweep that took it, whatever
commands fail and whatever other calls do. -/
theorem sweeps_exclude (typed : Typed s₀.world.redis) (none_ : s₀.threads = []) :
    SweepsExclude LockOutlives s₀ := by
  intro s reach i j t t' at_ at' sweeping sweeping'
  exact (reach_lockInv typed none_ reach).sole i j t t' at_ at' sweeping.1 sweeping'.1

end Reach

/-- The empty pool of the sample backend. -/
theorem sweeps_exclude_sample : SweepsExclude LockOutlives (Sample.start .never 7) :=
  sweeps_exclude typed_empty rfl

namespace Sample

/-- The lock of a sweep that takes longer than it lasts expires, and a second sweep takes it. -/
noncomputable def slowSweep : Option (Pool (system .never)) :=
  replay (fun _ _ => true)
    ([.start (.sweepAt "janitor-1" 0)] ++ go 0 [.plain] ++ [.tick (300 * second)] ++
      [.start (.sweepAt "janitor-2" (300 * second))] ++ go 1 [.plain])
    (start .never 7)

end Sample

/-- Two sweeps are in progress once the lock of the first has expired. -/
theorem sweeps_overlap : ¬ SweepsExclude (fun _ _ => True) (Sample.start .never 7) := by
  intro exclude
  have observed : (Sample.slowSweep.any fun s =>
      decide (s.threads.length = 2 ∧ ∀ t ∈ s.threads, Sweeping t)) = true := by
    decide +kernel
  obtain ⟨s, computed, observed⟩ := (Option.any_eq_true _ _).mp observed
  obtain ⟨two, sweeping⟩ := of_decide_eq_true observed
  have reach := (Sample.reach_of_replay computed).mono fun _ _ _ => trivial
  have first : s.threads[0]? = some s.threads[0] := List.getElem?_eq_getElem (by omega)
  have second : s.threads[1]? = some s.threads[1] := List.getElem?_eq_getElem (by omega)
  have same : 0 = 1 := exclude s reach 0 1 _ _ first second
    (sweeping _ (List.getElem_mem _)) (sweeping _ (List.getElem_mem _))
  cases same

end DirectLink
