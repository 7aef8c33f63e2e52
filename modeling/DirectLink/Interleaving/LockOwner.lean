import DirectLink.Interleaving.SweepLock

/-!
# Who put the lock there

The value of `janitor:lock` names a process, not a sweep.  An observer notes which call put the lock
there that is present; a sweep deletes only a lock of its own as long as no call puts it there while
another sweep of the same process believes to hold it.
-/

namespace DirectLink

open RedisStore

/-- `janitor:lock` is present. -/
def Locked (w : World) : Prop :=
  (w.redis janitorLockKey).isSome = true

instance : DecidablePred Locked := fun _ => inferInstanceAs (Decidable (_ = _))

variable {b : Backend} {faults : Cmd → Err → Prop}

/-- The call that makes the move. -/
def moverOf : Move (b.system faults) → Option Nat
  | .exec i _ => some i
  | _ => none

/-- The call that put the lock there: the one whose command makes it appear, until it disappears. -/
def ownerAfter (s : Pool (b.system faults)) (m : Move (b.system faults))
    (s' : Pool (b.system faults)) (owner : Option Nat) : Option Nat :=
  if Locked s'.world then if Locked s.world then owner else moverOf m else none

/-- In every run with moves under `G`, the release of a sweep deletes the lock only if that sweep
put it there. -/
def ReleasesOwn (G : Pool (b.system faults) → Move (b.system faults) → Prop)
    (s₀ : Pool (b.system faults)) : Prop :=
  ∀ s owner, Pool.Watch ownerAfter G s₀ none s owner → ∀ i e s', Pool.Step s (.exec i e) s' →
    releases e = true → Locked s.world → ¬ Locked s'.world → owner = some i

/-- The lock is tried for, while it is free, by a process none of whose sweeps believes to hold
it. -/
def FreshOwner (s : Pool (b.system faults)) : Move (b.system faults) → Prop
  | .exec i ⟨.redis (.setNX _ value _), _⟩ => ¬ Locked s.world →
    ∀ (j : Nat) (t : Thread (b.system faults)) (now : Nat), j ≠ i → s.threads[j]? = some t →
      t.call = .sweepAt value now → ¬ Holding t.past
  | _ => True

/-! ### What a command does to the lock -/

section Effect

variable {call : Call} {past : List (Event backend)} {w w' : World} {c : Cmd} {reply : c.Reply}

/-- The lock appears by a try for it where there was none, and disappears by a release that names
its value; every other command leaves it alone. -/
theorem lock_cases (typed : Typed w.redis) (issued : Issued call past c)
    (exec : Exec faults w c reply w') :
    w'.redis janitorLockKey = w.redis janitorLockKey ∨
      (∃ value ttl deadline, c = .redis (.setNX janitorLockKey value ttl) ∧
        w.redis janitorLockKey = none ∧
        w'.redis janitorLockKey = some ⟨.str value, deadline⟩) ∨
      ∃ value, c = .redis (.delIfEq janitorLockKey value) ∧
        strOf (w.redis janitorLockKey) = some value ∧ w'.redis janitorLockKey = none := by
  obtain same | ⟨op, wf, rfl, _, moved⟩ := exec_redis_cases typed issued exec
  · exact .inl (by rw [same])
  have at_ : op.apply w.now w.redis janitorLockKey = _ := Op.apply_at (k := .lock) wf trivial
  rw [moved, at_]
  split
  · next own =>
    cases op <;> cases own
    case takeLock =>
      rw [Op.effect]
      split
      · exact .inl rfl
      · next absent =>
        refine .inr (.inl ⟨_, _, _, rfl, ?_, rfl⟩)
        exact Option.not_isSome_iff_eq_none.mp absent
    case dropLock =>
      rw [Op.effect]
      split
      · next named => exact .inr (.inr ⟨_, rfl, named, rfl⟩)
      · exact .inl rfl
  · exact .inl rfl

end Effect

/-! ### A release names the process -/

/-- The value that a release names is that of the sweep. -/
@[reducible] def Backend.releaseDuty (b : Backend) (faults : Cmd → Err → Prop) :
    Contract (b.system faults) where
  Expects _ := True
  Allows call _ c := ∀ key value, c = .redis (.delIfEq key value) → ∃ now, call = .sweepAt value now
  Post _ _ _ := True

theorem release_covers (call : Call) : (b.releaseDuty faults).Covers call := by
  have issues : ((b.system faults).code call).Issues ((b.releaseDuty faults).Allows call []) := by
    have spared : ∀ c, Spares c → (b.releaseDuty faults).Allows call [] c :=
      fun c spares key value release => absurd release (spares key value)
    by_cases sweep : ∃ instanceID now, call = .sweepAt instanceID now
    · obtain ⟨instanceID, now, rfl⟩ := sweep
      have asked : Call.isStore (.sweepAt instanceID now) = false := rfl
      refine (usual_spares.mono spared).request asked ?_ ?_ ?_
      · intro req id join
        cases join
      · intro req id create
        cases create
      · intro instanceID' now' same key value release
        cases same
        cases release
        exact ⟨now, rfl⟩
    · push Not at sweep
      exact (spares_code sweep).mono spared
  refine Prog.wp_mono (issues.wp_hist fun _ c issued => issued) ?_
  intro _ _ _
  trivial

/-! ### Whose lock is there -/

/-- The lock is noted for a call exactly while it is there, and no other sweep of the process it
names believes to hold it. -/
structure OwnInv (s : Pool (b.system faults)) (owner : Option Nat) : Prop where
  noted : Locked s.world ↔ owner.isSome = true
  alone : ∀ k value, owner = some k → strOf (s.world.redis janitorLockKey) = some value →
    ∀ (j : Nat) (t : Thread (b.system faults)) (now : Nat), j ≠ k → s.threads[j]? = some t →
      t.call = .sweepAt value now → ¬ Holding t.past

section Run

variable {s₀ s s' : Pool (b.system faults)} {owner : Option Nat}

theorem not_locked {w : World} : ¬ Locked w ↔ w.redis janitorLockKey = none := by
  rw [Locked, Option.not_isSome_iff_eq_none]

theorem ownerAfter_kept {m : Move (b.system faults)} (noted : Locked s.world ↔ owner.isSome = true)
    (same : s'.world.redis janitorLockKey = s.world.redis janitorLockKey) :
    ownerAfter s m s' owner = owner := by
  have locked : Locked s'.world ↔ Locked s.world := by rw [Locked, Locked, same]
  rw [ownerAfter]
  by_cases there : Locked s.world
  · rw [if_pos (locked.mpr there), if_pos there]
  · rw [if_neg (mt locked.mp there)]
    rw [noted, Option.not_isSome_iff_eq_none] at there
    exact there.symm

theorem ownerAfter_gone {m : Move (b.system faults)}
    (gone : s'.world.redis janitorLockKey = none) : ownerAfter s m s' owner = none := by
  rw [ownerAfter, if_neg (not_locked.mpr gone)]

/-- Without a lock there is nobody to note. -/
theorem OwnInv.gone {m : Move (b.system faults)} (gone : s'.world.redis janitorLockKey = none) :
    OwnInv s' (ownerAfter s m s' owner) := by
  rw [ownerAfter_gone gone]
  refine ⟨iff_of_false (not_locked.mpr gone) Bool.false_ne_true, ?_⟩
  intro k value nobody
  cases nobody

/-- Each command keeps the lock of a process from its other sweeps. -/
theorem OwnInv.advance {i : Nat} {t : Thread (b.system faults)} {c : Cmd} {reply : c.Reply}
    {w' : World} {prog : Go Result} (inv : OwnInv s owner) (typed : Typed s.world.redis)
    (at_ : s.threads[i]? = some t) (issued : Issued t.call t.past c)
    (fresh : FreshOwner s (.exec i ⟨c, reply⟩)) (exec : Exec faults s.world c reply w') :
    OwnInv (s.advance i t ⟨c, reply⟩ w' prog)
      (ownerAfter s (.exec i ⟨c, reply⟩) (s.advance i t ⟨c, reply⟩ w' prog) owner) := by
  obtain same | ⟨value, ttl, deadline, rfl, free, taken⟩ | ⟨value, rfl, _, gone⟩ :=
    lock_cases typed issued exec
  · rw [ownerAfter_kept inv.noted same]
    refine ⟨?_, ?_⟩
    · rw [← inv.noted, Locked, Locked, Pool.advance_world, same]
    intro k value noted named j t' now other there sweep holding
    rw [Pool.advance_world, same] at named
    obtain ⟨rfl, rfl⟩ | ⟨_, old⟩ := Pool.getElem?_advance there
    · -- the thread moved holds the lock by an earlier try, as this one did not put it there
      obtain held | taken := holding.of_snoc.2
      · exact inv.alone k value noted named j t now other at_ sweep held
      · obtain ⟨free, there⟩ := lock_taken typed issued exec taken
        rw [same, free] at there
        cases there
    · exact inv.alone k value noted named j t' now other old sweep holding
  · have absent : ¬ Locked s.world := not_locked.mpr free
    have present : Locked w' := by
      rw [Locked, taken]
      rfl
    rw [ownerAfter, Pool.advance_world, if_pos present, if_neg absent]
    refine ⟨iff_of_true present rfl, ?_⟩
    intro k value' noted named j t' now other there sweep
    cases noted
    rw [Pool.advance_world, taken] at named
    cases named
    obtain ⟨same, _⟩ | ⟨_, old⟩ := Pool.getElem?_advance there
    · exact absurd same other
    · exact fresh absent j t' now other old sweep
  · exact OwnInv.gone gone

theorem watch_ownInv (typed : Typed s₀.world.redis) (none_ : s₀.threads = [])
    (free : ¬ Locked s₀.world) (watch : Pool.Watch ownerAfter FreshOwner s₀ none s owner) :
    OwnInv s owner := by
  refine Pool.Watch.invariant (I := OwnInv) ?_ ?_ watch
  · refine ⟨iff_of_false free Bool.false_ne_true, ?_⟩
    intro k value nobody
    cases nobody
  · intro s owner m s' reached inv fresh step
    cases step with
    | start call =>
      rw [ownerAfter_kept inv.noted (by rfl)]
      refine ⟨inv.noted, ?_⟩
      intro k value noted named j t now other there sweep holding
      obtain old | rfl := Pool.getElem?_start there
      · exact inv.alone k value noted named j t now other old sweep holding
      · cases holding.1
    | exec at_ next exec =>
      obtain ⟨typed', issued⟩ := reach_issued typed none_ reached at_ next
      exact inv.advance typed' at_ issued fresh exec
    | tick env =>
      obtain ⟨_, rfl⟩ := env
      obtain same | gone := Redis.Db.expire_cases s.world.redis janitorLockKey _
      · rw [ownerAfter_kept inv.noted same]
        refine ⟨?_, ?_⟩
        · rw [← inv.noted, Locked, Locked, World.at_redis, same]
        intro k value noted named
        rw [World.at_redis, same] at named
        exact inv.alone k value noted named
      · exact OwnInv.gone gone

/-- In every state reached, every call follows a contract that covers it. -/
theorem reach_follows {C : Contract (b.system faults)}
    {G : Pool (b.system faults) → Move (b.system faults) → Prop} (none_ : s₀.threads = [])
    (covers : ∀ call, C.Covers call) (expects : ∀ e, C.Expects e) (reach : Pool.Reach G s₀ s) :
    ∀ t ∈ s.threads, C.Follows t := by
  have kept := Pool.Reach.contract (C := C) (I := fun _ => True) trivial none_
    (fun _ call _ => covers call) (fun _ _ _ _ _ => trivial)
    (fun _ _ _ _ _ _ _ _ _ _ _ _ _ _ _ => ⟨expects _, trivial⟩)
    (fun _ _ _ _ _ _ _ => trivial) reach
  exact fun t member => (kept.2 t member).1

/-- **A sweep releases its own lock only**, whatever commands fail and however long sweeps take, as
long as no call puts the lock there while another sweep of the process believes to hold it. -/
theorem releases_own (typed : Typed s₀.world.redis) (none_ : s₀.threads = [])
    (free : ¬ Locked s₀.world) : ReleasesOwn FreshOwner s₀ := by
  intro s owner watch i e s' step _ there gone
  have reached := watch.reach
  have inv := watch_ownInv typed none_ free watch
  cases step with
  | @exec _ t c _ reply world at_ next exec =>
    obtain ⟨typed', issued⟩ := reach_issued typed none_ reached at_ next
    have member := List.mem_of_getElem? at_
    have gone : world.redis janitorLockKey = none := not_locked.mp gone
    obtain same | ⟨_, _, _, _, _, taken⟩ | ⟨value, rfl, named, _⟩ := lock_cases typed' issued exec
    · rw [same] at gone
      exact absurd there (not_locked.mpr gone)
    · rw [taken] at gone
      cases gone
    · have holding : Holding t.past :=
        (reach_follows (C := b.lockDuty faults) none_ lock_covers (fun _ => trivial) reached t
          member).allows next fun spares => spares _ _ rfl
      obtain ⟨now, sweep⟩ :=
        (reach_follows (C := b.releaseDuty faults) none_ release_covers (fun _ => trivial) reached t
          member).allows next _ _ rfl
      obtain ⟨k, noted⟩ := Option.isSome_iff_exists.mp (inv.noted.mp there)
      by_contra other
      refine inv.alone k value noted named i t now ?_ at_ sweep holding
      intro agrees
      subst agrees
      exact other noted

end Run

/-- The empty pool of the sample backend. -/
theorem releases_own_sample : ReleasesOwn FreshOwner (Sample.start .lostReplies 7) :=
  releases_own typed_empty rfl (by rintro ⟨⟩)

namespace Sample

/-- A sweep outlasts its lock, the health check of the same process sees the store fail and come
back and sweeps too, and the first sweep comes to its end. -/
noncomputable def sharedLock : Option (Pool (system .lostReplies) × Option Nat) :=
  Pool.replayWatch (Y := system .lostReplies) (replayer .lostReplies) wait ownerAfter
    ([.start (.sweepAt "janitor-1" 0)] ++ go 0 [.plain] ++ [.tick (300 * second)] ++
      [.start (.store .ping)] ++ go 1 [.refused (.other "EOF")] ++ [.tick (305 * second)] ++
      [.start (.store .ping)] ++ go 2 [.plain] ++
      [.start (.sweepAt "janitor-1" (305 * second))] ++ go 3 [.plain] ++ go 0 [.plain])
    (start .lostReplies 7) none

/-- The first sweep releases a lock that the third caller has. -/
def releasesThird (before after : Pool (system .lostReplies)) (owner : Option Nat) :
    Move (system .lostReplies) → Bool
  | .exec i e => decide (i = 0 ∧ releases e = true ∧ Locked before.world ∧ ¬ Locked after.world ∧
      owner = some 3)
  | _ => false

/-- The release of the first sweep. -/
noncomputable def firstReleases (s : Pool (system .lostReplies)) :
    Option (Move (system .lostReplies) × Pool (system .lostReplies)) :=
  Pool.choose (Y := system .lostReplies) (replayer .lostReplies) wait s (.exec 0 Hint.plain)

end Sample

/-- The first of two sweeps of one process deletes the lock of the second. -/
theorem releases_other : ¬ ReleasesOwn (fun _ _ => True) (Sample.start .lostReplies 7) := by
  intro own
  have observed : (Sample.sharedLock.any fun p => (Sample.firstReleases p.1).any fun q =>
      Sample.releasesThird p.1 q.2 p.2 q.1) = true := by
    decide +kernel
  obtain ⟨⟨s, owner⟩, computed, observed⟩ := (Option.any_eq_true _ _).mp observed
  obtain ⟨⟨m, s'⟩, chosen, observed⟩ := (Option.any_eq_true _ _).mp observed
  have watch := Pool.watch_of_replay (fun _ _ _ => env_of_wait) .start computed
  have step := Pool.step_of_choose (fun _ _ _ => env_of_wait) chosen
  cases m with
  | exec i e =>
    obtain ⟨rfl, release, there, gone, noted⟩ := of_decide_eq_true observed
    rw [own s owner watch 0 e s' step release there gone] at noted
    cases noted
  | _ => cases observed

end DirectLink
