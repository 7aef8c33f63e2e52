import DirectLink.Session.Indexes

/-!
# Deleting a session

What `DeleteSession` leaves of a session and what it takes from others, after any calls of the store
made one at a time while no key expires.
-/

namespace DirectLink

open RedisStore

/-! ## What is to hold -/

/-- Nothing is left of the session. -/
structure Removed (r : RedisStore) (w : World) (id : String) : Prop where
  session : w.redis (sessionKey id) = none
  access : w.redis (accessKey id) = none
  ingress : w.redis (ingressKey id) = none
  users : ∀ u, id ∉ setOf (w.redis (userSessionsKey u))
  active : id ∉ zsetOf (w.redis activeSessionsKey)
  hasAccess : ∀ u, (r.hasAccess id u).Returns Performs w (.ok false)
  getRole : ∀ u, (r.getRole id u).Returns Performs w (.ok "")
  getIngressIDs : (r.getIngressIDs id).Returns Performs w (.ok [])

/-- What belongs to other sessions in `w` is as it was in `w₀`. -/
structure OthersKept (w₀ w : World) (id : String) : Prop where
  keys : ∀ other, isUuid other = true → other ≠ id →
    w.redis (sessionKey other) = w₀.redis (sessionKey other) ∧
      w.redis (accessKey other) = w₀.redis (accessKey other) ∧
      w.redis (ingressKey other) = w₀.redis (ingressKey other)
  users : ∀ u other, other ≠ id →
    (other ∈ setOf (w.redis (userSessionsKey u)) ↔ other ∈ setOf (w₀.redis (userSessionsKey u)))
  active : ∀ other, other ≠ id →
    (zsetOf (w.redis activeSessionsKey)).lookup other =
      (zsetOf (w₀.redis activeSessionsKey)).lookup other
  codes : ∀ code other, other ≠ id → strOf (w₀.redis (roomCodeKey code)) = some other →
    w.redis (roomCodeKey code) = w₀.redis (roomCodeKey code)

/-- The deletion of the session in `w₀`, which leads to `w`, removes all of it and nothing else. -/
def DeletesAll (r : RedisStore) (w₀ : World) (id : String) (w : World) : Prop :=
  Removed r w id ∧
    (∀ s, Live w₀.redis id s → w.redis (roomCodeKey s.roomCode) = none) ∧ OthersKept w₀ w id

/-- No ingress is recorded for the session, it is listed for its owner only, and its room code is
not mapped to another session. -/
def OnlyStored (w : World) (id : String) : Prop :=
  ∀ s, Live w.redis id s →
    w.redis (ingressKey id) = none ∧
    (∀ u, id ∈ setOf (w.redis (userSessionsKey u)) → u = s.createdBy) ∧
    ∀ other, strOf (w.redis (roomCodeKey s.roomCode)) = some other → other = id

/-- `P` holds of every deletion that succeeds, from the world before it to the one after. -/
def OfDeletions (b : Backend) (P : World → String → World → Prop) : Prop :=
  ∀ w calls w₀ (id : SessionID) w', w.redis = .empty →
    Hist (Y := b.system noFaults) Unexpired w calls w₀ →
    Alone (b.server.store.deleteSession id) w₀ (.ok ()) w' → P w₀ id w'

/-! ## What a deletion does -/

section Deleted

variable {r : RedisStore} {w : World} {s : Session} {id u code : String} {k : Key}

theorem deleted_at (uuid : isUuid id = true) (wfKey : k.Wf) :
    (w.afterAll (deleteOps id s)).redis k.text =
      k.entryAfter w.now (deleteOps id s) (w.redis k.text) :=
  World.afterAll_at (fun _ mem => wf_of_mem_deleteOps uuid mem) wfKey

theorem deleted_session (uuid : isUuid id = true) :
    (w.afterAll (deleteOps id s)).redis (sessionKey id) = none := by
  refine (deleted_at (k := .session id) uuid uuid).trans ?_
  unfold deleteOps
  split <;> simp [Op.key, Op.effect]

theorem deleted_access (uuid : isUuid id = true) :
    (w.afterAll (deleteOps id s)).redis (accessKey id) = none := by
  refine (deleted_at (k := .access id) uuid uuid).trans ?_
  unfold deleteOps
  split <;> simp [Op.key, Op.effect]

theorem deleted_user (uuid : isUuid id = true) :
    setOf ((w.afterAll (deleteOps id s)).redis (userSessionsKey s.createdBy)) =
      (setOf (w.redis (userSessionsKey s.createdBy))).erase id := by
  refine (congrArg setOf (deleted_at (k := .userSessions s.createdBy) uuid trivial)).trans ?_
  unfold deleteOps
  split <;> simp only [List.cons_append, List.nil_append, List.append_nil, Key.entryAfter_cons,
    Key.entryAfter_nil, Op.key] <;> simp [Op.effect, setOf_drop, Key.text]

theorem deleted_active (uuid : isUuid id = true) :
    zsetOf ((w.afterAll (deleteOps id s)).redis activeSessionsKey) =
      (zsetOf (w.redis activeSessionsKey)).erase id := by
  refine (congrArg zsetOf (deleted_at (k := .active) uuid trivial)).trans ?_
  unfold deleteOps
  split <;> simp only [List.cons_append, List.nil_append, List.append_nil, Key.entryAfter_cons,
    Key.entryAfter_nil, Op.key] <;> simp [Op.effect, zsetOf_drop, Key.text]

theorem deleted_roomCode (uuid : isUuid id = true) (nonempty : s.roomCode ≠ "") :
    (w.afterAll (deleteOps id s)).redis (roomCodeKey s.roomCode) = none := by
  refine (deleted_at (k := .roomCode s.roomCode) uuid trivial).trans ?_
  simp [deleteOps, nonempty, Op.key, Op.effect]

/-- A deletion leaves the other keys alone. -/
theorem deleted_other (uuid : isUuid id = true) (wfKey : k.Wf) (noSession : k ≠ .session id)
    (noAccess : k ≠ .access id) (noUser : k ≠ .userSessions s.createdBy) (inactive : k ≠ .active)
    (noCode : k = .roomCode s.roomCode → s.roomCode = "") :
    (w.afterAll (deleteOps id s)).redis k.text = w.redis k.text := by
  refine (deleted_at uuid wfKey).trans (Key.entryAfter_of_ne ?_)
  intro op mem own
  rcases List.mem_append.mp mem with first | last
  · simp only [List.mem_cons, List.not_mem_nil, or_false] at first
    rcases first with rfl | rfl | rfl | rfl
    · exact noSession (Option.some.inj own).symm
    · exact noAccess (Option.some.inj own).symm
    · exact noUser (Option.some.inj own).symm
    · exact inactive (Option.some.inj own).symm
  · split at last
    · next nonempty =>
      obtain rfl := List.mem_singleton.mp last
      exact nonempty (noCode (Option.some.inj own).symm)
    · cases last

theorem deleted_users (uuid : isUuid id = true) {other : String} :
    other ∈ setOf ((w.afterAll (deleteOps id s)).redis (userSessionsKey u)) ↔
      other ∈ setOf (w.redis (userSessionsKey u)) ∧ (u = s.createdBy → other ≠ id) := by
  by_cases owner : u = s.createdBy
  · rw [owner, deleted_user uuid, Finset.mem_erase]
    tauto
  · have same := deleted_other (w := w) (s := s) (k := .userSessions u) uuid trivial (by simp)
      (by simp) (by simpa using owner) (by simp) (by simp)
    rw [Key.text] at same
    rw [same]
    tauto

end Deleted

/-! ## The unmapped code -/

section Histories

variable {r : RedisStore} {b : Backend} {w w' : World} {calls : List (Call × Result)}
variable {sc : StoreCall} {a : Result} {ops : List Op} {id : String} {s : Session}

theorem Key.entryAfter_none {now : Nat} {k : Key}
    (stays : ∀ op ∈ ops, op.key = some k → op.effect now none = none) :
    k.entryAfter now ops none = none := by
  induction ops with
  | nil => rfl
  | cons op ops ih =>
    have rest := ih fun op' mem => stays op' (List.mem_cons_of_mem _ mem)
    rw [Key.entryAfter_cons]
    split
    · next own => rw [stays op List.mem_cons_self own, rest]
    · exact rest

/-- No call maps the empty room code. -/
theorem StoreCall.Does.coded (does : sc.Does r w a ops) {id : String} {ttl : Nat} :
    Op.setCode "" id ttl ∉ ops := by
  intro mem
  generalize made : Op.setCode "" id ttl = op at mem
  cases does.issues mem with
  | setCode coded =>
    injection made with empty
    exact coded empty.symm
  | _ => cases made

theorem StoreCall.Does.uncoded (does : sc.Does r w a ops)
    (absent : w.redis (roomCodeKey "") = none) :
    (w.afterAll ops).redis (roomCodeKey "") = none := by
  rw [World.afterAll_roomCode does.wf, absent]
  refine Key.entryAfter_none ?_
  intro op mem own
  cases op <;> cases own
  case setCode => exact absurd mem does.coded
  all_goals rfl

theorem uncoded_of_hist (empty : w.redis = .empty)
    (hist : Hist (Y := b.system noFaults) Unexpired w calls w') :
    Typed w'.redis ∧ w'.redis (roomCodeKey "") = none := by
  refine hist.invariant
    (I := fun _ (w' : World) => Typed w'.redis ∧ w'.redis (roomCodeKey "") = none) ?_ ?_ ?_
  · rw [empty]
    exact ⟨typed_empty, rfl⟩
  · intro calls w₁ call a w₂ _ holds isStore run
    rcases holds with ⟨typed, absent⟩
    cases call with
    | store sc =>
      have alone : Alone (sc.code b.server.store) w₁ a w₂ :=
        run.mono fun _ _ _ _ exec => performs_of_noFaults exec
      obtain ⟨ops, does, rfl⟩ := alone_of_wp (wp_does typed) alone
      exact ⟨World.typed_afterAll typed does.wf, does.uncoded absent⟩
    | _ => cases isStore
  · intro calls w₁ now w₂ _ holds still env
    rcases holds with ⟨typed, absent⟩
    obtain ⟨_, rfl⟩ := env
    have same : (w₁.at_ now).redis = w₁.redis := still
    rw [same]
    exact ⟨typed, absent⟩

/-! ## Deletions -/

/-- A deletion that succeeds has found the session. -/
theorem deleted_of_alone {id : SessionID} (typed : Typed w.redis)
    (run : Alone (r.deleteSession id) w (.ok ()) w') :
    ∃ s, Live w.redis id s ∧ w' = w.afterAll (deleteOps id s) := by
  have holds := alone_of_wp (alone_deleteSession typed id.2) run
  cases parsed : parseSession (hashOf (w.redis (sessionKey id))) with
  | error err =>
    rw [parsed] at holds
    cases holds.1
  | ok s =>
    rw [parsed] at holds
    exact ⟨s, parsed, holds.2⟩

theorem removed_of_absent (typed : Typed w.redis) (uuid : isUuid id = true)
    (session : w.redis (sessionKey id) = none) (access : w.redis (accessKey id) = none)
    (ingress : w.redis (ingressKey id) = none)
    (users : ∀ u, id ∉ setOf (w.redis (userSessionsKey u)))
    (active : id ∉ zsetOf (w.redis activeSessionsKey)) : Removed r w id where
  session := session
  access := access
  ingress := ingress
  users := users
  active := active
  hasAccess u := by
    refine Prog.returns_of_wp (L := worldLogic Cmd.OfStore)
      (fun w _ ofStore => ofStore.enabled w) (Prog.wp_mono (alone_hasAccess typed uuid) ?_)
    intro _ _ holds
    rcases holds with ⟨rfl, _⟩
    rw [access]
    rfl
  getRole u := by
    refine Prog.returns_of_wp (L := worldLogic Cmd.OfStore)
      (fun w _ ofStore => ofStore.enabled w) (Prog.wp_mono (alone_getRole typed uuid) ?_)
    intro _ _ holds
    rcases holds with ⟨rfl, _⟩
    rw [access]
    rfl
  getIngressIDs := by
    refine Prog.returns_of_wp (L := worldLogic Cmd.OfStore)
      (fun w _ ofStore => ofStore.enabled w) (Prog.wp_mono (alone_getIngressIDs typed uuid) ?_)
    intro _ _ holds
    rcases holds with ⟨order, rfl, _⟩
    rw [ingress, setOf_none]
    exact congrArg Except.ok (List.toFinset_eq_empty_iff _ |>.mp (order.toFinset ∅))

/-- The ingresses of a session outlive it. -/
theorem deleted_ingress (uuid : isUuid id = true) :
    (w.afterAll (deleteOps id s)).redis (ingressKey id) = w.redis (ingressKey id) :=
  deleted_other (k := .ingress id) uuid uuid (by simp) (by simp) (by simp) (by simp) (by simp)

/-- The code of a deleted session is unmapped. -/
theorem deleted_code (uncoded : w.redis (roomCodeKey "") = none) (uuid : isUuid id = true) :
    (w.afterAll (deleteOps id s)).redis (roomCodeKey s.roomCode) = none := by
  by_cases nonempty : s.roomCode = ""
  · have same := deleted_other (w := w) (s := s) (k := .roomCode s.roomCode) uuid trivial (by simp)
      (by simp) (by simp) (by simp) fun _ => nonempty
    rw [Key.text, nonempty, uncoded] at same
    rw [nonempty, same]
  · exact deleted_roomCode uuid nonempty

/-- Nothing of the other sessions is lost where the code is not mapped to one of them. -/
theorem othersKept_deleted (uuid : isUuid id = true)
    (own : ∀ other, strOf (w.redis (roomCodeKey s.roomCode)) = some other → other = id) :
    OthersKept w (w.afterAll (deleteOps id s)) id := by
  constructor
  · intro other uuid' away
    refine ⟨?_, ?_, ?_⟩
    · exact deleted_other (k := .session other) uuid uuid' (by simpa using away) (by simp)
        (by simp) (by simp) (by simp)
    · exact deleted_other (k := .access other) uuid uuid' (by simp) (by simpa using away)
        (by simp) (by simp) (by simp)
    · exact deleted_other (k := .ingress other) uuid uuid' (by simp) (by simp) (by simp)
        (by simp) (by simp)
  · intro u other away
    rw [deleted_users uuid]
    tauto
  · intro other away
    rw [deleted_active uuid, Redis.lookup_erase, if_neg away]
  · intro code other away mapped
    refine deleted_other (k := .roomCode code) uuid trivial (by simp) (by simp) (by simp)
      (by simp) fun same => ?_
    injection same with code_
    rw [code_] at mapped
    exact absurd (own other mapped) away

theorem deletesAll_iff (typed : Typed w.redis) (uncoded : w.redis (roomCodeKey "") = none)
    (uuid : isUuid id = true) (live : Live w.redis id s) :
    DeletesAll r w id (w.afterAll (deleteOps id s)) ↔ OnlyStored w id := by
  have only : ∀ s', Live w.redis id s' → s' = s := fun s' live' =>
    Except.ok.inj (live'.symm.trans live)
  constructor
  · intro holds s' live'
    rcases holds with ⟨removed, _, others⟩
    obtain rfl := only s' live'
    refine ⟨?_, fun u listed => ?_, fun other mapped => ?_⟩
    · rw [← deleted_ingress (s := s') uuid]
      exact removed.ingress
    · by_contra away
      exact removed.users u ((deleted_users uuid).mpr ⟨listed, fun owner => absurd owner away⟩)
    · by_contra away
      have kept := others.codes s'.roomCode other away mapped
      rw [deleted_code uncoded uuid] at kept
      rw [← kept, strOf_none] at mapped
      cases mapped
  · intro stored
    obtain ⟨noIngress, owner, own⟩ := stored s live
    refine ⟨?_, fun s' live' => ?_, othersKept_deleted uuid own⟩
    · refine removed_of_absent ?_ uuid (deleted_session uuid) (deleted_access uuid) ?_ ?_ ?_
      · exact World.typed_afterAll typed fun _ mem => wf_of_mem_deleteOps uuid mem
      · rw [deleted_ingress uuid, noIngress]
      · intro u listed
        obtain ⟨before, notOwner⟩ := (deleted_users uuid).mp listed
        exact notOwner (owner u before) rfl
      · rw [deleted_active uuid]
        exact Finmap.notMem_erase_self
    · rw [only s' live']
      exact deleted_code uncoded uuid

/-- A deletion removes all of a session, and nothing of others, just when no ingress was recorded
for it, it is listed for its owner only, and its room code is not mapped to another session. -/
theorem deletes_all_iff (b : Backend) : OfDeletions b fun w id w' =>
    (DeletesAll b.server.store w id w' ↔ OnlyStored w id) := by
  intro w₀ calls w id w' empty hist run
  obtain ⟨typed, uncoded⟩ := uncoded_of_hist empty hist
  obtain ⟨s, live, rfl⟩ := deleted_of_alone typed run
  exact deletesAll_iff typed uncoded id.2 live

end Histories

namespace Sample

/-- An ingress is added to a new session. -/
noncomputable def recorded := created.bind fun run =>
  (backend.code ingressAdded).replay (replayer .never) [.plain, .plain] run.2.2

/-- Then the session is deleted. -/
noncomputable def deletedAfter := recorded.bind fun run =>
  (store.deleteSession id₁).replay (replayer .never) (List.replicate 6 .plain) run.2.2

end Sample

/-- The ingress set of a deleted session is left. -/
theorem ingress_left : ¬ ∀ b, OfDeletions b (DeletesAll b.server.store) := by
  intro deletes
  have observed : Sample.deletedAfter.any (fun run =>
      run.1.isOk && (run.2.2.redis (ingressKey Sample.id₁)).isSome) = true := by decide +kernel
  obtain ⟨⟨done, rest, w'⟩, computed, seen⟩ := (Option.any_eq_true _ _).mp observed
  obtain ⟨ok, left⟩ := (Bool.and_eq_true _ _).mp seen
  obtain ⟨⟨a', rest', w₂⟩, computed', removes⟩ := Option.bind_eq_some_iff.mp computed
  obtain ⟨⟨a, rest'', w₁⟩, creates, adds⟩ := Option.bind_eq_some_iff.mp computed'
  have created : (Sample.backend.code (.store (.createSession Sample.keyLike))).Runs
      (Exec noFaults) (.empty 0 fun _ => 7) a w₁ := Prog.replay_runs creates
  have added : (Sample.backend.code Sample.ingressAdded).Runs (Exec noFaults) w₁ a' w₂ :=
    Prog.replay_runs adds
  have removed : (Sample.store.deleteSession Sample.id₁).Runs (Exec noFaults) w₂ done w' :=
    Prog.replay_runs removes
  obtain rfl : done = .ok () := by
    cases done with
    | ok _ => rfl
    | error err => cases ok
  have hist : Hist (Y := Sample.backend.system noFaults) Unexpired (.empty 0 fun _ => 7)
      [(.store (.createSession Sample.keyLike), a), (Sample.ingressAdded, a')] w₂ :=
    .call (.call .nil rfl created) rfl added
  have all := deletes Sample.backend _ _ w₂ ⟨Sample.id₁, Sample.uuid_id₁⟩ w' rfl hist
    (removed.mono fun _ _ _ _ exec => performs_of_noFaults exec)
  rw [all.1.ingress] at left
  cases left

end DirectLink
