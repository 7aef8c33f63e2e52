import DirectLink.Session.Deletion

/-!
# How long access lasts

The roles of a session live under a key with a deadline of its own, which every grant renews.  Calls
of the store are made one at a time, and any time passes in between.
-/

namespace DirectLink

open Redis (Entry)
open RedisStore

/-! ## What is to hold -/

/-- Who has access to a session or a role in it finds the session. -/
def AccessEnds (r : RedisStore) (w : World) : Prop :=
  ∀ (id : SessionID) u,
    ((r.hasAccess id u).Returns Performs w (.ok true) ∨
      ∃ role, role ≠ "" ∧ (r.getRole id u).Returns Performs w (.ok role)) →
    ∃ s, (r.getSession id).Returns Performs w (.ok s)

/-- Calls of the store that satisfy `G` are made, and time passes in any way. -/
def Given (G : World → StoreCall → Prop) (w : World) : Call ⊕ Nat → Prop
  | .inl (.store sc) => G w sc
  | .inl _ => False
  | .inr _ => True

/-- Access never outlives its session where the calls satisfy `G`. -/
def AccessEndsWhen (b : Backend) (G : World → StoreCall → Prop) : Prop :=
  ∀ w calls w', w.redis = .empty → Hist (Y := b.system noFaults) (Given G) w calls w' →
    AccessEnds b.server.store w'

/-- The calls that satisfy `G` grant access to a session only while its hash has the whole TTL
before it: at the instant of its creation. -/
def GrantsInTime (b : Backend) (G : World → StoreCall → Prop) : Prop :=
  ∀ w calls w' id u role d, w.redis = .empty →
    Hist (Y := b.system noFaults) (Given G) w calls w' → G w' (.grantAccess id u role) →
    expiryOf (w'.redis (sessionKey id)) = some d → w'.now + b.server.store.ttl ≤ d

/-! ## The deadlines -/

/-- The hash of a session can be read and expires within the TTL. -/
def Dated (ttl now : Nat) (session : Option Entry) : Prop :=
  session.isSome = true →
    (∃ s, parseSession (hashOf session) = .ok s) ∧ ∃ d, expiryOf session = some d ∧ d ≤ now + ttl

/-- The roles expire no later than the hash. -/
def Covered (session access : Option Entry) : Prop :=
  access.isSome = true →
    ∃ d d', expiryOf session = some d ∧ expiryOf access = some d' ∧ d' ≤ d

section Deadlines

variable {r : RedisStore} {b : Backend} {w w' : World} {sc : StoreCall} {a : Result}
variable {ops : List Op} {id u role : String} {ttl : Nat}

/-- The session whose roles a call can write. -/
def StoreCall.aboutRoles : StoreCall → Option String
  | .deleteSession id | .grantAccess id _ _ | .revokeAccess id _ => some id.1
  | _ => none

theorem StoreCall.Does.session_same (does : sc.Does r w a ops) (uuid : isUuid id = true)
    (away : sc.about ≠ some id) :
    (w.afterAll ops).redis (sessionKey id) = w.redis (sessionKey id) := by
  rw [World.afterAll_session does.wf uuid]
  exact Key.entryAfter_of_ne (does.others away)

theorem StoreCall.Does.access_same (does : sc.Does r w a ops) (uuid : isUuid id = true)
    (away : sc.aboutRoles ≠ some id) :
    (w.afterAll ops).redis (accessKey id) = w.redis (accessKey id) := by
  rw [World.afterAll_access does.wf uuid]
  refine Key.entryAfter_of_ne ?_
  intro op mem own
  cases does.issues mem <;> cases own <;> exact away rfl

/-- A status is written into the hash, whose deadline stays. -/
theorem status_session {status : String} {id : SessionID} :
    (w.afterAll (statusOps id status)).redis (sessionKey id) = keep (w.redis (sessionKey id))
      (.hash ((hashOf (w.redis (sessionKey id))).insert "status" status)) := by
  refine (World.afterAll_session (fun _ mem => wf_of_mem_statusOps id.2 mem) id.2).trans ?_
  unfold statusOps
  split <;> simp [Op.key, Op.effect]

/-- What the calls keep of every session hash. -/
structure Timely (ttl : Nat) (w : World) : Prop where
  typed : Typed w.redis
  dated : ∀ id, isUuid id = true → Dated ttl w.now (w.redis (sessionKey id))

theorem Timely.does (timely : Timely r.ttl w) (does : sc.Does r w a ops) :
    Timely r.ttl (w.afterAll ops) := by
  refine ⟨World.typed_afterAll timely.typed does.wf, fun id uuid => ?_⟩
  have dated := timely.dated id uuid
  rw [World.afterAll_frame]
  by_cases about : sc.about = some id
  · cases sc with
    | createSession new =>
      obtain rfl : new.1.id = id := Option.some.inj about
      obtain rfl := does
      rw [created_session uuid]
      exact fun _ => ⟨⟨_, parseSession_encode new.1⟩, _, rfl, le_rfl⟩
    | updateSessionStatus id' status =>
      obtain rfl : id'.1 = id := Option.some.inj about
      obtain rfl | ⟨there, rfl⟩ := does
      · exact dated
      · obtain ⟨⟨s, parsed⟩, d, expires, young⟩ := dated there
        obtain ⟨stored, hash, _⟩ := Live.stored timely.typed uuid parsed
        rw [status_session, hash, insert_status_encode]
        exact fun _ => ⟨⟨_, parseSession_encode _⟩, d, expires, young⟩
    | deleteSession id' =>
      obtain rfl : id'.1 = id := Option.some.inj about
      obtain rfl | ⟨s, _, rfl⟩ := does
      · exact dated
      · rw [deleted_session uuid]
        exact fun impossible => by cases impossible
    | _ => cases about
  · rw [does.session_same uuid about]
    exact dated

theorem Timely.tick {now : Nat} (timely : Timely ttl w) (later : w.now ≤ now) :
    Timely ttl (w.at_ now) := by
  refine ⟨timely.typed.expire now, fun id uuid there => ?_⟩
  rw [World.at_redis] at there ⊢
  rcases Redis.Db.expire_cases w.redis (sessionKey id) now with same | gone
  · rw [same] at there ⊢
    obtain ⟨parsed, d, expires, young⟩ := timely.dated id uuid there
    refine ⟨parsed, d, expires, ?_⟩
    rw [World.at_now]
    omega
  · rw [gone] at there
    cases there

theorem timely_of_hist {G : World → StoreCall → Prop} {calls : List (Call × Result)}
    (empty : w.redis = .empty) (hist : Hist (Y := b.system noFaults) (Given G) w calls w') :
    Timely b.server.store.ttl w' := by
  refine hist.invariant (I := fun _ (w' : World) => Timely b.server.store.ttl w') ?_ ?_ ?_
  · refine ⟨by rw [empty]; exact typed_empty, fun id _ there => ?_⟩
    rw [empty] at there
    cases there
  · intro calls w₁ call a w₂ _ timely given run
    cases call with
    | store sc =>
      have alone : Alone (sc.code b.server.store) w₁ a w₂ :=
        run.mono fun _ _ _ _ exec => performs_of_noFaults exec
      obtain ⟨ops, does, rfl⟩ := alone_of_wp (wp_does timely.typed) alone
      exact timely.does does
    | _ => exact given.elim
  · intro calls w₁ now w₂ _ timely _ env
    obtain ⟨later, rfl⟩ := env
    exact timely.tick later

/-! ## The roles -/

theorem isSome_of_expiryOf {e : Option Entry} {d : Nat} (expires : expiryOf e = some d) :
    e.isSome = true := by
  cases e with
  | none => cases expires
  | some entry => rfl

/-- A revocation brings no roles into being and keeps their deadline. -/
theorem Covered.revoked {session access : Option Entry} (covered : Covered session access)
    (now : Nat) : Covered session ((Op.dropRole id u).effect now access) := by
  intro left
  rw [Op.effect] at left ⊢
  split at left
  · cases left
  · next remains =>
    have there : access.isSome = true := by
      cases access with
      | none => exact absurd rfl remains
      | some entry => rfl
    rw [if_neg remains]
    exact covered there

/-- A call that grants in time keeps the roles from outlasting the hash. -/
theorem covered_of_does (timely : Timely r.ttl w) (does : sc.Does r w a ops)
    (inTime : ∀ id u role d, sc = .grantAccess id u role →
      expiryOf (w.redis (sessionKey id)) = some d → w.now + r.ttl ≤ d)
    (uuid : isUuid id = true)
    (covered : Covered (w.redis (sessionKey id)) (w.redis (accessKey id))) :
    Covered ((w.afterAll ops).redis (sessionKey id)) ((w.afterAll ops).redis (accessKey id)) := by
  by_cases about : sc.about = some id
  · cases sc with
    | createSession new =>
      obtain rfl : new.1.id = id := Option.some.inj about
      rw [does.access_same uuid (by simp [StoreCall.aboutRoles])]
      obtain rfl := does
      rw [created_session uuid]
      intro there
      obtain ⟨d, d', expires, expires', le⟩ := covered there
      obtain ⟨_, d₀, same, young⟩ := timely.dated _ uuid (isSome_of_expiryOf expires)
      obtain rfl : d = d₀ := Option.some.inj (expires.symm.trans same)
      exact ⟨_, d', rfl, expires', le.trans young⟩
    | updateSessionStatus id' status =>
      obtain rfl : id'.1 = id := Option.some.inj about
      rw [does.access_same uuid (by simp [StoreCall.aboutRoles])]
      obtain rfl | ⟨_, rfl⟩ := does
      · exact covered
      · rw [status_session]
        exact covered
    | deleteSession id' =>
      obtain rfl : id'.1 = id := Option.some.inj about
      obtain rfl | ⟨s, _, rfl⟩ := does
      · exact covered
      · rw [deleted_access uuid]
        exact fun impossible => by cases impossible
    | _ => cases about
  rw [does.session_same uuid about]
  by_cases roles : sc.aboutRoles = some id
  · cases sc with
    | deleteSession id' => exact absurd roles about
    | grantAccess id' u role =>
      obtain rfl : id'.1 = id := Option.some.inj roles
      obtain ⟨_, rfl⟩ | ⟨there, _, rfl⟩ := does
      · exact covered
      · obtain ⟨_, d, expires, _⟩ := timely.dated _ uuid there
        rw [granted_access uuid]
        exact fun _ => ⟨d, _, expires, rfl, inTime id' u role d rfl expires⟩
    | revokeAccess id' u =>
      obtain rfl : id'.1 = id := Option.some.inj roles
      have wf := does.wf
      obtain rfl := does
      rw [World.afterAll_access wf uuid, Key.entryAfter_cons, Key.entryAfter_nil,
        if_pos (by rw [Op.key])]
      exact covered.revoked w.now
    | _ => cases roles
  · rw [does.access_same uuid roles]
    exact covered

theorem covered_tick {now : Nat}
    (covered : Covered (w.redis (sessionKey id)) (w.redis (accessKey id))) :
    Covered ((w.at_ now).redis (sessionKey id)) ((w.at_ now).redis (accessKey id)) := by
  intro there
  rw [World.at_redis] at there ⊢
  have same : w.redis.expire now (accessKey id) = w.redis (accessKey id) := by
    rcases Redis.Db.expire_cases w.redis (accessKey id) now with same | gone
    · exact same
    · rw [gone] at there
      cases there
  have before := there
  rw [same] at before ⊢
  obtain ⟨d, d', expires, expires', le⟩ := covered before
  have early : now < d' := Redis.Db.lt_of_expire there expires'
  rw [Redis.Db.expire_of_lt expires (early.trans_le le)]
  exact ⟨d, d', expires, expires', le⟩

theorem covered_of_hist {G : World → StoreCall → Prop} {calls : List (Call × Result)}
    (inTime : GrantsInTime b G) (empty : w.redis = .empty)
    (hist : Hist (Y := b.system noFaults) (Given G) w calls w') (uuid : isUuid id = true) :
    Covered (w'.redis (sessionKey id)) (w'.redis (accessKey id)) := by
  refine hist.invariant (I := fun _ (w' : World) =>
    Covered (w'.redis (sessionKey id)) (w'.redis (accessKey id))) ?_ ?_ ?_
  · rw [empty]
    exact fun impossible => by cases impossible
  · intro calls w₁ call a w₂ before covered given run
    have timely := timely_of_hist empty before
    cases call with
    | store sc =>
      have alone : Alone (sc.code b.server.store) w₁ a w₂ :=
        run.mono fun _ _ _ _ exec => performs_of_noFaults exec
      obtain ⟨ops, does, rfl⟩ := alone_of_wp (wp_does timely.typed) alone
      refine covered_of_does timely does ?_ uuid covered
      intro id u role d same expires
      subst same
      exact inTime w calls w₁ id u role d empty before given expires
    | _ => exact given.elim
  · intro calls w₁ now w₂ _ covered _ env
    obtain ⟨_, rfl⟩ := env
    exact covered_tick covered

/-! ## What the calls answer -/

/-- Who has a role finds the session. -/
theorem accessEnds_iff (typed : Typed w.redis) :
    AccessEnds r w ↔ ∀ (id : SessionID) u,
      ((hashOf (w.redis (accessKey id))).lookup u).isSome = true → ∃ s, Live w.redis id s := by
  have enabled : ∀ (w : World) c, c.OfStore → ∃ reply w', Performs w c reply w' :=
    fun w _ ofStore => ofStore.enabled w
  constructor
  · intro ends id u given
    have has : (r.hasAccess id u).Returns Performs w (.ok true) := by
      refine Prog.returns_of_wp (L := worldLogic Cmd.OfStore) enabled
        (Prog.wp_mono (alone_hasAccess typed id.2) ?_)
      intro _ _ holds
      rcases holds with ⟨rfl, _⟩
      rw [given]
    obtain ⟨s, ⟨w₁, run⟩, _⟩ := ends id u (.inl has)
    exact ⟨s, (alone_of_wp (alone_getSession typed id.2) run).1.symm⟩
  · intro found id u access
    have given : ((hashOf (w.redis (accessKey id))).lookup u).isSome = true := by
      rcases access with ⟨⟨w₁, run⟩, _⟩ | ⟨role, nonempty, ⟨w₁, run⟩, _⟩
      · exact (Except.ok.inj (alone_of_wp (alone_hasAccess typed id.2) run).1).symm
      · have role_ := Except.ok.inj (alone_of_wp (alone_getRole typed id.2) run).1
        cases given : (hashOf (w.redis (accessKey id))).lookup u with
        | none =>
          rw [given] at role_
          exact absurd role_ nonempty
        | some _ => rfl
    obtain ⟨s, live⟩ := found id u given
    refine ⟨s, Prog.returns_of_wp (L := worldLogic Cmd.OfStore) enabled
      (Prog.wp_mono (alone_getSession typed id.2) ?_)⟩
    intro _ _ holds
    rcases holds with ⟨rfl, _⟩
    exact live

theorem accessEnds_of_covered (timely : Timely ttl w)
    (covered : ∀ id, isUuid id = true →
      Covered (w.redis (sessionKey id)) (w.redis (accessKey id))) : AccessEnds r w := by
  refine (accessEnds_iff timely.typed).mpr fun id u given => ?_
  have there : (w.redis (accessKey id)).isSome = true := by
    cases access : w.redis (accessKey id) with
    | none =>
      rw [access, hashOf_none] at given
      cases given
    | some entry => rfl
  obtain ⟨d, _, expires, _⟩ := covered id id.2 there
  exact (timely.dated id id.2 (isSome_of_expiryOf expires)).1

/-- A grant on a session that exists. -/
theorem runs_grantAccess {id : SessionID} (typed : Typed w.redis)
    (there : (w.redis (sessionKey id)).isSome = true) :
    (b.code (.store (.grantAccess id u role))).Runs (Exec noFaults) w (.unit (.ok ()))
      (w.afterAll (b.server.store.grantOps id u role)) := by
  have grants : (b.server.store.grantAccess id u role).wp (worldLogic Cmd.OfStore)
      (fun a w₁ => a = .ok () ∧ w₁ = w.afterAll (b.server.store.grantOps id u role)) w := by
    refine Prog.wp_mono (alone_grantAccess typed id.2) fun a w₁ holds => ?_
    rwa [if_pos there] at holds
  obtain ⟨_, _, run, rfl, rfl⟩ := alone_total grants
  exact Prog.runs_bind.mpr ⟨_, _, run.mono fun _ _ _ _ performs => .inl performs, .done⟩

/-- A key whose deadline has come is gone. -/
theorem expired_of_le {db : Redis.Db} {k : String} {d now : Nat}
    (expires : expiryOf (db k) = some d) (past : d ≤ now) : db.expire now k = none := by
  rcases Redis.Db.expire_cases db k now with same | gone
  · have left := isSome_of_expiryOf expires
    rw [← same] at left
    exact absurd (Redis.Db.lt_of_expire left expires) (Nat.not_lt.mpr past)
  · exact gone

/-- Where a grant was not in time, the roles are left when the hash is gone. -/
theorem access_outlasts {id : SessionID} {d : Nat} (typed : Typed w.redis)
    (expires : expiryOf (w.redis (sessionKey id)) = some d) (late : d < w.now + r.ttl) :
    ¬ AccessEnds r ((w.afterAll (r.grantOps id u role)).at_ (max d w.now)) := by
  have wf : ∀ op ∈ r.grantOps id u role, op.Wf := fun _ mem => wf_of_mem_grantOps id.2 mem
  have session : (w.afterAll (r.grantOps id u role)).redis (sessionKey id) =
      w.redis (sessionKey id) :=
    granted_other (k := .session id) id.2 id.2 (by simp)
  have early : max d w.now < w.now + r.ttl :=
    max_lt late (Nat.lt_add_of_pos_right r.ttl_pos)
  have access : (w.afterAll (r.grantOps id u role)).redis (accessKey id) =
      some ⟨.hash _, some (w.now + r.ttl)⟩ :=
    granted_access id.2
  have left := Redis.Db.expire_of_lt (congrArg expiryOf access) early
  rw [access] at left
  have gone : (w.afterAll (r.grantOps id u role)).redis.expire (max d w.now) (sessionKey id) =
      none := by
    rw [← session] at expires
    exact expired_of_le expires (le_max_left ..)
  intro ends
  have given : ((hashOf (((w.afterAll (r.grantOps id u role)).at_ (max d w.now)).redis
      (accessKey id))).lookup u).isSome = true := by
    rw [World.at_redis, left]
    exact congrArg Option.isSome (Finmap.lookup_insert _)
  obtain ⟨s, live⟩ := (accessEnds_iff
    ((World.typed_afterAll typed wf).expire (max d w.now))).mp ends id u given
  have there := live.isSome
  rw [World.at_redis, gone] at there
  cases there

theorem inTime_of_accessEnds {G : World → StoreCall → Prop} (ends : AccessEndsWhen b G) :
    GrantsInTime b G := by
  intro w calls w' id u role d empty hist given expires
  by_contra late
  have timely := timely_of_hist empty hist
  have run : (b.code (.store (.grantAccess id u role))).Runs (Exec noFaults) w' (.unit (.ok ()))
      (w'.afterAll (b.server.store.grantOps id u role)) :=
    runs_grantAccess timely.typed (isSome_of_expiryOf expires)
  have waited : (b.system noFaults).Env (w'.afterAll (b.server.store.grantOps id u role))
      (max d w'.now)
      ((w'.afterAll (b.server.store.grantOps id u role)).at_ (max d w'.now)) := by
    refine ⟨?_, rfl⟩
    rw [World.afterAll_frame]
    exact le_max_right ..
  have made : Hist (Y := b.system noFaults) (Given G) w
      (calls ++ [(.store (.grantAccess id u role), .unit (.ok ()))]) _ := .call hist given run
  have after : Hist (Y := b.system noFaults) (Given G) w _ _ := .tick made trivial waited
  exact access_outlasts timely.typed expires (Nat.lt_of_not_le late) (ends _ _ _ empty after)

/-- Access ends with its session just when it is granted only while the hash has the whole TTL
before it. -/
theorem access_ends_iff (b : Backend) (G : World → StoreCall → Prop) :
    AccessEndsWhen b G ↔ GrantsInTime b G := by
  constructor
  · exact inTime_of_accessEnds
  · intro inTime w calls w' empty hist
    exact accessEnds_of_covered (timely_of_hist empty hist) fun _ uuid =>
      covered_of_hist inTime empty hist uuid

end Deadlines

/-- Half a day after the creation of a session access to it is granted: the access outlives it. -/
theorem access_outlives : ¬ ∀ b, AccessEndsWhen b fun _ _ => True := by
  intro ends
  have observed : Sample.created.any (fun run =>
      decide (expiryOf ((run.2.2.at_ (43200 * second)).redis (sessionKey Sample.id₁)) =
        some (86400 * second)) && decide (run.2.2.now = 0)) = true := by decide +kernel
  obtain ⟨⟨a, rest, w₁⟩, creates, seen⟩ := (Option.any_eq_true _ _).mp observed
  obtain ⟨expires, start⟩ := (Bool.and_eq_true _ _).mp seen
  have created : (Sample.backend.code (.store (.createSession Sample.keyLike))).Runs
      (Exec noFaults) (.empty 0 fun _ => 7) a w₁ := Prog.replay_runs creates
  have waited : (Sample.backend.system noFaults).Env w₁ (43200 * second)
      (w₁.at_ (43200 * second)) := by
    refine ⟨?_, rfl⟩
    rw [of_decide_eq_true start]
    exact Nat.zero_le _
  have hist : Hist (Y := Sample.backend.system noFaults) (Given fun _ _ => True)
      (.empty 0 fun _ => 7) [(.store (.createSession Sample.keyLike), a)]
      (w₁.at_ (43200 * second)) := .tick (.call .nil trivial created) trivial waited
  have late : 43200 * second + Sample.store.ttl ≤ 86400 * second :=
    inTime_of_accessEnds (ends Sample.backend) _ _ _ ⟨Sample.id₁, Sample.uuid_id₁⟩
      "u" "camera" _ rfl hist trivial (of_decide_eq_true expires)
  exact absurd late (by decide)

end DirectLink
