import DirectLink.Interleaving.Duties
import DirectLink.Runs

/-!
# Closed sessions and lost replies

`CreateSession` writes its session again when a reply was lost, also after the session was closed
in between.  As long as it does not, a closed session stays closed and off the list of active
sessions, whatever else is lost or tried again.
-/

namespace DirectLink

section ClosedFinal

variable {b : Backend} {faults : Cmd → Err → Prop}

/-- The stored status of the session is closed. -/
def Closed (s : Pool (b.system faults)) (id : String) : Prop :=
  statusOf s.world.redis id = some statusClosed

/-- The session is listed as active. -/
def Active (s : Pool (b.system faults)) (id : String) : Prop :=
  id ∈ zsetOf (s.world.redis activeSessionsKey)

/-- A write of the status closed was sent. -/
def SentClose (s : Pool (b.system faults)) (id : String) : Prop :=
  ∃ r, s.Saw (.redis (Op.writeStatus id statusClosed).cmd) r

/-- A removal from the active sessions was sent. -/
def SentDrop (s : Pool (b.system faults)) (id : String) : Prop :=
  ∃ r, s.Saw (.redis (Op.dropActive id).cmd) r

/-- The pipeline of `CreateSession` does not write a session again after a close sent its status,
nor add it again to the active sessions after its removal was sent. -/
def NotReissued (s : Pool (b.system faults)) : Move (b.system faults) → Prop
  | .exec _ e =>
    (∀ session, e.cmd = .redis (Op.writeSession session).cmd → ¬ SentClose s session.id) ∧
      ∀ score id, e.cmd = .redis (Op.addActive score id).cmd → ¬ SentDrop s id
  | _ => True

/-- Requests and sweeps, and no pipeline that overtakes a close. -/
def ClosesLast (s : Pool (b.system faults)) (m : Move (b.system faults)) : Prop :=
  RequestsOnly s m ∧ NotReissued s m

variable {G : Pool (b.system faults) → Move (b.system faults) → Prop}
variable {s₀ s s' : Pool (b.system faults)} {m : Move (b.system faults)} {id : String}

/-- What one move of requests and sweeps does to the stored status of a session: nothing, its
expiry, its creation as active, or a close. -/
theorem status_step (typed : Typed s₀.world.redis) (none_ : s₀.threads = [])
    (requests : ∀ s m, G s m → RequestsOnly s m) (uuid : isUuid id = true)
    (reach : Pool.Reach G s₀ s) (step : Pool.Step s m s') :
    (statusOf s'.world.redis id = statusOf s.world.redis id) ∨ ¬ Stored s' id ∨
      (∃ i e session, m = .exec i e ∧ e.cmd = .redis (Op.writeSession session).cmd ∧
        session.id = id ∧ statusOf s'.world.redis id = some "active") ∨
      ((∃ i e, m = .exec i e ∧ e.cmd = .redis (Op.writeStatus id statusClosed).cmd) ∧
        Closed s' id) := by
  cases step with
  | start call => exact .inl rfl
  | @exec i t c k r world at_ next exec =>
    obtain ⟨typed', issued⟩ := reach_issued typed none_ reach at_ next
    have request := reach.calls none_ (fun s call guard => requests s (.start call) guard) t
      (List.mem_of_getElem? at_)
    rcases exec_redis_cases typed' issued exec with same | ⟨op, wf, rfl, does, changed⟩
    · exact .inl (by rw [Pool.advance_world, same])
    · rw [Closed, Pool.advance_world, changed]
      rcases statusOf_apply s.world.now s.world.redis wf uuid with
        same | ⟨session, rfl, own, written⟩ | ⟨status, rfl, written⟩ | rfl
      · exact .inl same
      · obtain ⟨_, _, _, _, active⟩ := does request
        exact .inr (.inr (.inl ⟨i, _, session, rfl, rfl, own, by rw [written, active]⟩))
      · obtain ⟨rfl, _⟩ := does request
        exact .inr (.inr (.inr ⟨⟨i, _, rfl, rfl⟩, written⟩))
      · exact (does request).elim
  | @tick t world env =>
    obtain ⟨_, rfl⟩ := env
    rcases Redis.Db.expire_cases s.world.redis (sessionKey id) t with same | gone
    · exact .inl (by simp only [statusOf, World.at_redis, same])
    · exact .inr (.inl (by simp [Stored, gone]))

theorem SentClose.step (sent : SentClose s id) (step : Pool.Step s m s') : SentClose s' id := by
  obtain ⟨r, seen⟩ := sent
  exact ⟨r, step.seen seen⟩

theorem SentDrop.step (sent : SentDrop s id) (step : Pool.Step s m s') : SentDrop s' id := by
  obtain ⟨r, seen⟩ := sent
  exact ⟨r, step.seen seen⟩

/-- A session stored as closed was closed by a status write. -/
theorem sentClose_of_closed (empty : s₀.world.redis = .empty) (none_ : s₀.threads = [])
    (requests : ∀ s m, G s m → RequestsOnly s m) (uuid : isUuid id = true)
    (reach : Pool.Reach G s₀ s) : Closed s id → SentClose s id := by
  have typed : Typed s₀.world.redis := by
    rw [empty]
    exact typed_empty
  refine Pool.Reach.invariant (I := fun s => Closed s id → SentClose s id) ?_ ?_ reach
  · intro closed
    have := stored_of_status closed
    rw [Stored, empty] at this
    cases this
  · intro s m s' reached sent _ step closed
    rcases status_step typed none_ requests uuid reached step with
      same | gone | ⟨_, _, _, _, _, _, active⟩ | ⟨⟨i, e, rfl, eq⟩, _⟩
    · exact (sent (same.symm.trans closed)).step step
    · exact absurd (stored_of_status closed) gone
    · exact absurd (Option.some.inj (active.symm.trans closed)) (by decide)
    · obtain ⟨c, r⟩ := e
      cases eq
      exact ⟨r, step.seen_exec⟩

/-- One move that does not write the session again leaves it closed. -/
theorem closed_step (empty : s₀.world.redis = .empty) (none_ : s₀.threads = [])
    (uuid : isUuid id = true) (reach : Pool.Reach ClosesLast s₀ s) (guard : ClosesLast s m)
    (step : Pool.Step s m s') (closed : Closed s id) (stored : Stored s' id) : Closed s' id := by
  have typed : Typed s₀.world.redis := by
    rw [empty]
    exact typed_empty
  rcases status_step typed none_ (fun _ _ guard => guard.1) uuid reach step with
    same | gone | ⟨i, e, session, rfl, eq, rfl, _⟩ | ⟨_, closed'⟩
  · exact same.trans closed
  · exact absurd stored gone
  · have sent := sentClose_of_closed empty none_ (fun _ _ guard => guard.1) uuid reach closed
    exact absurd sent (guard.2.1 session eq)
  · exact closed'

/-- One move that does not add the session again leaves it off the active sessions. -/
theorem inactive_step (empty : s₀.world.redis = .empty) (none_ : s₀.threads = [])
    (reach : Pool.Reach ClosesLast s₀ s) (guard : ClosesLast s m) (step : Pool.Step s m s')
    (sent : SentDrop s id) (inactive : ¬ Active s id) : ¬ Active s' id := by
  have typed : Typed s₀.world.redis := by
    rw [empty]
    exact typed_empty
  cases step with
  | start call => exact inactive
  | @exec i t c k r world at_ next exec =>
    obtain ⟨typed', issued⟩ := reach_issued typed none_ reach at_ next
    rcases exec_redis_cases typed' issued exec with same | ⟨op, wf, rfl, _, changed⟩
    · rwa [Active, Pool.advance_world, same]
    · rw [Active, Pool.advance_world, changed]
      intro member
      rcases mem_active_apply wf member with old | ⟨score, rfl⟩
      · exact inactive old
      · exact guard.2.2 score id rfl sent
  | @tick t world env =>
    obtain ⟨_, rfl⟩ := env
    rcases Redis.Db.expire_cases s.world.redis activeSessionsKey t with same | gone
    · simpa only [Active, World.at_redis, same] using inactive
    · simp [Active, gone, Finmap.notMem_empty]

/-- In every state that moves under `G` reach: a session once closed is closed for as long as its
hash exists, and once removed from the active sessions it is never among them again. -/
def ClosedIsFinal (G : Pool (b.system faults) → Move (b.system faults) → Prop)
    (s₀ : Pool (b.system faults)) : Prop :=
  ∀ s id, isUuid id = true → Pool.Reach G s₀ s →
    (Closed s id → ∀ s', Pool.Reach (fun s m => G s m ∧ Stored s id) s s' → Stored s' id →
      Closed s' id) ∧
    (SentDrop s id → ¬ Active s id → ∀ s', Pool.Reach G s s' → ¬ Active s' id)

/-- **Closed is final**, whatever commands fail, as long as no pipeline of `CreateSession` overtakes
a close. -/
theorem closed_is_final (empty : s₀.world.redis = .empty) (none_ : s₀.threads = []) :
    ClosedIsFinal ClosesLast s₀ := by
  intro s id uuid reach
  constructor
  · intro closed s' later stored
    induction later with
    | refl => exact closed
    | tail before edge ih =>
      obtain ⟨m, ⟨guard, stored'⟩, step⟩ := edge
      have reached := reach.trans (Pool.Reach.mono before fun _ _ guard => guard.1)
      exact closed_step empty none_ uuid reached guard step (ih stored') stored
  · intro sent inactive s' later
    suffices SentDrop s' id ∧ ¬ Active s' id from this.2
    induction later with
    | refl => exact ⟨sent, inactive⟩
    | tail before edge ih =>
      obtain ⟨m, guard, step⟩ := edge
      have reached := reach.trans before
      exact ⟨ih.1.step step, inactive_step empty none_ reached guard step ih.1 ih.2⟩

end ClosedFinal

/-- The empty pool of the sample backend. -/
theorem closed_is_final_sample : ClosedIsFinal ClosesLast (Sample.start .lostReplies 7) :=
  closed_is_final rfl rfl

namespace Sample

/-- The owner closes her session while its `CreateSession` waits to try again: the reply of its
last command was lost. -/
noncomputable def closedMeanwhile : Option (Pool (system .lostReplies)) :=
  replay isRequest
    (.start (.createSession ⟨"alice", 2⟩) ::
      go 0 ([.uuid id₁, .plain, .plain, .utc createdAt] ++ List.replicate 6 .plain ++
        [.lost (.other "EOF")]) ++
      .start (.closeSession ⟨"ROOM-000007", "alice"⟩) :: go 1 (List.replicate 8 .plain))
    (start .lostReplies 7)

/-- Requests, while the hash of the first session exists. -/
def isRequestStored (s : Pool (system F)) (m : Move (system F)) : Bool :=
  isRequest s m && (s.world.redis (sessionKey id₁)).isSome

/-- The second attempt writes the session again. -/
noncomputable def reopened (s : Pool (system .lostReplies)) : Option (Pool (system .lostReplies)) :=
  replay isRequestStored (go 0 (List.replicate 3 .plain)) s

end Sample

/-- The second attempt of a `CreateSession` whose reply was lost reopens the closed session. -/
theorem closed_is_not_final : ¬ ClosedIsFinal RequestsOnly (Sample.start .lostReplies 7) := by
  intro final
  have observed : (Sample.closedMeanwhile.any fun s =>
      decide (statusOf s.world.redis Sample.id₁ = some statusClosed) &&
        (Sample.reopened s).any fun s' =>
          decide (statusOf s'.world.redis Sample.id₁ = some "active")) = true := by
    decide +kernel
  obtain ⟨s, computed, observed⟩ := (Option.any_eq_true _ _).mp observed
  obtain ⟨closed, observed⟩ := Bool.and_eq_true_iff.mp observed
  obtain ⟨s', computed', active⟩ := (Option.any_eq_true _ _).mp observed
  have reach := (Sample.reach_of_replay computed).mono fun _ _ => Sample.requestsOnly_of_isRequest
  have later : Pool.Reach (fun s m => RequestsOnly s m ∧ Stored s Sample.id₁) s s' := by
    refine (Sample.reach_of_replay computed').mono fun s m passed => ?_
    obtain ⟨request, stored⟩ := Bool.and_eq_true_iff.mp passed
    exact ⟨Sample.requestsOnly_of_isRequest request, stored⟩
  have active : statusOf s'.world.redis Sample.id₁ = some "active" := of_decide_eq_true active
  have closed : statusOf s.world.redis Sample.id₁ = some statusClosed := of_decide_eq_true closed
  have closed' := (final s Sample.id₁ (by decide) reach).1 closed s' later
    (stored_of_status active)
  exact absurd (Option.some.inj (active.symm.trans closed')) (by decide)

end DirectLink
