import DirectLink.Client.DirectorTransport

/-!
# The order of calls and reports

The state string, the room and the session of `DirectorTransport` agree in every run in which the
application's calls, the reports of LiveKit and the handlers come in order: no report says that an
open connection is disconnected, or that one that was given up is not; no attempt is pending when
`shutdown` is called; and no handler runs before the first report.
-/

namespace DirectLink

namespace DirectorTransport

/-- An attempt whose handler has not run. -/
def State.Attempting (s : State) : Prop :=
  ∃ (n : Nat) (a : Attempt), s.attempts[n]? = some a ∧ a ≠ .handled

/-- The state string agrees with the room, the session and the attempts. -/
structure Consistent (s : State) : Prop where
  alone : s.connectionState = .disconnected → s.session = none ∧ s.room = false
  roomed : s.session ≠ none → s.room = true
  attempting : s.connectionState = .connecting → s.Attempting ∨ s.reported = some .reconnecting
  left : s.left = true → s.connectionState = .disconnected

/-- An attempt other than the one whose handler runs. -/
def State.OtherAttempt (s : State) (n : Nat) : Prop :=
  ∃ (n' : Nat) (a : Attempt), n' ≠ n ∧ s.attempts[n']? = some a ∧ a ≠ .handled

/-- The attempt of `m_connectWatcher` has not failed. -/
def State.Hopeful (s : State) : Prop :=
  ∃ n, s.connectWatcher = some n ∧ s.attempts[n]? ≠ some (.finished false)

/-- Calls and reports in order.  `shutdown` is called for an attempt that may succeed only after
`disconnectFromRoom`.  LiveKit reports that it is disconnected once the connection was given up, and
anything else only if `disconnectFromRoom` was not called last, nor called since an attempt that may
succeed.  The handler of an attempt runs after `disconnectFromRoom` or a report of LiveKit, unless
another attempt is pending or the report before was of reconnecting. -/
def InOrder (s : State) : Move → Prop
  | .shutdown => s.Hopeful → .disconnectFromRoom ∈ s.since
  | .connectionStateChanged .disconnected =>
    .connectToRoom ∈ s.since → .disconnectFromRoom ∈ s.since ∨ .shutdown ∈ s.since
  | .connectionStateChanged _ => s.left = false ∧ (.disconnectFromRoom ∈ s.since → ¬ s.Hopeful)
  | .connectFinished n =>
    .disconnectFromRoom ∈ s.since ∨ (∃ state, .connectionStateChanged state ∈ s.since) ∨
      s.OtherAttempt n ∨ s.reported = some .reconnecting
  | _ => True

/-- Only the attempts and their handlers move. -/
def Completing (_ : State) : Move → Prop
  | .finish .. | .connectFinished _ => True
  | _ => False

variable {s s' : State} {m : Move} {n : Nat}

/-- Once an attempt is handled, the others are left. -/
theorem State.attempting_iff (handled : s'.attempts = s.attempts.set n .handled) :
    s'.Attempting ↔ s.OtherAttempt n := by
  unfold State.Attempting State.OtherAttempt
  rw [handled]
  constructor
  · intro ⟨n', a, found, unhandled⟩
    have other : n' ≠ n := by
      intro same
      subst same
      rw [List.getElem?_set_self'] at found
      cases inside : s.attempts[n']? with
      | none => simp [inside] at found
      | some _ =>
        rw [inside] at found
        exact unhandled (Option.some.inj found).symm
    rw [List.getElem?_set_ne (Ne.symm other)] at found
    exact ⟨n', a, other, found, unhandled⟩
  · intro ⟨n', a, other, found, unhandled⟩
    refine ⟨n', a, ?_, unhandled⟩
    rw [List.getElem?_set_ne (Ne.symm other)]
    exact found

/-! ### Runs in order -/

/-- What every state of a run in order keeps. -/
structure Ordered (s : State) : Prop where
  alone : s.connectionState = .disconnected → s.session = none ∧ s.room = false
  roomed : s.session ≠ none → s.room = true
  connecting : s.connectionState = .connecting → s.reported = some .reconnecting ∨
    (s.Attempting ∧ .disconnectFromRoom ∉ s.since ∧
      ∀ state, .connectionStateChanged state ∉ s.since)
  left : s.left = true → s.connectionState = .disconnected
  /-- The connection is open. -/
  opened : s.room = true ↔
    .connectToRoom ∈ s.since ∧ .disconnectFromRoom ∉ s.since ∧ .shutdown ∉ s.since
  watched : ∀ n, s.connectWatcher = some n → .connectToRoom ∈ s.since ∧
    (s.attempts[n]? = some .running ∨ ∃ success, s.attempts[n]? = some (.finished success))
  pending : s.Hopeful → s.room = true ∨
    (.disconnectFromRoom ∈ s.since ∧ s.connectionState = .disconnected)
  /-- Nothing but `disconnectFromRoom` and a report ends the connecting. -/
  waiting : .connectToRoom ∈ s.since → .disconnectFromRoom ∉ s.since →
    (∀ state, .connectionStateChanged state ∉ s.since) → s.connectionState = .connecting

theorem Ordered.consistent (ordered : Ordered s) : Consistent s :=
  ⟨ordered.alone, ordered.roomed,
    fun connecting => (ordered.connecting connecting).symm.imp_left And.left, ordered.left⟩

theorem ordered_fresh : Ordered State.fresh := by
  constructor <;> simp [State.fresh, State.Hopeful]

theorem Ordered.connectToRoom (ordered : Ordered s) (token url : String) :
    Ordered { s.connectToRoom token url with left := false } := by
  have unchanged : Ordered { s with left := false } :=
    ⟨ordered.alone, ordered.roomed, ordered.connecting, nofun, ordered.opened, ordered.watched,
      ordered.pending, ordered.waiting⟩
  unfold State.connectToRoom
  split
  · exact unchanged
  split
  · exact unchanged
  refine ⟨nofun, fun _ => rfl, fun _ => .inr ⟨?_, by simp, by simp⟩, nofun, by simp, ?_,
    fun _ => .inl rfl, fun _ _ _ => rfl⟩
  · exact ⟨s.attempts.length, .running, by simp, by simp⟩
  · intro n watcher
    cases watcher
    exact ⟨by simp, .inl (by simp)⟩

theorem Ordered.disconnectFromRoom (ordered : Ordered s) :
    Ordered { s.disconnectFromRoom with
      left := true, since := s.since ++ [.disconnectFromRoom] } := by
  have fields : s.disconnectFromRoom.connectionState = .disconnected ∧
      s.disconnectFromRoom.session = none ∧ s.disconnectFromRoom.room = false ∧
      s.disconnectFromRoom.attempts = s.attempts ∧
      s.disconnectFromRoom.connectWatcher = s.connectWatcher := by
    unfold State.disconnectFromRoom
    split
    · next disconnected =>
      exact ⟨disconnected, (ordered.alone disconnected).1, (ordered.alone disconnected).2, rfl, rfl⟩
    · exact ⟨rfl, rfl, rfl, rfl, rfl⟩
  obtain ⟨disconnected, session, room, attempts, watcher⟩ := fields
  refine ⟨fun _ => ⟨session, room⟩, fun there => absurd session there, ?_, fun _ => disconnected,
    ?_, ?_, fun _ => .inr ⟨by simp, disconnected⟩, ?_⟩
  · intro connecting
    rw [show s.disconnectFromRoom.connectionState = .connecting from connecting] at disconnected
    cases disconnected
  · simp [room]
  · intro n watched
    dsimp only at watched ⊢
    rw [watcher] at watched
    rw [attempts]
    obtain ⟨begun, found⟩ := ordered.watched n watched
    exact ⟨List.mem_append_left _ begun, found⟩
  · intro _ never
    simp at never

theorem Ordered.shutdown (ordered : Ordered s) (inOrder : InOrder s .shutdown) :
    Ordered { s.shutdown with since := s.since ++ [.shutdown] } := by
  refine ⟨fun _ => ⟨rfl, rfl⟩, fun there => absurd rfl there, ?_, ordered.left, ?_, ?_, ?_, ?_⟩
  · intro connecting
    exact (ordered.connecting connecting).imp_right fun ⟨attempting, kept, silent⟩ =>
      ⟨attempting, by simpa using kept, by simpa using silent⟩
  · simp [State.shutdown]
  · intro n watched
    obtain ⟨begun, found⟩ := ordered.watched n watched
    exact ⟨List.mem_append_left _ begun, found⟩
  · intro hopeful
    have given_up := inOrder hopeful
    obtain room | ⟨_, disconnected⟩ := ordered.pending hopeful
    · exact absurd given_up (ordered.opened.mp room).2.1
    · exact .inr ⟨List.mem_append_left _ given_up, disconnected⟩
  · intro begun kept silent
    exact ordered.waiting (by simpa using begun) (by simpa using kept) (by simpa using silent)

/-- A finished attempt is still one whose handler has not run. -/
theorem Ordered.finish {success : Bool} (ordered : Ordered s)
    (running : s.attempts[n]? = some .running) :
    Ordered { s with attempts := s.attempts.set n (.finished success) } := by
  have inside : n < s.attempts.length := (List.getElem?_eq_some_iff.mp running).1
  refine ⟨ordered.alone, ordered.roomed, ?_, ordered.left, ordered.opened, ?_, ?_,
    ordered.waiting⟩
  · intro connecting
    refine (ordered.connecting connecting).imp_right fun ⟨_, rest⟩ => ⟨?_, rest⟩
    exact ⟨n, .finished success, List.getElem?_set_self inside, by simp⟩
  · intro n' watched
    obtain ⟨begun, found⟩ := ordered.watched n' watched
    refine ⟨begun, ?_⟩
    by_cases own : n' = n
    · subst own
      exact .inr ⟨success, List.getElem?_set_self inside⟩
    · dsimp only
      rw [List.getElem?_set_ne (Ne.symm own)]
      exact found
  · intro ⟨n', watched, unfailed⟩
    refine ordered.pending ⟨n', watched, fun failed => ?_⟩
    by_cases own : n' = n
    · subst own
      rw [running] at failed
      cases failed
    · dsimp only at unfailed
      rw [List.getElem?_set_ne (Ne.symm own)] at unfailed
      exact unfailed failed

theorem Ordered.connectFinished (ordered : Ordered s) (inOrder : InOrder s (.connectFinished n))
    (step : s.connectFinished n = some s') : Ordered s' := by
  obtain ⟨k, success, watcher, finished, _, after⟩ := State.of_connectFinished step
  have others : s'.Attempting ↔ s.OtherAttempt n := State.attempting_iff (by rw [after])
  -- a session is made only while the connection is open
  have roomed : s.connectionState ≠ .disconnected → success = true → s.room = true := by
    intro going succeeded
    have hopeful : s.Hopeful := ⟨k, watcher, by rw [finished, succeeded]; simp⟩
    obtain room | ⟨_, disconnected⟩ := ordered.pending hopeful
    · exact room
    · exact absurd disconnected going
  have unwatched : s'.connectWatcher = none := by rw [after]
  refine ⟨?_, ?_, ?_, ?_, ?_, ?_, ?_, ?_⟩
  · intro disconnected
    rw [after] at disconnected ⊢
    dsimp only at disconnected ⊢
    rw [if_neg fun going => going.1 disconnected]
    exact ordered.alone disconnected
  · rw [after]
    dsimp only
    split
    · next going => exact fun _ => roomed going.1 going.2
    · exact ordered.roomed
  · intro connecting
    rw [others]
    rw [after] at connecting ⊢
    obtain reconnecting | ⟨_, kept, silent⟩ := ordered.connecting connecting
    · exact .inl reconnecting
    · obtain given_up | ⟨state, heard⟩ | other | reconnecting := inOrder
      · exact absurd given_up kept
      · exact absurd heard (silent state)
      · exact .inr ⟨other, kept, silent⟩
      · exact .inl reconnecting
  · rw [after]
    exact ordered.left
  · rw [after]
    exact ordered.opened
  · intro n' watched
    rw [unwatched] at watched
    cases watched
  · intro ⟨n', watched, _⟩
    rw [unwatched] at watched
    cases watched
  · rw [after]
    exact ordered.waiting

theorem Ordered.connectionStateChanged (ordered : Ordered s) {state : RoomState}
    (inOrder : InOrder s (.connectionStateChanged state)) :
    Ordered { s.connectionStateChanged state with
      reported := some state, since := s.since ++ [.connectionStateChanged state] } := by
  rw [State.connectionStateChanged_eq]
  -- a report says just that it is reconnecting, when the state becomes connecting
  have connecting : stateOf state = .connecting → some state = some RoomState.reconnecting := by
    cases state <;> simp [stateOf]
  have watched : ∀ n, s.connectWatcher = some n →
      .connectToRoom ∈ s.since ++ [.connectionStateChanged state] ∧
        (s.attempts[n]? = some .running ∨
          ∃ success, s.attempts[n]? = some (.finished success)) := by
    intro n watcher
    exact (ordered.watched n watcher).imp_left (List.mem_append_left _)
  have opened : s.room = true ↔ .connectToRoom ∈ s.since ++ [.connectionStateChanged state] ∧
      .disconnectFromRoom ∉ s.since ++ [.connectionStateChanged state] ∧
      .shutdown ∉ s.since ++ [.connectionStateChanged state] := by
    simpa using ordered.opened
  refine ⟨?_, ordered.roomed, fun now => .inl (connecting now), ?_, opened, watched, ?_, ?_⟩
  · intro disconnected
    have given_up : state = .disconnected := by
      cases state with
      | disconnected => rfl
      | connected | reconnecting | other => cases disconnected
    subst given_up
    have away : s.room = false := by
      by_contra room
      obtain ⟨begun, kept, open_⟩ := ordered.opened.mp (by simpa using room)
      exact (inOrder begun).elim kept open_
    refine ⟨?_, away⟩
    by_contra session
    rw [ordered.roomed session] at away
    cases away
  · intro leaves
    cases state with
    | disconnected => rfl
    | connected | reconnecting | other =>
      have stays : s.left = false := inOrder.1
      rw [show s.left = true from leaves] at stays
      cases stays
  · intro hopeful
    have hopeful : s.Hopeful := hopeful
    obtain room | ⟨given_up, disconnected⟩ := ordered.pending hopeful
    · exact .inl room
    · cases state with
      | disconnected => exact .inr ⟨List.mem_append_left _ given_up, rfl⟩
      | connected | reconnecting | other => exact absurd hopeful (inOrder.2 given_up)
  · intro _ _ silent
    exact absurd (List.mem_append_right _ (List.mem_singleton_self _)) (silent state)

theorem Ordered.runLambda (ordered : Ordered s) (lambda : TrackLambda) :
    Ordered (s.runLambda lambda) := by
  unfold State.runLambda
  split
  · exact ⟨ordered.alone, ordered.roomed, ordered.connecting, ordered.left, ordered.opened,
      ordered.watched, ordered.pending, ordered.waiting⟩
  · next tracks session =>
    have room : s.room = true := ordered.roomed (by rw [session]; simp)
    refine ⟨fun disconnected => ?_, fun _ => room, ordered.connecting, ordered.left,
      ordered.opened, ordered.watched, ordered.pending, ordered.waiting⟩
    have alone := ordered.alone disconnected
    rw [session] at alone
    cases alone.1

theorem Ordered.next (ordered : Ordered s) (inOrder : InOrder s m) (step : s.next m = some s') :
    Ordered s' := by
  cases m with
  | connectToRoom token url =>
    cases step
    exact ordered.connectToRoom token url
  | disconnectFromRoom =>
    cases step
    exact ordered.disconnectFromRoom
  | shutdown =>
    cases step
    exact ordered.shutdown inOrder
  | finish n success =>
    dsimp only [State.next] at step
    split at step
    · next running =>
      cases step
      exact ordered.finish running
    · cases step
  | connectFinished n => exact ordered.connectFinished inOrder step
  | connectionStateChanged state =>
    cases step
    exact ordered.connectionStateChanged inOrder
  | disconnected =>
    cases step
    exact ordered
  | report event =>
    cases step
    exact ⟨ordered.alone, ordered.roomed, ordered.connecting, ordered.left, ordered.opened,
      ordered.watched, ordered.pending, ordered.waiting⟩
  | runLambda k =>
    dsimp only [State.next] at step
    split at step
    · cases step
    · next lambda _ =>
      split at step
      · cases step
        refine Ordered.runLambda ?_ lambda
        exact ⟨ordered.alone, ordered.roomed, ordered.connecting, ordered.left, ordered.opened,
          ordered.watched, ordered.pending, ordered.waiting⟩
      · cases step

/-! ### Moves out of order -/

/-- An attempt that may succeed can do so, and its handler make a session without a room. -/
theorem Ordered.exists_roomless (ordered : Ordered s) (hopeful : s.Hopeful)
    (attempts : s'.attempts = s.attempts) (watcher : s'.connectWatcher = s.connectWatcher)
    (going : s'.connectionState ≠ .disconnected) (room : s'.room = false) :
    ∃ s₂, machine.Reach Completing s' s₂ ∧ ¬ Consistent s₂ := by
  obtain ⟨n, watched, unfailed⟩ := hopeful
  -- the handler of an attempt that has succeeded
  have handler : ∀ t : State, t.connectWatcher = some n → t.attempts[n]? = some (.finished true) →
      t.connectionState ≠ .disconnected → t.room = false →
      ∃ s₂, machine.Reach Completing t s₂ ∧ ¬ Consistent s₂ := by
    intro t watched finished going room
    have step : t.connectFinished n = some { t with
        attempts := t.attempts.set n .handled, connectWatcher := none, session := some ∅ } := by
      simp [State.connectFinished, finished, watched, going]
    refine ⟨_, Machine.Reach.step (m := .connectFinished n) .refl trivial step, ?_⟩
    intro consistent
    have roomed := consistent.roomed (by simp)
    rw [show t.room = true from roomed] at room
    cases room
  rw [← watcher] at watched
  rw [← attempts] at unfailed
  have found := (ordered.watched n (watcher ▸ watched)).2
  rw [← attempts] at found
  obtain running | ⟨success, finished⟩ := found
  · have step : s'.next (.finish n true) = some
        { s' with attempts := s'.attempts.set n (.finished true) } := by
      dsimp only [State.next]
      rw [if_pos running]
    have finished : (s'.attempts.set n (.finished true))[n]? = some (.finished true) :=
      List.getElem?_set_self (List.getElem?_eq_some_iff.mp running).1
    obtain ⟨s₂, reach, inconsistent⟩ :=
      handler { s' with attempts := s'.attempts.set n (.finished true) } watched finished going room
    exact ⟨s₂, .head ⟨.finish n true, trivial, step⟩ reach, inconsistent⟩
  · have succeeded : success = true := by
      cases success with
      | true => rfl
      | false => exact absurd finished unfailed
    rw [succeeded] at finished
    exact handler s' watched finished going room

/-- After a move out of order, the attempts can end so that the state is not consistent. -/
theorem Ordered.of_disorder (ordered : Ordered s) (disorder : ¬ InOrder s m)
    (step : s.next m = some s') : ∃ s₂, machine.Reach Completing s' s₂ ∧ ¬ Consistent s₂ := by
  cases m with
  | connectToRoom | disconnectFromRoom | finish | disconnected | report | runLambda =>
    exact absurd trivial disorder
  | shutdown =>
    cases step
    obtain ⟨hopeful, kept⟩ := Classical.not_imp.mp disorder
    have room : s.room = true :=
      (ordered.pending hopeful).resolve_right fun ⟨given_up, _⟩ => kept given_up
    refine ordered.exists_roomless hopeful rfl rfl (fun disconnected => ?_) rfl
    rw [(ordered.alone disconnected).2] at room
    cases room
  | connectFinished n =>
    obtain ⟨k, success, watcher, finished, _, after⟩ := State.of_connectFinished step
    have others : s'.Attempting ↔ s.OtherAttempt n := State.attempting_iff (by rw [after])
    obtain ⟨kept, silent, alone, reported⟩ : .disconnectFromRoom ∉ s.since ∧
        (¬ ∃ state, .connectionStateChanged state ∈ s.since) ∧ ¬ s.OtherAttempt n ∧
        s.reported ≠ some .reconnecting := by
      simpa only [InOrder, not_or] using disorder
    have connecting : s.connectionState = .connecting :=
      ordered.waiting (ordered.watched k watcher).1 kept fun state heard => silent ⟨state, heard⟩
    refine ⟨s', .refl, fun consistent => ?_⟩
    obtain attempting | reconnecting := consistent.attempting (by rw [after]; exact connecting)
    · exact alone (others.mp attempting)
    · rw [after] at reconnecting
      exact reported reconnecting
  | connectionStateChanged state =>
    cases step
    rw [State.connectionStateChanged_eq]
    cases state with
    | disconnected =>
      obtain ⟨begun, open_⟩ := Classical.not_imp.mp disorder
      have room : s.room = true := ordered.opened.mpr ⟨begun, not_or.mp open_⟩
      refine ⟨_, .refl, fun consistent => ?_⟩
      have away : s.room = false := (consistent.alone rfl).2
      rw [room] at away
      cases away
    | connected | reconnecting | other =>
      by_cases leaves : s.left = true
      · refine ⟨_, .refl, fun consistent => ?_⟩
        have disconnected := consistent.left leaves
        cases disconnected
      · have stays : s.left = false := by simpa using leaves
        obtain ⟨given_up, hopeful⟩ : .disconnectFromRoom ∈ s.since ∧ s.Hopeful := by
          by_contra fine
          exact disorder ⟨stays, fun given_up hopeful => fine ⟨given_up, hopeful⟩⟩
        have away : s.room = false := by
          by_contra room
          exact (ordered.opened.mp (by simpa using room)).2.1 given_up
        exact ordered.exists_roomless hopeful rfl rfl (by simp [stateOf]) away

/-- Every state of a run whose moves satisfy `G` is consistent. -/
def StaysConsistent (G : State → Move → Prop) : Prop :=
  ∀ s, machine.Reach G State.fresh s → Consistent s

/-- **The transport is consistent** in every state of a run in order; and after any other move it is
not, if the attempts that are pending end the wrong way. -/
theorem state_consistent (reach : machine.Reach InOrder State.fresh s) :
    Consistent s ∧ ∀ m s', s.next m = some s' → ¬ InOrder s m →
      ∃ s₂, machine.Reach Completing s' s₂ ∧ ¬ Consistent s₂ := by
  have ordered : Ordered s := by
    refine Machine.Reach.invariant ordered_fresh ?_ reach
    intro s m s' ordered inOrder step
    exact ordered.next inOrder step
  exact ⟨ordered.consistent, fun m s' step disorder => ordered.of_disorder disorder step⟩

/-- A director connects, and leaves the room before LiveKit reports that it is disconnected. -/
def connectsAndLeaves : List Move :=
  [.connectToRoom "token" "url", .connectionStateChanged .connected, .finish 0 true,
    .connectFinished 0, .disconnectFromRoom, .connectionStateChanged .disconnected]

/-- A signal that reports a state. -/
def Signal.isReport : Signal → Bool
  | .connectionStateChanged _ => true
  | .connectToRoom | .disconnectFromRoom | .shutdown => false

/-- A check of a move, without a look at the attempts. -/
def isInOrder (s : State) : Move → Bool
  | .shutdown => s.since.contains .disconnectFromRoom
  | .connectionStateChanged .disconnected =>
    s.since.contains .disconnectFromRoom || s.since.contains .shutdown
  | .connectionStateChanged _ => !s.left && !s.since.contains .disconnectFromRoom
  | .connectFinished _ => s.since.any Signal.isReport
  | _ => true

theorem inOrder_of_isInOrder (check : isInOrder s m = true) : InOrder s m := by
  unfold isInOrder at check
  split at check
  · exact fun _ => List.contains_iff_mem.mp check
  · intro _
    simpa using check
  · next state named =>
    have both : s.left = false ∧ .disconnectFromRoom ∉ s.since := by simpa using check
    cases state with
    | disconnected => exact absurd rfl named
    | connected | reconnecting | other => exact ⟨both.1, fun given_up => absurd given_up both.2⟩
  · obtain ⟨signal, heard, report⟩ := List.any_eq_true.mp check
    cases signal with
    | connectionStateChanged state => exact .inr (.inl ⟨state, heard⟩)
    | connectToRoom | disconnectFromRoom | shutdown => cases report
  · unfold InOrder
    split <;> first | trivial | simp_all

theorem state_consistent_sample :
    (∃ s, s.session = some ∅ ∧ s.connectionState = .connected ∧ Consistent s) ∧
    (∃ s, s.left = true ∧ s.reported = some .disconnected ∧ s.attempts = [.handled] ∧
      Consistent s) ∧
    (∃ s s' : State, s.next .shutdown = some s' ∧
      ∃ s₂, machine.Reach Completing s' s₂ ∧ ¬ Consistent s₂) := by
  refine ⟨?_, ?_, ?_⟩
  · have computed : (machine.run isInOrder (connectsAndLeaves.take 4) State.fresh).map
        (fun s => (s.session, s.connectionState)) = some (some ∅, .connected) := by
      decide
    obtain ⟨s, run, fields⟩ := Option.map_eq_some_iff.mp computed
    have reach : machine.Reach InOrder State.fresh s :=
      (Machine.reach_of_run run).mono fun _ _ => inOrder_of_isInOrder
    exact ⟨s, congrArg Prod.fst fields, congrArg Prod.snd fields, (state_consistent reach).1⟩
  · have computed : (machine.run isInOrder connectsAndLeaves State.fresh).map
        (fun s => (s.left, s.reported, s.attempts)) =
          some (true, some .disconnected, [.handled]) := by
      decide
    obtain ⟨s, run, fields⟩ := Option.map_eq_some_iff.mp computed
    have reach : machine.Reach InOrder State.fresh s :=
      (Machine.reach_of_run run).mono fun _ _ => inOrder_of_isInOrder
    exact ⟨s, congrArg Prod.fst fields, congrArg (fun f => f.2.1) fields,
      congrArg (fun f => f.2.2) fields, (state_consistent reach).1⟩
  · have computed : (machine.run isInOrder (connectsAndLeaves.take 2) State.fresh).map
        (fun s => (s.connectWatcher, s.attempts, s.since)) =
          some (some 0, [.running], [.connectToRoom, .connectionStateChanged .connected]) := by
      decide
    obtain ⟨s, run, fields⟩ := Option.map_eq_some_iff.mp computed
    have reach : machine.Reach InOrder State.fresh s :=
      (Machine.reach_of_run run).mono fun _ _ => inOrder_of_isInOrder
    have watcher : s.connectWatcher = some 0 := congrArg Prod.fst fields
    have attempts : s.attempts = [.running] := congrArg (fun f => f.2.1) fields
    have since : s.since = _ := congrArg (fun f => f.2.2) fields
    have disorder : ¬ InOrder s .shutdown := by
      intro inOrder
      have given_up := inOrder ⟨0, watcher, by rw [attempts]; decide⟩
      rw [since] at given_up
      exact absurd given_up (by decide)
    exact ⟨s, _, rfl, (state_consistent reach).2 .shutdown _ rfl disorder⟩

/-- Connecting fails. -/
def failedConnect : List Move := [.connectToRoom "token" "url", .finish 0 false, .connectFinished 0]

/-- After an attempt that failed the state string stays at connecting. -/
theorem state_inconsistent : ¬ StaysConsistent fun _ _ => True := by
  intro stays
  have computed : (machine.run (fun _ _ => true) failedConnect State.fresh).map
      (fun s => (s.connectionState, s.attempts, s.reported)) =
        some (.connecting, [.handled], none) := by
    decide
  obtain ⟨s, run, fields⟩ := Option.map_eq_some_iff.mp computed
  have reach : machine.Reach (fun _ _ => True) State.fresh s :=
    (Machine.reach_of_run run).mono fun _ _ _ => trivial
  have connecting := congrArg Prod.fst fields
  have attempts : s.attempts = [.handled] := congrArg (fun f => f.2.1) fields
  have reported : s.reported = none := congrArg (fun f => f.2.2) fields
  obtain ⟨n, a, found, unhandled⟩ | reconnecting := (stays s reach).attempting connecting
  · rw [attempts] at found
    have handled : a = .handled := by simpa using List.mem_of_getElem? found
    exact unhandled handled
  · rw [reported] at reconnecting
    cases reconnecting

end DirectorTransport

end DirectLink
