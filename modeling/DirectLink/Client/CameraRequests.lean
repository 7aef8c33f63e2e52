import DirectLink.Client.CameraController

/-!
# Requests to the camera controller

`CameraSessionController::start` returns while a start is running, and `CameraSession::stop` returns
while `isRunning_` is not set.  A request that comes at such a time is dropped; the last request
wins in every run without one.
-/

namespace DirectLink

namespace CameraController

/-- The last request wins: without a running start, the session streams only to the URL of a start
that was requested last; and without a pending start, a start that was requested last and did not
lead to streaming has had its error. -/
structure LastWins (s : State) : Prop where
  streaming : s.Idle → ∀ url, s.session.streaming = some url →
    ∃ streamKey, s.requests.getLast? = some (.start url streamKey)
  reported : s.startWatcher = none → ∀ url streamKey,
    s.requests.getLast? = some (.start url streamKey) → s.session.streaming = none →
      s.requests.length - 1 ∈ s.errors

/-- A request in time: `stop` while no start is running, and `start` while the session streams to
the same URL, or while it does not stream and no start is running. -/
def Timely (s : State) : Move → Prop
  | .start whipUrl _ =>
    s.session.streaming = some whipUrl ∨ (s.session.streaming = none ∧ s.startRunning = false)
  | .stop => s.startRunning = false
  | .background .. | .startFinished _ => True

instance (s : State) : DecidablePred (Timely s)
  | .start whipUrl _ => inferInstanceAs (Decidable
      (s.session.streaming = some whipUrl ∨
        (s.session.streaming = none ∧ s.startRunning = false)))
  | .stop => inferInstanceAs (Decidable (s.startRunning = false))
  | .background .. | .startFinished _ => inferInstanceAs (Decidable True)

/-- Only the background starts and their handlers move. -/
def NoRequest (_ : State) : Move → Prop
  | .start .. | .stop => False
  | .background .. | .startFinished _ => True

variable {s s' : State} {m : Move} {n : Nat}
variable {session session' : CameraSession} {phase phase' : Phase}

/-! ### Requests in time -/

/-- What every state of a run keeps whose requests come in time. -/
structure Held (s : State) : Prop where
  watching : Watching s
  /-- The session streams to the URL that was asked for last. -/
  asked : ∀ url, s.session.streaming = some url →
    ∃ streamKey, s.requests.getLast? = some (.start url streamKey)
  /-- The watched start was requested last, if the session does not stream and was not stopped after
  that start. -/
  pending : ∀ watched, s.watched = some watched → s.session.streaming ≠ none ∨
    (watched.phase.running = false ∧ s.requests.getLast? = some .stop) ∨
    (s.requests.length = watched.request + 1 ∧
      s.requests.getLast? = some (.start watched.whipUrl watched.streamKey))
  succeeded : ∀ watched, s.watched = some watched → watched.phase = .finished true →
    s.session.streaming ≠ none ∨ s.requests.getLast? = some .stop
  reported : s.startWatcher = none → ∀ url streamKey,
    s.requests.getLast? = some (.start url streamKey) → s.session.streaming = none →
      s.requests.length - 1 ∈ s.errors
  requested : ∀ watched, s.watched = some watched → watched.request < s.requests.length
  errors : ∀ n ∈ s.errors, n < s.requests.length

theorem Held.wins (held : Held s) : LastWins s := ⟨fun _ => held.asked, held.reported⟩

theorem held_fresh : Held State.fresh := by
  refine ⟨watching_fresh, ?_, nofun, nofun, nofun, nofun, nofun⟩
  intro url streams
  cases streams

/-- A start is dropped only while the session streams to its URL. -/
theorem Held.start {whipUrl streamKey : String} (held : Held s)
    (timely : Timely s (.start whipUrl streamKey)) : Held (s.start whipUrl streamKey) := by
  have watching := held.watching.start whipUrl streamKey
  have session : (s.start whipUrl streamKey).session = s.session := by
    unfold State.start
    split <;> rfl
  have requests : (s.start whipUrl streamKey).requests =
      s.requests ++ [.start whipUrl streamKey] := by
    unfold State.start
    split <;> rfl
  have errors : (s.start whipUrl streamKey).errors = s.errors := by
    unfold State.start
    split <;> rfl
  have asked : ∀ url, (s.start whipUrl streamKey).session.streaming = some url →
      ∃ streamKey', (s.start whipUrl streamKey).requests.getLast? =
        some (.start url streamKey') := by
    intro url streams
    rw [session] at streams
    obtain same | ⟨silent, _⟩ := timely
    · have url' : url = whipUrl := Option.some.inj (streams.symm.trans same)
      rw [url', requests]
      exact ⟨streamKey, List.getLast?_concat⟩
    · rw [silent] at streams
      cases streams
  have inside : ∀ n ∈ (s.start whipUrl streamKey).errors,
      n < (s.start whipUrl streamKey).requests.length := by
    rw [errors, requests, List.length_append]
    intro n member
    exact Nat.lt_add_right _ (held.errors n member)
  by_cases running : s.startRunning = true
  · have streams : s.session.streaming ≠ none := by
      obtain same | ⟨_, still⟩ := timely
      · rw [same]
        simp
      · rw [running] at still
        cases still
    have watched : (s.start whipUrl streamKey).watched = s.watched := by
      unfold State.start
      rw [if_pos running]
      rfl
    refine ⟨watching, asked, ?_, ?_, ?_, ?_, inside⟩
    · intro _ _
      rw [session]
      exact .inl streams
    · intro _ _ _
      rw [session]
      exact .inl streams
    · intro _ _ _ _ silent
      rw [session] at silent
      exact absurd silent streams
    · intro start found
      rw [watched] at found
      rw [requests, List.length_append]
      exact Nat.lt_add_right _ (held.requested start found)
  · have still : s.startRunning = false := by simpa using running
    have watched := State.watched_start whipUrl streamKey still
    refine ⟨watching, asked, ?_, ?_, ?_, ?_, inside⟩
    · intro start found
      rw [watched] at found
      cases found
      rw [requests]
      exact .inr (.inr ⟨by simp, List.getLast?_concat⟩)
    · intro start found finished
      rw [watched] at found
      cases found
      cases finished
    · intro unwatched
      unfold State.watched at watched
      rw [unwatched] at watched
      cases watched
    · intro start found
      rw [watched] at found
      cases found
      rw [requests]
      simp

theorem Held.stop (held : Held s) (still : s.startRunning = false) : Held s.stop := by
  have last : s.stop.requests.getLast? = some .stop := List.getLast?_concat
  have silent : s.stop.session.streaming = none :=
    (held.watching.stop.steady still).mpr (CameraSession.isRunning_stop s.session)
  refine ⟨held.watching.stop, ?_, ?_, fun _ _ _ => .inr last, ?_, ?_, ?_⟩
  · intro url streams
    rw [silent] at streams
    cases streams
  · intro start watched
    refine .inr (.inl ⟨?_, last⟩)
    rw [← State.startRunning_of_watched watched]
    exact still
  · intro _ url streamKey asked
    rw [last] at asked
    cases asked
  · intro start watched
    exact Nat.lt_of_lt_of_le (held.requested start watched) (by simp [State.stop])
  · intro n member
    exact Nat.lt_of_lt_of_le (held.errors n member) (by simp [State.stop])

/-- A step of the watched start: it can only make the session stream to its own URL. -/
theorem Held.background {success : Bool} (held : Held s)
    (step : s.background n success = some s') : Held s' := by
  have watching' := held.watching.background step
  obtain ⟨start, phase', watcher, watched, stepped, after, watched'⟩ :=
    held.watching.of_background step
  have running := running_of_stepStart stepped
  have fits := held.watching.fits_watched watched
  have requests : s'.requests = s.requests := by rw [after]
  have errors : s'.errors = s.errors := by rw [after]
  -- while a start runs, the session was not stopped after it
  have pending : s.session.streaming ≠ none ∨ (s.requests.length = start.request + 1 ∧
      s.requests.getLast? = some (.start start.whipUrl start.streamKey)) := by
    obtain streams | ⟨still, _⟩ | last := held.pending start watched
    · exact .inl streams
    · rw [running] at still
      cases still
    · exact .inr last
  have streaming := streaming_stepStart fits stepped
  refine ⟨watching', ?_, ?_, ?_, ?_, ?_, ?_⟩
  · intro url streams
    rw [requests]
    obtain same | ⟨starting, begins⟩ := streaming
    · exact held.asked url (same.symm.trans streams)
    · obtain already | ⟨_, last⟩ := pending
      · rw [starting] at fits
        exact absurd (by simp [CameraSession.streaming, fits.2.1]) already
      · have told := (held.watching.given start watched (by rw [starting]; rfl)).1
        have own : url = start.whipUrl :=
          (Option.some.inj (streams.symm.trans begins)).trans told
        exact ⟨start.streamKey, by rw [own, last]⟩
  · intro start' found
    rw [watched'] at found
    cases found
    rw [requests]
    obtain same | ⟨_, begins⟩ := streaming
    · rw [same]
      exact pending.imp_right .inr
    · rw [begins]
      exact .inl (by simp)
  · intro start' found finished
    rw [watched'] at found
    cases found
    rw [show phase' = .finished true from finished] at stepped
    have still : s'.startRunning = false := by
      rw [State.startRunning_of_watched watched', show phase' = .finished true from finished]
      rfl
    have runs := stepStart_finished stepped
    refine .inl fun silent => ?_
    rw [(watching'.steady still).mp silent] at runs
    cases runs
  · intro unwatched
    rw [after] at unwatched
    rw [show s.startWatcher = none from unwatched] at watcher
    cases watcher
  · intro start' found
    rw [watched'] at found
    cases found
    rw [requests]
    exact held.requested start watched
  · rw [requests, errors]
    exact held.errors

theorem Held.startFinished (held : Held s) (step : s.startFinished n = some s') : Held s' := by
  have watching' := held.watching.startFinished step
  obtain ⟨start, watched, success, result, found, ended, own, finished, after⟩ :=
    State.of_startFinished step
  subst after
  refine ⟨watching', held.asked, nofun, nofun, ?_, nofun, ?_⟩
  · intro _ url streamKey asked silent
    have failed : success = false := by
      cases success with
      | false => rfl
      | true =>
        obtain streams | last := held.succeeded watched own finished
        · exact absurd silent streams
        · rw [show s.requests.getLast? = _ from asked] at last
          cases last
    obtain streams | ⟨_, last⟩ | ⟨length, _⟩ := held.pending watched own
    · exact absurd silent streams
    · rw [show s.requests.getLast? = _ from asked] at last
      cases last
    · simp [failed, length]
  · intro n member
    dsimp only at member
    split at member
    · exact held.errors n member
    · rcases List.mem_append.mp member with earlier | new
      · exact held.errors n earlier
      · rw [List.mem_singleton.mp new]
        exact held.requested watched own

theorem Held.next (held : Held s) (timely : Timely s m) (step : s.next m = some s') : Held s' := by
  cases m with
  | start whipUrl streamKey =>
    cases step
    exact held.start timely
  | stop =>
    cases step
    exact held.stop timely
  | background n success => exact held.background step
  | startFinished n => exact held.startFinished step

/-! ### Requests out of time -/

/-- Without requests, the watched start goes on by this step. -/
theorem Watching.go_on (watching : Watching s) {start : Start} (watched : s.watched = some start)
    {success : Bool}
    (stepped : s.session.stepStart start.whipUrl start.streamKey success start.phase =
      some (session', phase')) :
    ∃ s', machine.Reach NoRequest s s' ∧ Watching s' ∧
      s'.watched = some { start with phase := phase' } ∧ s'.session = session' ∧
      s'.requests = s.requests ∧ s'.errors = s.errors := by
  obtain ⟨n, watcher, found⟩ := Option.bind_eq_some_iff.mp watched
  have step : s.background n success = some { s with
      session := session', starts := s.starts.set n { start with phase := phase' } } := by
    unfold State.background
    rw [found]
    dsimp only
    rw [stepped]
  have reach : machine.Reach NoRequest s _ :=
    Machine.Reach.step (m := .background n success) .refl trivial step
  exact ⟨_, reach, watching.background step, State.watched_set watcher found _ _, rfl, rfl, rfl⟩

/-- How many steps a start still takes. -/
def Phase.remaining : Phase → Nat
  | .launched => 6
  | .initializingPipeline => 5
  | .initializingPublisher => 4
  | .startingPublisher => 3
  | .startingPipeline => 2
  | .settling => 1
  | .finished _ | .handled => 0

/-- A step that succeeds, of a session that is not running. -/
theorem stepStart_succeeds (whipUrl streamKey : String) (stopped : session.isRunning = false)
    (running : phase.running = true) :
    ∃ session' phase', session.stepStart whipUrl streamKey true phase = some (session', phase') ∧
      ((phase'.running = true ∧ session'.isRunning = false ∧ phase'.remaining < phase.remaining) ∨
        phase' = .finished true) := by
  cases phase with
  | finished _ | handled => cases running
  | launched => simp [CameraSession.stepStart, stopped, Phase.running, Phase.remaining]
  | initializingPipeline | initializingPublisher | startingPublisher | startingPipeline
  | settling => simp [CameraSession.stepStart, stopped, Phase.running, Phase.remaining]

/-- A start that a stop has not ended can go on until the session streams. -/
theorem Watching.exists_streaming (watching : Watching s) {start : Start}
    (watched : s.watched = some start) (running : start.phase.running = true)
    (stopped : s.session.isRunning = false) :
    ∃ s', machine.Reach NoRequest s s' ∧ s'.Idle ∧ s'.requests = s.requests ∧
      s'.session.streaming ≠ none := by
  induction remaining : start.phase.remaining using Nat.strongRecOn generalizing s start with
  | ind remaining ih =>
    obtain ⟨session', phase', stepped, goesOn⟩ :=
      stepStart_succeeds start.whipUrl start.streamKey stopped running
    obtain ⟨s₁, reach, watching₁, watched₁, session₁, requests₁, _⟩ :=
      watching.go_on watched stepped
    obtain ⟨running', stopped', fewer⟩ | finished := goesOn
    · rw [remaining] at fewer
      rw [← session₁] at stopped'
      obtain ⟨s₂, reach', idle, requests₂, streams⟩ :=
        ih _ fewer watching₁ watched₁ running' stopped' rfl
      exact ⟨s₂, reach.trans reach', idle, requests₂.trans requests₁, streams⟩
    · have still : s₁.startRunning = false := by
        rw [State.startRunning_of_watched watched₁, finished]
        rfl
      rw [finished] at stepped
      have runs := stepStart_finished stepped
      refine ⟨s₁, reach, watching₁.idle_iff.mpr still, requests₁, fun silent => ?_⟩
      rw [← session₁, (watching₁.steady still).mp silent] at runs
      cases runs

/-- A session that streams goes on to stream when the starts have ended. -/
theorem Watching.exists_idle (watching : Watching s) {url : String}
    (streams : s.session.streaming = some url) :
    ∃ s', machine.Reach NoRequest s s' ∧ s'.Idle ∧ s'.requests = s.requests ∧
      s'.session.streaming = some url := by
  by_cases running : s.startRunning = true
  · obtain ⟨start, watched, runs⟩ := State.exists_watched running
    have fits := watching.fits_watched watched
    have both : s.session.capturing = true ∧ s.session.publishing = true := by
      by_contra silent
      unfold CameraSession.streaming at streams
      rw [if_neg silent] at streams
      cases streams
    -- only a start that has just been launched, or is about to set `isRunning_`, sees it stream
    have ends : ∃ session' result, s.session.stepStart start.whipUrl start.streamKey true
        start.phase = some (session', .finished result) ∧
        session'.streaming = s.session.streaming := by
      cases phase : start.phase with
      | finished _ | handled =>
        rw [phase] at runs
        cases runs
      | launched =>
        rw [phase] at fits
        have isRunning : s.session.isRunning = true := fits.1.symm.trans both.1
        exact ⟨s.session, false, by simp [CameraSession.stepStart, isRunning], rfl⟩
      | settling => exact ⟨{ s.session with isRunning := true }, true, rfl, rfl⟩
      | initializingPipeline | initializingPublisher | startingPublisher =>
        rw [phase] at fits
        exact absurd (fits.2.1.symm.trans both.1) (by simp)
      | startingPipeline =>
        rw [phase] at fits
        exact absurd (fits.2.1.symm.trans both.1) (by simp)
    obtain ⟨session', result, stepped, same⟩ := ends
    obtain ⟨s₁, reach, watching₁, watched₁, session₁, requests₁, _⟩ :=
      watching.go_on watched stepped
    refine ⟨s₁, reach, watching₁.idle_iff.mpr ?_, requests₁, ?_⟩
    · rw [State.startRunning_of_watched watched₁]
      rfl
    · rw [session₁, same]
      exact streams
  · have still : s.startRunning = false := by simpa using running
    exact ⟨s, .refl, watching.idle_iff.mpr still, rfl, streams⟩

/-- The watched start can end in failure with this step, and its handler run. -/
theorem Watching.exists_failed_of_step (watching : Watching s) {start : Start}
    (watched : s.watched = some start) {success : Bool}
    (stepped : s.session.stepStart start.whipUrl start.streamKey success start.phase =
      some (session', .finished false)) (silent : session'.streaming = none) :
    ∃ s', machine.Reach NoRequest s s' ∧ s'.startWatcher = none ∧ s'.requests = s.requests ∧
      s'.session.streaming = none ∧ s'.errors = s.errors ++ [start.request] := by
  obtain ⟨s₁, reach, _, watched₁, session₁, requests₁, errors₁⟩ := watching.go_on watched stepped
  obtain ⟨n, _, found⟩ := Option.bind_eq_some_iff.mp watched₁
  have step : s₁.startFinished n = some { s₁ with
      starts := s₁.starts.set n { start with phase := .handled }
      startWatcher := none
      errors := s₁.errors ++ [start.request] } := by
    unfold State.startFinished
    rw [found, watched₁]
    rfl
  refine ⟨_, Machine.Reach.step (m := .startFinished n) reach trivial step, rfl, requests₁, ?_, ?_⟩
  · rw [← session₁] at silent
    exact silent
  · dsimp only
    rw [errors₁]

/-- A start whose session does not stream yet can fail. -/
theorem Watching.exists_failed (watching : Watching s) {start : Start}
    (watched : s.watched = some start) (running : start.phase.running = true)
    (silent : s.session.streaming = none) :
    ∃ s', machine.Reach NoRequest s s' ∧ s'.startWatcher = none ∧ s'.requests = s.requests ∧
      s'.session.streaming = none ∧ s'.errors = s.errors ++ [start.request] := by
  have fits := watching.fits_watched watched
  cases phase : start.phase with
  | finished _ | handled =>
    rw [phase] at running
    cases running
  | settling =>
    rw [phase] at fits
    obtain ⟨_, capturing, publishing⟩ := fits
    simp [CameraSession.streaming, capturing, publishing] at silent
  | launched =>
    rw [phase] at fits
    have fits' : Fits s.session none := fits
    have stopped : s.session.isRunning = false :=
      (Fits.streaming_eq_none_iff fits' rfl).mp silent
    have stepped : s.session.stepStart start.whipUrl start.streamKey false start.phase =
        some (s.session, .initializingPipeline) := by
      rw [phase]
      simp [CameraSession.stepStart, stopped]
    obtain ⟨s₁, reach, watching₁, watched₁, session₁, requests₁, errors₁⟩ :=
      watching.go_on watched stepped
    rw [← session₁] at silent
    have fails : s₁.session.stepStart start.whipUrl start.streamKey false .initializingPipeline =
        some (s₁.session, .finished false) := rfl
    obtain ⟨s₂, reach', unwatched, requests₂, silent', errors₂⟩ :=
      watching₁.exists_failed_of_step watched₁ fails silent
    exact ⟨s₂, reach.trans reach', unwatched, requests₂.trans requests₁, silent',
      errors₂.trans (by rw [errors₁])⟩
  | initializingPipeline =>
    have fails : s.session.stepStart start.whipUrl start.streamKey false start.phase =
        some (s.session, .finished false) := by
      rw [phase]
      rfl
    exact watching.exists_failed_of_step watched fails silent
  | initializingPublisher | startingPublisher | startingPipeline =>
    rw [phase] at fits
    have capturing := fits.2.1
    obtain ⟨session', fails, silent'⟩ : ∃ session',
        s.session.stepStart start.whipUrl start.streamKey false start.phase =
          some (session', .finished false) ∧ session'.streaming = none := by
      rw [phase]
      exact ⟨_, rfl, by simp [CameraSession.streaming, capturing]⟩
    exact watching.exists_failed_of_step watched fails silent'

/-- In every state that moves under `G` reach from a fresh controller, the last request wins. -/
def LastAlwaysWins (G : State → Move → Prop) : Prop :=
  ∀ s, machine.Reach G State.fresh s → LastWins s

/-- After a request that does not come in time, the starts can end so that it does not win. -/
theorem Held.of_untimely (held : Held s) (untimely : ¬ Timely s m) (step : s.next m = some s') :
    ∃ s₂, machine.Reach NoRequest s' s₂ ∧ ¬ LastWins s₂ := by
  cases m with
  | background n success => exact absurd trivial untimely
  | startFinished n => exact absurd trivial untimely
  | stop =>
    cases step
    have running : s.startRunning = true := by simpa [Timely] using untimely
    obtain ⟨start, watched, runs⟩ := State.exists_watched running
    obtain ⟨s₂, reach, idle, requests, streams⟩ :=
      held.watching.stop.exists_streaming watched runs (CameraSession.isRunning_stop s.session)
    refine ⟨s₂, reach, fun wins => ?_⟩
    obtain ⟨url, streaming⟩ := Option.ne_none_iff_exists'.mp streams
    obtain ⟨streamKey, last⟩ := wins.streaming idle url streaming
    rw [requests, show s.stop.requests.getLast? = some .stop from List.getLast?_concat] at last
    cases last
  | start whipUrl streamKey =>
    cases step
    have watching := held.watching.start whipUrl streamKey
    have session : (s.start whipUrl streamKey).session = s.session := by
      unfold State.start
      split <;> rfl
    have last : (s.start whipUrl streamKey).requests =
        s.requests ++ [.start whipUrl streamKey] := by
      unfold State.start
      split <;> rfl
    obtain ⟨other, busy⟩ := not_or.mp untimely
    cases streaming : s.session.streaming with
    | some url =>
      -- the session goes on to stream elsewhere
      rw [← session] at streaming
      obtain ⟨s₂, reach, idle, requests, streams⟩ := watching.exists_idle streaming
      refine ⟨s₂, reach, fun wins => ?_⟩
      obtain ⟨streamKey', asked⟩ := wins.streaming idle url streams
      rw [requests, last, List.getLast?_concat] at asked
      cases asked
      rw [session] at streaming
      exact other streaming
    | none =>
      -- the request is dropped, and the start that it came during fails
      have running : s.startRunning = true := by
        by_contra still
        exact busy ⟨streaming, by simpa using still⟩
      obtain ⟨start, watched, runs⟩ := State.exists_watched running
      have watched' : (s.start whipUrl streamKey).watched = some start := by
        rw [← watched]
        unfold State.start
        rw [if_pos running]
        rfl
      have errors : (s.start whipUrl streamKey).errors = s.errors := by
        unfold State.start
        split <;> rfl
      rw [← session] at streaming
      obtain ⟨s₂, reach, unwatched, requests, silent, errors₂⟩ :=
        watching.exists_failed watched' runs streaming
      refine ⟨s₂, reach, fun wins => ?_⟩
      have asked : s₂.requests.getLast? = some (.start whipUrl streamKey) := by
        rw [requests, last, List.getLast?_concat]
      have reported := wins.reported unwatched whipUrl streamKey asked silent
      rw [requests, last, errors₂, errors, List.length_append, List.length_singleton,
        Nat.add_sub_cancel] at reported
      rcases List.mem_append.mp reported with earlier | own
      · exact absurd (held.errors _ earlier) (Nat.lt_irrefl _)
      · have requested := held.requested start watched
        rw [← List.mem_singleton.mp own] at requested
        exact absurd requested (Nat.lt_irrefl _)

theorem held_of_reach (reach : machine.Reach Timely State.fresh s) : Held s := by
  refine Machine.Reach.invariant held_fresh ?_ reach
  intro s m s' held timely step
  exact held.next timely step

/-- **The last request wins** in every run whose requests come in time; and after any other request
it does not, if the starts that are left end the wrong way. -/
theorem last_request_wins (reach : machine.Reach Timely State.fresh s) :
    LastWins s ∧ ∀ m s', s.next m = some s' → ¬ Timely s m →
      ∃ s₂, machine.Reach NoRequest s' s₂ ∧ ¬ LastWins s₂ := by
  have held := held_of_reach reach
  exact ⟨held.wins, fun m s' step untimely => held.of_untimely untimely step⟩

/-- A start that succeeds, and its handler. -/
def started : List Move :=
  [.start "url" "key", .background 0 true, .background 0 true, .background 0 true,
    .background 0 true, .background 0 true, .background 0 true, .startFinished 0]

/-- A start that succeeds and is stopped after its handler; and a stop that would have come while it
was running. -/
theorem last_request_wins_sample :
    (∃ s, s.session.streaming = some "url" ∧ LastWins s) ∧
    (∃ s, s.requests = [.start "url" "key", .stop] ∧ s.session.streaming = none ∧ LastWins s) ∧
    (∃ s s' : State, s.next .stop = some s' ∧
      ∃ s₂, machine.Reach NoRequest s' s₂ ∧ ¬ LastWins s₂) := by
  refine ⟨?_, ?_, ?_⟩
  · have computed : (machine.run (fun s m => Timely s m) started State.fresh).map
        (·.session.streaming) = some (some "url") := by
      decide
    obtain ⟨s, run, streaming⟩ := Option.map_eq_some_iff.mp computed
    have reach : machine.Reach Timely State.fresh s :=
      (Machine.reach_of_run run).mono fun _ _ passed => of_decide_eq_true passed
    exact ⟨s, streaming, (last_request_wins reach).1⟩
  · have computed : (machine.run (fun s m => Timely s m) (started ++ [.stop]) State.fresh).map
        (fun s => (s.requests, s.session.streaming)) =
          some ([.start "url" "key", .stop], none) := by
      decide
    obtain ⟨s, run, fields⟩ := Option.map_eq_some_iff.mp computed
    have reach : machine.Reach Timely State.fresh s :=
      (Machine.reach_of_run run).mono fun _ _ passed => of_decide_eq_true passed
    exact ⟨s, congrArg Prod.fst fields, congrArg Prod.snd fields, (last_request_wins reach).1⟩
  · have computed : (machine.run (fun s m => Timely s m) (started.take 2) State.fresh).map
        (·.startRunning) = some true := by
      decide
    obtain ⟨s, run, running⟩ := Option.map_eq_some_iff.mp computed
    have reach : machine.Reach Timely State.fresh s :=
      (Machine.reach_of_run run).mono fun _ _ passed => of_decide_eq_true passed
    refine ⟨s, s.stop, rfl, (last_request_wins reach).2 .stop s.stop rfl ?_⟩
    simp [Timely, running]

/-- A stop that comes while the start is pending; the start goes on and succeeds. -/
def stoppedWhileStarting : List Move :=
  [.start "url" "key", .background 0 true, .stop, .background 0 true, .background 0 true,
    .background 0 true, .background 0 true, .background 0 true, .startFinished 0]

/-- A stop during a pending start is dropped: the session streams afterwards. -/
theorem dropped_stop : ¬ LastAlwaysWins fun _ _ => True := by
  intro wins
  have computed : (machine.run (fun _ _ => true) stoppedWhileStarting State.fresh).map
      (fun s => (s.session.streaming, s.requests, s.starts.map (·.phase))) =
        some (some "url", [.start "url" "key", .stop], [.handled]) := by
    decide
  obtain ⟨s, run, fields⟩ := Option.map_eq_some_iff.mp computed
  have reach : machine.Reach (fun _ _ => True) State.fresh s :=
    (Machine.reach_of_run run).mono fun _ _ _ => trivial
  have streaming : s.session.streaming = some "url" := congrArg Prod.fst fields
  have requests : s.requests = [.start "url" "key", .stop] := congrArg (fun f => f.2.1) fields
  have phases : s.starts.map (·.phase) = [.handled] := congrArg (fun f => f.2.2) fields
  have idle : s.Idle := by
    intro start mem
    have phase : start.phase ∈ s.starts.map (·.phase) := List.mem_map_of_mem mem
    rw [phases] at phase
    have handled : start.phase = .handled := by simpa using phase
    rw [handled]
    rfl
  obtain ⟨streamKey, last⟩ := (wins s reach).streaming idle "url" streaming
  rw [requests] at last
  cases last

end CameraController

end DirectLink
