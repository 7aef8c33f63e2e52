import DirectLink.Lib.Machine
import Mathlib.Data.List.Basic

/-!
# The camera session controller

`CameraSessionController` and its `CameraSession`.  The UI thread runs the requests and the handlers
of finished starts; a background thread runs `CameraSession::start` in steps that succeed or fail.
A handler that would follow a null `startWatcher_` has no next state; the preview, the log lines and
the signals other than `errorOccurred` are left out.
-/

namespace DirectLink

namespace CameraController

/-- Where a background `CameraSession::start` is. -/
inductive Phase : Type
  /-- It looks at `isRunning_`. -/
  | launched
  | initializingPipeline
  | initializingPublisher
  | startingPublisher
  | startingPipeline
  /-- It sets `isRunning_`. -/
  | settling
  | finished (success : Bool)
  /-- Its handler has run. -/
  | handled
  deriving DecidableEq

def Phase.running : Phase → Bool
  | finished _ | handled => false
  | _ => true

/-- What a `CameraSession` holds of its pipeline and its publisher. -/
structure CameraSession : Type where
  isRunning : Bool
  /-- The video pipeline runs. -/
  capturing : Bool
  /-- The WHIP publisher runs. -/
  publishing : Bool
  whipUrl : String
  streamKey : String
  deriving DecidableEq

namespace CameraSession

/-- A step of `CameraSession::start`, whose call on the pipeline or the publisher succeeds or
fails. -/
def stepStart (session : CameraSession) (whipUrl streamKey : String) (success : Bool) :
    Phase → Option (CameraSession × Phase)
  | .launched =>
    some (session, if session.isRunning then .finished false else .initializingPipeline)
  | .initializingPipeline =>
    some (session, if success then .initializingPublisher else .finished false)
  | .initializingPublisher =>
    some ({ session with whipUrl, streamKey },
      if success then .startingPublisher else .finished false)
  | .startingPublisher =>
    if success then some ({ session with publishing := true }, .startingPipeline)
    else some ({ session with capturing := false }, .finished false)
  | .startingPipeline =>
    if success then some ({ session with capturing := true }, .settling)
    else some ({ session with publishing := false }, .finished false)
  | .settling => some ({ session with isRunning := true }, .finished true)
  | .finished _ | .handled => none

/-- `CameraSession::stop`. -/
def stop (session : CameraSession) : CameraSession :=
  if session.isRunning then
    { session with capturing := false, publishing := false, isRunning := false }
  else session

/-- The URL that the session streams to. -/
def streaming (session : CameraSession) : Option String :=
  if session.capturing ∧ session.publishing then some session.whipUrl else none

end CameraSession

inductive Request : Type
  | start (whipUrl streamKey : String)
  | stop
  deriving DecidableEq

/-- A background start and the request that launched it. -/
structure Start : Type where
  request : Nat
  whipUrl : String
  streamKey : String
  phase : Phase
  deriving DecidableEq

/-- The controller, with the requests made so far and those that `errorOccurred` was emitted for. -/
structure State : Type where
  session : CameraSession
  starts : List Start
  /-- The start of `startWatcher_`. -/
  startWatcher : Option Nat
  requests : List Request
  errors : List Nat
  deriving DecidableEq

inductive Move : Type
  | start (whipUrl streamKey : String)
  | stop
  /-- The next step of a background start. -/
  | background (n : Nat) (success : Bool)
  /-- The handler of a finished start runs. -/
  | startFinished (n : Nat)
  deriving DecidableEq

namespace State

/-- A controller that was just constructed. -/
def fresh : State := ⟨⟨false, false, false, "", ""⟩, [], none, [], []⟩

/-- The start that `startWatcher_` watches. -/
def watched (s : State) : Option Start := s.startWatcher.bind fun n => s.starts[n]?

/-- `startWatcher_->isRunning()`. -/
def startRunning (s : State) : Bool := s.watched.any (·.phase.running)

def start (s : State) (whipUrl streamKey : String) : State :=
  let requests := s.requests ++ [.start whipUrl streamKey]
  if s.startRunning then { s with requests }
  else
    { s with
      starts := s.starts ++ [⟨s.requests.length, whipUrl, streamKey, .launched⟩]
      startWatcher := some s.starts.length
      requests }

def stop (s : State) : State :=
  { s with session := s.session.stop, requests := s.requests ++ [.stop] }

def background (s : State) (n : Nat) (success : Bool) : Option State :=
  match s.starts[n]? with
  | none => none
  | some start =>
    match s.session.stepStart start.whipUrl start.streamKey success start.phase with
    | none => none
    | some (session, phase) =>
      some { s with session, starts := s.starts.set n { start with phase } }

/-- The handler of start `n`: it takes the result of the start that `startWatcher_` watches. -/
def startFinished (s : State) (n : Nat) : Option State :=
  match s.starts[n]?, s.watched with
  | some start, some watched =>
    match start.phase, watched.phase with
    | .finished _, .finished success =>
      some { s with
        starts := s.starts.set n { start with phase := .handled }
        startWatcher := none
        errors := if success then s.errors else s.errors ++ [watched.request] }
    | _, _ => none
  | _, _ => none

def next (s : State) : Move → Option State
  | .start whipUrl streamKey => some (s.start whipUrl streamKey)
  | .stop => some s.stop
  | .background n success => s.background n success
  | .startFinished n => s.startFinished n

end State

/-- The controller and its background threads. -/
@[reducible] def machine : Machine := ⟨State, Move, State.next⟩

namespace State

/-- No background start is running. -/
def Idle (s : State) : Prop := ∀ start ∈ s.starts, start.phase.running = false

end State

variable {s s' : State} {n : Nat}
variable {session session' : CameraSession} {phase phase' : Phase}

/-! ### The steps of a start -/

/-- The session while the start that is watched is in this phase. -/
def Fits (session : CameraSession) : Option Phase → Prop
  | some .initializingPipeline | some .initializingPublisher | some .startingPublisher =>
    session.isRunning = false ∧ session.capturing = false ∧ session.publishing = false
  | some .startingPipeline =>
    session.isRunning = false ∧ session.capturing = false ∧ session.publishing = true
  | some .settling =>
    session.isRunning = false ∧ session.capturing = true ∧ session.publishing = true
  | _ => session.capturing = session.isRunning ∧ session.publishing = session.isRunning

/-- Without a running start, the session streams just if `isRunning_` is set. -/
theorem Fits.steady {watched : Option Phase} (fits : Fits session watched)
    (still : watched.any Phase.running = false) :
    session.capturing = session.isRunning ∧ session.publishing = session.isRunning := by
  cases watched with
  | none => exact fits
  | some phase =>
    cases phase with
    | finished _ | handled => exact fits
    | launched | initializingPipeline | initializingPublisher | startingPublisher
    | startingPipeline | settling => cases still

theorem Fits.streaming_eq_none_iff {watched : Option Phase} (fits : Fits session watched)
    (still : watched.any Phase.running = false) :
    session.streaming = none ↔ session.isRunning = false := by
  obtain ⟨capturing, publishing⟩ := fits.steady still
  unfold CameraSession.streaming
  rw [capturing, publishing]
  cases session.isRunning <;> simp

theorem Fits.stop {watched : Option Phase} (fits : Fits session watched) :
    Fits session.stop watched := by
  unfold CameraSession.stop
  split
  · next isRunning =>
    cases watched with
    | none => exact ⟨rfl, rfl⟩
    | some phase =>
      cases phase with
      | launched | finished _ | handled => exact ⟨rfl, rfl⟩
      | initializingPipeline | initializingPublisher | startingPublisher | startingPipeline
      | settling =>
        have stopped := fits.1
        rw [isRunning] at stopped
        cases stopped
  · exact fits

theorem CameraSession.url_of_streaming {url : String} (streams : session.streaming = some url) :
    url = session.whipUrl := by
  unfold CameraSession.streaming at streams
  split at streams
  · exact (Option.some.inj streams).symm
  · cases streams

section stepStart

variable {whipUrl streamKey : String} {success : Bool}

theorem running_of_stepStart
    (step : session.stepStart whipUrl streamKey success phase = some (session', phase')) :
    phase.running = true := by
  cases phase with
  | finished _ | handled => cases step
  | launched | initializingPipeline | initializingPublisher | startingPublisher
  | startingPipeline | settling => rfl

theorem Fits.stepStart (fits : Fits session (some phase))
    (step : session.stepStart whipUrl streamKey success phase = some (session', phase')) :
    Fits session' (some phase') := by
  cases phase with
  | finished _ | handled => cases step
  | launched =>
    obtain ⟨capturing, publishing⟩ := fits
    cases step
    split
    · exact ⟨capturing, publishing⟩
    · next stopped =>
      have stopped : session.isRunning = false := Bool.eq_false_iff.mpr stopped
      exact ⟨stopped, capturing.trans stopped, publishing.trans stopped⟩
  | initializingPipeline =>
    obtain ⟨stopped, capturing, publishing⟩ := fits
    cases step
    split
    · exact ⟨stopped, capturing, publishing⟩
    · exact ⟨capturing.trans stopped.symm, publishing.trans stopped.symm⟩
  | initializingPublisher =>
    obtain ⟨stopped, capturing, publishing⟩ := fits
    cases step
    split
    · exact ⟨stopped, capturing, publishing⟩
    · exact ⟨capturing.trans stopped.symm, publishing.trans stopped.symm⟩
  | startingPublisher =>
    obtain ⟨stopped, capturing, publishing⟩ := fits
    dsimp only [CameraSession.stepStart] at step
    split at step
    · cases step
      exact ⟨stopped, capturing, rfl⟩
    · cases step
      exact ⟨stopped.symm, publishing.trans stopped.symm⟩
  | startingPipeline =>
    obtain ⟨stopped, capturing, publishing⟩ := fits
    dsimp only [CameraSession.stepStart] at step
    split at step
    · cases step
      exact ⟨stopped, rfl, publishing⟩
    · cases step
      exact ⟨capturing.trans stopped.symm, stopped.symm⟩
  | settling =>
    obtain ⟨_, capturing, publishing⟩ := fits
    cases step
    exact ⟨capturing, publishing⟩

/-- A session begins to stream when its pipeline is started, and a start ends no streaming. -/
theorem streaming_stepStart (fits : Fits session (some phase))
    (step : session.stepStart whipUrl streamKey success phase = some (session', phase')) :
    session'.streaming = session.streaming ∨
      (phase = .startingPipeline ∧ session'.streaming = some session.whipUrl) := by
  cases phase with
  | finished _ | handled => cases step
  | launched | initializingPipeline =>
    cases step
    exact .inl rfl
  | settling =>
    cases step
    exact .inl rfl
  | initializingPublisher =>
    obtain ⟨_, capturing, _⟩ := fits
    cases step
    simp [CameraSession.streaming, capturing]
  | startingPublisher =>
    obtain ⟨_, capturing, _⟩ := fits
    dsimp only [CameraSession.stepStart] at step
    split at step <;> cases step <;> simp [CameraSession.streaming, capturing]
  | startingPipeline =>
    obtain ⟨_, capturing, publishing⟩ := fits
    dsimp only [CameraSession.stepStart] at step
    split at step
    · cases step
      exact .inr ⟨rfl, by simp [CameraSession.streaming, publishing]⟩
    · cases step
      simp [CameraSession.streaming, capturing]

theorem stepStart_finished
    (step : session.stepStart whipUrl streamKey success phase = some (session', .finished true)) :
    session'.isRunning = true := by
  cases phase with
  | settling =>
    cases step
    rfl
  | finished _ | handled => cases step
  | launched =>
    dsimp only [CameraSession.stepStart] at step
    split at step <;> cases step
  | initializingPipeline | initializingPublisher | startingPublisher | startingPipeline =>
    cases success <;> cases step

end stepStart

/-! ### The start that is watched -/

/-- The start has told the publisher where to stream to. -/
def Phase.told : Phase → Bool
  | .startingPublisher | .startingPipeline | .settling => true
  | .launched | .initializingPipeline | .initializingPublisher | .finished _ | .handled => false

/-- What one step of a start does to what the session was told and to `isRunning_`. -/
theorem stepStart_told {whipUrl streamKey : String} {success : Bool}
    (fits : Fits session (some phase))
    (step : session.stepStart whipUrl streamKey success phase = some (session', phase')) :
    (phase.told = true → session'.whipUrl = session.whipUrl ∧
      session'.streamKey = session.streamKey) ∧
    (phase'.told = true → phase.told = true ∨
      session'.whipUrl = whipUrl ∧ session'.streamKey = streamKey) ∧
    (session'.isRunning = true → phase = .settling ∨ session.isRunning = true ∧
      session'.whipUrl = session.whipUrl ∧ session'.streamKey = session.streamKey) := by
  cases phase with
  | finished _ | handled => cases step
  | launched =>
    cases step
    refine ⟨nofun, fun told => ?_, fun running => .inr ⟨running, rfl, rfl⟩⟩
    split at told <;> cases told
  | initializingPipeline =>
    cases step
    refine ⟨nofun, fun told => ?_, fun running => .inr ⟨running, rfl, rfl⟩⟩
    split at told <;> cases told
  | initializingPublisher =>
    cases step
    refine ⟨nofun, fun _ => .inr ⟨rfl, rfl⟩, fun running => ?_⟩
    exact absurd (fits.1.symm.trans running) (by simp)
  | startingPublisher | startingPipeline =>
    dsimp only [CameraSession.stepStart] at step
    split at step <;> cases step
    all_goals
      exact ⟨fun _ => ⟨rfl, rfl⟩, fun _ => .inl rfl, fun running => .inr ⟨running, rfl, rfl⟩⟩
  | settling =>
    cases step
    exact ⟨fun _ => ⟨rfl, rfl⟩, fun _ => .inl rfl, fun _ => .inl rfl⟩

/-- No start runs but the watched one, and the session is what that start has made of it. -/
structure Watching (s : State) : Prop where
  single : ∀ (n : Nat) start, s.starts[n]? = some start → start.phase.running = true →
    s.startWatcher = some n
  fits : Fits s.session (s.watched.map (·.phase))
  given : ∀ start, s.watched = some start → start.phase.told = true →
    s.session.whipUrl = start.whipUrl ∧ s.session.streamKey = start.streamKey

theorem watching_fresh : Watching State.fresh := ⟨nofun, ⟨rfl, rfl⟩, nofun⟩

theorem State.watched_of (watcher : s.startWatcher = some n) : s.watched = s.starts[n]? := by
  unfold State.watched
  rw [watcher]
  rfl

theorem State.mem_of_watched {start : Start} (watched : s.watched = some start) :
    start ∈ s.starts := by
  obtain ⟨n, _, found⟩ := Option.bind_eq_some_iff.mp watched
  exact List.mem_of_getElem? found

/-- A controller with a running start has a watcher. -/
theorem State.watcher_ne_none (running : s.startRunning = true) : s.startWatcher ≠ none := by
  intro unwatched
  unfold State.startRunning State.watched at running
  rw [unwatched] at running
  cases running

theorem State.startRunning_of_watched {start : Start} (watched : s.watched = some start) :
    s.startRunning = start.phase.running := by
  unfold State.startRunning
  rw [watched, Option.any_some]

theorem State.exists_watched (running : s.startRunning = true) :
    ∃ start, s.watched = some start ∧ start.phase.running = true := by
  unfold State.startRunning at running
  exact (Option.any_eq_true _ _).mp running

/-- A start that is running is the one that is watched. -/
theorem Watching.watched (watching : Watching s) {start : Start} (member : start ∈ s.starts)
    (running : start.phase.running = true) : s.watched = some start := by
  obtain ⟨n, found⟩ := List.mem_iff_getElem?.mp member
  exact (State.watched_of (watching.single n start found running)).trans found

theorem Watching.idle_iff (watching : Watching s) : s.Idle ↔ s.startRunning = false := by
  constructor
  · intro idle
    by_contra running
    have running : s.startRunning = true := by simpa using running
    obtain ⟨start, watched, runs⟩ := State.exists_watched running
    have stopped := idle start (State.mem_of_watched watched)
    rw [runs] at stopped
    cases stopped
  · intro still start member
    by_contra running
    have running : start.phase.running = true := by simpa using running
    rw [State.startRunning_of_watched (watching.watched member running), running] at still
    cases still

theorem Watching.fits_watched (watching : Watching s) {start : Start}
    (watched : s.watched = some start) : Fits s.session (some start.phase) := by
  have fits := watching.fits
  rw [watched] at fits
  exact fits

theorem Watching.steady (watching : Watching s) (still : s.startRunning = false) :
    s.session.streaming = none ↔ s.session.isRunning = false := by
  refine watching.fits.streaming_eq_none_iff ?_
  rw [Option.any_map]
  exact still

theorem CameraSession.isRunning_stop (session : CameraSession) :
    session.stop.isRunning = false := by
  unfold CameraSession.stop
  split
  · rfl
  · next stopped => simpa using stopped

/-- A new start, launched while none runs. -/
theorem State.watched_start (whipUrl streamKey : String) (still : s.startRunning = false) :
    (s.start whipUrl streamKey).watched =
      some ⟨s.requests.length, whipUrl, streamKey, .launched⟩ := by
  unfold State.start
  rw [if_neg (by simp [still])]
  exact (State.watched_of rfl).trans (by simp)

theorem Watching.start (watching : Watching s) (whipUrl streamKey : String) :
    Watching (s.start whipUrl streamKey) := by
  by_cases running : s.startRunning = true
  · unfold State.start
    rw [if_pos running]
    exact ⟨watching.single, watching.fits, watching.given⟩
  · have still : s.startRunning = false := by simpa using running
    have launched := State.watched_start whipUrl streamKey still
    refine ⟨?_, ?_, ?_⟩
    · intro n start found runs
      unfold State.start at found ⊢
      rw [if_neg running] at found ⊢
      by_cases earlier : n < s.starts.length
      · rw [List.getElem?_append_left earlier] at found
        have stopped := watching.idle_iff.mpr still start (List.mem_of_getElem? found)
        rw [runs] at stopped
        cases stopped
      · have inside := (List.getElem?_eq_some_iff.mp found).1
        rw [List.length_append, List.length_singleton] at inside
        have last : n = s.starts.length := by omega
        rw [last]
    · rw [launched]
      unfold State.start
      rw [if_neg running]
      refine watching.fits.steady ?_
      rw [Option.any_map]
      exact still
    · intro start watched told
      rw [launched] at watched
      cases watched
      cases told

theorem CameraSession.told_stop (session : CameraSession) :
    session.stop.whipUrl = session.whipUrl ∧ session.stop.streamKey = session.streamKey := by
  unfold CameraSession.stop
  split <;> exact ⟨rfl, rfl⟩

theorem Watching.stop (watching : Watching s) : Watching s.stop := by
  refine ⟨watching.single, watching.fits.stop, ?_⟩
  intro start watched told
  have told' := CameraSession.told_stop s.session
  exact ⟨told'.1.trans (watching.given start watched told).1,
    told'.2.trans (watching.given start watched told).2⟩

theorem State.of_background {success : Bool} (step : s.background n success = some s') :
    ∃ start session' phase', s.starts[n]? = some start ∧
      s.session.stepStart start.whipUrl start.streamKey success start.phase =
        some (session', phase') ∧
      s' = { s with
        session := session', starts := s.starts.set n { start with phase := phase' } } := by
  unfold State.background at step
  split at step
  · cases step
  · next start found =>
    split at step
    · cases step
    · next session' phase' stepped =>
      cases step
      exact ⟨start, session', phase', found, stepped, rfl⟩

theorem State.watched_set {start : Start} (watcher : s.startWatcher = some n)
    (found : s.starts[n]? = some start) (session' : CameraSession) (start' : Start) :
    ({ s with session := session', starts := s.starts.set n start' } : State).watched =
      some start' := by
  have found' : (s.starts.set n start')[n]? = some start' :=
    List.getElem?_set_self (List.getElem?_eq_some_iff.mp found).1
  refine Eq.trans (State.watched_of ?_) found'
  exact watcher

/-- A step of a background start is one of the watched start. -/
theorem Watching.of_background {success : Bool} (watching : Watching s)
    (step : s.background n success = some s') :
    ∃ start phase', s.startWatcher = some n ∧ s.watched = some start ∧
      s.session.stepStart start.whipUrl start.streamKey success start.phase =
        some (s'.session, phase') ∧
      s' = { s with
        session := s'.session, starts := s.starts.set n { start with phase := phase' } } ∧
      s'.watched = some { start with phase := phase' } := by
  obtain ⟨start, session', phase', found, stepped, after⟩ := State.of_background step
  have watcher := watching.single n start found (running_of_stepStart stepped)
  have watched : s.watched = some start := (State.watched_of watcher).trans found
  subst after
  exact ⟨start, phase', watcher, watched, stepped, rfl, State.watched_set watcher found _ _⟩

theorem Watching.background {success : Bool} (watching : Watching s)
    (step : s.background n success = some s') : Watching s' := by
  obtain ⟨start, phase', watcher, watched, stepped, after, watched'⟩ := watching.of_background step
  have fits := watching.fits_watched watched
  obtain ⟨same, tells, _⟩ := stepStart_told fits stepped
  have starts : s'.starts = s.starts.set n { start with phase := phase' } := by rw [after]
  have watcher' : s'.startWatcher = some n := by rw [after]; exact watcher
  refine ⟨?_, ?_, ?_⟩
  · intro n' start' found running
    by_cases own : n' = n
    · rw [own]
      exact watcher'
    · rw [starts, List.getElem?_set_ne (Ne.symm own)] at found
      rw [watcher', ← watcher]
      exact watching.single n' start' found running
  · rw [watched']
    exact fits.stepStart stepped
  · intro start' found told
    rw [watched'] at found
    cases found
    rcases tells told with earlier | now
    · obtain ⟨url, key⟩ := same earlier
      obtain ⟨url', key'⟩ := watching.given start watched earlier
      exact ⟨url.trans url', key.trans key'⟩
    · exact now

/-- The handler of a start takes the result of the watched one. -/
theorem State.of_startFinished (step : s.startFinished n = some s') :
    ∃ start watched success result, s.starts[n]? = some start ∧ start.phase = .finished result ∧
      s.watched = some watched ∧ watched.phase = .finished success ∧
      s' = { s with
        starts := s.starts.set n { start with phase := .handled }
        startWatcher := none
        errors := if success then s.errors else s.errors ++ [watched.request] } := by
  unfold State.startFinished at step
  split at step
  · next start watched found watching =>
    split at step
    · next result success ended finished =>
      cases step
      exact ⟨start, watched, success, result, found, ended, watching, finished, rfl⟩
    · cases step
  · cases step

theorem Watching.startFinished (watching : Watching s) (step : s.startFinished n = some s') :
    Watching s' := by
  obtain ⟨start, watched, success, result, found, ended, own, finished, after⟩ :=
    State.of_startFinished step
  have still : s.startRunning = false := by
    rw [State.startRunning_of_watched own, finished]
    rfl
  subst after
  refine ⟨?_, ?_, nofun⟩
  · intro n' start' found' running
    by_cases same : n' = n
    · subst same
      rw [List.getElem?_set_self (List.getElem?_eq_some_iff.mp found).1] at found'
      cases found'
      cases running
    · rw [List.getElem?_set_ne (Ne.symm same)] at found'
      have stopped := watching.idle_iff.mpr still start' (List.mem_of_getElem? found')
      rw [running] at stopped
      cases stopped
  · refine watching.fits.steady ?_
    rw [Option.any_map]
    exact still

end CameraController

end DirectLink
