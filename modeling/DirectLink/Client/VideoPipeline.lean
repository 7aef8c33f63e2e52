import DirectLink.Lib.Machine

/-!
# Stopping the video pipeline

The capture thread, the encode thread and the thread that stops a running `VideoPipeline`, with the
queue between the first two.  The mutex is held by the encode thread while it looks at the queue;
the section of the capture callback that holds it is one step.  The counters of frames and bits are
left out, and a waiting thread wakes up only when it is notified.
-/

namespace DirectLink

namespace VideoPipeline

variable {Frame : Type}

/-- `QUEUE_CAPACITY`. -/
def queueCapacity : Nat := 3

/-- Where the encode thread is in `encodeLoop`. -/
inductive Encode (Frame : Type) : Type
  /-- It reads the stop token. -/
  | looping
  /-- It takes the mutex to evaluate the predicate of the wait. -/
  | locking
  /-- It holds the mutex and evaluates the predicate. -/
  | checking
  /-- The predicate was false: it is about to release the mutex and wait. -/
  | blocking
  | waiting
  /-- The predicate was true and it still holds the mutex. -/
  | taking
  | encoding (frame : Frame)
  | returned
  deriving DecidableEq

/-- Where the capture thread is in `captureLoop`. -/
inductive Capture (Frame : Type) : Type
  | looping
  /-- It has called the callback with a frame. -/
  | called (frame : Frame)
  /-- The frame is queued. -/
  | notifying
  | ended
  deriving DecidableEq

/-- Where the stopping thread is, in `VideoPipeline::stop` or in the destructor. -/
inductive Stopper : Type
  | idle
  /-- It asks whether the capture device runs. -/
  | checkingCapture
  | stoppingCapture
  | joiningCapture
  | notifying
  /-- It requests the encode thread to stop. -/
  | requesting
  | joining
  | stopped
  deriving DecidableEq

structure State (Frame : Type) : Type where
  queue : List Frame
  encode : Encode Frame
  capture : Capture Frame
  /-- `running_` of the capture device. -/
  running : Bool
  captureStop : Bool
  stopRequested : Bool
  stopper : Stopper

inductive Move (Frame : Type) : Type
  /-- The next step of the encode thread. -/
  | encode
  /-- The capture thread pulls a frame. -/
  | frame (frame : Frame)
  /-- The next step of the capture thread. -/
  | capture
  /-- The capture thread meets an error or the end of the stream. -/
  | eos
  /-- `VideoPipeline::stop` is called. -/
  | stop
  /-- The pipeline is destroyed. -/
  | destroy
  /-- The next step of the stopping thread. -/
  | stopper

namespace State

/-- The mutex is held by the encode thread. -/
def locked (s : State Frame) : Bool :=
  match s.encode with
  | .checking | .blocking | .taking => true
  | _ => false

/-- `notify_one` and `notify_all`: there is one thread that waits. -/
def notify (s : State Frame) : State Frame :=
  match s.encode with
  | .waiting => { s with encode := .locking }
  | _ => s

/-- The queue after a frame, the oldest one dropped when it is full. -/
def push (s : State Frame) (frame : Frame) : State Frame :=
  { s with queue :=
      if queueCapacity ≤ s.queue.length then s.queue.tail ++ [frame] else s.queue ++ [frame] }

/-- `encodeLoop`. -/
def stepEncode (s : State Frame) : Option (State Frame) :=
  match s.encode with
  | .looping => some { s with encode := if s.stopRequested then .returned else .locking }
  | .locking => some { s with encode := .checking }
  | .checking =>
    some { s with encode := if s.queue ≠ [] ∨ s.stopRequested = true then .taking else .blocking }
  | .blocking => some { s with encode := .waiting }
  | .waiting => none
  | .taking =>
    match s.queue with
    | [] => if s.stopRequested then some { s with encode := .returned } else none
    | frame :: queue => some { s with encode := .encoding frame, queue }
  | .encoding _ => some { s with encode := .looping }
  | .returned => none

/-- `captureLoop` and the capture callback. -/
def stepCapture (s : State Frame) : Option (State Frame) :=
  match s.capture with
  | .looping => if s.captureStop then some { s with capture := .ended, running := false } else none
  | .called frame => if s.locked then none else some { s.push frame with capture := .notifying }
  | .notifying => some { s.notify with capture := .looping }
  | .ended => none

/-- `VideoPipeline::stop`, with the assignment of an empty `jthread` to `encodeThread_`. -/
def stepStopper (s : State Frame) : Option (State Frame) :=
  match s.stopper with
  | .idle => none
  | .checkingCapture =>
    some { s with stopper := if s.running then .stoppingCapture else .notifying }
  | .stoppingCapture =>
    if s.running then
      some { s with running := false, captureStop := true, stopper := .joiningCapture }
    else some { s with stopper := .notifying }
  | .joiningCapture =>
    match s.capture with
    | .ended => some { s with stopper := .notifying }
    | _ => none
  | .notifying => some { s.notify with stopper := .requesting }
  | .requesting => some { s with stopRequested := true, stopper := .joining }
  | .joining =>
    match s.encode with
    | .returned => some { s with stopper := .stopped }
    | _ => none
  | .stopped => none

/-- A step of one of the threads.  The destructor destroys the encode thread first: it is requested
to stop and joined, while the capture device still runs and nobody is notified. -/
def next (s : State Frame) : Move Frame → Option (State Frame)
  | .encode => s.stepEncode
  | .frame frame =>
    match s.capture with
    | .looping => if s.captureStop then none else some { s with capture := .called frame }
    | _ => none
  | .capture => s.stepCapture
  | .eos =>
    match s.capture with
    | .looping => some { s with capture := .ended, running := false }
    | _ => none
  | .stop =>
    match s.stopper with
    | .idle => some { s with stopper := .checkingCapture }
    | _ => none
  | .destroy =>
    match s.stopper with
    | .idle => some { s with stopper := .requesting }
    | _ => none
  | .stopper => s.stepStopper

/-- The move notifies the condition variable. -/
def Notifies (s : State Frame) : Move Frame → Prop
  | .capture => s.capture = .notifying
  | .stopper => s.stopper = .notifying
  | _ => False

end State

/-- The threads of a pipeline. -/
@[reducible] def machine (Frame : Type) : Machine := ⟨State Frame, Move Frame, State.next⟩

/-- A pipeline that has been started, whatever is queued. -/
def started (queue : List Frame) : State Frame :=
  ⟨queue, .looping, .looping, true, false, false, .idle⟩

/-- The stopping thread waits for the encode thread, which waits for a notification that can not
come any more. -/
def Stuck (s : State Frame) : Prop :=
  s.stopper = .joining ∧ s.encode = .waiting ∧
    ∀ s', (machine Frame).Reach (fun _ _ => True) s s' → ∀ m s'', s'.next m = some s'' →
      ¬ s'.Notifies m

/-- Stopping has not passed its notification, if it is to notify at all. -/
def Stopper.BeforeNotify : Stopper → Prop
  | .idle | .checkingCapture | .stoppingCapture | .joiningCapture | .notifying => True
  | _ => False

/-- The encode thread begins to wait only before `stop` has notified or while the capture thread
runs; and neither does the destructor begin, nor the capture thread end under it, where that would
leave the encode thread waiting. -/
def WaitsNotified (s : State Frame) : Move Frame → Prop
  | .encode => s.encode = .blocking → s.stopper.BeforeNotify ∨ s.capture ≠ .ended
  | .destroy => s.encode = .waiting → s.capture ≠ .ended
  | .eos => s.encode = .waiting → s.stopper.BeforeNotify
  | _ => True

/-- An encode thread that waits can still be notified. -/
structure Wakeable (s : State Frame) : Prop where
  notified : s.encode = .waiting → s.stopper.BeforeNotify ∨ s.capture ≠ .ended
  ended : s.captureStop = true → s.stopper = .joiningCapture ∨ s.capture = .ended

variable {s s' : State Frame} {m : Move Frame}

theorem Wakeable.stepEncode (wakeable : Wakeable s) (guard : WaitsNotified s .encode)
    (step : s.stepEncode = some s') : Wakeable s' := by
  have frame : s'.stopper = s.stopper ∧ s'.capture = s.capture ∧ s'.captureStop = s.captureStop ∧
      (s'.encode = .waiting → s.encode = .blocking) := by
    unfold State.stepEncode at step
    repeat' split at step
    all_goals cases step
    all_goals refine ⟨rfl, rfl, rfl, ?_⟩
    all_goals dsimp only
    all_goals intro waiting
    all_goals first
      | assumption
      | cases waiting
  obtain ⟨stopper, capture, captureStop, waits⟩ := frame
  constructor
  · intro waiting
    rw [stopper, capture]
    exact guard (waits waiting)
  · rw [stopper, capture, captureStop]
    exact wakeable.ended

@[simp] theorem State.notify_encode : s.notify.encode ≠ .waiting := by
  unfold State.notify
  split
  · simp
  · next other => exact other

@[simp] theorem State.notify_captureStop : s.notify.captureStop = s.captureStop := by
  unfold State.notify
  split <;> rfl

@[simp] theorem State.notify_capture : s.notify.capture = s.capture := by
  unfold State.notify
  split <;> rfl

/-- Until the capture thread has ended, it is requested to stop only by a `stop` that joins it. -/
theorem Wakeable.joining (wakeable : Wakeable s) (requested : s.captureStop = true)
    (runs : s.capture ≠ .ended) : s.stopper = .joiningCapture :=
  (wakeable.ended requested).resolve_right runs

/-- Once `stop` is past the capture thread, that has ended if it was requested to stop. -/
theorem Wakeable.passed (wakeable : Wakeable s) (requested : s.captureStop = true)
    (passed : s.stopper ≠ .joiningCapture) : s.capture = .ended :=
  (wakeable.ended requested).resolve_left passed

theorem Wakeable.stepCapture (wakeable : Wakeable s) (step : s.stepCapture = some s') :
    Wakeable s' := by
  unfold State.stepCapture at step
  split at step
  · next looping =>
    split at step
    · next requested =>
      cases step
      have joining := wakeable.joining requested (by rw [looping]; simp)
      exact ⟨fun _ => .inl (by simp [joining, Stopper.BeforeNotify]), fun _ => .inl joining⟩
    · cases step
  · next frame called =>
    split at step
    · cases step
    · cases step
      refine ⟨fun _ => .inr (by simp), fun requested => .inl ?_⟩
      exact wakeable.joining requested (by rw [called]; simp)
  · next notifying =>
    cases step
    refine ⟨fun _ => .inr (by simp), fun requested => .inl ?_⟩
    rw [State.notify_captureStop] at requested
    have joining := wakeable.joining requested (by rw [notifying]; simp)
    unfold State.notify
    split <;> exact joining
  · cases step

theorem Wakeable.stepStopper (wakeable : Wakeable s) (step : s.stepStopper = some s') :
    Wakeable s' := by
  unfold State.stepStopper at step
  split at step
  · cases step
  · next checking =>
    cases step
    refine ⟨fun _ => .inl ?_, fun requested => .inr ?_⟩
    · dsimp only
      split <;> trivial
    · exact wakeable.passed requested (by rw [checking]; simp)
  · next stopping =>
    split at step
    · cases step
      exact ⟨fun _ => .inl trivial, fun _ => .inl rfl⟩
    · cases step
      refine ⟨fun _ => .inl trivial, fun requested => .inr ?_⟩
      exact wakeable.passed requested (by rw [stopping]; simp)
  · next joining =>
    split at step
    · next ended =>
      cases step
      exact ⟨fun _ => .inl trivial, fun _ => .inr ended⟩
    · cases step
  · next notifying =>
    cases step
    refine ⟨fun waiting => absurd waiting State.notify_encode, fun requested => .inr ?_⟩
    dsimp only at requested ⊢
    rw [State.notify_captureStop] at requested
    rw [State.notify_capture]
    exact wakeable.passed requested (by rw [notifying]; simp)
  · next requesting =>
    cases step
    refine ⟨fun waiting => ?_, fun requested => .inr ?_⟩
    · have notified := wakeable.notified waiting
      rw [requesting] at notified
      exact .inr (notified.resolve_left not_false)
    · exact wakeable.passed requested (by rw [requesting]; simp)
  · next joining =>
    split at step
    · next returned =>
      cases step
      refine ⟨fun waiting => ?_, fun requested => .inr ?_⟩
      · rw [returned] at waiting
        cases waiting
      · exact wakeable.passed requested (by rw [joining]; simp)
    · cases step
  · cases step

/-- Every step that meets the condition leaves the encode thread wakeable. -/
theorem Wakeable.next (wakeable : Wakeable s) (guard : WaitsNotified s m)
    (step : s.next m = some s') : Wakeable s' := by
  cases m with
  | encode => exact wakeable.stepEncode guard step
  | capture => exact wakeable.stepCapture step
  | stopper => exact wakeable.stepStopper step
  | frame frame =>
    simp only [State.next] at step
    split at step
    · split at step
      · cases step
      · next unrequested =>
        cases step
        exact ⟨fun _ => .inr (by simp), fun requested => absurd requested unrequested⟩
    · cases step
  | eos =>
    simp only [State.next] at step
    split at step
    · cases step
      exact ⟨fun waiting => .inl (guard waiting), fun _ => .inr rfl⟩
    · cases step
  | stop =>
    simp only [State.next] at step
    split at step
    · next idle =>
      cases step
      refine ⟨fun _ => .inl trivial, fun requested => .inr ?_⟩
      exact wakeable.passed requested (by rw [idle]; simp)
    · cases step
  | destroy =>
    simp only [State.next] at step
    split at step
    · next idle =>
      cases step
      refine ⟨fun waiting => .inr (guard waiting), fun requested => .inr ?_⟩
      exact wakeable.passed requested (by rw [idle]; simp)
    · cases step

/-- Where the encode thread can be notified, the stopping thread is not stuck. -/
theorem Wakeable.not_stuck [Inhabited Frame] (wakeable : Wakeable s) : ¬ Stuck s := by
  intro stuck
  obtain ⟨joining, waiting, silent⟩ := stuck
  have runs : s.capture ≠ .ended := by
    have notified := wakeable.notified waiting
    rw [joining] at notified
    exact notified.resolve_left not_false
  have unrequested : s.captureStop = false := by
    cases requested : s.captureStop with
    | false => rfl
    | true =>
      have joining' := wakeable.joining requested runs
      rw [joining] at joining'
      cases joining'
  -- a capture thread that has a frame goes on to notify
  have pushed : ∀ t : State Frame, (machine Frame).Reach (fun _ _ => True) s t →
      t.capture ≠ .notifying := by
    intro t reach notifying
    have step : t.next .capture = some { t.notify with capture := .looping } := by
      simp [State.next, State.stepCapture, notifying]
    exact silent t reach .capture _ step notifying
  have queued : ∀ (t : State Frame) frame, (machine Frame).Reach (fun _ _ => True) s t →
      t.encode = .waiting → t.capture ≠ .called frame := by
    intro t frame reach waits called
    have step : (machine Frame).next t .capture =
        some { t.push frame with capture := .notifying } := by
      simp [State.next, State.stepCapture, State.locked, called, waits]
    have reach' := reach.step trivial step
    exact pushed _ reach' rfl
  cases capture : s.capture with
  | ended => exact runs capture
  | notifying => exact pushed s .refl capture
  | called frame => exact queued s frame .refl waiting capture
  | looping =>
    have step : (machine Frame).next s (.frame default) =
        some { s with capture := .called default } := by
      simp [State.next, capture, unrequested]
    have reach : (machine Frame).Reach (fun _ _ => True) s { s with capture := .called default } :=
      Machine.Reach.step .refl trivial step
    exact queued _ default reach waiting rfl

theorem wakeable_started {queue : List Frame} : Wakeable (started queue) :=
  ⟨fun _ => .inl trivial, fun impossible => by cases impossible⟩

/-- No state that moves under `G` reach from a started pipeline, whatever is queued, has the
stopping thread stuck. -/
def NeverStuck (Frame : Type) (G : State Frame → Move Frame → Prop) : Prop :=
  ∀ (queue : List Frame) s, (machine Frame).Reach G (started queue) s → ¬ Stuck s

/-- **Stopping does not deadlock**, as long as the encode thread waits only where it can still be
notified. -/
theorem stop_never_stuck (Frame : Type) [Inhabited Frame] :
    NeverStuck Frame WaitsNotified := by
  intro queue s reach
  refine Wakeable.not_stuck ?_
  refine Machine.Reach.invariant (I := Wakeable) wakeable_started ?_ reach
  intro s m s' wakeable guard step
  exact wakeable.next guard step

/-- A stopping thread that waits for a waiting encode thread after the capture thread has ended is
stuck. -/
theorem stuck_of_ended (joining : s.stopper = .joining) (waiting : s.encode = .waiting)
    (ended : s.capture = .ended) : Stuck s := by
  have still : ∀ m s', s.next m ≠ some s' := by
    intro m s' step
    cases m <;> simp [State.next, State.stepEncode, State.stepCapture, State.stepStopper, joining,
      waiting, ended] at step
  refine ⟨joining, waiting, ?_⟩
  intro s' reach m s'' step
  have same : s' = s := reach.eq_of_final still
  subst same
  exact absurd step (still m s'')

/-- The encode thread waits; `stop` notifies it; it finds no frame and no request to stop, and waits
again before `stop` goes on. -/
def wokenTooEarly : List (Move Unit) :=
  [.encode, .encode, .encode, .encode, .stop, .stopper, .stopper, .capture, .stopper, .stopper,
    .encode, .encode, .encode, .stopper]

/-- The notification of `stop` comes before its request: the encode thread can miss both. -/
theorem stop_stuck : ¬ NeverStuck Unit fun _ _ => True := by
  intro never
  have computed : ((machine Unit).run (fun _ _ => true) wokenTooEarly (started [])).map
      (fun s => (s.stopper, s.encode, s.capture)) = some (.joining, .waiting, .ended) := by
    decide
  obtain ⟨s, run, threads⟩ := Option.map_eq_some_iff.mp computed
  have reach : (machine Unit).Reach (fun _ _ => True) (started []) s :=
    (Machine.reach_of_run run).mono fun _ _ _ => trivial
  have stopper := congrArg Prod.fst threads
  have encode := congrArg (fun t => t.2.1) threads
  have capture := congrArg (fun t => t.2.2) threads
  exact never [] s reach (stuck_of_ended stopper encode capture)

end VideoPipeline

end DirectLink
