import Mathlib.Logic.Basic
import DirectLink.Lib.Machine

/-!
# Camera capture

`CameraCapture::start`, `stop` and `captureLoop` after a successful `initialize`, step by step, with
the capture thread running beside the thread that makes the calls.  A pipeline error or the end of
the stream can end the loop at any moment.
-/

namespace DirectLink

namespace CameraCapture

inductive Result : Type
  | success
  | errorInitFailed
  | errorCaptureFailed
  deriving DecidableEq

/-- The state to which the pipeline was last set. -/
inductive GstState : Type
  | null
  | ready
  | playing
  deriving DecidableEq

/-- `captureThread_`, which is joinable unless there is none. -/
inductive CaptureThread : Type
  | none
  | looping
  /-- Out of the loop, `running_` still to be cleared. -/
  | leaving
  | ended
  deriving DecidableEq

/-- Where the caller of `start` and `stop` is. -/
inductive Caller : Type
  | idle
  /-- `start` waits for the pipeline to play. -/
  | awaitingState
  /-- `start` is about to set `running_`. -/
  | played
  /-- `start` is about to make the thread. -/
  | spawning
  /-- `stop` has found `running_` set. -/
  | stopping
  /-- `stop` has cleared it. -/
  | cleared
  | joining
  /-- `stop` is about to set the pipeline to NULL. -/
  | joined
  deriving DecidableEq

structure State : Type where
  running : Bool
  captureThread : CaptureThread
  stopRequested : Bool
  pipeline : GstState
  caller : Caller
  /-- What the last call returned. -/
  result : Option Result
  /-- `stop` has returned `Success` and `start` was not called since. -/
  stopped : Bool
  deriving DecidableEq

inductive Move : Type
  /-- `gst_element_set_state` accepts PLAYING or fails. -/
  | start (accepted : Bool)
  /-- `gst_element_get_state` reports PLAYING in time or not. -/
  | stateReached (playing : Bool)
  | storeRunning
  | makeThread
  | stop
  | clearRunning
  | requestStop
  | join
  | setNull
  /-- The loop sees the stop request. -/
  | loopStops
  /-- The loop finds a pipeline error or the end of the stream on the bus. -/
  | loopFails
  | loopClears
  deriving DecidableEq

namespace State

variable (s : State)

def returns (result : Result) : State :=
  { s with caller := .idle, result := some result }

def next : Move → Option State
  | .start accepted =>
    if s.caller ≠ .idle then none
    else
      let s := { s with stopped := false }
      if s.running ∨ s.captureThread ≠ .none then some (s.returns .errorInitFailed)
      else if accepted then some { s with pipeline := .playing, caller := .awaitingState }
      else some ({ s with pipeline := .null }.returns .errorCaptureFailed)
  | .stateReached playing =>
    if s.caller ≠ .awaitingState then none
    else if playing then some { s with caller := .played }
    else some ({ s with pipeline := .null }.returns .errorCaptureFailed)
  | .storeRunning =>
    if s.caller ≠ .played then none else some { s with running := true, caller := .spawning }
  | .makeThread =>
    if s.caller ≠ .spawning then none
    else some ({ s with captureThread := .looping, stopRequested := false }.returns .success)
  | .stop =>
    if s.caller ≠ .idle then none
    else if s.running then some { s with caller := .stopping }
    else some ({ s with stopped := true }.returns .success)
  | .clearRunning =>
    if s.caller ≠ .stopping then none else some { s with running := false, caller := .cleared }
  | .requestStop =>
    if s.caller ≠ .cleared then none
    else if s.captureThread = .none then some { s with caller := .joined }
    else some { s with stopRequested := true, caller := .joining }
  | .join =>
    if s.caller ≠ .joining ∨ s.captureThread ≠ .ended then none
    else some { s with captureThread := .none, caller := .joined }
  | .setNull =>
    if s.caller ≠ .joined then none
    else some ({ s with pipeline := .null, stopped := true }.returns .success)
  | .loopStops =>
    if s.captureThread ≠ .looping ∨ s.stopRequested = false then none
    else some { s with captureThread := .leaving }
  | .loopFails =>
    if s.captureThread ≠ .looping then none else some { s with captureThread := .leaving }
  | .loopClears =>
    if s.captureThread ≠ .leaving then none
    else some { s with captureThread := .ended, running := false }

end State

@[reducible] def machine : Machine := ⟨State, Move, State.next⟩

/-- `initialize` leaves the pipeline in READY. -/
def initialized : State := ⟨false, .none, false, .ready, .idle, none, false⟩

/-! ### What is to hold -/

/-- Nothing is left of an earlier run. -/
def Restartable (s : State) : Prop :=
  s.captureThread = .none ∧ s.running = false ∧ s.pipeline = .null

/-- Whenever `stop` has returned `Success` and `start` was not called since, nothing is left of an
earlier run, in runs whose moves satisfy `G`. -/
def RestartableWhen (G : State → Move → Prop) : Prop :=
  ∀ s, machine.Reach G initialized s → s.stopped = true → Restartable s

/-- The capture loop has not ended by itself since the last `stop`, and the pipeline is not as
`initialize` left it. -/
def InOrder (s : State) : Prop :=
  s.captureThread ≠ .ended ∧ s.pipeline ≠ .ready

/-! ### The states -/

/-- What each place of the caller says about the rest. -/
def Consistent (s : State) : Prop :=
  match s.caller with
  | .idle =>
    match s.captureThread with
    | .none => s.running = false ∧ s.pipeline ≠ .playing
    | .looping | .leaving => s.running = true ∧ s.pipeline = .playing
    | .ended => s.running = false ∧ s.pipeline = .playing
  | .awaitingState | .played =>
    s.captureThread = .none ∧ s.running = false ∧ s.pipeline = .playing ∧ s.stopped = false
  | .spawning =>
    s.captureThread = .none ∧ s.running = true ∧ s.pipeline = .playing ∧ s.stopped = false
  | .stopping => s.captureThread ≠ .none
  | .cleared | .joining => s.captureThread ≠ .none ∧ s.running = false
  | .joined => s.captureThread = .none ∧ s.running = false

section Reach

variable {G : State → Move → Prop} {s s' : State} {m : Move}

theorem consistent_initialized : Consistent initialized :=
  ⟨rfl, by decide⟩

theorem Consistent.start {accepted : Bool} (consistent : Consistent s)
    (step : s.next (.start accepted) = some s') : Consistent s' := by
  obtain ⟨running, captureThread, stopRequested, pipeline, caller, result, stopped⟩ := s
  dsimp only [State.next] at step
  split at step
  · cases step
  · next idle =>
    obtain rfl := not_not.mp idle
    split at step
    · cases step
      exact consistent
    · next free =>
      obtain ⟨still, vacant⟩ := not_or.mp free
      obtain rfl := not_not.mp vacant
      split at step <;> cases step
      · exact ⟨rfl, consistent.1, rfl, rfl⟩
      · exact ⟨consistent.1, by simp [State.returns]⟩

theorem Consistent.stop (consistent : Consistent s) (step : s.next .stop = some s') :
    Consistent s' := by
  obtain ⟨running, captureThread, stopRequested, pipeline, caller, result, stopped⟩ := s
  dsimp only [State.next] at step
  split at step
  · cases step
  · next idle =>
    obtain rfl := not_not.mp idle
    split at step <;> cases step
    · next runs =>
      cases captureThread with
      | none => exact absurd (consistent.1.symm.trans runs) Bool.false_ne_true
      | looping | leaving | ended => simp [Consistent]
    · exact consistent

/-- The moves of the capture thread. -/
theorem Consistent.loop (consistent : Consistent s)
    (loop : m = .loopStops ∨ m = .loopFails ∨ m = .loopClears) (step : s.next m = some s') :
    Consistent s' := by
  obtain ⟨running, captureThread, stopRequested, pipeline, caller, result, stopped⟩ := s
  rcases loop with rfl | rfl | rfl <;> dsimp only [State.next] at step <;> split at step <;>
    cases step
  · next looping =>
    obtain rfl := not_not.mp (not_or.mp looping).1
    cases caller <;> simp_all [Consistent]
  · next looping =>
    obtain rfl := not_not.mp looping
    cases caller <;> simp_all [Consistent]
  · next leaving =>
    obtain rfl := not_not.mp leaving
    cases caller <;> simp_all [Consistent]

/-- The moves of a `start` or `stop` that is under way. -/
theorem Consistent.underWay (consistent : Consistent s)
    (underWay : m = .storeRunning ∨ m = .makeThread ∨ m = .clearRunning ∨ m = .requestStop ∨
      m = .setNull)
    (step : s.next m = some s') : Consistent s' := by
  obtain ⟨running, captureThread, stopRequested, pipeline, caller, result, stopped⟩ := s
  rcases underWay with rfl | rfl | rfl | rfl | rfl <;> dsimp only [State.next] at step <;>
    split at step
  all_goals try cases step
  · next played =>
    obtain rfl := not_not.mp played
    exact ⟨consistent.1, rfl, consistent.2.2⟩
  · next spawning =>
    obtain rfl := not_not.mp spawning
    exact ⟨consistent.2.1, consistent.2.2.1⟩
  · next stopping =>
    obtain rfl := not_not.mp stopping
    exact ⟨consistent, rfl⟩
  · next cleared =>
    obtain rfl := not_not.mp cleared
    obtain ⟨joinable, still⟩ := consistent
    rw [if_neg joinable] at step
    cases step
    exact ⟨joinable, still⟩
  · next joined =>
    obtain rfl := not_not.mp joined
    obtain ⟨rfl, still⟩ := consistent
    exact ⟨still, by simp [State.returns]⟩

theorem Consistent.next (consistent : Consistent s) (step : s.next m = some s') :
    Consistent s' := by
  cases m with
  | start accepted => exact consistent.start step
  | stop => exact consistent.stop step
  | loopStops => exact consistent.loop (.inl rfl) step
  | loopFails => exact consistent.loop (.inr (.inl rfl)) step
  | loopClears => exact consistent.loop (.inr (.inr rfl)) step
  | storeRunning => exact consistent.underWay (.inl rfl) step
  | makeThread => exact consistent.underWay (.inr (.inl rfl)) step
  | clearRunning => exact consistent.underWay (.inr (.inr (.inl rfl))) step
  | requestStop => exact consistent.underWay (.inr (.inr (.inr (.inl rfl)))) step
  | setNull => exact consistent.underWay (.inr (.inr (.inr (.inr rfl)))) step
  | stateReached playing =>
    obtain ⟨running, captureThread, stopRequested, pipeline, caller, result, stopped⟩ := s
    dsimp only [State.next] at step
    split at step
    · cases step
    · next awaiting =>
      obtain rfl := not_not.mp awaiting
      obtain ⟨rfl, still, playing, fresh⟩ := consistent
      split at step <;> cases step
      · exact ⟨rfl, still, playing, fresh⟩
      · exact ⟨still, by simp [State.returns]⟩
  | join =>
    obtain ⟨running, captureThread, stopRequested, pipeline, caller, result, stopped⟩ := s
    dsimp only [State.next] at step
    split at step <;> cases step
    next joining =>
    obtain rfl := not_not.mp (not_or.mp joining).1
    exact ⟨rfl, consistent.2⟩

theorem Consistent.of_reach (reach : machine.Reach G initialized s) : Consistent s :=
  Machine.Reach.invariant (I := Consistent) consistent_initialized
    (fun _ _ _ consistent _ step => consistent.next step) reach

/-! ### After a stop -/

/-- A `stop` that finds `running_` set has its work to do; the others return at once. -/
theorem stop_cases (step : s.next .stop = some s') :
    s.caller = .idle ∧
      (s.running = true ∧ s' = { s with caller := .stopping } ∨
        s.running = false ∧ s' = { s with stopped := true }.returns .success) := by
  dsimp only [State.next] at step
  split at step
  · cases step
  · next idle =>
    obtain idle := not_not.mp idle
    split at step <;> cases step
    · next runs => exact ⟨idle, .inl ⟨runs, rfl⟩⟩
    · next still => exact ⟨idle, .inr ⟨Bool.not_eq_true _ ▸ still, rfl⟩⟩

/-- A `stop` that returns at once leaves nothing of an earlier run only where nothing was left
before it. -/
theorem restartable_of_still (consistent : Consistent s) (idle : s.caller = .idle)
    (still : s.running = false) : Restartable s ↔ InOrder s := by
  obtain ⟨running, captureThread, stopRequested, pipeline, caller, result, stopped⟩ := s
  obtain rfl : running = false := still
  obtain rfl : caller = .idle := idle
  cases captureThread <;> cases pipeline <;> simp_all [Consistent, Restartable, InOrder]

/-- `start` forgets that `stop` was called. -/
theorem not_stopped_of_start {accepted : Bool} (step : s.next (.start accepted) = some s') :
    s'.stopped = false := by
  dsimp only [State.next] at step
  split at step
  · cases step
  · split at step
    · cases step
      rfl
    · split at step <;> cases step <;> rfl

/-- Only where `stop` returns is it recorded that it was called. -/
theorem stopped_of_next (returning : m ≠ .stop ∧ m ≠ .setNull) (step : s.next m = some s')
    (after : s'.stopped = true) : s.stopped = true := by
  cases m with
  | start accepted =>
    rw [not_stopped_of_start step] at after
    cases after
  | stop => exact absurd rfl returning.1
  | setNull => exact absurd rfl returning.2
  | stateReached playing =>
    dsimp only [State.next] at step
    split at step
    · cases step
    · split at step <;> cases step <;> exact after
  | requestStop =>
    dsimp only [State.next] at step
    split at step
    · cases step
    · split at step <;> cases step <;> exact after
  | _ =>
    dsimp only [State.next] at step
    split at step <;> cases step
    exact after

/-- Where nothing is left of an earlier run, an idle caller can only call. -/
theorem calls_of_next (idle : s.caller = .idle) (vacant : s.captureThread = .none)
    (step : s.next m = some s') : m = .stop ∨ ∃ accepted, m = .start accepted := by
  cases m with
  | stop => exact .inl rfl
  | start accepted => exact .inr ⟨accepted, rfl⟩
  | _ => simp [State.next, idle, vacant] at step

/-- Once `stop` has returned, nothing of an earlier run is left. -/
def Done (s : State) : Prop :=
  Consistent s ∧ (s.stopped = true → s.caller = .idle ∧ Restartable s)

theorem Done.next (done : Done s) (order : m = .stop → InOrder s) (step : s.next m = some s') :
    Done s' := by
  obtain ⟨consistent, left⟩ := done
  refine ⟨consistent.next step, fun after => ?_⟩
  by_cases returning : m ≠ .stop ∧ m ≠ .setNull
  · obtain ⟨idle, vacant, -⟩ := left (stopped_of_next returning step after)
    rcases calls_of_next idle vacant step with rfl | ⟨accepted, rfl⟩
    · exact absurd rfl returning.1
    · rw [not_stopped_of_start step] at after
      cases after
  rw [not_and_or, not_not, not_not] at returning
  rcases returning with rfl | rfl
  · obtain ⟨idle, ⟨runs, rfl⟩ | ⟨still, rfl⟩⟩ := stop_cases step
    · obtain ⟨-, -, still, -⟩ := left after
      exact absurd (still.symm.trans runs) Bool.false_ne_true
    · exact ⟨rfl, (restartable_of_still consistent idle still).mpr (order rfl)⟩
  · obtain ⟨running, captureThread, stopRequested, pipeline, caller, result, stopped⟩ := s
    dsimp only [State.next] at step
    split at step <;> cases step
    next joined =>
    obtain rfl := not_not.mp joined
    exact ⟨rfl, consistent.1, consistent.2, rfl⟩

/-- A `stop` that is called after the capture loop has ended by itself, or before the first `start`,
returns `Success` and leaves the thread to be joined or the pipeline as it was; every other `stop`
leaves nothing of an earlier run. -/
theorem restartable_iff_inOrder :
    ∀ G, RestartableWhen G ↔
      ∀ s s', machine.Reach G initialized s → G s .stop → s.next .stop = some s' → InOrder s := by
  intro G
  constructor
  · intro restartable s s' reach guard step
    have after := restartable s' (reach.step guard step)
    obtain ⟨idle, ⟨runs, rfl⟩ | ⟨still, rfl⟩⟩ := stop_cases step
    · have consistent := Consistent.of_reach reach
      obtain ⟨running, captureThread, stopRequested, pipeline, caller, result, stopped⟩ := s
      obtain rfl : caller = .idle := idle
      obtain rfl : running = true := runs
      cases captureThread <;> simp_all [Consistent, InOrder]
    · exact (restartable_of_still (.of_reach reach) idle still).mp (after rfl)
  · intro inOrder s reach stopped
    have start : Done initialized := ⟨consistent_initialized, by simp [initialized]⟩
    suffices reached : machine.Reach G initialized s ∧ Done s from (reached.2.2 stopped).2
    refine Machine.Reach.invariant (I := fun s => machine.Reach G initialized s ∧ Done s)
      ⟨.refl, start⟩ ?_ reach
    intro s m s' holds guard step
    rcases holds with ⟨before, done⟩
    refine ⟨before.step guard step, done.next ?_ step⟩
    intro same
    subst same
    exact inOrder s s' before guard step

/-- After an orderly `stop` the next `start` is not refused. -/
theorem start_not_refused (done : Done s) (stopped : s.stopped = true) :
    ∃ s', s.next (.start true) = some s' ∧ s'.caller = .awaitingState := by
  obtain ⟨idle, vacant, still, -⟩ := done.2 stopped
  exact ⟨{ s with stopped := false, pipeline := .playing, caller := .awaitingState },
    by simp [State.next, idle, vacant, still], rfl⟩

end Reach

/-- The camera is unplugged while it captures: the loop ends, and `stop` finds nothing to do. -/
def unplugged : List Move :=
  [.start true, .stateReached true, .storeRunning, .makeThread, .loopFails, .loopClears, .stop]

/-- After it the thread has still to be joined, the pipeline plays on, and `start` is refused. -/
theorem unplugged_not_restartable : ¬ RestartableWhen fun _ _ => True := by
  intro restartable
  have run : machine.run (fun _ _ => true) unplugged initialized =
      some ⟨false, .ended, false, .playing, .idle, some .success, true⟩ := by decide
  have left := (restartable _ (Machine.reach_of_moves unplugged run) rfl).1
  cases left

end CameraCapture

end DirectLink
