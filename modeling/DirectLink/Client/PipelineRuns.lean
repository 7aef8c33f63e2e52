import DirectLink.Client.VideoPipeline
import Mathlib.Data.BitVec
import Mathlib.Data.Int.ModEq

/-!
# Runs of the video pipeline

A `VideoPipeline` from its construction on: `initialize`, `start`, the threads of a run, `stop`, and
the next run of the same object.  Frames are numbered in the order of their capture and carry the
number of the run in which they were captured.  Beside the counters of the object stands what they
would be if only the current run had been counted.
-/

namespace DirectLink

namespace VideoPipeline

variable {Frame Picture : Type}

/-! ### Where the frames go -/

/-- The frame that the encode thread has taken out of the queue. -/
def Encode.popped : Encode Frame → List Frame
  | .encoding frame => [frame]
  | _ => []

/-- The frame that the capture thread is about to push. -/
def Capture.incoming : Capture Frame → List Frame
  | .called frame => [frame]
  | _ => []

/-- The moves of the stopping thread, and the end of the stream. -/
def Move.Control : Move Frame → Prop
  | .eos | .stop | .destroy | .stopper => True
  | _ => False

namespace State

def popped (s : State Frame) : List Frame :=
  s.encode.popped

def incoming (s : State Frame) : List Frame :=
  s.capture.incoming

/-- What a move does to the frames: it captures one, pushes it, pops it or hands it to the encoder,
or leaves all of them where they are. -/
inductive Flow (s : State Frame) : Move Frame → State Frame → Prop
  | captures {t} (frame : Frame) (none : s.incoming = []) (one : t.incoming = [frame])
      (queue : t.queue = s.queue) (popped : t.popped = s.popped) : Flow s (.frame frame) t
  | pushes {t} (frame : Frame) (called : s.capture = .called frame) (none : t.incoming = [])
      (queue : t.queue = (s.push frame).queue) (popped : t.popped = s.popped) : Flow s .capture t
  | pops {t} (frame : Frame) (none : s.popped = []) (encode : t.encode = .encoding frame)
      (queue : s.queue = frame :: t.queue) (incoming : t.incoming = s.incoming) : Flow s .encode t
  | hands {t} (frame : Frame) (encode : s.encode = .encoding frame) (none : t.popped = [])
      (queue : t.queue = s.queue) (incoming : t.incoming = s.incoming) : Flow s .encode t
  | encodes {t} (none : s.popped = []) (queue : t.queue = s.queue) (popped : t.popped = s.popped)
      (incoming : t.incoming = s.incoming) : Flow s .encode t
  | idles {t} (none : s.incoming = []) (queue : t.queue = s.queue) (popped : t.popped = s.popped)
      (incoming : t.incoming = s.incoming) : Flow s .capture t
  | keeps {t} {m : Move Frame} (control : m.Control) (queue : t.queue = s.queue)
      (popped : t.popped = s.popped) (incoming : t.incoming = s.incoming) : Flow s m t

variable {s t : State Frame} {m : Move Frame}

@[simp] theorem notify_queue : s.notify.queue = s.queue := by
  unfold notify
  split <;> rfl

@[simp] theorem notify_popped : s.notify.encode.popped = s.encode.popped := by
  unfold notify
  split
  · next waiting => simp [waiting, Encode.popped]
  · rfl

/-- A step of the encode thread outside of the queue. -/
theorem Flow.encode_keeps {encode : Encode Frame} (before : s.encode.popped = [])
    (after : encode.popped = []) : s.Flow .encode { s with encode } :=
  .encodes before rfl (after.trans before.symm) rfl

theorem flow_encode (step : s.stepEncode = some t) : s.Flow .encode t := by
  unfold stepEncode at step
  cases at_ : s.encode with
  | taking =>
    rw [at_] at step
    dsimp only at step
    split at step
    · split at step
      · cases step
        exact .encode_keeps (by simp [at_, Encode.popped]) rfl
      · cases step
    · next frame queue taken =>
      cases step
      exact .pops frame (by simp [popped, at_, Encode.popped]) rfl taken rfl
  | encoding frame =>
    rw [at_] at step
    cases step
    exact .hands frame at_ rfl rfl rfl
  | looping =>
    rw [at_] at step
    cases step
    exact .encode_keeps (by simp [at_, Encode.popped]) (by split <;> rfl)
  | checking =>
    rw [at_] at step
    cases step
    exact .encode_keeps (by simp [at_, Encode.popped]) (by split <;> rfl)
  | locking =>
    rw [at_] at step
    cases step
    exact .encode_keeps (by simp [at_, Encode.popped]) rfl
  | blocking =>
    rw [at_] at step
    cases step
    exact .encode_keeps (by simp [at_, Encode.popped]) rfl
  | waiting =>
    rw [at_] at step
    cases step
  | returned =>
    rw [at_] at step
    cases step

theorem flow_capture (step : s.stepCapture = some t) : s.Flow .capture t := by
  unfold stepCapture at step
  split at step
  · next looping =>
    split at step
    · cases step
      have none : s.incoming = [] := by simp [incoming, looping, Capture.incoming]
      exact .idles none rfl rfl none.symm
    · cases step
  · next frame called =>
    split at step
    · cases step
    · cases step
      exact .pushes frame called rfl rfl rfl
  · next notifying =>
    cases step
    have none : s.incoming = [] := by simp [incoming, notifying, Capture.incoming]
    exact .idles none notify_queue notify_popped none.symm
  · cases step

theorem flow_stopper (step : s.stepStopper = some t) : s.Flow .stopper t := by
  unfold stepStopper at step
  split at step
  · cases step
  · cases step
    exact .keeps trivial rfl rfl rfl
  · split at step
    · cases step
      exact .keeps trivial rfl rfl rfl
    · cases step
      exact .keeps trivial rfl rfl rfl
  · split at step
    · cases step
      exact .keeps trivial rfl rfl rfl
    · cases step
  · cases step
    exact .keeps trivial notify_queue notify_popped (by rw [incoming, incoming, notify_capture])
  · cases step
    exact .keeps trivial rfl rfl rfl
  · split at step
    · cases step
      exact .keeps trivial rfl rfl rfl
    · cases step
  · cases step

/-- Every move of the threads moves frames in one of these ways. -/
theorem flow_next (step : s.next m = some t) : s.Flow m t := by
  cases m with
  | encode => exact flow_encode step
  | capture => exact flow_capture step
  | stopper => exact flow_stopper step
  | frame frame =>
    simp only [next] at step
    split at step
    · next looping =>
      split at step
      · cases step
      · cases step
        exact .captures frame (by simp [incoming, looping, Capture.incoming]) rfl rfl rfl
    · cases step
  | eos =>
    simp only [next] at step
    split at step
    · next looping =>
      cases step
      have none : s.incoming = [] := by simp [incoming, looping, Capture.incoming]
      exact .keeps trivial rfl rfl none.symm
    · cases step
  | stop =>
    simp only [next] at step
    split at step
    · cases step
      exact .keeps trivial rfl rfl rfl
    · cases step
  | destroy =>
    simp only [next] at step
    split at step
    · cases step
      exact .keeps trivial rfl rfl rfl
    · cases step

end State

/-! ### The object -/

/-- A captured frame, with its number and the number of the run. -/
structure Captured (Picture : Type) : Type where
  serial : Nat
  run : Nat
  picture : Picture
  deriving DecidableEq

/-- `frameCount_`, `framesDropped_`, `bitrate_` and `startTime_`, which is in nanoseconds. -/
structure Statistics : Type where
  frameCount : BitVec 32
  framesDropped : BitVec 32
  bitrate : BitVec 32
  startTime : Nat
  deriving DecidableEq

namespace Statistics

def count (s : Statistics) : Statistics :=
  { s with frameCount := s.frameCount + 1 }

def drop (s : Statistics) : Statistics :=
  { s with framesDropped := s.framesDropped + 1 }

/-- The sizes of some packets are added. -/
def add (s : Statistics) (sizes : List (BitVec 32)) : Statistics :=
  { s with bitrate := s.bitrate + sizes.sum }

end Statistics

/-- Where the owner of the object is. -/
inductive Phase : Type
  /-- No threads run and the object is to be initialized. -/
  | created
  | initialized
  | started
  /-- `stop` has joined the threads and stops the encoder. -/
  | flushing
  | destroying
  | destroyed
  deriving DecidableEq

structure Pipeline (Picture : Type) : Type where
  threads : State (Captured Picture)
  phase : Phase
  /-- The capture callback has notified the encode thread and is to count the frame. -/
  counting : Bool
  /-- The steady clock, in nanoseconds. -/
  now : Nat
  statistics : Statistics
  /-- The number of calls of `start`. -/
  run : Nat
  /-- The number of captured frames. -/
  captured : Nat
  /-- The number of pushed frames. -/
  pushed : Nat
  /-- The frames handed to `encodeFrame`. -/
  handed : List (Captured Picture)
  /-- The statistics of the current run alone. -/
  thisRun : Statistics

/-- `init` is `initialize`.  `encodeFrame` and the `stop` of the encoder come with the sizes of the
packets that they hand to the callback. -/
inductive Pipeline.Move (Picture : Type) : Type
  | init
  | start
  | frame (picture : Picture)
  | capture
  | eos
  | encode (packets : List (BitVec 32))
  | stop
  | destroy
  | stopper
  | flush (packets : List (BitVec 32))
  | tick

namespace Pipeline

/-- The threads of a run are there. -/
def alive (s : Pipeline Picture) : Bool :=
  s.phase = .started ∨ s.phase = .destroying

/-- A move of the threads. -/
def moved (s : Pipeline Picture) (m : VideoPipeline.Move (Captured Picture))
    (result : State (Captured Picture) → Pipeline Picture) : Option (Pipeline Picture) :=
  if s.alive then (s.threads.next m).map result else none

/-- The capture callback pushes a frame. -/
def enqueue (s : Pipeline Picture) : Pipeline Picture :=
  let s := { s with pushed := s.pushed + 1 }
  if queueCapacity ≤ s.threads.queue.length then
    { s with
      statistics := s.statistics.drop
      thisRun :=
        if s.threads.queue.head?.map Captured.run = some s.run then s.thisRun.drop else s.thisRun }
  else s

/-- `encodeFrame`, with the callback of the encoder. -/
def encodeFrame (s : Pipeline Picture) (frame : Captured Picture) (packets : List (BitVec 32)) :
    Pipeline Picture :=
  { s with
    handed := s.handed ++ [frame]
    statistics := s.statistics.add packets
    thisRun := if frame.run = s.run then s.thisRun.add packets else s.thisRun }

/-- `start`.  The queue and the counters are left as they are. -/
def start (s : Pipeline Picture) : Pipeline Picture :=
  { s with
    threads := started s.threads.queue
    phase := .started
    counting := false
    run := s.run + 1
    statistics := { s.statistics with startTime := s.now }
    thisRun := ⟨0, 0, 0, s.now⟩ }

/-- A move of the owner of the object or of one of the threads. -/
def next (s : Pipeline Picture) : Move Picture → Option (Pipeline Picture)
  | .init =>
    match s.phase with
    | .created | .initialized => some { s with phase := .initialized }
    | _ => none
  | .start =>
    match s.phase with
    | .initialized => some s.start
    | _ => none
  | .frame picture =>
    if s.counting then none
    else
      s.moved (.frame ⟨s.captured, s.run, picture⟩) fun threads =>
        { s with threads, captured := s.captured + 1 }
  | .capture =>
    if s.counting then
      some { s with
        counting := false, statistics := s.statistics.count, thisRun := s.thisRun.count }
    else
      s.moved .capture fun threads =>
        match s.threads.capture with
        | .called _ => { s.enqueue with threads }
        | .notifying => { s with threads, counting := true }
        | _ => { s with threads }
  | .eos => if s.counting then none else s.moved .eos fun threads => { s with threads }
  | .encode packets =>
    s.moved .encode fun threads =>
      match s.threads.encode with
      | .encoding frame => { s.encodeFrame frame packets with threads }
      | _ => { s with threads }
  | .stop => s.moved .stop fun threads => { s with threads }
  | .destroy => s.moved .destroy fun threads => { s with threads, phase := .destroying }
  | .stopper =>
    s.moved .stopper fun threads =>
      if threads.stopper = .stopped then
        { s with threads, phase := if s.phase = .destroying then .destroyed else .flushing }
      else { s with threads }
  | .flush packets =>
    match s.phase with
    | .flushing =>
      some { s with
        phase := .created
        statistics := s.statistics.add packets, thisRun := s.thisRun.add packets }
    | _ => none
  | .tick => some { s with now := s.now + 1 }

/-- `encodeThread_.joinable()`. -/
def joinable (s : Pipeline Picture) : Bool :=
  s.alive

end Pipeline

namespace Statistics

/-- Nanoseconds since the start. -/
def elapsed (s : Statistics) (now : Nat) : Nat :=
  now - s.startTime

def getFrameCount (s : Statistics) : Int :=
  s.frameCount.toInt

def getDroppedFrames (s : Statistics) : Int :=
  s.framesDropped.toInt

/-- `getFPS`, before it is rounded to a `float`. -/
def getFPS (s : Statistics) (now : Nat) : Rat :=
  if s.frameCount = 0 then 0
  else if 0 < s.elapsed now then s.frameCount.toInt * 1000000000 / s.elapsed now
  else 0

/-- `getBitrate`. -/
def getBitrate (s : Statistics) (joinable : Bool) (now : Nat) : Int :=
  if ¬ joinable then 0
  else if 0 < s.elapsed now then ((s.bitrate * 8).toInt * 1000000000).tdiv (s.elapsed now)
  else 0

end Statistics

/-! ### Frames are neither lost silently nor reordered -/

@[reducible] def pipelineMachine (Picture : Type) : Machine :=
  ⟨Pipeline Picture, Pipeline.Move Picture, Pipeline.next⟩

/-- A pipeline that has just been constructed. -/
def constructed : Pipeline Picture where
  threads := { started [] with encode := .returned, capture := .ended, running := false }
  phase := .created
  counting := false
  now := 0
  statistics := ⟨0, 0, 0, 0⟩
  run := 0
  captured := 0
  pushed := 0
  handed := []
  thisRun := ⟨0, 0, 0, 0⟩

namespace Pipeline

variable {s s' : Pipeline Picture} {m : Move Picture}

/-- All frames that have not been dropped, in the order in which they reach the encoder. -/
def frames (s : Pipeline Picture) : List (Captured Picture) :=
  s.handed ++ s.threads.popped ++ s.threads.queue ++ s.threads.incoming

/-- The queue is bounded, the frames are in the order of their capture, and every pushed frame is
handed on, under way or counted as dropped. -/
structure Conserved (s : Pipeline Picture) : Prop where
  capacity : s.threads.queue.length ≤ queueCapacity
  ordered : s.frames.Pairwise fun earlier later => earlier.serial < later.serial
  below : ∀ x ∈ s.frames, x.serial < s.captured
  counted : ∃ dropped : Nat, s.statistics.framesDropped = BitVec.ofNat 32 dropped ∧
    s.pushed = s.handed.length + s.threads.popped.length + s.threads.queue.length + dropped
  idle : s.alive = false → s.threads.popped = []

theorem conserved_constructed : Conserved (constructed : Pipeline Picture) :=
  ⟨Nat.zero_le _, .nil, nofun, ⟨0, rfl, rfl⟩, fun _ => rfl⟩

theorem moved_eq_some {m : VideoPipeline.Move (Captured Picture)}
    {result : State (Captured Picture) → Pipeline Picture} :
    s.moved m result = some s' ↔
      s.alive = true ∧ ∃ threads, s.threads.next m = some threads ∧ result threads = s' := by
  unfold moved
  split
  · next alive => simp [alive]
  · next alive => simp [alive]

/-- The frames stay where they are; no counter changes but the frames and bits that are counted for
the object and for the run alike. -/
structure Kept (s s' : Pipeline Picture) : Prop where
  queue : s'.threads.queue = s.threads.queue
  popped : s'.threads.popped = s.threads.popped
  incoming : s'.threads.incoming = s.threads.incoming
  handed : s'.handed = s.handed
  captured : s'.captured = s.captured
  pushed : s'.pushed = s.pushed
  run : s'.run = s.run
  framesDropped : s'.statistics.framesDropped = s.statistics.framesDropped
  statistics : s.statistics = s.thisRun → s'.statistics = s'.thisRun
  idle : (s.alive = false → s.threads.popped = []) → s'.alive = false → s'.threads.popped = []

/-- What a move of the object does to the frames. -/
inductive Flow (s : Pipeline Picture) : Move Picture → Pipeline Picture → Prop
  | starts (initialized : s.phase = .initialized) : Flow s .start s.start
  | captures {picture : Picture} {threads : State (Captured Picture)} (alive : s.alive = true)
      (none : s.threads.incoming = []) (one : threads.incoming = [⟨s.captured, s.run, picture⟩])
      (queue : threads.queue = s.threads.queue) (popped : threads.popped = s.threads.popped) :
      Flow s (.frame picture) { s with threads, captured := s.captured + 1 }
  | pushes {threads : State (Captured Picture)} (frame : Captured Picture) (alive : s.alive = true)
      (called : s.threads.capture = .called frame) (none : threads.incoming = [])
      (queue : threads.queue = (s.threads.push frame).queue)
      (popped : threads.popped = s.threads.popped) : Flow s .capture { s.enqueue with threads }
  | pops {packets : List (BitVec 32)} {threads : State (Captured Picture)}
      (frame : Captured Picture) (alive : s.alive = true) (none : s.threads.popped = [])
      (encoding : threads.encode = .encoding frame)
      (queue : s.threads.queue = frame :: threads.queue)
      (incoming : threads.incoming = s.threads.incoming) :
      Flow s (.encode packets) { s with threads }
  | hands {packets : List (BitVec 32)} {threads : State (Captured Picture)}
      (frame : Captured Picture) (alive : s.alive = true)
      (encoding : s.threads.encode = .encoding frame) (none : threads.popped = [])
      (queue : threads.queue = s.threads.queue)
      (incoming : threads.incoming = s.threads.incoming) :
      Flow s (.encode packets) { s.encodeFrame frame packets with threads }
  | keeps {m : Move Picture} {s' : Pipeline Picture} (kept : Kept s s') : Flow s m s'

theorem Kept.of_threads {threads : State (Captured Picture)} {counting : Bool}
    (alive : s.alive = true) (queue : threads.queue = s.threads.queue)
    (popped : threads.popped = s.threads.popped)
    (incoming : threads.incoming = s.threads.incoming) : Kept s { s with threads, counting } := by
  refine ⟨queue, popped, incoming, rfl, rfl, rfl, rfl, rfl, fun same => same, ?_⟩
  intro _ ended
  cases alive.symm.trans ended

/-- `eos`, `stop`, `destroy` and the steps of the stopping thread. -/
theorem Kept.of_control {threads : State (Captured Picture)}
    {m : VideoPipeline.Move (Captured Picture)} {phase : Phase}
    (change : s.threads.next m = some threads) (control : m.Control)
    (idle : phase = .started ∨ phase = .destroying ∨ threads.popped = []) :
    Kept s { s with threads, phase } := by
  cases State.flow_next change with
  | keeps _ queue popped incoming =>
    refine ⟨queue, popped, incoming, rfl, rfl, rfl, rfl, rfl, fun same => same, ?_⟩
    intro _ ended
    rcases idle with rfl | rfl | none
    · cases ended
    · cases ended
    · exact none
  | captures => cases control
  | pushes => cases control
  | pops => cases control
  | hands => cases control
  | encodes => cases control
  | idles => cases control

theorem phase_of_alive (alive : s.alive = true) : s.phase = .started ∨ s.phase = .destroying :=
  of_decide_eq_true alive

theorem Kept.of_alive {threads : State (Captured Picture)}
    {m : VideoPipeline.Move (Captured Picture)} (alive : s.alive = true)
    (change : s.threads.next m = some threads) (control : m.Control) : Kept s { s with threads } :=
  .of_control change control ((phase_of_alive alive).imp_right .inl)

/-- The encode thread has returned when `stop` or the destructor is done. -/
theorem popped_of_stopped {s t : State (Captured Picture)} (step : s.stepStopper = some t)
    (stopped : t.stopper = .stopped) : t.popped = [] := by
  unfold State.stepStopper at step
  split at step
  case h_7 =>
    split at step
    · next returned =>
      cases step
      simp [State.popped, returned, Encode.popped]
    · cases step
  case h_2 =>
    cases step
    dsimp only at stopped
    split at stopped <;> cases stopped
  case h_3 =>
    split at step <;> cases step <;> cases stopped
  case h_4 =>
    split at step <;> cases step
    cases stopped
  all_goals cases step
  all_goals cases stopped

theorem flow_frame {picture : Picture} (step : s.next (.frame picture) = some s') :
    s.Flow (.frame picture) s' := by
  dsimp only [next] at step
  split at step
  · cases step
  obtain ⟨alive, threads, change, rfl⟩ := moved_eq_some.mp step
  cases State.flow_next change with
  | keeps control => cases control
  | captures _ none one queue popped => exact .captures alive none one queue popped

theorem flow_capture (step : s.next .capture = some s') : s.Flow .capture s' := by
  dsimp only [next] at step
  split at step
  · cases step
    refine .keeps ⟨rfl, rfl, rfl, rfl, rfl, rfl, rfl, rfl, fun same => ?_, fun idle => idle⟩
    dsimp only
    rw [same]
  obtain ⟨alive, threads, change, result⟩ := moved_eq_some.mp step
  cases State.flow_next change with
  | keeps control => cases control
  | pushes frame called none queue popped =>
    rw [called] at result
    subst result
    exact .pushes frame alive called none queue popped
  | idles none queue popped incoming =>
    split at result
    · next frame called =>
      simp [State.incoming, called, Capture.incoming] at none
    all_goals
      subst result
      exact .keeps (.of_threads alive queue popped incoming)

theorem flow_encode {packets : List (BitVec 32)} (step : s.next (.encode packets) = some s') :
    s.Flow (.encode packets) s' := by
  obtain ⟨alive, threads, change, result⟩ := moved_eq_some.mp step
  cases State.flow_next change with
  | keeps control => cases control
  | encodes none queue popped incoming =>
    split at result
    · next frame encoding =>
      simp [State.popped, encoding, Encode.popped] at none
    · subst result
      exact .keeps (.of_threads alive queue popped incoming)
  | pops frame none encoding queue incoming =>
    split at result
    · next other encoding =>
      simp [State.popped, encoding, Encode.popped] at none
    · subst result
      exact .pops frame alive none encoding queue incoming
  | hands frame encoding none queue incoming =>
    rw [encoding] at result
    subst result
    exact .hands frame alive encoding none queue incoming

/-- Every move of the object moves frames in one of these ways. -/
theorem flow_next (step : s.next m = some s') : s.Flow m s' := by
  cases m with
  | frame picture => exact flow_frame step
  | capture => exact flow_capture step
  | encode packets => exact flow_encode step
  | start =>
    dsimp only [Pipeline.next] at step
    split at step
    · next initialized =>
      cases step
      exact .starts initialized
    · cases step
  | init =>
    dsimp only [Pipeline.next] at step
    split at step
    case h_3 => cases step
    all_goals
      next phase =>
        cases step
        refine .keeps ⟨rfl, rfl, rfl, rfl, rfl, rfl, rfl, rfl, fun same => same, fun idle _ => ?_⟩
        exact idle (by simp [alive, phase])
  | eos =>
    dsimp only [Pipeline.next] at step
    split at step
    · cases step
    obtain ⟨alive, threads, change, rfl⟩ := moved_eq_some.mp step
    exact .keeps (.of_alive alive change trivial)
  | stop =>
    obtain ⟨alive, threads, change, rfl⟩ := moved_eq_some.mp step
    exact .keeps (.of_alive alive change trivial)
  | destroy =>
    obtain ⟨_, threads, change, rfl⟩ := moved_eq_some.mp step
    exact .keeps (.of_control change trivial (.inr (.inl rfl)))
  | stopper =>
    obtain ⟨alive, threads, change, result⟩ := moved_eq_some.mp step
    split at result
    · next stopped =>
      subst result
      exact .keeps (.of_control change trivial (.inr (.inr (popped_of_stopped change stopped))))
    · subst result
      exact .keeps (.of_alive alive change trivial)
  | flush packets =>
    dsimp only [Pipeline.next] at step
    split at step
    · next flushing =>
      cases step
      refine .keeps ⟨rfl, rfl, rfl, rfl, rfl, rfl, rfl, rfl, fun same => ?_, fun idle _ => ?_⟩
      · dsimp only
        rw [same]
      · exact idle (by simp [alive, flushing])
    · cases step
  | tick =>
    cases step
    exact .keeps ⟨rfl, rfl, rfl, rfl, rfl, rfl, rfl, rfl, fun same => same, fun idle => idle⟩

theorem Conserved.keeps (conserved : Conserved s) (kept : Kept s s') : Conserved s' := by
  have frames : s'.frames = s.frames := by
    rw [Pipeline.frames, Pipeline.frames, kept.queue, kept.popped, kept.incoming, kept.handed]
  refine ⟨?_, ?_, ?_, ?_, kept.idle conserved.idle⟩
  · rw [kept.queue]
    exact conserved.capacity
  · rw [frames]
    exact conserved.ordered
  · rw [frames, kept.captured]
    exact conserved.below
  · rw [kept.queue, kept.popped, kept.handed, kept.pushed, kept.framesDropped]
    exact conserved.counted

theorem Conserved.starts (conserved : Conserved s) (initialized : s.phase = .initialized) :
    Conserved s.start := by
  have none := conserved.idle (by simp [alive, initialized])
  have less : s.start.frames.Sublist s.frames := by
    have same : s.start.frames = s.handed ++ s.threads.queue := by
      simp [Pipeline.frames, start, started, State.popped, Encode.popped, State.incoming,
        Capture.incoming]
    rw [same, frames, none, List.append_nil]
    exact List.sublist_append_left _ _
  obtain ⟨dropped, counter, total⟩ := conserved.counted
  refine ⟨conserved.capacity, conserved.ordered.sublist less, ?_, ⟨dropped, counter, ?_⟩,
    fun _ => rfl⟩
  · exact fun x member => conserved.below x (less.subset member)
  rw [none] at total
  exact total

theorem Conserved.captures (conserved : Conserved s) {picture : Picture}
    {threads : State (Captured Picture)} (alive : s.alive = true)
    (none : s.threads.incoming = []) (one : threads.incoming = [⟨s.captured, s.run, picture⟩])
    (queue : threads.queue = s.threads.queue) (popped : threads.popped = s.threads.popped) :
    Conserved { s with threads, captured := s.captured + 1 } := by
  have frames : Pipeline.frames { s with threads, captured := s.captured + 1 } =
      s.frames ++ [⟨s.captured, s.run, picture⟩] := by
    simp [Pipeline.frames, none, one, queue, popped]
  refine ⟨?_, ?_, ?_, ?_, ?_⟩
  · rw [queue]
    exact conserved.capacity
  · rw [frames]
    refine List.pairwise_append.mpr ⟨conserved.ordered, List.pairwise_singleton .., ?_⟩
    intro x member y last
    rw [List.mem_singleton.mp last]
    exact conserved.below x member
  · rw [frames]
    intro x member
    rcases List.mem_append.mp member with earlier | last
    · have less := conserved.below x earlier
      dsimp only
      omega
    · rw [List.mem_singleton.mp last]
      dsimp only
      omega
  · rw [queue, popped]
    exact conserved.counted
  · intro ended
    cases alive.symm.trans ended

@[simp] theorem enqueue_handed : s.enqueue.handed = s.handed := by
  unfold enqueue
  dsimp only
  split <;> rfl

@[simp] theorem enqueue_captured : s.enqueue.captured = s.captured := by
  unfold enqueue
  dsimp only
  split <;> rfl

@[simp] theorem enqueue_pushed : s.enqueue.pushed = s.pushed + 1 := by
  unfold enqueue
  dsimp only
  split <;> rfl

@[simp] theorem enqueue_phase : s.enqueue.phase = s.phase := by
  unfold enqueue
  dsimp only
  split <;> rfl

theorem enqueue_framesDropped : s.enqueue.statistics.framesDropped =
    if queueCapacity ≤ s.threads.queue.length then s.statistics.framesDropped + 1
    else s.statistics.framesDropped := by
  unfold enqueue
  dsimp only
  split <;> rfl

/-- The frame that is pushed moves on to the queue, and the oldest one is dropped if it is full. -/
theorem Conserved.pushes (conserved : Conserved s) (alive : s.alive = true)
    {threads : State (Captured Picture)} {frame : Captured Picture}
    (called : s.threads.capture = .called frame) (none : threads.incoming = [])
    (queue : threads.queue = (s.threads.push frame).queue)
    (popped : threads.popped = s.threads.popped) : Conserved { s.enqueue with threads } := by
  have incoming : s.threads.incoming = [frame] := by
    simp [State.incoming, called, Capture.incoming]
  have capacity := conserved.capacity
  obtain ⟨dropped, counter, total⟩ := conserved.counted
  have sublist : ∀ kept : List (Captured Picture), kept.Sublist s.threads.queue →
      threads.queue = kept ++ [frame] →
        (Pipeline.frames { s.enqueue with threads }).Sublist s.frames := by
    intro kept sublist same
    simp only [Pipeline.frames, enqueue_handed, popped, none, same, incoming, List.append_nil,
      List.append_assoc]
    exact ((sublist.append_right _).append_left _).append_left _
  have idle : Pipeline.alive { s.enqueue with threads } = false → threads.popped = [] := by
    intro ended
    simp only [Pipeline.alive, enqueue_phase] at ended
    cases alive.symm.trans ended
  rw [State.push] at queue
  dsimp only at queue
  by_cases full : queueCapacity ≤ s.threads.queue.length
  · rw [if_pos full] at queue
    have shrinks := sublist _ (List.tail_sublist _) queue
    have length : threads.queue.length = s.threads.queue.length := by
      simp [queue]
      unfold queueCapacity at full
      omega
    refine ⟨length ▸ capacity, conserved.ordered.sublist shrinks, ?_, ⟨dropped + 1, ?_, ?_⟩, idle⟩
    · intro x member
      rw [enqueue_captured]
      exact conserved.below x (shrinks.subset member)
    · rw [enqueue_framesDropped, if_pos full, counter, BitVec.ofNat_add]
      rfl
    · rw [enqueue_pushed, enqueue_handed, popped, length]
      omega
  · rw [if_neg full] at queue
    have same := sublist _ (List.Sublist.refl _) queue
    have length : threads.queue.length = s.threads.queue.length + 1 := by simp [queue]
    refine ⟨?_, conserved.ordered.sublist same, ?_, ⟨dropped, ?_, ?_⟩, idle⟩
    · dsimp only
      omega
    · intro x member
      rw [enqueue_captured]
      exact conserved.below x (same.subset member)
    · rw [enqueue_framesDropped, if_neg full, counter]
    · rw [enqueue_pushed, enqueue_handed, popped, length]
      omega

theorem Conserved.pops (conserved : Conserved s) (alive : s.alive = true)
    {threads : State (Captured Picture)} {frame : Captured Picture}
    (none : s.threads.popped = []) (encoding : threads.encode = .encoding frame)
    (queue : s.threads.queue = frame :: threads.queue)
    (incoming : threads.incoming = s.threads.incoming) : Conserved { s with threads } := by
  have capacity := conserved.capacity
  obtain ⟨dropped, counter, total⟩ := conserved.counted
  have popped : threads.popped = [frame] := by simp [State.popped, encoding, Encode.popped]
  have frames : Pipeline.frames { s with threads } = s.frames := by
    simp [Pipeline.frames, none, popped, queue, incoming]
  refine ⟨?_, ?_, ?_, ⟨dropped, counter, ?_⟩, ?_⟩
  · rw [queue, List.length_cons] at capacity
    exact Nat.le_of_succ_le capacity
  · rw [frames]
    exact conserved.ordered
  · rw [frames]
    exact conserved.below
  · rw [queue, none] at total
    simp only [popped, List.length_cons, List.length_nil] at total ⊢
    omega
  · intro ended
    cases alive.symm.trans ended

theorem Conserved.hands (conserved : Conserved s) {packets : List (BitVec 32)}
    {threads : State (Captured Picture)} {frame : Captured Picture}
    (encoding : s.threads.encode = .encoding frame) (none : threads.popped = [])
    (queue : threads.queue = s.threads.queue)
    (incoming : threads.incoming = s.threads.incoming) :
    Conserved { s.encodeFrame frame packets with threads } := by
  obtain ⟨dropped, counter, total⟩ := conserved.counted
  have popped : s.threads.popped = [frame] := by simp [State.popped, encoding, Encode.popped]
  have frames : Pipeline.frames { s.encodeFrame frame packets with threads } = s.frames := by
    simp [Pipeline.frames, encodeFrame, none, popped, queue, incoming]
  refine ⟨?_, ?_, ?_, ⟨dropped, counter, ?_⟩, fun _ => none⟩
  · rw [queue]
    exact conserved.capacity
  · rw [frames]
    exact conserved.ordered
  · rw [frames]
    exact conserved.below
  · rw [popped] at total
    simp only [encodeFrame, none, queue, List.length_append, List.length_cons, List.length_nil]
      at total ⊢
    omega

theorem Conserved.next (conserved : Conserved s) (step : s.next m = some s') : Conserved s' := by
  cases flow_next step with
  | starts initialized => exact conserved.starts initialized
  | captures alive none one queue popped => exact conserved.captures alive none one queue popped
  | pushes _ alive called none queue popped =>
    exact conserved.pushes alive called none queue popped
  | pops _ alive none encoding queue incoming =>
    exact conserved.pops alive none encoding queue incoming
  | hands _ _ encoding none queue incoming => exact conserved.hands encoding none queue incoming
  | keeps kept => exact conserved.keeps kept

theorem conserved_of_reach {G : Pipeline Picture → Move Picture → Prop}
    (reach : (pipelineMachine Picture).Reach G constructed s) : Conserved s :=
  Machine.Reach.invariant (I := Conserved) conserved_constructed
    (fun _ _ _ conserved _ step => conserved.next step) reach

/-- A move leaves the queue as it is, pushes a frame, or takes the first one out. -/
theorem queue_next (step : s.next m = some s') :
    s'.threads.queue = s.threads.queue ∨
      (∃ frame, s.threads.capture = .called frame ∧
        s'.threads.queue = (s.threads.push frame).queue) ∨
      ∃ frame, s'.threads.encode = .encoding frame ∧
        s.threads.queue = frame :: s'.threads.queue := by
  cases flow_next step with
  | starts => exact .inl rfl
  | captures _ _ _ queue => exact .inl queue
  | pushes frame _ called _ queue => exact .inr (.inl ⟨frame, called, queue⟩)
  | pops frame _ _ encoding queue => exact .inr (.inr ⟨frame, encoding, queue⟩)
  | hands _ _ _ _ queue => exact .inl queue
  | keeps kept => exact .inl kept.queue

/-- What the queue is for: it is bounded, the encoder gets frames in the order of their capture, and
a frame that leaves the queue goes to the encoder or is the oldest one and gives way to a newer one
because the queue is full. -/
structure Queues (s : Pipeline Picture) : Prop where
  bounded : s.threads.queue.length ≤ queueCapacity
  inOrder : s.handed.Pairwise fun earlier later => earlier.serial < later.serial
  discards : ∀ m s', s.next m = some s' → ∀ x ∈ s.threads.queue, x ∉ s'.threads.queue →
    s'.threads.encode = .encoding x ∨
      ∃ newer rest, s.threads.capture = .called newer ∧ x.serial < newer.serial ∧
        s.threads.queue = x :: rest ∧ s.threads.queue.length = queueCapacity

/-- The pushed frames that are not counted as dropped. -/
def accounted (s : Pipeline Picture) : Nat :=
  s.handed.length + s.threads.queue.length + s.threads.popped.length

/-- Every pushed frame was handed to the encoder, is queued or just popped, or is counted by
`framesDropped_`. -/
def Balanced (s : Pipeline Picture) : Prop :=
  (s.pushed : Int) = s.accounted + s.statistics.getDroppedFrames

theorem Conserved.queues (conserved : Conserved s) : Queues s := by
  have ordered := conserved.ordered
  refine ⟨conserved.capacity, ?_, ?_⟩
  · rw [frames, List.append_assoc, List.append_assoc] at ordered
    exact (List.pairwise_append.mp ordered).1
  · intro m s' step x member gone
    rcases queue_next step with same | ⟨newer, called, pushed⟩ | ⟨frame, encoding, taken⟩
    · exact absurd (same ▸ member) gone
    · right
      rw [State.push] at pushed
      dsimp only at pushed
      split at pushed
      · next full =>
        have incoming : s.threads.incoming = [newer] := by
          simp [State.incoming, called, Capture.incoming]
        obtain ⟨first, rest, split⟩ := List.exists_cons_of_ne_nil (List.ne_nil_of_mem member)
        rw [split, List.tail_cons] at pushed
        have oldest : x = first := by
          rw [split] at member
          refine (List.mem_cons.mp member).resolve_right fun later => gone ?_
          rw [pushed]
          exact List.mem_append_left _ later
        refine ⟨newer, rest, called, ?_, by rw [split, oldest],
          Nat.le_antisymm conserved.capacity full⟩
        rw [frames, incoming] at ordered
        exact (List.pairwise_append.mp ordered).2.2 x (List.mem_append_right _ member) newer
          List.mem_cons_self
      · rw [pushed] at gone
        exact absurd (List.mem_append_left _ member) gone
    · left
      rw [taken] at member
      rw [encoding, (List.mem_cons.mp member).resolve_right gone]

/-- **The frame queue loses nothing silently and keeps order**, over all runs of the object: the
count of dropped frames is exact modulo `2 ^ 32`, and exact up to `2 ^ 31` dropped frames. -/
theorem frame_queue_conserves (reach : (pipelineMachine Picture).Reach (fun _ _ => True)
    constructed s) :
    Queues s ∧
      (s.pushed : Int) ≡ s.accounted + s.statistics.getDroppedFrames [ZMOD 2 ^ 32] ∧
      (s.pushed < s.accounted + 2 ^ 31 → Balanced s) := by
  have conserved := conserved_of_reach reach
  obtain ⟨dropped, counter, total⟩ := conserved.counted
  have number : s.statistics.getDroppedFrames = (dropped : Int).bmod (2 ^ 32) := by
    rw [Statistics.getDroppedFrames, counter, BitVec.toInt_ofNat']
  have balance : (s.pushed : Int) = s.accounted + dropped := by
    rw [accounted]
    omega
  refine ⟨conserved.queues, ?_, ?_⟩
  · rw [number, balance]
    have same : (dropped : Int) ≡ (dropped : Int).bmod (2 ^ 32) [ZMOD 2 ^ 32] :=
      (Int.bmod_emod ..).symm
    exact same.add_left _
  · intro few
    have exactly : (dropped : Int).bmod (2 ^ 32) = dropped :=
      Int.bmod_eq_of_le (by omega) (by omega)
    rw [Balanced, number, exactly]
    exact balance

/-- A picture is captured and pushed. -/
def push : List (Move Unit) :=
  [.frame (), .capture, .capture, .capture]

/-- A frame arrives while the queue is full and the encode thread does not run. -/
theorem push_full {s : Pipeline Unit} {first second third : Captured Unit}
    (threads : s.threads = started [first, second, third]) (phase : s.phase = .started)
    (idle : s.counting = false) :
    ∃ s' last, (pipelineMachine Unit).Reach (fun _ _ => True) s s' ∧
      s'.threads = started [second, third, last] ∧ s'.phase = .started ∧ s'.counting = false ∧
      s'.handed = s.handed ∧ s'.pushed = s.pushed + 1 ∧
      s'.statistics.framesDropped = s.statistics.framesDropped + 1 := by
  obtain ⟨_, _, _, now, statistics, run, captured, pushed, handed, thisRun⟩ := s
  cases threads
  cases phase
  cases idle
  refine ⟨_, ⟨captured, run, ()⟩, Machine.reach_of_moves push rfl, ?_⟩
  exact ⟨rfl, rfl, rfl, rfl, rfl, rfl⟩

/-- Any number of frames can be dropped in a row. -/
theorem reach_dropped (n : Nat) :
    ∃ (s : Pipeline Unit) (first second third : Captured Unit),
      (pipelineMachine Unit).Reach (fun _ _ => True) constructed s ∧
        s.threads = started [first, second, third] ∧ s.phase = .started ∧ s.counting = false ∧
        s.handed = [] ∧ s.pushed = n + 3 ∧ s.statistics.framesDropped = BitVec.ofNat 32 n := by
  induction n with
  | zero =>
    refine ⟨_, ⟨0, 1, ()⟩, ⟨1, 1, ()⟩, ⟨2, 1, ()⟩,
      Machine.reach_of_moves ([.init, .start] ++ push ++ push ++ push) rfl, ?_⟩
    exact ⟨rfl, rfl, rfl, rfl, rfl, rfl⟩
  | succ n ih =>
    obtain ⟨s, first, second, third, reach, threads, phase, idle, handed, pushed, dropped⟩ := ih
    obtain ⟨s', last, onward, threads', phase', idle', handed', pushed', dropped'⟩ :=
      push_full threads phase idle
    refine ⟨s', second, third, last, reach.trans onward, threads', phase', idle',
      handed'.trans handed, by omega, ?_⟩
    rw [dropped', dropped, BitVec.ofNat_add]
    rfl

theorem frame_queue_conserves_sample :
    ∃ s : Pipeline Unit, s.pushed = 4 ∧ Queues s ∧ Balanced s := by
  obtain ⟨s, first, second, third, reach, threads, -, -, handed, pushed, -⟩ := reach_dropped 1
  obtain ⟨queues, -, balanced⟩ := frame_queue_conserves reach
  exact ⟨s, pushed, queues, balanced (by omega)⟩

/-- The counter of dropped frames overflows. -/
theorem dropped_overflows :
    ¬ ∀ s : Pipeline Unit, (pipelineMachine Unit).Reach (fun _ _ => True) constructed s →
      Queues s ∧ Balanced s := by
  intro all
  obtain ⟨s, first, second, third, reach, threads, -, -, handed, pushed, dropped⟩ :=
    reach_dropped (2 ^ 31)
  have balanced := (all s reach).2
  have number : s.statistics.getDroppedFrames = -2 ^ 31 := by
    rw [Statistics.getDroppedFrames, dropped]
    decide
  have accounted : s.accounted = 3 := by
    rw [Pipeline.accounted, handed, threads]
    rfl
  rw [Balanced, number, accounted, pushed] at balanced
  omega

/-! ### The next run -/

/-- The frame that is handed to the encoder was captured in the current run, and the statistics are
those of the current run. -/
structure CarriesNothing (s : Pipeline Picture) : Prop where
  handed : ∀ frame, s.threads.encode = .encoding frame → frame.run = s.run
  frameCount : s.statistics.getFrameCount = s.thisRun.getFrameCount
  droppedFrames : s.statistics.getDroppedFrames = s.thisRun.getDroppedFrames
  fps : s.statistics.getFPS s.now = s.thisRun.getFPS s.now
  bitrate : s.statistics.getBitrate s.joinable s.now = s.thisRun.getBitrate s.joinable s.now

/-- `start` is called when no frame is queued and the counters are 0. -/
def StartsClean (s : Pipeline Picture) : Move Picture → Prop
  | .start => s.threads.queue = [] ∧ s.statistics.frameCount = 0 ∧ s.statistics.framesDropped = 0 ∧
      s.statistics.bitrate = 0
  | _ => True

/-- Every frame in the threads and the queue is of the current run, and so is what is counted. -/
structure Current (s : Pipeline Picture) : Prop where
  popped : ∀ x ∈ s.threads.popped, x.run = s.run
  queue : ∀ x ∈ s.threads.queue, x.run = s.run
  incoming : ∀ x ∈ s.threads.incoming, x.run = s.run
  statistics : s.statistics = s.thisRun

theorem Current.carriesNothing (current : Current s) : CarriesNothing s := by
  refine ⟨?_, ?_, ?_, ?_, ?_⟩
  · intro frame encoding
    exact current.popped frame (by simp [State.popped, encoding, Encode.popped])
  all_goals rw [current.statistics]

theorem Current.keeps (current : Current s) (kept : Kept s s') : Current s' := by
  refine ⟨?_, ?_, ?_, kept.statistics current.statistics⟩
  · rw [kept.popped, kept.run]
    exact current.popped
  · rw [kept.queue, kept.run]
    exact current.queue
  · rw [kept.incoming, kept.run]
    exact current.incoming

theorem enqueue_run : s.enqueue.run = s.run := by
  unfold enqueue
  dsimp only
  split <;> rfl

/-- A frame that is dropped is of the current run. -/
theorem Current.enqueue_statistics (current : Current s) :
    s.enqueue.statistics = s.enqueue.thisRun := by
  unfold enqueue
  dsimp only
  split
  · next full =>
    obtain ⟨oldest, rest, split⟩ := List.exists_cons_of_length_pos (l := s.threads.queue)
      (by unfold queueCapacity at full; omega)
    have run := current.queue oldest (by rw [split]; exact List.mem_cons_self)
    rw [split, List.head?_cons, Option.map_some, run, if_pos rfl, current.statistics]
  · exact current.statistics

theorem Current.starts (clean : StartsClean s .start) : Current s.start := by
  obtain ⟨empty, frameCount, framesDropped, bitrate⟩ := clean
  refine ⟨?_, ?_, ?_, ?_⟩
  · simp [start, started, State.popped, Encode.popped]
  · simp [start, started, empty]
  · simp [start, started, State.incoming, Capture.incoming]
  · simp only [start, frameCount, framesDropped, bitrate]

theorem Current.pushes (current : Current s) {threads : State (Captured Picture)}
    {frame : Captured Picture} (called : s.threads.capture = .called frame)
    (none : threads.incoming = []) (queue : threads.queue = (s.threads.push frame).queue)
    (popped : threads.popped = s.threads.popped) : Current { s.enqueue with threads } := by
  have run := current.incoming frame (by simp [State.incoming, called, Capture.incoming])
  refine ⟨?_, ?_, ?_, current.enqueue_statistics⟩
  · rw [popped, enqueue_run]
    exact current.popped
  · rw [queue, enqueue_run, State.push]
    intro x member
    dsimp only at member
    split at member
    all_goals rcases List.mem_append.mp member with old | new
    · exact current.queue x (List.mem_of_mem_tail old)
    · rw [List.mem_singleton.mp new, run]
    · exact current.queue x old
    · rw [List.mem_singleton.mp new, run]
  · rw [none]
    intro x member
    cases member

theorem Current.next (current : Current s) (guard : StartsClean s m)
    (step : s.next m = some s') : Current s' := by
  cases flow_next step with
  | starts => exact .starts guard
  | keeps kept => exact current.keeps kept
  | pushes _ _ called none queue popped => exact current.pushes called none queue popped
  | captures _ none one queue popped =>
    refine ⟨?_, ?_, ?_, current.statistics⟩
    · rw [popped]
      exact current.popped
    · rw [queue]
      exact current.queue
    · rw [one]
      intro x member
      rw [List.mem_singleton.mp member]
  | pops frame _ none encoding queue incoming =>
    have all := current.queue
    rw [queue] at all
    obtain ⟨first, rest⟩ := List.forall_mem_cons.mp all
    refine ⟨?_, rest, ?_, current.statistics⟩
    · intro x member
      simp only [State.popped, encoding, Encode.popped, List.mem_singleton] at member
      rw [member]
      exact first
    · rw [incoming]
      exact current.incoming
  | hands frame _ encoding none queue incoming =>
    have run := current.popped frame (by simp [State.popped, encoding, Encode.popped])
    refine ⟨by simp [none], ?_, ?_, ?_⟩
    · rw [queue]
      exact current.queue
    · rw [incoming]
      exact current.incoming
    · dsimp only [encodeFrame]
      rw [if_pos run, current.statistics]

theorem current_constructed : Current (constructed : Pipeline Picture) := by
  refine ⟨?_, ?_, ?_, rfl⟩
  all_goals intro x member
  all_goals cases member

/-- **A restarted pipeline carries nothing over**, in every run in which `start` is called only when
no frame is queued and nothing is counted. -/
theorem restart_carries_nothing
    (reach : (pipelineMachine Picture).Reach StartsClean constructed s) : CarriesNothing s := by
  have current : Current s :=
    reach.invariant current_constructed fun _ _ _ current guard step => current.next guard step
  exact current.carriesNothing

instance : Decidable (StartsClean s m) :=
  match m with
  | .start => inferInstanceAs (Decidable (_ ∧ _))
  | .init | .frame _ | .capture | .eos | .encode _ => .isTrue trivial
  | .stop | .destroy | .stopper | .flush _ | .tick => .isTrue trivial

/-- `stop`, while the capture thread runs and the encode thread is about to read its stop token. -/
def stopRun : List (Move Unit) :=
  [.stop, .stopper, .stopper, .capture, .stopper, .stopper, .stopper, .encode [], .stopper,
    .flush []]

/-- The encode thread takes a frame. -/
def take : List (Move Unit) :=
  [.encode [], .encode [], .encode [], .encode []]

theorem restart_carries_nothing_sample :
    ∃ s : Pipeline Unit, s.run = 2 ∧ s.threads.encode = .encoding ⟨0, 2, ()⟩ ∧
      CarriesNothing s := by
  have computed : ((pipelineMachine Unit).run (fun s m => decide (StartsClean s m))
      ([.init, .start] ++ stopRun ++ [.init, .start] ++ push ++ take) constructed).map
        (fun s => (s.run, s.threads.encode)) = some (2, .encoding ⟨0, 2, ()⟩) := by
    decide +kernel
  obtain ⟨s, run, result⟩ := Option.map_eq_some_iff.mp computed
  have reach : (pipelineMachine Unit).Reach StartsClean constructed s :=
    (Machine.reach_of_run run).mono fun _ _ passed => of_decide_eq_true passed
  exact ⟨s, congrArg Prod.fst result, congrArg Prod.snd result, restart_carries_nothing reach⟩

/-- The frame that `stop` leaves in the queue is the first one that the next run encodes, and
`frameCount_` goes on. -/
theorem restart_carries_frame :
    ¬ ∀ s : Pipeline Unit, (pipelineMachine Unit).Reach (fun _ _ => True) constructed s →
      CarriesNothing s := by
  intro all
  have computed : ((pipelineMachine Unit).run (fun _ _ => true)
      ([.init, .start] ++ push ++ stopRun ++ [.init, .start] ++ take) constructed).map
        (fun s => (s.run, s.threads.encode)) = some (2, .encoding ⟨0, 1, ()⟩) := by
    decide +kernel
  obtain ⟨s, run, result⟩ := Option.map_eq_some_iff.mp computed
  have reach : (pipelineMachine Unit).Reach (fun _ _ => True) constructed s :=
    Machine.reach_of_moves _ run
  have handed := (all s reach).handed _ (congrArg Prod.snd result)
  have current : s.run = 2 := congrArg Prod.fst result
  rw [current] at handed
  cases handed

end Pipeline

end VideoPipeline

end DirectLink
