import DirectLink.Lib.Machine

/-!
# A video track and its read loop

`FrameReader::pushFrame` with what it shows for a frame, and a `VideoTrack` as a machine: the calls
of the main thread, which blocks in `unsetTrack` until the read loop has returned, and the steps of
every read loop that was started, in any interleaving.  Streams are numbered as they are made, and
loops as they are started.

* `VideoTrack.shows_its_track`: what is shown is of the track that is set, and one loop reads it.
* `VideoTrack.reads_its_track`: a track that is set and has a sink is read.
* `VideoTrack.unset_returns`: `unsetTrack` waits for three steps of the loop at most.
-/

namespace DirectLink

/-! ### The frame reader -/

/-- `livekit::VideoBufferType`, as far as `pushFrame` tells its values apart. -/
inductive BufferType : Type
  | i420
  | rgba
  | other
  deriving DecidableEq

/-- A `livekit::VideoFrame`; `number` stands for its pixels. -/
structure VideoFrame : Type where
  number : Nat
  width : Int
  height : Int
  /-- `src != nullptr && size != 0` -/
  hasData : Bool
  type : BufferType
  planes : Nat
  deriving DecidableEq

structure FrameReader : Type where
  videoSink : Option Nat
  /-- The placeholder image was loaded. -/
  placeholder : Bool
  deriving DecidableEq

namespace FrameReader

/-- What a video sink is given. -/
inductive Image : Type
  | placeholder
  | yuv420p (frame : VideoFrame)
  | rgba8888 (frame : VideoFrame)
  deriving DecidableEq

/-- What Qt and LiveKit answer while a frame is pushed. -/
structure Answers : Type where
  /-- The buffer of the image could be mapped. -/
  maps : Bool
  /-- The buffer of the placeholder that stands in for it could be mapped. -/
  mapsAgain : Bool
  /-- `frame.convert` did not throw. -/
  converts : Bool
  deriving DecidableEq

section Push

variable (r : FrameReader)

/-- Whether `pushSpan` succeeds. -/
def pushSpan (maps : Bool) : Bool := r.videoSink.isSome && maps

/-- `pushFrame` without a frame. -/
def pushPlaceholder (maps : Bool) : Option Image :=
  if r.placeholder && r.pushSpan maps then some .placeholder else none

/-- The last part of `pushFrame`, where the frame is or becomes RGBA. -/
def pushRgba (frame : VideoFrame) (answers : Answers) : Option Image :=
  if frame.type ≠ .rgba ∧ answers.converts = false then r.pushPlaceholder answers.maps
  else if r.pushSpan answers.maps then some (.rgba8888 frame)
  else r.pushPlaceholder answers.mapsAgain

/-- What the sink is given for a frame. -/
def pushFrame (frame : VideoFrame) (answers : Answers) : Option Image :=
  if frame.hasData = false then r.pushPlaceholder answers.maps
  else if frame.width ≤ 0 ∨ frame.height ≤ 0 then r.pushPlaceholder answers.maps
  else if frame.type = .i420 then
    if r.videoSink.isNone then none
    -- too few planes: the frame is converted like any other
    else if frame.planes < 3 then r.pushRgba frame answers
    else if answers.maps then some (.yuv420p frame) else none
  else r.pushRgba frame answers

end Push

/-- The frame can be shown as it is or after a conversion. -/
def Showable (frame : VideoFrame) (answers : Answers) : Prop :=
  frame.hasData = true ∧ 0 < frame.width ∧ 0 < frame.height ∧
    (frame.type = .i420 ∧ 3 ≤ frame.planes ∨ frame.type = .rgba ∨ answers.converts = true)

/-- The frame that an image shows. -/
def Image.frame : Image → Option VideoFrame
  | .placeholder => none
  | .yuv420p frame | .rgba8888 frame => some frame

variable {r : FrameReader} {frame : VideoFrame} {answers : Answers}

theorem pushPlaceholder_eq (sink : r.videoSink.isSome = true) (placeholder : r.placeholder = true) :
    r.pushPlaceholder true = some .placeholder := by
  simp [pushPlaceholder, pushSpan, sink, placeholder]

theorem pushRgba_shows (sink : r.videoSink.isSome = true) (placeholder : r.placeholder = true)
    (maps : answers.maps = true) (frame : VideoFrame) :
    ∃ image, r.pushRgba frame answers = some image ∧
      (image.frame = some frame ↔ frame.type = .rgba ∨ answers.converts = true) := by
  rw [pushRgba, maps]
  split
  · next lost =>
    refine ⟨.placeholder, pushPlaceholder_eq sink placeholder, ?_⟩
    simp [Image.frame, lost.1, lost.2]
  · next kept =>
    refine ⟨.rgba8888 frame, by simp [pushSpan, sink], ?_⟩
    simp only [Image.frame, true_iff]
    by_cases rgba : frame.type = .rgba
    · exact .inl rgba
    · exact .inr (by simpa [rgba] using kept)

/-- Where the sink is set and nothing else fails one image is shown: the frame where it can be
shown, and the placeholder for every other frame. -/
theorem pushFrame_shows (sink : r.videoSink.isSome = true) (placeholder : r.placeholder = true)
    (maps : answers.maps = true) :
    ∃ image, r.pushFrame frame answers = some image ∧
      (image.frame = some frame ↔ Showable frame answers) := by
  have lost : ¬ Showable frame answers → ∃ image, r.pushPlaceholder answers.maps = some image ∧
      (image.frame = some frame ↔ Showable frame answers) := by
    intro hidden
    rw [maps]
    refine ⟨.placeholder, pushPlaceholder_eq sink placeholder, nofun, fun shows => ?_⟩
    exact (hidden shows).elim
  have rgba : frame.hasData = true → 0 < frame.width → 0 < frame.height →
      ¬ (frame.type = .i420 ∧ 3 ≤ frame.planes) →
      ∃ image, r.pushRgba frame answers = some image ∧
        (image.frame = some frame ↔ Showable frame answers) := by
    intro data wide high converted
    obtain ⟨image, is, same⟩ := pushRgba_shows sink placeholder maps frame
    refine ⟨image, is, same.trans ?_⟩
    simp [Showable, data, wide, high, converted]
  rw [pushFrame]
  split
  · next empty => exact lost fun shows => Bool.false_ne_true (empty.symm.trans shows.1)
  · next data =>
    rw [Bool.not_eq_false] at data
    split
    · next flat =>
      refine lost fun shows => ?_
      rcases flat with narrow | low
      · exact Int.not_lt.mpr narrow shows.2.1
      · exact Int.not_lt.mpr low shows.2.2.1
    · next sized =>
      rw [not_or, Int.not_le, Int.not_le] at sized
      split
      · next i420 =>
        have hasSink : r.videoSink.isNone = false := by
          simpa [← Option.isSome_iff_ne_none] using sink
        rw [hasSink, if_neg Bool.false_ne_true]
        split
        · next few =>
          exact rgba data sized.1 sized.2 fun planar => Nat.not_lt.mpr planar.2 few
        · next planes =>
          refine ⟨.yuv420p frame, rfl, fun _ => ?_, fun _ => rfl⟩
          exact ⟨data, sized.1, sized.2, .inl ⟨i420, Nat.not_lt.mp planes⟩⟩
      · next other => exact rgba data sized.1 sized.2 fun planar => other planar.1

end FrameReader

/-! ### The video track -/

namespace VideoTrack

/-- A `livekit::VideoStream` of a track. -/
structure Stream : Type where
  track : Nat
  closed : Bool
  deriving DecidableEq

/-- Where a `readLoop` is.  `hasRatio` is its local variable. -/
inductive Loop : Type
  | top (hasRatio : Bool)
  /-- In `read` of a stream. -/
  | reading (stream : Nat) (hasRatio : Bool)
  | pushing (stream : Nat) (frame : VideoFrame) (hasRatio : Bool)
  | finished
  deriving DecidableEq

/-- The stream that a loop reads. -/
def Loop.stream : Loop → Option Nat
  | .reading n _ | .pushing n _ _ => some n
  | .top _ | .finished => none

/-- What follows when `unsetTrack` has returned. -/
inductive After : Type
  | setTrack (track : Nat)
  | unsetTrack
  | destroy
  deriving DecidableEq

/-- Where the main thread is. -/
inductive Main : Type
  | ready
  /-- At `waitForFinished`. -/
  | waiting (after : After)
  | destroyed
  deriving DecidableEq

/-- An image that was given to the sink, the stream of its frame, and the track's stream then. -/
structure Shown : Type where
  image : FrameReader.Image
  source : Option Nat
  stream : Option Nat
  deriving DecidableEq

end VideoTrack

open VideoTrack in
structure VideoTrack : Type where
  frameReader : FrameReader
  stream : Option Nat
  streams : List Stream
  readFuture : Option Nat
  loops : List Loop
  aspectRatio : Int × Int
  main : Main
  shown : List Shown
  /-- The streams of which a loop has seen the end. -/
  ended : List Nat
  deriving DecidableEq

namespace VideoTrack

/-- A track as its constructor makes it. -/
def new (placeholder : Bool) : VideoTrack :=
  ⟨⟨none, placeholder⟩, none, [], none, [], (16, 9), .ready, [], []⟩

variable (s : VideoTrack)

/-- `m_readFuture.isRunning()` -/
def isRunning : Bool :=
  s.readFuture.any fun i => s.loops[i]?.any fun loop => loop ≠ .finished

def startRead : VideoTrack :=
  if s.isRunning then s
  else { s with loops := s.loops ++ [.top false], readFuture := some s.loops.length }

/-- The sink is given an image, if there is one. -/
def give (image : Option FrameReader.Image) (source : Option Nat) : VideoTrack :=
  { s with shown := s.shown ++ (image.map fun image => Shown.mk image source s.stream).toList }

def onVideoSinkChanged : VideoTrack :=
  if s.stream.isSome && s.frameReader.videoSink.isSome && !s.isRunning then s.startRead else s

def setVideoSink (sink : Option Nat) (maps : Bool) : VideoTrack :=
  if s.frameReader.videoSink = sink then s
  else
    let s := { s with frameReader := { s.frameReader with videoSink := sink } }
    (s.give (s.frameReader.pushPlaceholder maps) none).onVideoSinkChanged

/-- `unsetTrack` up to the wait. -/
def close (after : After) : VideoTrack :=
  let streams := match s.stream with
    | some n => s.streams.modify n fun stream => { stream with closed := true }
    | none => s.streams
  { s with streams, main := .waiting after }

/-- The rest of `setTrack`; `made` says whether the stream was made. -/
def attach (track : Nat) (made : Bool) : VideoTrack :=
  if made then
    let s := { s with
      streams := s.streams ++ [Stream.mk track false]
      stream := some s.streams.length }
    if s.frameReader.videoSink.isSome then s.startRead else s
  else s

/-- The wait is over. -/
def joined (after : After) (made : Bool) : VideoTrack :=
  match after with
  | .setTrack track => attach { s with stream := none, main := .ready } track made
  | .unsetTrack => { s with stream := none, main := .ready }
  | .destroy => { s with stream := none, main := .destroyed }

def setLoop (i : Nat) (loop : Loop) : VideoTrack := { s with loops := s.loops.set i loop }

/-- A frame came; the first one with a height sets the aspect ratio. -/
def receive (i n : Nat) (frame : VideoFrame) (hasRatio : Bool) : VideoTrack :=
  if hasRatio = false ∧ 0 < frame.height then
    { s.setLoop i (.pushing n frame true) with aspectRatio := (frame.width, frame.height) }
  else s.setLoop i (.pushing n frame hasRatio)

inductive Move : Type
  | setVideoSink (sink : Option Nat) (maps : Bool)
  | setTrack (track : Nat)
  | unsetTrack
  | destroy
  | joined (made : Bool)
  /-- Loop `i` looks at `m_stream`. -/
  | look (i : Nat)
  | read (i : Nat) (frame : VideoFrame)
  /-- `read` returned false. -/
  | readFails (i : Nat)
  | push (i : Nat) (answers : FrameReader.Answers)
  deriving DecidableEq

def next : VideoTrack → Move → Option VideoTrack
  | s, .setVideoSink sink maps => if s.main = .ready then some (s.setVideoSink sink maps) else none
  | s, .setTrack track => if s.main = .ready then some (s.close (.setTrack track)) else none
  | s, .unsetTrack => if s.main = .ready then some (s.close .unsetTrack) else none
  | s, .destroy => if s.main = .ready then some (s.close .destroy) else none
  | s, .joined made =>
    match s.main with
    | .waiting after => if s.isRunning then none else some (s.joined after made)
    | .ready | .destroyed => none
  | s, .look i =>
    match s.loops[i]? with
    | some (.top hasRatio) =>
      match s.stream with
      | some n => some (s.setLoop i (.reading n hasRatio))
      | none => some (s.setLoop i .finished)
    | _ => none
  | s, .read i frame =>
    match s.loops[i]? with
    | some (.reading n hasRatio) => some (s.receive i n frame hasRatio)
    | _ => none
  | s, .readFails i =>
    match s.loops[i]? with
    | some (.reading n _) => some { s.setLoop i .finished with ended := n :: s.ended }
    | _ => none
  | s, .push i answers =>
    match s.loops[i]? with
    | some (.pushing n frame hasRatio) =>
      some ((s.give (s.frameReader.pushFrame frame answers) (some n)).setLoop i (.top hasRatio))
    | _ => none

@[reducible] def machine : Machine := ⟨VideoTrack, Move, next⟩

/-- `read` of a closed stream yields no frame. -/
def ClosedYieldsNothing (s : VideoTrack) : Move → Prop
  | .read i _ => ∀ n hasRatio stream, s.loops[i]? = some (.reading n hasRatio) →
    s.streams[n]? = some stream → stream.closed = false
  | _ => True

/-! ### One step -/

variable {s}

theorem isRunning_iff :
    s.isRunning = true ↔
      ∃ i loop, s.readFuture = some i ∧ s.loops[i]? = some loop ∧ loop ≠ .finished := by
  simp only [isRunning, Option.any_eq_true, decide_eq_true_eq]
  constructor
  · intro holds
    rcases holds with ⟨i, future, loop, is, runs⟩
    exact ⟨i, loop, future, is, runs⟩
  · intro holds
    rcases holds with ⟨i, loop, future, is, runs⟩
    exact ⟨i, future, loop, is, runs⟩

/-- What every step keeps of the loops and the streams. -/
structure Orderly (s : VideoTrack) : Prop where
  alone : ∀ (i : Nat) (loop : Loop), s.loops[i]? = some loop → loop ≠ .finished →
    s.readFuture = some i
  reads : ∀ (i : Nat) (loop : Loop) (n : Nat), s.loops[i]? = some loop → loop.stream = some n →
    s.stream = some n
  set : s.isRunning = true → s.stream.isSome = true
  last : ∀ n, s.stream = some n → s.streams.length = n + 1
  opened : ∀ n, s.stream = some n → s.main = .ready →
    ∃ track, s.streams[n]? = some ⟨track, false⟩
  closing : ∀ n after, s.stream = some n → s.main = .waiting after →
    ∃ track, s.streams[n]? = some ⟨track, true⟩
  gone : s.main = .destroyed → s.stream = none
  shown : ∀ e ∈ s.shown, ∀ n, e.source = some n → e.stream = some n

/-- Where the main thread can be called, a stream that has a sink is read or has ended. -/
structure Sound (s : VideoTrack) : Prop extends Orderly s where
  follows : ∀ n, s.main = .ready → s.stream = some n → s.frameReader.videoSink.isSome = true →
    s.isRunning = true ∨ n ∈ s.ended

theorem sound_new (placeholder : Bool) : (new placeholder).Sound := by
  refine ⟨⟨?_, ?_, ?_, ?_, ?_, ?_, ?_, ?_⟩, ?_⟩
  all_goals simp [new, isRunning]

namespace Orderly

theorem idle (orderly : s.Orderly) (rests : s.isRunning = false) {i : Nat} {loop : Loop}
    (is : s.loops[i]? = some loop) : loop = .finished := by
  by_cases finished : loop = .finished
  · exact finished
  · have running := isRunning_iff.mpr ⟨i, loop, orderly.alone i loop is finished, is, finished⟩
    rw [rests] at running
    cases running

/-- A step of the loop that runs. -/
theorem step_loop (orderly : s.Orderly) {i : Nat} {old loop : Loop}
    (here : s.loops[i]? = some old) (runs : old ≠ .finished)
    (reads : ∀ n, loop.stream = some n → s.stream = some n)
    {shown : List Shown} (shows : ∀ e ∈ shown, ∀ n, e.source = some n → e.stream = some n)
    {ended : List Nat} (sees : loop = .finished → ∀ n, s.stream = some n → n ∈ ended)
    (ratio : Int × Int) :
    { s with
      loops := s.loops.set i loop, shown := shown, ended := ended,
      aspectRatio := ratio : VideoTrack }.Sound := by
  have future := orderly.alone i old here runs
  have set := orderly.set (isRunning_iff.mpr ⟨i, old, future, here, runs⟩)
  have bound : i < s.loops.length := (List.getElem?_eq_some_iff.mp here).1
  refine ⟨⟨?_, ?_, fun _ => set, orderly.last, orderly.opened, orderly.closing, orderly.gone,
    shows⟩, ?_⟩
  · intro j loop' is runs'
    by_cases same : i = j
    · subst same
      exact future
    · rw [List.getElem?_set_ne same] at is
      exact orderly.alone j loop' is runs'
  · intro j loop' n is stream
    by_cases same : i = j
    · subst same
      rw [List.getElem?_set_self bound, Option.some_inj] at is
      subst is
      exact reads n stream
    · rw [List.getElem?_set_ne same] at is
      exact orderly.reads j loop' n is stream
  · intro n _ stream _
    by_cases finished : loop = .finished
    · exact .inr (sees finished n stream)
    · refine .inl (isRunning_iff.mpr ⟨i, loop, future, ?_, finished⟩)
      exact List.getElem?_set_self bound

theorem startRead (orderly : s.Orderly) (rests : s.isRunning = false)
    (set : s.stream.isSome = true) : s.startRead.Orderly ∧ s.startRead.isRunning = true := by
  rw [VideoTrack.startRead, rests, if_neg Bool.false_ne_true]
  refine ⟨⟨?_, ?_, fun _ => set, orderly.last, orderly.opened, orderly.closing, orderly.gone,
    orderly.shown⟩, ?_⟩
  · intro i loop is runs
    rcases Nat.lt_or_ge i s.loops.length with old | new
    · rw [List.getElem?_append_left old] at is
      exact absurd (orderly.idle rests is) runs
    · have bound := (List.getElem?_eq_some_iff.mp is).1
      rw [List.length_append, List.length_singleton] at bound
      exact congrArg some (by omega)
  · intro i loop n is stream
    rcases Nat.lt_or_ge i s.loops.length with old | new
    · rw [List.getElem?_append_left old] at is
      exact orderly.reads i loop n is stream
    · have member := List.mem_of_getElem? is
      rw [List.getElem?_append_right new] at is
      obtain rfl := List.mem_singleton.mp (List.mem_of_getElem? is)
      cases stream
  · exact isRunning_iff.mpr ⟨s.loops.length, .top false, rfl, by simp, nofun⟩

theorem onVideoSinkChanged (orderly : s.Orderly) :
    s.onVideoSinkChanged.Sound := by
  rw [VideoTrack.onVideoSinkChanged]
  split
  · next all =>
    simp only [Bool.and_eq_true, Bool.not_eq_true'] at all
    obtain ⟨started, runs⟩ := orderly.startRead all.2 all.1.1
    exact ⟨started, fun _ _ _ _ => .inl runs⟩
  · next missing =>
    refine ⟨orderly, ?_⟩
    intro n _ stream sink
    exact .inl (by simpa [stream, sink] using missing)

end Orderly

namespace Sound

theorem setVideoSink (sound : s.Sound) (sink : Option Nat) (maps : Bool) :
    (s.setVideoSink sink maps).Sound := by
  rw [VideoTrack.setVideoSink]
  split
  · exact sound
  · refine Orderly.onVideoSinkChanged ⟨sound.alone, sound.reads, sound.set, sound.last,
      sound.opened, sound.closing, sound.gone, ?_⟩
    intro e member n source
    rcases List.mem_append.mp member with earlier | now
    · exact sound.shown e earlier n source
    · obtain ⟨image, _, rfl⟩ := Option.map_eq_some_iff.mp (Option.mem_toList.mp now)
      cases source

theorem close (sound : s.Sound) (ready : s.main = .ready) (after : After) :
    (s.close after).Sound := by
  refine ⟨⟨sound.alone, sound.reads, sound.set, ?_, ?_, ?_, ?_, sound.shown⟩, ?_⟩
  · intro n stream
    simp only [VideoTrack.close] at stream ⊢
    rw [stream]
    simp [sound.last n stream]
  · intro n _ is
    cases is
  · intro n after' stream _
    simp only [VideoTrack.close] at stream ⊢
    obtain ⟨track, here⟩ := sound.opened n stream ready
    rw [stream]
    exact ⟨track, by simp [here]⟩
  · intro is
    cases is
  · intro n is
    cases is

theorem cleared (sound : s.Sound) (rests : s.isRunning = false) (main : Main) :
    { s with stream := none, main := main : VideoTrack }.Sound := by
  refine ⟨⟨sound.alone, ?_, ?_, nofun, nofun, nofun, fun _ => rfl, sound.shown⟩, nofun⟩
  · intro i loop n is stream
    obtain rfl := sound.idle rests is
    cases stream
  · intro running
    exact absurd (rests.symm.trans running) Bool.false_ne_true

theorem attach (sound : s.Sound) (rests : s.isRunning = false)
    (ready : s.main = .ready) (track : Nat) (made : Bool) : (s.attach track made).Sound := by
  rw [VideoTrack.attach]
  split
  · have orderly : { s with
        streams := s.streams ++ [Stream.mk track false],
        stream := some s.streams.length : VideoTrack }.Orderly := by
      refine ⟨sound.alone, ?_, fun _ => rfl, ?_, ?_, ?_, ?_, sound.shown⟩
      · intro i loop n is stream
        obtain rfl := sound.idle rests is
        cases stream
      · intro n stream
        obtain rfl := Option.some_inj.mp stream
        simp
      · intro n stream _
        obtain rfl := Option.some_inj.mp stream
        exact ⟨track, by simp⟩
      · intro n after _ is
        cases ready.symm.trans is
      · intro is
        cases ready.symm.trans is
    dsimp only
    split
    · obtain ⟨started, runs⟩ := orderly.startRead rests rfl
      exact ⟨started, fun _ _ _ _ => .inl runs⟩
    · next hidden =>
      exact ⟨orderly, fun _ _ _ sink => absurd sink hidden⟩
  · exact sound

theorem joined (sound : s.Sound) (rests : s.isRunning = false) (after : After) (made : Bool) :
    (s.joined after made).Sound := by
  cases after with
  | setTrack track => exact (sound.cleared rests .ready).attach rests rfl track made
  | unsetTrack => exact sound.cleared rests .ready
  | destroy => exact sound.cleared rests .destroyed

/-- **The step lemma.** -/
theorem next {m : Move} {s' : VideoTrack} (sound : s.Sound) (step : s.next m = some s') :
    s'.Sound := by
  cases m with
  | setVideoSink sink maps =>
    obtain ⟨_, is⟩ := Option.ite_none_right_eq_some.mp step
    obtain rfl := Option.some_inj.mp is
    exact sound.setVideoSink sink maps
  | setTrack track =>
    obtain ⟨ready, is⟩ := Option.ite_none_right_eq_some.mp step
    obtain rfl := Option.some_inj.mp is
    exact sound.close ready _
  | unsetTrack =>
    obtain ⟨ready, is⟩ := Option.ite_none_right_eq_some.mp step
    obtain rfl := Option.some_inj.mp is
    exact sound.close ready _
  | destroy =>
    obtain ⟨ready, is⟩ := Option.ite_none_right_eq_some.mp step
    obtain rfl := Option.some_inj.mp is
    exact sound.close ready _
  | joined made =>
    simp only [VideoTrack.next] at step
    split at step
    · next after _ =>
      obtain ⟨rests, is⟩ := Option.ite_none_left_eq_some.mp step
      obtain rfl := Option.some_inj.mp is
      exact sound.joined (by simpa using rests) after made
    · cases step
    · cases step
  | look i =>
    simp only [VideoTrack.next] at step
    split at step
    · next hasRatio here =>
      have set := sound.set (isRunning_iff.mpr ⟨i, _, sound.alone i _ here nofun, here, nofun⟩)
      split at step
      · next n stream =>
        obtain rfl := Option.some_inj.mp step
        refine sound.step_loop here nofun ?_ sound.shown ?_ s.aspectRatio
        · intro _ impossible
          cases impossible
          exact stream
        · exact nofun
      · next none => simp [none] at set
    · cases step
  | read i frame =>
    simp only [VideoTrack.next] at step
    split at step
    · next n hasRatio here =>
      obtain rfl := Option.some_inj.mp step
      have stream := sound.reads i _ n here rfl
      rw [receive]
      split
      · refine sound.step_loop here nofun ?_ sound.shown ?_ (frame.width, frame.height)
        · intro _ impossible
          cases impossible
          exact stream
        · exact nofun
      · refine sound.step_loop here nofun ?_ sound.shown ?_ s.aspectRatio
        · intro _ impossible
          cases impossible
          exact stream
        · exact nofun
    · cases step
  | readFails i =>
    simp only [VideoTrack.next] at step
    split at step
    · next n hasRatio here =>
      obtain rfl := Option.some_inj.mp step
      have stream := sound.reads i _ n here rfl
      refine sound.step_loop here nofun ?_ sound.shown ?_ s.aspectRatio
      · exact nofun
      · intro _ n' is
        obtain rfl := Option.some_inj.mp (stream.symm.trans is)
        exact .head _
    · cases step
  | push i answers =>
    simp only [VideoTrack.next] at step
    split at step
    · next n frame hasRatio here =>
      obtain rfl := Option.some_inj.mp step
      have stream := sound.reads i _ n here rfl
      refine sound.step_loop here nofun ?_ ?_ ?_ s.aspectRatio
      · exact nofun
      · intro e member n' source
        rcases List.mem_append.mp member with earlier | now
        · exact sound.shown e earlier n' source
        · obtain ⟨image, _, rfl⟩ := Option.map_eq_some_iff.mp (Option.mem_toList.mp now)
          obtain rfl := Option.some_inj.mp source
          exact stream
      · exact nofun
    · cases step

end Sound

/-! ### The wait of `unsetTrack` -/

/-- How many steps a loop still makes once its stream is closed. -/
def stepsOf : Loop → Nat
  | .pushing _ _ _ => 3
  | .top _ => 2
  | .reading _ _ => 1
  | .finished => 0

/-- The same of the loop that is waited for. -/
def stepsLeft (s : VideoTrack) : Nat := (s.readFuture.bind fun i => s.loops[i]?).elim 0 stepsOf

theorem stepsLeft_le : s.stepsLeft ≤ 3 := by
  rw [stepsLeft]
  cases s.readFuture.bind fun i => s.loops[i]? with
  | none => exact Nat.zero_le 3
  | some loop => cases loop <;> simp [stepsOf]

theorem stepsLeft_of_loop {i : Nat} {loop : Loop} (future : s.readFuture = some i)
    (here : s.loops[i]? = some loop) : s.stepsLeft = stepsOf loop := by
  rw [stepsLeft, future, Option.bind_some, here, Option.elim_some]

/-- A step of a loop that is nearer to its end. -/
theorem stepsLeft_lt (sound : s.Sound) {i : Nat} {old loop : Loop} {s' : VideoTrack}
    (here : s.loops[i]? = some old) (fewer : stepsOf loop < stepsOf old)
    (future : s'.readFuture = s.readFuture) (loops : s'.loops = s.loops.set i loop) :
    s'.stepsLeft < s.stepsLeft := by
  have runs : old ≠ .finished := by
    intro same
    subst same
    exact Nat.not_lt_zero _ fewer
  have is := sound.alone i old here runs
  have bound := (List.getElem?_eq_some_iff.mp here).1
  have here' : s'.loops[i]? = some loop := by
    rw [loops]
    exact List.getElem?_set_self bound
  rw [stepsLeft_of_loop is here, stepsLeft_of_loop (future.trans is) here']
  exact fewer

theorem joined_main (after after' : After) (made : Bool) :
    (s.joined after made).main ≠ .waiting after' := by
  cases after with
  | setTrack track =>
    rw [joined, attach]
    split
    · dsimp only
      split
      · rw [startRead]
        split <;> exact nofun
      · exact nofun
    · exact nofun
  | unsetTrack | destroy => exact nofun

/-- While the main thread waits, every step but the last one brings the loop nearer to its end. -/
theorem next_of_waiting {m : Move} {s' : VideoTrack} {after : After} (sound : s.Sound)
    (waits : s.main = .waiting after) (guard : ClosedYieldsNothing s m)
    (step : s.next m = some s') :
    (∃ made, m = .joined made) ∨ s'.stepsLeft < s.stepsLeft := by
  cases m with
  | setVideoSink sink maps => simp [next, waits] at step
  | setTrack track => simp [next, waits] at step
  | unsetTrack => simp [next, waits] at step
  | destroy => simp [next, waits] at step
  | joined made => exact .inl ⟨made, rfl⟩
  | look i =>
    right
    simp only [next] at step
    split at step
    · next hasRatio here =>
      split at step
      · obtain rfl := Option.some_inj.mp step
        exact stepsLeft_lt sound here (by simp [stepsOf]) rfl rfl
      · obtain rfl := Option.some_inj.mp step
        exact stepsLeft_lt sound here (by simp [stepsOf]) rfl rfl
    · cases step
  | read i frame =>
    simp only [next] at step
    split at step
    · next n hasRatio here =>
      obtain ⟨track, closed⟩ := sound.closing n after (sound.reads i _ n here rfl) waits
      cases guard n hasRatio _ here closed
    · cases step
  | readFails i =>
    right
    simp only [next] at step
    split at step
    · next n hasRatio here =>
      obtain rfl := Option.some_inj.mp step
      exact stepsLeft_lt sound here (by simp [stepsOf]) rfl rfl
    · cases step
  | push i answers =>
    right
    simp only [next] at step
    split at step
    · next n frame hasRatio here =>
      obtain rfl := Option.some_inj.mp step
      exact stepsLeft_lt sound here (by simp [stepsOf]) rfl rfl
    · cases step

/-- The wait is never stuck. -/
theorem moves_of_waiting {after : After} (waits : s.main = .waiting after) :
    ∃ m s', ClosedYieldsNothing s m ∧ s.next m = some s' := by
  cases runs : s.isRunning with
  | false => exact ⟨.joined true, s.joined after true, trivial, by simp [next, waits, runs]⟩
  | true =>
    obtain ⟨i, loop, _, here, running⟩ := isRunning_iff.mp runs
    cases loop with
    | top hasRatio =>
      cases stream : s.stream with
      | none => exact ⟨.look i, _, trivial, by simp only [next, here, stream]; rfl⟩
      | some n => exact ⟨.look i, _, trivial, by simp only [next, here, stream]; rfl⟩
    | reading n hasRatio => exact ⟨.readFails i, _, trivial, by simp only [next, here]; rfl⟩
    | pushing n frame hasRatio =>
      exact ⟨.push i ⟨true, true, true⟩, _, trivial, by simp only [next, here]; rfl⟩
    | finished => exact (running rfl).elim

/-- The moves can be made one after another, and the main thread waits all the while. -/
def Waits : VideoTrack → List Move → Prop
  | _, [] => True
  | s, m :: moves => ∃ s' after, ClosedYieldsNothing s m ∧ s.next m = some s' ∧
      s'.main = .waiting after ∧ s'.Waits moves

theorem length_of_waits {moves : List Move} {after : After} (sound : s.Sound)
    (waits : s.main = .waiting after) (run : s.Waits moves) : moves.length ≤ s.stepsLeft := by
  induction moves generalizing s after with
  | nil => exact Nat.zero_le _
  | cons m moves ih =>
    obtain ⟨s', after', guard, step, waits', rest⟩ := run
    have later := ih (sound.next step) waits' rest
    rcases next_of_waiting sound waits guard step with ⟨made, rfl⟩ | fewer
    · exfalso
      simp only [next, waits] at step
      split at step
      · cases step
      · obtain rfl := Option.some_inj.mp step
        exact joined_main _ _ _ waits'
    · exact Nat.lt_of_le_of_lt later fewer

/-! ### Whole runs -/

variable {placeholder : Bool} {G : VideoTrack → Move → Prop}

theorem sound_of_reach (reach : machine.Reach G (new placeholder) s) : s.Sound :=
  reach.invariant (sound_new placeholder) fun _ _ _ sound _ step => sound.next step

/-- **Only the track that is set is shown**: in every interleaving of the main thread and the loops
one loop at most has not returned, it reads the stream of the track, every frame was shown while its
stream was the one of the track, and once the track is destroyed no loop is left. -/
theorem shows_its_track (reach : machine.Reach G (new placeholder) s) :
    (∀ (i : Nat) (loop : Loop), s.loops[i]? = some loop → loop ≠ .finished →
      s.readFuture = some i ∧ ∀ n, loop.stream = some n → s.stream = some n) ∧
    (∀ e ∈ s.shown, ∀ n, e.source = some n → e.stream = some n) ∧
    (s.main = .destroyed → ∀ loop ∈ s.loops, loop = .finished) := by
  have sound := sound_of_reach reach
  refine ⟨?_, sound.shown, ?_⟩
  · intro i loop is runs
    exact ⟨sound.alone i loop is runs, fun n => sound.reads i loop n is⟩
  · intro destroyed loop member
    obtain ⟨i, is⟩ := List.mem_iff_getElem?.mp member
    refine sound.idle ?_ is
    rw [← Bool.not_eq_true]
    intro runs
    have set := sound.set runs
    rw [sound.gone destroyed] at set
    cases set

/-- A 640x480 frame as the decoder delivers it. -/
def decoded : VideoFrame := ⟨0, 640, 480, true, .i420, 3⟩

/-- The moves up to the first frame of a track that gets its sink late. -/
def firstFrame : List Move :=
  [.setTrack 7, .joined true, .setVideoSink (some 1) true, .look 0, .read 0 decoded,
    .push 0 ⟨true, true, true⟩]

theorem shows_its_track_run : ∃ s : VideoTrack,
    s.shown = [⟨.placeholder, none, some 0⟩, ⟨.yuv420p decoded, some 0, some 0⟩] ∧
    ∀ e ∈ s.shown, ∀ n, e.source = some n → e.stream = some n := by
  have reach : machine.Reach (fun _ _ => True) (new true) _ := Machine.reach_of_moves firstFrame rfl
  exact ⟨_, rfl, (shows_its_track reach).2.1⟩

/-- **A track that has a sink is read**: where the main thread is free, the stream that is set is
open, and a loop reads it or has seen its end. -/
theorem reads_its_track {n : Nat} (reach : machine.Reach G (new placeholder) s)
    (ready : s.main = .ready) (stream : s.stream = some n)
    (sink : s.frameReader.videoSink.isSome = true) :
    (∃ track, s.streams[n]? = some ⟨track, false⟩) ∧ (s.isRunning = true ∨ n ∈ s.ended) := by
  have sound := sound_of_reach reach
  exact ⟨sound.opened n stream ready, sound.follows n ready stream sink⟩

theorem reads_its_track_run : ∃ s : VideoTrack, s.stream = some 0 ∧
    (s.isRunning = true ∨ 0 ∈ s.ended) := by
  have reach : machine.Reach (fun _ _ => True) (new true) _ := Machine.reach_of_moves firstFrame rfl
  exact ⟨_, rfl, (reads_its_track reach rfl rfl rfl).2⟩

/-- **`unsetTrack` returns**: while the main thread waits some step can always be made, and where a
closed stream yields no frame the loop makes three steps at most before the wait is over. -/
theorem unset_returns {after : After} (reach : machine.Reach G (new placeholder) s)
    (waits : s.main = .waiting after) :
    (∃ m s', ClosedYieldsNothing s m ∧ s.next m = some s') ∧
      ∀ moves, s.Waits moves → moves.length ≤ 3 := by
  refine ⟨moves_of_waiting waits, ?_⟩
  intro moves run
  exact Nat.le_trans (length_of_waits (sound_of_reach reach) waits run) stepsLeft_le

theorem unset_returns_run : ∃ s : VideoTrack, s.main = .waiting .unsetTrack ∧
    ∀ moves, s.Waits moves → moves.length ≤ 3 := by
  have reach : machine.Reach (fun _ _ => True) (new true) _ :=
    Machine.reach_of_moves (firstFrame ++ [.unsetTrack]) rfl
  exact ⟨_, rfl, (unset_returns reach rfl).2⟩

end VideoTrack

end DirectLink
