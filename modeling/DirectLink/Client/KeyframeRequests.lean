import Mathlib.Logic.Basic
import DirectLink.Lib.Machine

/-!
# Keyframe requests

`requestKeyframe` and what `encodeFrame` does up to the codec's answer, for both encoders.  A
request can arrive at any moment of an `encodeFrame`; the frames are encoded one at a time.
-/

namespace DirectLink

namespace KeyframeRequests

/-! ### The encoders -/

/-- `EncoderConfig::Type`. -/
inductive EncoderType : Type
  | software
  | hardware
  deriving DecidableEq

inductive Encoder : Type
  | software
  | nvenc
  deriving DecidableEq

/-- `nvencFound`: there is an encoder with the name h264_nvenc. -/
def createEncoder (type : EncoderType) (nvencFound : Bool) : Encoder :=
  let resolved : EncoderType :=
    match type with
    | .software => if nvencFound then .hardware else .software
    | .hardware => if nvencFound then .hardware else .software
  match resolved with
  | .software => .software
  | .hardware => .nvenc

/-- `AVPixelFormat`, as far as the encoders tell the formats apart. -/
inductive PixelFormat : Type
  | yuv420p
  | yuvj420p
  | yuv422p
  | yuvj422p
  | yuv444p
  | yuvj444p
  | other (format : Int)
  deriving DecidableEq

/-- `AVPictureType`. -/
inductive PictureType : Type
  | none
  | i
  | p
  | b
  | s
  | si
  | sp
  | bi
  deriving DecidableEq

structure AVFrame : Type where
  format : PixelFormat
  /-- `color_range` is `AVCOL_RANGE_JPEG`. -/
  fullRange : Bool
  width : Int
  height : Int
  /-- `linesize[0]`. -/
  linesize : Int
  pictType : PictureType
  deriving DecidableEq

structure CodecContext : Type where
  width : Int
  height : Int
  pixFmt : PixelFormat
  deriving DecidableEq

def hasOtherShape (codecCtx : CodecContext) (frame : AVFrame) : Bool :=
  frame.width != codecCtx.width || frame.height != codecCtx.height || frame.linesize == 0

/-- Whether `encodeFrame` allocates a frame of its own and converts into it. -/
def needsConversion (codecCtx : CodecContext) (frame : AVFrame) : Encoder → Bool
  | .software =>
    let (srcFmt, srcFullRange) : PixelFormat × Bool :=
      match frame.format with
      | .yuvj420p => (.yuv420p, true)
      | .yuvj422p => (.yuv422p, true)
      | .yuvj444p => (.yuv444p, true)
      | format => (format, frame.fullRange)
    srcFmt != .yuv420p || srcFullRange || hasOtherShape codecCtx frame
  | .nvenc => frame.format != codecCtx.pixFmt || hasOtherShape codecCtx frame

/-- The picture type of `input_frame` after the conversion, which `sws_getContext` can refuse. -/
def inputPictType (encoder : Encoder) (codecCtx : CodecContext) (frame : AVFrame)
    (swsContext : Bool) : PictureType :=
  if needsConversion codecCtx frame encoder && swsContext then .none else frame.pictType

/-! ### The runs -/

/-- Where the `encodeFrame` that is under way is. -/
inductive Call : Type
  | none
  | begun (began : Nat) (frame : AVFrame) (swsContext : Bool)
  /-- The picture type is settled, the codec has not answered. -/
  | typed (began typed : Nat) (tookRequest : Bool) (pictType : PictureType)
  deriving DecidableEq

def Call.tookRequest : Call → Bool
  | .typed _ _ tookRequest _ => tookRequest
  | _ => false

/-- A frame that the codec has answered, and when. -/
structure Answered : Type where
  began : Nat
  typed : Nat
  answered : Nat
  accepted : Bool
  pictType : PictureType
  deriving DecidableEq

structure State : Type where
  encoder : Encoder
  codecCtx : CodecContext
  forceKeyframe : Bool
  call : Call
  /-- The number of moves so far. -/
  now : Nat
  /-- When `requestKeyframe` was called. -/
  requests : List Nat
  frames : List Answered
  deriving DecidableEq

inductive Move : Type
  | requestKeyframe
  | encodeFrame (frame : AVFrame) (swsContext : Bool)
  | setPictType
  /-- `avcodec_send_frame` returns. -/
  | sendFrame (accepted : Bool)
  deriving DecidableEq

namespace State

variable (s : State)

def tick : State :=
  { s with now := s.now + 1 }

/-- `NVENCEncoder` inherits the `requestKeyframe` of `Encoder`, which does nothing, and sets no
picture type. -/
def next : Move → Option State
  | .requestKeyframe =>
    let forceKeyframe :=
      match s.encoder with
      | .software => true
      | .nvenc => s.forceKeyframe
    some { s with forceKeyframe, requests := s.now :: s.requests }.tick
  | .encodeFrame frame swsContext =>
    match s.call with
    | .none => some { s with call := .begun s.now frame swsContext }.tick
    | _ => none
  | .setPictType =>
    match s.call with
    | .begun began frame swsContext =>
      let pictType := inputPictType s.encoder s.codecCtx frame swsContext
      match s.encoder with
      | .software =>
        let tookRequest := s.forceKeyframe
        some { s with
          forceKeyframe := false
          call := .typed began s.now tookRequest (if tookRequest then .i else pictType) }.tick
      | .nvenc => some { s with call := .typed began s.now false pictType }.tick
    | _ => none
  | .sendFrame accepted =>
    match s.call with
    | .typed began typed _ pictType =>
      some { s with
        call := .none
        frames := ⟨began, typed, s.now, accepted, pictType⟩ :: s.frames }.tick
    | _ => none

end State

@[reducible] def machine : Machine := ⟨State, Move, State.next⟩

/-- A running encoder that was asked for nothing yet. -/
def initialized (encoder : Encoder) (width height : Int) : State :=
  ⟨encoder, ⟨width, height, .yuv420p⟩, false, .none, 0, [], []⟩

/-! ### What is to hold -/

/-- The frame is accepted, its picture type was settled after the request, and it is an I. -/
def Answered.Serves (request : Nat) (frame : Answered) : Prop :=
  frame.accepted = true ∧ request < frame.typed ∧ frame.pictType = .i

/-- The first accepted frame whose `encodeFrame` began after the request. -/
def IsFirstAfter (frames : List Answered) (request : Nat) (frame : Answered) : Prop :=
  frame.accepted = true ∧ request < frame.began ∧
    ∀ other ∈ frames, other.accepted = true → request < other.began →
      frame.answered ≤ other.answered

/-- The first accepted frame after a request is an I, or an earlier one has served the request. -/
def RequestsServed (s : State) : Prop :=
  ∀ request ∈ s.requests, ∀ frame ∈ s.frames, IsFirstAfter s.frames request frame →
    frame.pictType = .i ∨
      ∃ earlier ∈ s.frames, earlier.answered < frame.answered ∧ earlier.Serves request

/-- No request is lost in runs whose moves satisfy `G`. -/
def NoneLostWhen (G : State → Move → Prop) (encoder : Encoder) : Prop :=
  ∀ width height s, machine.Reach G (initialized encoder width height) s → RequestsServed s

/-- Requests are made of the `SoftwareEncoder` only, and the codec rejects no frame that took a
request. -/
def Careful (s : State) (m : Move) : Prop :=
  (m = .requestKeyframe → s.encoder = .software) ∧
    (m = .sendFrame false → s.call.tookRequest = false)

/-! ### The requests that wait -/

/-- The flag is set, or the frame under way took it after the request. -/
def Waiting (s : State) (request : Nat) : Prop :=
  match s.call with
  | .none | .begun _ _ _ => s.forceKeyframe = true
  | .typed _ typed tookRequest pictType =>
    if request < typed then tookRequest = true ∧ pictType = .i else s.forceKeyframe = true

def IsServed (s : State) (request : Nat) : Prop :=
  ∃ frame ∈ s.frames, frame.Serves request

/-- The moments of a call before `now`, one after the other. -/
def Call.Before (now : Nat) : Call → Prop
  | .none => True
  | .begun began _ _ => began < now
  | .typed began settled _ _ => began < settled ∧ settled < now

/-- What was recorded lies in the past. -/
structure Timed (s : State) : Prop where
  requests : ∀ request ∈ s.requests, request < s.now
  frames : ∀ frame ∈ s.frames, frame.began < s.now ∧ frame.answered < s.now
  call : s.call.Before s.now

/-- Every request is served or waits, and has been served where a frame that began after it was
accepted. -/
structure Owed (s : State) : Prop where
  asked : s.requests = [] ∨ s.encoder = .software
  waits : ∀ request ∈ s.requests, IsServed s request ∨ Waiting s request
  served : ∀ request ∈ s.requests, ∀ frame ∈ s.frames, frame.accepted = true →
    request < frame.began → frame.pictType = .i ∨
      ∃ earlier ∈ s.frames, earlier.answered < frame.answered ∧ earlier.Serves request

section Reach

variable {G : State → Move → Prop} {s s' : State} {m : Move}

theorem Call.Before.tick {call : Call} {now : Nat} (before : call.Before now) :
    call.Before (now + 1) := by
  cases call with
  | none => trivial
  | begun began frame swsContext => exact Nat.lt_succ_of_lt before
  | typed began typed tookRequest pictType => exact ⟨before.1, Nat.lt_succ_of_lt before.2⟩

theorem Timed.tick (timed : Timed s) : Timed s.tick where
  requests request member := Nat.lt_succ_of_lt (timed.requests request member)
  frames frame member :=
    ⟨Nat.lt_succ_of_lt (timed.frames frame member).1,
      Nat.lt_succ_of_lt (timed.frames frame member).2⟩
  call := timed.call.tick

theorem Timed.next (timed : Timed s) (step : s.next m = some s') : Timed s' := by
  cases m with
  | requestKeyframe =>
    cases step
    exact ⟨List.forall_mem_cons.mpr ⟨Nat.lt_succ_self _, timed.tick.requests⟩, timed.tick.frames,
      timed.tick.call⟩
  | encodeFrame frame swsContext =>
    dsimp only [State.next] at step
    split at step <;> cases step
    exact ⟨timed.tick.requests, timed.tick.frames, Nat.lt_succ_self s.now⟩
  | setPictType =>
    dsimp only [State.next] at step
    split at step
    · next began frame swsContext begun =>
      have before : began < s.now := by
        have before := timed.call
        rwa [begun] at before
      split at step <;> cases step <;>
        exact ⟨timed.tick.requests, timed.tick.frames, before, Nat.lt_succ_self s.now⟩
    · cases step
  | sendFrame accepted =>
    dsimp only [State.next] at step
    split at step
    · next began typed tookRequest pictType call =>
      have before : began < typed ∧ typed < s.now := by
        have before := timed.call
        rwa [call] at before
      cases step
      refine ⟨timed.tick.requests, List.forall_mem_cons.mpr ⟨?_, timed.tick.frames⟩, trivial⟩
      dsimp only [State.tick]
      omega
    · cases step

/-! ### Step by step -/

theorem Owed.requestKeyframe (owed : Owed s) (timed : Timed s) (software : s.encoder = .software)
    (step : s.next .requestKeyframe = some s') : Owed s' := by
  obtain ⟨encoder, codecCtx, forceKeyframe, call, now, requests, frames⟩ := s
  obtain rfl : encoder = .software := software
  cases step
  refine ⟨.inr rfl, List.forall_mem_cons.mpr ⟨.inr ?_, ?_⟩, List.forall_mem_cons.mpr ⟨?_, ?_⟩⟩
  · cases call with
    | none | begun began frame swsContext => rfl
    | typed began typed tookRequest pictType =>
      have past : ¬ now < typed := Nat.not_lt.mpr (Nat.le_of_lt timed.call.2)
      simp [Waiting, State.tick, past]
  · intro request member
    refine (owed.waits request member).imp id fun waiting => ?_
    cases call with
    | none | begun began frame swsContext => rfl
    | typed began typed tookRequest pictType =>
      dsimp only [Waiting, State.tick] at waiting ⊢
      split at waiting
      · next early => rwa [if_pos early]
      · next late => rw [if_neg late]
  · intro frame member _ after
    exact absurd after (Nat.not_lt.mpr (Nat.le_of_lt (timed.frames frame member).1))
  · exact owed.served

theorem Owed.encodeFrame {frame : AVFrame} {swsContext : Bool} (owed : Owed s)
    (step : s.next (.encodeFrame frame swsContext) = some s') : Owed s' := by
  obtain ⟨encoder, codecCtx, forceKeyframe, call, now, requests, frames⟩ := s
  dsimp only [State.next] at step
  split at step <;> cases step
  exact ⟨owed.asked, owed.waits, owed.served⟩

theorem Owed.setPictType (owed : Owed s) (timed : Timed s)
    (step : s.next .setPictType = some s') : Owed s' := by
  obtain ⟨encoder, codecCtx, forceKeyframe, call, now, requests, frames⟩ := s
  dsimp only [State.next] at step
  split at step
  · split at step <;> cases step
    · refine ⟨owed.asked, fun request member => (owed.waits request member).imp id ?_, owed.served⟩
      intro forced
      obtain rfl : forceKeyframe = true := forced
      dsimp only [Waiting, State.tick]
      rw [if_pos (timed.requests request member)]
      exact ⟨rfl, rfl⟩
    · obtain rfl : requests = [] := owed.asked.resolve_right (by simp)
      exact ⟨.inl rfl, by simp [State.tick], by simp [State.tick]⟩
  · cases step

theorem Owed.sendFrame {accepted : Bool} (owed : Owed s) (timed : Timed s)
    (kept : accepted = false → s.call.tookRequest = false)
    (step : s.next (.sendFrame accepted) = some s') : Owed s' := by
  obtain ⟨encoder, codecCtx, forceKeyframe, call, now, requests, frames⟩ := s
  dsimp only [State.next] at step
  split at step
  · next began typed tookRequest pictType =>
    cases step
    refine ⟨owed.asked, fun request member => ?_, fun request member => ?_⟩
    · rcases owed.waits request member with ⟨frame, sent, serves⟩ | waiting
      · exact .inl ⟨frame, List.mem_cons_of_mem _ sent, serves⟩
      · dsimp only [Waiting] at waiting
        split at waiting
        · next early =>
          obtain ⟨rfl, rfl⟩ := waiting
          obtain rfl : accepted = true := by
            cases accepted with
            | false => cases kept rfl
            | true => rfl
          exact .inl ⟨_, List.mem_cons_self .., rfl, early, rfl⟩
        · exact .inr waiting
    · refine List.forall_mem_cons.mpr ⟨fun _ after => ?_, fun frame sent taken after => ?_⟩
      · rcases owed.waits request member with ⟨frame, sent, serves⟩ | waiting
        · exact .inr ⟨frame, List.mem_cons_of_mem _ sent, (timed.frames frame sent).2, serves⟩
        · dsimp only [Waiting] at waiting
          rw [if_pos (Nat.lt_trans after timed.call.1)] at waiting
          exact .inl waiting.2
      · refine (owed.served request member frame sent taken after).imp id ?_
        intro holds
        rcases holds with ⟨earlier, was, before, serves⟩
        exact ⟨earlier, List.mem_cons_of_mem _ was, before, serves⟩
  · cases step

theorem Owed.next (owed : Owed s) (timed : Timed s) (careful : Careful s m)
    (step : s.next m = some s') : Owed s' := by
  cases m with
  | requestKeyframe => exact owed.requestKeyframe timed (careful.1 rfl) step
  | encodeFrame frame swsContext => exact owed.encodeFrame step
  | setPictType => exact owed.setPictType timed step
  | sendFrame accepted =>
    exact owed.sendFrame timed (fun rejected => careful.2 (rejected ▸ rfl)) step

end Reach

/-! ### Whole runs -/

theorem requests_served_of_careful (type : EncoderType) (nvencFound : Bool) :
    NoneLostWhen Careful (createEncoder type nvencFound) := by
  intro width height s reach request asked frame sent first
  have start : Timed (initialized (createEncoder type nvencFound) width height) ∧
      Owed (initialized (createEncoder type nvencFound) width height) :=
    ⟨⟨by simp [initialized], by simp [initialized], trivial⟩,
      ⟨.inl rfl, by simp [initialized], by simp [initialized]⟩⟩
  have owed : Timed s ∧ Owed s := by
    refine Machine.Reach.invariant (I := fun s => Timed s ∧ Owed s) start ?_ reach
    intro s m s' holds careful step
    rcases holds with ⟨timed, owed⟩
    exact ⟨timed.next step, owed.next timed careful step⟩
  exact owed.2.served request asked frame sent first.1 first.2.1

/-- A picture from the camera in the shape that the codec wants. -/
def picture : AVFrame := ⟨.yuv420p, false, 2, 2, 2, .none⟩

/-- The frame that took the request is rejected, and the next one is accepted. -/
def rejectedOnce : List Move :=
  [.requestKeyframe, .encodeFrame picture false, .setPictType, .sendFrame false,
    .encodeFrame picture false, .setPictType, .sendFrame true]

/-- Every frame is accepted. -/
def acceptedAtOnce : List Move :=
  [.requestKeyframe, .encodeFrame picture false, .setPictType, .sendFrame true]

/-- The `SoftwareEncoder` forgets a request whose frame is rejected, and the `NVENCEncoder` every
request. -/
theorem requests_lost :
    ¬ NoneLostWhen (fun _ _ => True) (createEncoder .software false) ∧
      ¬ NoneLostWhen (fun _ _ => True) (createEncoder .software true) := by
  constructor
  · intro served
    have run : machine.run (fun _ _ => true) rejectedOnce (initialized .software 2 2) =
        some ⟨.software, ⟨2, 2, .yuv420p⟩, false, .none, 7, [0],
          [⟨4, 5, 6, true, .none⟩, ⟨1, 2, 3, false, .i⟩]⟩ := by decide
    have lost := served 2 2 _ (Machine.reach_of_moves rejectedOnce run) 0 (by simp)
      ⟨4, 5, 6, true, .none⟩ (by simp) ⟨rfl, by decide, by simp⟩
    simp [Answered.Serves] at lost
  · intro served
    have run : machine.run (fun _ _ => true) acceptedAtOnce (initialized .nvenc 2 2) =
        some ⟨.nvenc, ⟨2, 2, .yuv420p⟩, false, .none, 4, [0], [⟨1, 2, 3, true, .none⟩]⟩ := by
      decide
    have lost := served 2 2 _ (Machine.reach_of_moves acceptedAtOnce run) 0 (by simp)
      ⟨1, 2, 3, true, .none⟩ (by simp) ⟨rfl, by decide, by simp⟩
    simp [Answered.Serves] at lost

end KeyframeRequests

end DirectLink
