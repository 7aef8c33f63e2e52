import DirectLink.Lib.Rounding
import Mathlib.Algebra.Order.Field.Rat
import Mathlib.Tactic.FieldSimp
import Mathlib.Tactic.NormNum
import Mathlib.Tactic.Ring

/-!
# Presentation times

The PTS of a picture on its way from the camera to the WHIP server: `CameraCapture::captureLoop`,
`SoftwareEncoder::encodeFrame`, `Encoder::rescaleToNs` and `WHIPPublisher::pushPacket`.  The
functions `av_rescale_q` and, together, `avcodec_send_frame` and `avcodec_receive_packet` are
parameters.
-/

namespace DirectLink

namespace Timestamps

structure AVRational : Type where
  num : Int
  den : Int

/-- `INT64_MAX`. -/
def int64Max : Int := 2 ^ 63 - 1

/-- `AV_NOPTS_VALUE`, which is `INT64_MIN`. -/
def avNoptsValue : Int := -2 ^ 63

/-- `GstClockTime`. -/
abbrev ClockTime : Type := BitVec 64

/-- `GST_CLOCK_TIME_NONE`. -/
def clockTimeNone : ClockTime := BitVec.allOnes 64

/-- `GST_SECOND`. -/
def gstSecond : ClockTime := 1000000000

/-- The PTS that `CameraCapture::captureLoop` gives to a frame. -/
def captureLoop (bufPts : ClockTime) : Int :=
  if bufPts ≠ clockTimeNone then bufPts.toInt else 0

section

variable (rescale : Int → AVRational → AVRational → Int)

/-- `Encoder::rescaleToNs`. -/
def rescaleToNs (value : Int) (srcTb : AVRational) : Int :=
  if value = avNoptsValue then 0 else rescale value srcTb ⟨1, 1000000000⟩

/-- The PTS of the packets that `SoftwareEncoder::encodeFrame` hands to its callback.  The codec
refuses a frame or is asked for packets until it has none. -/
def encodeFrame (codec : Int → Option (List Int)) (framerate framePts : Int) : List Int :=
  let timeBase : AVRational := ⟨1, framerate⟩
  match codec (rescale framePts ⟨1, 1000000000⟩ timeBase) with
  | none => []
  | some received => received.map fun pts => rescaleToNs rescale pts timeBase

end

/-- The times of a `GstBuffer`. -/
structure Buffer : Type where
  pts : ClockTime
  duration : ClockTime

structure WHIPPublisher : Type where
  running : Bool
  /-- `appsrc_` is there. -/
  appsrc : Bool
  frameCount : BitVec 64
  framerate : Int
  streamStartPts : Int

namespace WHIPPublisher

/-- The first packet sets the origin of the stream. -/
def anchored (s : WHIPPublisher) (pts : Int) : WHIPPublisher :=
  if s.streamStartPts < 0 then { s with streamStartPts := pts } else s

/-- `packet->pts - streamStartPts_`. -/
def relativePts (s : WHIPPublisher) (pts : Int) : Int :=
  pts - (s.anchored pts).streamStartPts

/-- `pushPacket`, with the buffer that is handed to the pipeline. -/
def pushPacket (s : WHIPPublisher) (pts : Int) : WHIPPublisher × Option Buffer :=
  if ¬ s.running then (s, none)
  else
    let relativePts : ClockTime := BitVec.ofInt 64 (s.relativePts pts)
    let s := s.anchored pts
    let s := if s.framerate = 0 then { s with framerate := 30 } else s
    let duration := gstSecond / BitVec.ofInt 64 s.framerate
    let s := { s with frameCount := s.frameCount + 1 }
    (s, if s.appsrc then some ⟨relativePts, duration⟩ else none)

/-- The publisher after a sequence of packets. -/
def after (s : WHIPPublisher) (packets : List Int) : WHIPPublisher :=
  packets.foldl (fun s pts => (s.pushPacket pts).1) s

/-- The buffers that a sequence of packets leads to. -/
def buffers (s : WHIPPublisher) : List Int → List Buffer
  | [] => []
  | pts :: packets => (s.pushPacket pts).2.toList ++ buffers (s.pushPacket pts).1 packets

variable {s : WHIPPublisher} {pts : Int} {packets : List Int}

@[simp] theorem running_pushPacket : (s.pushPacket pts).1.running = s.running := by
  unfold pushPacket anchored
  split
  · rfl
  · dsimp only
    split <;> split <;> rfl

@[simp] theorem appsrc_pushPacket (s : WHIPPublisher) (pts : Int) :
    (s.pushPacket pts).1.appsrc = s.appsrc := by
  unfold pushPacket anchored
  split
  · rfl
  · dsimp only
    split <;> split <;> rfl

theorem streamStartPts_pushPacket (pts : Int) (running : s.running = true) :
    (s.pushPacket pts).1.streamStartPts = (s.anchored pts).streamStartPts := by
  unfold pushPacket
  rw [if_neg (by simp [running])]
  dsimp only
  split <;> rfl

theorem buffer_pushPacket (pts : Int) (running : s.running = true) (appsrc : s.appsrc = true) :
    ∃ buffer, (s.pushPacket pts).2 = some buffer ∧
      buffer.pts = BitVec.ofInt 64 (s.relativePts pts) := by
  have kept := appsrc_pushPacket s pts
  unfold pushPacket at kept ⊢
  rw [if_neg (by simp [running])] at kept ⊢
  dsimp only at kept ⊢
  rw [kept, appsrc]
  exact ⟨_, rfl, rfl⟩

@[simp] theorem anchored_of_set (set : 0 ≤ s.streamStartPts) : s.anchored pts = s :=
  if_neg (by omega)

theorem streamStartPts_anchored_of_unset (unset : s.streamStartPts < 0) :
    (s.anchored pts).streamStartPts = pts := by
  rw [anchored, if_pos unset]

/-- Once the origin is set it stays. -/
theorem buffers_of_set (packets : List Int) (running : s.running = true) (appsrc : s.appsrc = true)
    (set : 0 ≤ s.streamStartPts) :
    (s.buffers packets).map Buffer.pts =
      packets.map fun pts => BitVec.ofInt 64 (pts - s.streamStartPts) := by
  induction packets generalizing s with
  | nil => rfl
  | cons pts packets ih =>
    obtain ⟨buffer, pushed, time⟩ := buffer_pushPacket pts running appsrc
    have origin := streamStartPts_pushPacket pts running
    rw [anchored_of_set set] at origin
    rw [relativePts, anchored_of_set set] at time
    have rest := ih (s := (s.pushPacket pts).1) (by simp [running]) (by simp [appsrc])
      (by rw [origin]; exact set)
    rw [buffers, pushed, Option.toList_some, List.singleton_append, List.map_cons, rest, time,
      origin, List.map_cons]

/-- The first packet is the origin, when its PTS is not negative. -/
theorem buffers_of_unset (packets : List Int) (running : s.running = true)
    (appsrc : s.appsrc = true) (unset : s.streamStartPts < 0) (nonneg : 0 ≤ pts) :
    (s.buffers (pts :: packets)).map Buffer.pts =
      (pts :: packets).map fun other => BitVec.ofInt 64 (other - pts) := by
  obtain ⟨buffer, pushed, time⟩ := buffer_pushPacket pts running appsrc
  have origin := streamStartPts_pushPacket pts running
  rw [streamStartPts_anchored_of_unset unset] at origin
  rw [relativePts, streamStartPts_anchored_of_unset unset] at time
  have rest := buffers_of_set (s := (s.pushPacket pts).1) packets
    (by simp [running]) (by simp [appsrc]) (by rw [origin]; exact nonneg)
  rw [buffers, pushed, Option.toList_some, List.singleton_append, List.map_cons, rest, time,
    origin, List.map_cons]

end WHIPPublisher

/-! ### Rounding through the time base of the encoder -/

/-- `av_rescale_q` rounds to the nearest, halves away from zero, where the result is in range. -/
def RescalesNearest (rescale : Int → AVRational → AVRational → Int) : Prop :=
  ∀ (value : Int) (src dst : AVRational), 0 < src.num → 0 < src.den → 0 < dst.num → 0 < dst.den →
    |nearest (value * (src.num * dst.den)) (src.den * dst.num)| ≤ int64Max →
      rescale value src dst = nearest (value * (src.num * dst.den)) (src.den * dst.num)

/-- The codec returns each frame's timestamp unchanged on its packet. -/
def unchanged : Int → Option (List Int) :=
  fun pts => some [pts]

/-- A time in nanoseconds, rounded to the time base of the encoder. -/
def ticks (framerate time : Int) : Int :=
  nearest (time * framerate) 1000000000

/-- The same, back in nanoseconds. -/
def roundTrip (framerate time : Int) : Int :=
  nearest (ticks framerate time * 1000000000) framerate

/-- No rescaled value exceeds int64. -/
def Fits (framerate time : Int) : Prop :=
  ticks framerate time ≤ int64Max ∧ roundTrip framerate time ≤ int64Max

instance (framerate time : Int) : Decidable (Fits framerate time) :=
  inferInstanceAs (Decidable (_ ∧ _))

section

variable {rescale : Int → AVRational → AVRational → Int} {framerate time later : Int}

theorem ticks_nonneg (positive : 1 ≤ framerate) (nonneg : 0 ≤ time) : 0 ≤ ticks framerate time :=
  nearest_nonneg (by norm_num) (mul_nonneg nonneg (by omega))

theorem roundTrip_nonneg (positive : 1 ≤ framerate) (nonneg : 0 ≤ time) :
    0 ≤ roundTrip framerate time :=
  nearest_nonneg (by omega) (mul_nonneg (ticks_nonneg positive nonneg) (by norm_num))

theorem roundTrip_mono (positive : 1 ≤ framerate) (nonneg : 0 ≤ time) (le : time ≤ later) :
    roundTrip framerate time ≤ roundTrip framerate later := by
  have scaled : time * framerate ≤ later * framerate := mul_le_mul_of_nonneg_right le (by omega)
  have tick : ticks framerate time ≤ ticks framerate later :=
    nearest_mono (by norm_num) (mul_nonneg nonneg (by omega)) scaled
  have nonneg' := ticks_nonneg positive nonneg
  exact nearest_mono (by omega) (mul_nonneg nonneg' (by norm_num))
    (mul_le_mul_of_nonneg_right tick (by norm_num))

/-- The two roundings move a time by at most half a frame period and half a nanosecond. -/
theorem abs_roundTrip_sub_le (positive : 1 ≤ framerate) (nonneg : 0 ≤ time) :
    2 * |framerate * (roundTrip framerate time - time)| ≤ 1000000000 + framerate := by
  have first := abs_nearest_sub_le (n := time * framerate) (d := 1000000000) (by norm_num)
    (mul_nonneg nonneg (by omega))
  have second := abs_nearest_sub_le (n := ticks framerate time * 1000000000) (d := framerate)
    (by omega) (mul_nonneg (ticks_nonneg positive nonneg) (by norm_num))
  have split : framerate * (roundTrip framerate time - time) =
      (framerate * roundTrip framerate time - ticks framerate time * 1000000000) +
        (1000000000 * ticks framerate time - time * framerate) := by ring
  have triangle := abs_add_le
    (framerate * roundTrip framerate time - ticks framerate time * 1000000000)
    (1000000000 * ticks framerate time - time * framerate)
  rw [← split] at triangle
  change 2 * |1000000000 * ticks framerate time - time * framerate| ≤ _ at first
  change 2 * |framerate * roundTrip framerate time - ticks framerate time * 1000000000| ≤ _
    at second
  linarith

theorem rescale_toTimeBase (rounds : RescalesNearest rescale) (positive : 1 ≤ framerate)
    (nonneg : 0 ≤ time) (small : ticks framerate time ≤ int64Max) :
    rescale time ⟨1, 1000000000⟩ ⟨1, framerate⟩ = ticks framerate time := by
  have rounded := rounds time ⟨1, 1000000000⟩ ⟨1, framerate⟩ (by norm_num) (by norm_num)
    (by norm_num) (by show 0 < framerate; omega)
  simp only [one_mul, mul_one] at rounded
  refine rounded ?_
  change |ticks framerate time| ≤ int64Max
  rw [abs_of_nonneg (ticks_nonneg positive nonneg)]
  exact small

theorem rescale_toNs (rounds : RescalesNearest rescale) (positive : 1 ≤ framerate)
    (nonneg : 0 ≤ time) (small : roundTrip framerate time ≤ int64Max) :
    rescale (ticks framerate time) ⟨1, framerate⟩ ⟨1, 1000000000⟩ = roundTrip framerate time := by
  have rounded := rounds (ticks framerate time) ⟨1, framerate⟩ ⟨1, 1000000000⟩ (by norm_num)
    (by show 0 < framerate; omega) (by norm_num) (by norm_num)
  simp only [one_mul, mul_one] at rounded
  refine rounded ?_
  change |roundTrip framerate time| ≤ int64Max
  rw [abs_of_nonneg (roundTrip_nonneg positive nonneg)]
  exact small

/-- What becomes of the time of a frame when no value is out of range. -/
theorem encodeFrame_unchanged (rounds : RescalesNearest rescale) (positive : 1 ≤ framerate)
    (nonneg : 0 ≤ time) (fits : Fits framerate time) :
    encodeFrame rescale unchanged framerate time = [roundTrip framerate time] := by
  have present : ticks framerate time ≠ avNoptsValue := by
    have := ticks_nonneg positive nonneg
    simp only [avNoptsValue]
    omega
  simp only [encodeFrame, unchanged, rescale_toTimeBase rounds positive nonneg fits.1,
    List.map_cons, List.map_nil, rescaleToNs, if_neg present,
    rescale_toNs rounds positive nonneg fits.2]

end

/-! ### Valid times -/

section

variable {rescale : Int → AVRational → AVRational → Int} {framerate : Int}
  {times : List ClockTime}

/-- The times of the packets of frames that have the given capture times. -/
def packets (rescale : Int → AVRational → AVRational → Int) (framerate : Int)
    (times : List ClockTime) : List Int :=
  times.flatMap fun time => encodeFrame rescale unchanged framerate (captureLoop time)

/-- Valid capture times, none negative as an `int64_t`. -/
def Valid (time : ClockTime) : Prop :=
  time ≠ clockTimeNone ∧ 0 ≤ time.toInt

instance (time : ClockTime) : Decidable (Valid time) :=
  inferInstanceAs (Decidable (_ ∧ _))

theorem packets_valid (rounds : RescalesNearest rescale) (positive : 1 ≤ framerate)
    (valid : ∀ time ∈ times, Valid time) (fits : ∀ time ∈ times, Fits framerate time.toInt) :
    packets rescale framerate times = times.map fun time => roundTrip framerate time.toInt := by
  induction times with
  | nil => rfl
  | cons time times ih =>
    obtain ⟨⟨present, nonneg⟩, valid⟩ := List.forall_mem_cons.mp valid
    obtain ⟨fit, fits⟩ := List.forall_mem_cons.mp fits
    have packet : encodeFrame rescale unchanged framerate (captureLoop time) =
        [roundTrip framerate time.toInt] := by
      rw [captureLoop, if_pos present]
      exact encodeFrame_unchanged rounds positive nonneg fit
    have rest := ih valid fits
    rw [packets] at rest ⊢
    rw [List.flatMap_cons, packet, rest, List.singleton_append, List.map_cons]

/-- A difference of times that are in range keeps its value as a `GstClockTime`. -/
theorem toNat_ofInt_sub {time origin : Int} (nonneg : 0 ≤ origin) (le : origin ≤ time)
    (small : time ≤ int64Max) :
    ((BitVec.ofInt 64 (time - origin)).toNat : Int) = time - origin := by
  rw [BitVec.toNat_ofInt]
  simp only [int64Max] at small
  omega

/-- Two times are moved by one frame period and a nanosecond against each other. -/
theorem abs_roundTrip_sub_sub_le {time origin : Int} (positive : 1 ≤ framerate)
    (nonneg : 0 ≤ time) (nonneg' : 0 ≤ origin) :
    |((roundTrip framerate time - roundTrip framerate origin : Int) : ℚ) - (time - origin : Int)| ≤
      1000000000 / framerate + 1 := by
  have first := abs_roundTrip_sub_le positive nonneg
  have second := abs_roundTrip_sub_le positive nonneg'
  have triangle := abs_sub (framerate * (roundTrip framerate time - time))
    (framerate * (roundTrip framerate origin - origin))
  have split : framerate * (roundTrip framerate time - time) -
      framerate * (roundTrip framerate origin - origin) =
        framerate * (roundTrip framerate time - roundTrip framerate origin - (time - origin)) := by
    ring
  rw [split, abs_mul, abs_of_pos (show 0 < framerate by omega)] at triangle
  have scaled : framerate *
      |roundTrip framerate time - roundTrip framerate origin - (time - origin)| ≤
        1000000000 + framerate := by linarith
  have positive' : (0 : ℚ) < framerate := by exact_mod_cast (show 0 < framerate by omega)
  have cast : (framerate : ℚ) *
      |((roundTrip framerate time - roundTrip framerate origin : Int) : ℚ) -
        (time - origin : Int)| ≤ 1000000000 + framerate := by exact_mod_cast scaled
  rw [div_add_one positive'.ne', le_div_iff₀ positive']
  linarith

/-- The times of the buffers, as numbers: the rounded capture times from the first one on. -/
theorem pts_buffers_valid {origin : ClockTime} (rounds : RescalesNearest rescale)
    (positive : 1 ≤ framerate) (valid : ∀ time ∈ origin :: times, Valid time)
    (fits : ∀ time ∈ origin :: times, Fits framerate time.toInt)
    (sorted : (origin :: times).Pairwise fun earlier later => earlier.toInt ≤ later.toInt)
    {s : WHIPPublisher} (running : s.running = true) (appsrc : s.appsrc = true)
    (unset : s.streamStartPts < 0) :
    (s.buffers (packets rescale framerate (origin :: times))).map
        (fun buffer => (buffer.pts.toNat : Int)) =
      (origin :: times).map fun time =>
        roundTrip framerate time.toInt - roundTrip framerate origin.toInt := by
  have nonneg := roundTrip_nonneg positive (valid origin List.mem_cons_self).2
  have pts := WHIPPublisher.buffers_of_unset
    (times.map fun time => roundTrip framerate time.toInt) running appsrc unset nonneg
  rw [packets_valid rounds positive valid fits, List.map_cons]
  have numbers := congrArg (List.map fun pts : ClockTime => (pts.toNat : Int)) pts
  rw [List.map_map] at numbers
  refine numbers.trans ?_
  rw [← List.map_cons (f := fun time : ClockTime => roundTrip framerate time.toInt), List.map_map,
    List.map_map]
  refine List.map_congr_left fun time member => ?_
  have le : origin.toInt ≤ time.toInt := by
    rcases List.mem_cons.mp member with same | later
    · rw [same]
    · exact (List.pairwise_cons.mp sorted).1 time later
  exact toNat_ofInt_sub nonneg (roundTrip_mono positive (valid origin List.mem_cons_self).2 le)
    (fits time member).2

/-- **Presentation times survive the path from the camera to the WHIP server**: they start at 0, do
not decrease, and are off by at most one frame period and a nanosecond. -/
theorem presentation_times_survive (rounds : RescalesNearest rescale) (positive : 1 ≤ framerate)
    (valid : ∀ time ∈ times, Valid time) (fits : ∀ time ∈ times, Fits framerate time.toInt)
    (sorted : times.Pairwise fun earlier later => earlier.toInt ≤ later.toInt)
    (s : WHIPPublisher) (running : s.running = true) (appsrc : s.appsrc = true)
    (fresh : s.streamStartPts = -1) :
    let pushed := (s.buffers (packets rescale framerate times)).map fun buffer =>
      (buffer.pts.toNat : Int)
    (∀ first ∈ pushed.head?, first = 0) ∧
      pushed.Pairwise (· ≤ ·) ∧
      pushed.length = times.length ∧
      ∀ i (inside : i < times.length), ∃ pts, pushed[i]? = some pts ∧
        |(pts : ℚ) - (times[i].toInt - times[0].toInt : Int)| ≤ 1000000000 / framerate + 1 := by
  cases times with
  | nil => exact ⟨nofun, .nil, rfl, nofun⟩
  | cons origin times =>
    have pts := pts_buffers_valid rounds positive valid fits sorted running appsrc
      (show s.streamStartPts < 0 by omega)
    dsimp only
    rw [pts]
    refine ⟨?_, ?_, List.length_map .., ?_⟩
    · intro first head
      rw [List.map_cons, List.head?_cons, Option.mem_some] at head
      rw [← head, sub_self]
    · refine List.pairwise_map.mpr (sorted.imp_of_mem ?_)
      intro earlier later member _ le
      have mono := roundTrip_mono positive (valid earlier member).2 le
      omega
    · intro i inside
      refine ⟨_, by rw [List.getElem?_map, List.getElem?_eq_getElem inside, Option.map_some], ?_⟩
      exact abs_roundTrip_sub_sub_le positive (valid _ (List.getElem_mem inside)).2
        (valid origin List.mem_cons_self).2

end

/-- `av_rescale_q`, with `INT64_MIN` for a result that is out of range. -/
def avRescaleQ (value : Int) (src dst : AVRational) : Int :=
  let rescaled := nearest (value * (src.num * dst.den)) (src.den * dst.num)
  if |rescaled| ≤ int64Max then rescaled else avNoptsValue

theorem avRescaleQ_nearest : RescalesNearest avRescaleQ := by
  intro value src dst _ _ _ _ small
  exact if_pos small

/-- A publisher that runs at 30 frames per second and has sent nothing. -/
def idlePublisher : WHIPPublisher :=
  ⟨true, true, 0, 30, -1⟩

/-- Two frames that are 33 ms apart. -/
def twoFrames : List ClockTime :=
  [1000000000, 1033000000]

theorem presentation_times_survive_sample :
    ∃ pts : Int, ((idlePublisher.buffers (packets avRescaleQ 30 twoFrames)).map fun buffer =>
        (buffer.pts.toNat : Int))[1]? = some pts ∧
      |(pts : ℚ) - (twoFrames[1].toInt - twoFrames[0].toInt : Int)| ≤
        1000000000 / (30 : Int) + 1 := by
  have valid : ∀ time ∈ twoFrames, Valid time :=
    List.forall_mem_cons.mpr ⟨by decide +kernel, List.forall_mem_singleton.mpr (by decide +kernel)⟩
  have fits : ∀ time ∈ twoFrames, Fits 30 time.toInt :=
    List.forall_mem_cons.mpr ⟨by decide +kernel, List.forall_mem_singleton.mpr (by decide +kernel)⟩
  have all := presentation_times_survive avRescaleQ_nearest (by decide) valid fits
    (by decide +kernel) idlePublisher rfl rfl rfl
  obtain ⟨-, -, -, each⟩ := all
  exact each 1 (by decide)

/-! ### Missing times -/

/-- A sample pulled from the camera: the PTS of its buffer, and whether the codec returns the
timestamp of its frame or `AV_NOPTS_VALUE`. -/
structure Sample : Type where
  pts : ClockTime
  returned : Bool

/-- Out of range, `av_rescale_q` gives `INT64_MIN`. -/
def RescaleOverflows (rescale : Int → AVRational → AVRational → Int) : Prop :=
  ∀ (value : Int) (src dst : AVRational), 0 < src.num → 0 < src.den → 0 < dst.num → 0 < dst.den →
    int64Max < nearest (value * (src.num * dst.den)) (src.den * dst.num) →
      rescale value src dst = avNoptsValue

namespace Sample

variable (framerate : Int) (x : Sample)

def codec : Int → Option (List Int) :=
  if x.returned then unchanged else fun _ => some [avNoptsValue]

/-- The packet has no timestamp, or that of a frame which had none. -/
def FallsBack : Prop :=
  x.pts = clockTimeNone ∨ x.returned = false ∨ int64Max < ticks framerate x.pts.toInt

/-- The time of the packet is out of range. -/
def Exceeds : Prop :=
  ¬ x.FallsBack framerate ∧ int64Max < roundTrip framerate x.pts.toInt

/-- The time is nearest to the beginning of the clock, in the time base of the encoder. -/
def AtZero : Prop :=
  2 * (x.pts.toInt * framerate) < if framerate ≤ 2000000000 then 1000000000 else 3000000000

instance : Decidable (x.FallsBack framerate) :=
  inferInstanceAs (Decidable (_ ∨ _ ∨ _))

instance : Decidable (x.Exceeds framerate) :=
  inferInstanceAs (Decidable (_ ∧ _))

instance : Decidable (x.AtZero framerate) :=
  inferInstanceAs (Decidable (_ < _))

end Sample

/-- The times of the packets of a sequence of samples. -/
def samplePackets (rescale : Int → AVRational → AVRational → Int) (framerate : Int)
    (samples : List Sample) : List Int :=
  samples.flatMap fun x => encodeFrame rescale x.codec framerate (captureLoop x.pts)

/-- No subtraction of a publishing session is negative, and no result is `2 ^ 63` or more as a
`GstClockTime`. -/
def NeverWraps (s : WHIPPublisher) (packets : List Int) : Prop :=
  ∀ earlier pts later, packets = earlier ++ pts :: later →
    0 ≤ (s.after earlier).relativePts pts ∧
      (BitVec.ofInt 64 ((s.after earlier).relativePts pts)).toNat < 2 ^ 63

/-- The first sample in range falls back or is at zero, or no later one falls back; and no later one
is out of range. -/
def KeepsTime (framerate : Int) : List Sample → Prop
  | [] => True
  | first :: later =>
    if first.Exceeds framerate then KeepsTime framerate later
    else
      (∀ x ∈ later, ¬ x.Exceeds framerate) ∧
        (first.FallsBack framerate ∨ first.AtZero framerate ∨
          ∀ x ∈ later, ¬ x.FallsBack framerate)

namespace WHIPPublisher

variable {s : WHIPPublisher} {pts : Int} {packets : List Int}

theorem neverWraps_nil : NeverWraps s [] := by
  intro earlier pts later split
  simp at split

theorem neverWraps_cons : NeverWraps s (pts :: packets) ↔
    (0 ≤ s.relativePts pts ∧ (BitVec.ofInt 64 (s.relativePts pts)).toNat < 2 ^ 63) ∧
      NeverWraps (s.pushPacket pts).1 packets := by
  constructor
  · intro never
    refine ⟨never [] pts packets rfl, fun earlier other later split => ?_⟩
    exact never (pts :: earlier) other later (by rw [split, List.cons_append])
  · intro never earlier other later split
    obtain ⟨now, rest⟩ := never
    cases earlier with
    | nil =>
      rw [List.nil_append, List.cons.injEq] at split
      rw [← split.1]
      exact now
    | cons first earlier =>
      rw [List.cons_append, List.cons.injEq] at split
      rw [← split.1]
      exact rest earlier other later split.2

/-- Once the origin is set, no later packet may be before it. -/
theorem neverWraps_of_set (running : s.running = true) (set : 0 ≤ s.streamStartPts)
    (small : ∀ pts ∈ packets, pts ≤ int64Max) :
    NeverWraps s packets ↔ ∀ pts ∈ packets, s.streamStartPts ≤ pts := by
  induction packets generalizing s with
  | nil => exact iff_of_true neverWraps_nil (by simp)
  | cons pts packets ih =>
    obtain ⟨fits, small⟩ := List.forall_mem_cons.mp small
    have origin := streamStartPts_pushPacket pts running
    rw [anchored_of_set set] at origin
    have rest := ih (s := (s.pushPacket pts).1) (by simp [running]) (by rw [origin]; exact set)
      small
    rw [neverWraps_cons, rest, origin, List.forall_mem_cons]
    refine and_congr_left fun _ => ?_
    rw [relativePts, anchored_of_set set, sub_nonneg]
    refine and_iff_left_of_imp fun le => ?_
    have value := toNat_ofInt_sub set le fits
    simp only [int64Max] at fits
    omega

/-- The first packet is taken as it is. -/
theorem neverWraps_of_unset (unset : s.streamStartPts < 0) :
    NeverWraps s (pts :: packets) ↔ NeverWraps (s.pushPacket pts).1 packets := by
  rw [neverWraps_cons, relativePts, streamStartPts_anchored_of_unset unset, sub_self]
  simp

end WHIPPublisher

namespace Sample

variable {rescale : Int → AVRational → AVRational → Int} {framerate : Int} {x first : Sample}

/-- The time of the packet. -/
def packetPts (framerate : Int) (x : Sample) : Int :=
  if x.FallsBack framerate then 0
  else if int64Max < roundTrip framerate x.pts.toInt then avNoptsValue
  else roundTrip framerate x.pts.toInt

theorem encodeFrame_codec (rounds : RescalesNearest rescale) (overflows : RescaleOverflows rescale)
    (positive : 1 ≤ framerate) (nonneg : x.pts ≠ clockTimeNone → 0 ≤ x.pts.toInt) :
    encodeFrame rescale x.codec framerate (captureLoop x.pts) = [x.packetPts framerate] := by
  by_cases returned : x.returned = true
  case neg =>
    have falls : x.FallsBack framerate := .inr (.inl (by simpa using returned))
    simp [encodeFrame, codec, returned, rescaleToNs, packetPts, falls]
  have codec : x.codec = unchanged := if_pos returned
  rw [codec]
  by_cases present : x.pts = clockTimeNone
  case pos =>
    have zero : encodeFrame rescale unchanged framerate 0 = [roundTrip framerate 0] :=
      encodeFrame_unchanged rounds positive le_rfl (by simp [Fits, roundTrip, ticks, int64Max])
    rw [captureLoop, if_neg (by simp [present]), zero, packetPts, if_pos (.inl present)]
    simp [roundTrip, ticks]
  have nonneg := nonneg present
  rw [captureLoop, if_pos present]
  by_cases tooLarge : int64Max < ticks framerate x.pts.toInt
  · have overflow := overflows x.pts.toInt ⟨1, 1000000000⟩ ⟨1, framerate⟩ (by norm_num)
      (by norm_num) (by norm_num) (by show 0 < framerate; omega)
    simp only [one_mul, mul_one] at overflow
    rw [packetPts, if_pos (.inr (.inr tooLarge))]
    simp [encodeFrame, unchanged, overflow tooLarge, rescaleToNs]
  have falls : ¬ x.FallsBack framerate := by
    intro either
    rcases either with missing | missing | missing
    · exact present missing
    · rw [returned] at missing
      cases missing
    · exact tooLarge missing
  by_cases exceeds : int64Max < roundTrip framerate x.pts.toInt
  · have overflow := overflows (ticks framerate x.pts.toInt) ⟨1, framerate⟩ ⟨1, 1000000000⟩
      (by norm_num) (by show 0 < framerate; omega) (by norm_num) (by norm_num)
    simp only [one_mul, mul_one] at overflow
    have some : ticks framerate x.pts.toInt ≠ avNoptsValue := by
      have := ticks_nonneg positive nonneg
      simp only [avNoptsValue]
      omega
    rw [packetPts, if_neg falls, if_pos exceeds]
    simp only [encodeFrame, unchanged, rescale_toTimeBase rounds positive nonneg
      (by omega : ticks framerate x.pts.toInt ≤ int64Max), List.map_cons, List.map_nil, rescaleToNs,
      if_neg some, overflow exceeds]
  · rw [packetPts, if_neg falls, if_neg exceeds]
    exact encodeFrame_unchanged rounds positive nonneg ⟨by omega, by omega⟩

theorem packetPts_le : x.packetPts framerate ≤ int64Max := by
  unfold packetPts avNoptsValue int64Max
  split
  · decide
  · split <;> omega

theorem packetPts_of_exceeds (exceeds : x.Exceeds framerate) :
    x.packetPts framerate = avNoptsValue := by
  rw [packetPts, if_neg exceeds.1, if_pos exceeds.2]

theorem packetPts_of_fallsBack (falls : x.FallsBack framerate) : x.packetPts framerate = 0 :=
  if_pos falls

theorem packetPts_of_inRange (stays : ¬ x.FallsBack framerate) (inRange : ¬ x.Exceeds framerate) :
    x.packetPts framerate = roundTrip framerate x.pts.toInt := by
  rw [packetPts, if_neg stays, if_neg fun exceeds => inRange ⟨stays, exceeds⟩]

theorem roundTrip_eq_zero_iff (positive : 1 ≤ framerate) (int : framerate < 2 ^ 31)
    (nonneg : 0 ≤ x.pts.toInt) : roundTrip framerate x.pts.toInt = 0 ↔ x.AtZero framerate := by
  have scaled : 0 ≤ x.pts.toInt * framerate := mul_nonneg nonneg (by omega)
  rw [roundTrip, nearest_eq_zero_iff (by omega)
    (mul_nonneg (ticks_nonneg positive nonneg) (by norm_num)), ticks,
    nearest_of_nonneg (by norm_num) scaled, AtZero]
  generalize x.pts.toInt * framerate = time at scaled ⊢
  split <;> omega

theorem present_of_stays (stays : ¬ x.FallsBack framerate) : x.pts ≠ clockTimeNone :=
  fun missing => stays (.inl missing)

/-- A packet whose time is in range is not before the beginning of the clock. -/
theorem packetPts_nonneg (positive : 1 ≤ framerate)
    (nonneg : x.pts ≠ clockTimeNone → 0 ≤ x.pts.toInt) (inRange : ¬ x.Exceeds framerate) :
    0 ≤ x.packetPts framerate := by
  by_cases falls : x.FallsBack framerate
  · rw [packetPts_of_fallsBack falls]
  · rw [packetPts_of_inRange falls inRange]
    exact roundTrip_nonneg positive (nonneg (present_of_stays falls))

/-- When a packet is not before the packet of an earlier sample. -/
theorem packetPts_le_iff (positive : 1 ≤ framerate) (int : framerate < 2 ^ 31)
    (nonneg : first.pts ≠ clockTimeNone → 0 ≤ first.pts.toInt)
    (nonneg' : x.pts ≠ clockTimeNone → 0 ≤ x.pts.toInt)
    (le : first.pts ≠ clockTimeNone → x.pts ≠ clockTimeNone → first.pts.toInt ≤ x.pts.toInt)
    (inRange : ¬ first.Exceeds framerate) :
    first.packetPts framerate ≤ x.packetPts framerate ↔ ¬ x.Exceeds framerate ∧
      (first.FallsBack framerate ∨ first.AtZero framerate ∨ ¬ x.FallsBack framerate) := by
  have origin := packetPts_nonneg positive nonneg inRange
  by_cases exceeds : x.Exceeds framerate
  case pos =>
    rw [packetPts_of_exceeds exceeds]
    refine iff_of_false ?_ (fun kept => kept.1 exceeds)
    simp only [avNoptsValue]
    omega
  by_cases firstFalls : first.FallsBack framerate
  case pos =>
    rw [packetPts_of_fallsBack firstFalls]
    exact iff_of_true (packetPts_nonneg positive nonneg' exceeds) ⟨exceeds, .inl firstFalls⟩
  have present := present_of_stays firstFalls
  rw [packetPts_of_inRange firstFalls inRange] at origin ⊢
  by_cases falls : x.FallsBack framerate
  · rw [packetPts_of_fallsBack falls, ← roundTrip_eq_zero_iff positive int (nonneg present)]
    simp only [exceeds, firstFalls, falls, not_false_eq_true, true_and, false_or, not_true_eq_false,
      or_false]
    omega
  · have present' := present_of_stays falls
    rw [packetPts_of_inRange falls exceeds]
    refine iff_of_true ?_ ⟨exceeds, .inr (.inr falls)⟩
    exact roundTrip_mono positive (nonneg present) (le present present')

end Sample

section

variable {rescale : Int → AVRational → AVRational → Int} {framerate : Int}
  {samples : List Sample}

/-- Valid times are not negative as `int64_t`. -/
def NonNegative (samples : List Sample) : Prop :=
  ∀ x ∈ samples, x.pts ≠ clockTimeNone → 0 ≤ x.pts.toInt

/-- Valid times do not decrease. -/
def NonDecreasing (samples : List Sample) : Prop :=
  samples.Pairwise fun earlier later =>
    earlier.pts ≠ clockTimeNone → later.pts ≠ clockTimeNone → earlier.pts.toInt ≤ later.pts.toInt

theorem samplePackets_eq (rounds : RescalesNearest rescale) (overflows : RescaleOverflows rescale)
    (positive : 1 ≤ framerate) (nonneg : NonNegative samples) :
    samplePackets rescale framerate samples = samples.map (Sample.packetPts framerate) := by
  induction samples with
  | nil => rfl
  | cons x samples ih =>
    obtain ⟨now, nonneg⟩ := List.forall_mem_cons.mp nonneg
    have rest := ih nonneg
    rw [samplePackets] at rest ⊢
    rw [List.flatMap_cons, Sample.encodeFrame_codec rounds overflows positive now, rest,
      List.singleton_append, List.map_cons]

theorem neverWraps_packetPts_iff (positive : 1 ≤ framerate) (int : framerate < 2 ^ 31)
    (nonneg : NonNegative samples) (sorted : NonDecreasing samples) {s : WHIPPublisher}
    (running : s.running = true) (unset : s.streamStartPts < 0) :
    NeverWraps s (samples.map (Sample.packetPts framerate)) ↔ KeepsTime framerate samples := by
  induction samples generalizing s with
  | nil => exact iff_of_true WHIPPublisher.neverWraps_nil trivial
  | cons first later ih =>
    obtain ⟨now, nonneg⟩ := List.forall_mem_cons.mp nonneg
    obtain ⟨before, sorted⟩ := List.pairwise_cons.mp sorted
    have origin := WHIPPublisher.streamStartPts_pushPacket (first.packetPts framerate) running
    rw [WHIPPublisher.streamStartPts_anchored_of_unset unset] at origin
    rw [List.map_cons, WHIPPublisher.neverWraps_of_unset unset, KeepsTime]
    split
    · next exceeds =>
      -- the origin is out of range as well, so that the next packet sets it again
      refine ih nonneg sorted (by simp [running]) ?_
      rw [origin, Sample.packetPts_of_exceeds exceeds]
      decide
    · next inRange =>
      have set : 0 ≤ first.packetPts framerate := Sample.packetPts_nonneg positive now inRange
      rw [WHIPPublisher.neverWraps_of_set (by simp [running]) (by rw [origin]; exact set)
        (List.forall_mem_map.mpr fun x _ => Sample.packetPts_le), origin, List.forall_mem_map]
      have each : ∀ x ∈ later, (first.packetPts framerate ≤ x.packetPts framerate ↔
          ¬ x.Exceeds framerate ∧
            (first.FallsBack framerate ∨ first.AtZero framerate ∨ ¬ x.FallsBack framerate)) :=
        fun x member => Sample.packetPts_le_iff positive int now (nonneg x member)
          (before x member) inRange
      rw [forall₂_congr each, forall₂_and]
      refine and_congr_right fun _ => ?_
      by_cases zero : first.FallsBack framerate ∨ first.AtZero framerate
      · rw [← or_assoc]
        exact iff_of_true (fun x _ => or_assoc.mp (.inl zero)) (.inl zero)
      · rw [not_or] at zero
        simp only [zero.1, zero.2, false_or]

/-- **No timestamp wraps** exactly when, after the samples that are out of range at the beginning,
none is out of range and none falls back behind the first of them. -/
theorem never_wraps_iff (rounds : RescalesNearest rescale) (overflows : RescaleOverflows rescale)
    (positive : 1 ≤ framerate) (int : framerate < 2 ^ 31) (nonneg : NonNegative samples)
    (sorted : NonDecreasing samples) (s : WHIPPublisher) (running : s.running = true)
    (fresh : s.streamStartPts = -1) :
    NeverWraps s (samplePackets rescale framerate samples) ↔ KeepsTime framerate samples := by
  rw [samplePackets_eq rounds overflows positive nonneg]
  exact neverWraps_packetPts_iff positive int nonneg sorted running (by omega)

end

theorem avRescaleQ_overflows : RescaleOverflows avRescaleQ := by
  intro value src dst _ _ _ _ large
  refine if_neg fun small => ?_
  have le := (abs_le.mp small).2
  omega

/-- A frame after one second, and one without a time. -/
def missingSecond : List Sample :=
  [⟨1000000000, true⟩, ⟨clockTimeNone, true⟩]

theorem nonNegative_missingSecond : NonNegative missingSecond :=
  List.forall_mem_cons.mpr ⟨by decide +kernel, List.forall_mem_singleton.mpr (by decide +kernel)⟩

theorem nonDecreasing_missingSecond : NonDecreasing missingSecond := by
  unfold NonDecreasing
  decide +kernel

theorem never_wraps_iff_sample :
    NeverWraps idlePublisher (samplePackets avRescaleQ 30 missingSecond) ↔
      KeepsTime 30 missingSecond :=
  never_wraps_iff avRescaleQ_nearest avRescaleQ_overflows (by decide) (by decide)
    nonNegative_missingSecond nonDecreasing_missingSecond idlePublisher rfl rfl

/-- The frame without a time is pushed a second before the origin of the stream. -/
theorem timestamp_wraps :
    ¬ ∀ (rescale : Int → AVRational → AVRational → Int) (framerate : Int) (samples : List Sample)
      (s : WHIPPublisher), RescalesNearest rescale → RescaleOverflows rescale → 1 ≤ framerate →
        framerate < 2 ^ 31 → NonNegative samples → NonDecreasing samples → s.running = true →
          s.streamStartPts = -1 → NeverWraps s (samplePackets rescale framerate samples) := by
  intro all
  have never := all avRescaleQ 30 missingSecond idlePublisher avRescaleQ_nearest
    avRescaleQ_overflows (by decide) (by decide) nonNegative_missingSecond
    nonDecreasing_missingSecond rfl rfl
  have packets : samplePackets avRescaleQ 30 missingSecond = [1000000000, 0] := by
    decide +kernel
  have wrapped := (never [1000000000] 0 [] packets).1
  revert wrapped
  decide +kernel

end Timestamps

end DirectLink
