import DirectLink.Client.Timestamps
import Mathlib.Data.List.Chain

/-!
# Timestamps of successive frames

The timestamps that `SoftwareEncoder::encodeFrame` and `NVENCEncoder::encodeFrame` give to the
frames that `VideoPipeline::encodeLoop` takes from its queue, one after another.  Both encoders
compute them in the same way.
-/

namespace DirectLink

namespace Timestamps

/-! ### What the codec is handed -/

/-- `input_frame->pts`, in the time base of the encoder. -/
def inputPts (rescale : Int → AVRational → AVRational → Int) (framerate framePts : Int) : Int :=
  rescale framePts ⟨1, 1000000000⟩ ⟨1, framerate⟩

variable {rescale : Int → AVRational → AVRational → Int} {framerate : Int}

/-- An encoder asks the codec about the input timestamp and nothing else. -/
theorem encodeFrame_inputPts {codec codec' : Int → Option (List Int)} {framePts : Int}
    (same : codec (inputPts rescale framerate framePts) =
      codec' (inputPts rescale framerate framePts)) :
    encodeFrame rescale codec framerate framePts =
      encodeFrame rescale codec' framerate framePts := by
  rw [inputPts] at same
  rw [encodeFrame, encodeFrame, same]

/-- The timestamps of the frames that have the given capture times. -/
def inputTimestamps (rescale : Int → AVRational → AVRational → Int) (framerate : Int)
    (times : List Int) : List Int :=
  times.map (inputPts rescale framerate)

/-- No capture time is out of range in the time base of the encoder. -/
def InRange (framerate : Int) (times : List Int) : Prop :=
  ∀ time ∈ times, |ticks framerate time| ≤ int64Max

theorem inputTimestamps_inRange (rounds : RescalesNearest rescale) (positive : 1 ≤ framerate)
    {times : List Int} (inRange : InRange framerate times) :
    inputTimestamps rescale framerate times = times.map (ticks framerate) := by
  refine List.map_congr_left fun time member => ?_
  have rounded := rounds time ⟨1, 1000000000⟩ ⟨1, framerate⟩ (by norm_num) (by norm_num)
    (by norm_num) (by show 0 < framerate; omega)
  simp only [one_mul, mul_one] at rounded
  exact rounded (inRange time member)

/-! ### Distinct timestamps -/

/-- Between two capture times lies an odd multiple of half a frame period, where the tick that a
time is rounded to changes. -/
def TickChangesBetween (framerate earlier later : Int) : Prop :=
  RoundsUpBetween (earlier * framerate) (later * framerate) 1000000000

theorem ticks_lt_iff {earlier later : Int} :
    ticks framerate earlier < ticks framerate later ↔
      TickChangesBetween framerate earlier later :=
  nearest_lt_iff (by norm_num)

/-- **Successive frames get increasing timestamps** exactly when the tick changes between each
capture time and the next. -/
theorem timestamps_increase_iff (rounds : RescalesNearest rescale) (positive : 1 ≤ framerate)
    {times : List Int} (inRange : InRange framerate times) :
    (inputTimestamps rescale framerate times).Pairwise (· < ·) ↔
      times.IsChain (TickChangesBetween framerate) := by
  rw [inputTimestamps_inRange rounds positive inRange, ← List.isChain_iff_pairwise,
    List.isChain_map]
  simp only [ticks_lt_iff]

theorem timestamps_increase_iff_sample :
    (inputTimestamps avRescaleQ 30 [0, 33000000, 67000000]).Pairwise (· < ·) ↔
      [0, 33000000, 67000000].IsChain (TickChangesBetween 30) :=
  timestamps_increase_iff avRescaleQ_nearest (by decide) (by unfold InRange; decide +kernel)

/-- Capture times a frame period apart are far enough from each other. -/
theorem timestamps_increase_of_apart (rounds : RescalesNearest rescale) (positive : 1 ≤ framerate)
    {times : List Int} (inRange : InRange framerate times)
    (apart : times.IsChain fun earlier later => 1000000000 ≤ (later - earlier) * framerate) :
    (inputTimestamps rescale framerate times).Pairwise (· < ·) := by
  rw [inputTimestamps_inRange rounds positive inRange, ← List.isChain_iff_pairwise,
    List.isChain_map]
  refine apart.imp fun earlier later far => ?_
  exact ticks_lt_iff.mpr (roundsUpBetween_of_apart (by norm_num) (by linarith))

/-- Two frames 10 ms apart get the same timestamp at 30 frames per second. -/
theorem timestamps_coincide :
    ¬ ∀ (framerate : Int) (times : List Int), 1 ≤ framerate → times.Pairwise (· < ·) →
      InRange framerate times →
        (inputTimestamps avRescaleQ framerate times).Pairwise (· < ·) := by
  intro distinct
  have increase := distinct 30 [1000000000, 1010000000] (by decide) (by decide)
    (by unfold InRange; decide +kernel)
  have same : inputTimestamps avRescaleQ 30 [1000000000, 1010000000] = [30, 30] := by
    decide +kernel
  rw [same] at increase
  exact absurd increase (by decide)

end Timestamps

end DirectLink
