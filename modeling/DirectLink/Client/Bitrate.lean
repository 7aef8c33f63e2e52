import DirectLink.Client.PipelineRuns
import DirectLink.Lib.Rounding

/-!
# The bitrate of a stream

`getBitrate` in the first run of a pipeline, however long it lasts: the packets that the encoder
hands to the callback are recorded beside the object, and their sizes are added up without a bound.
-/

namespace DirectLink

namespace VideoPipeline

variable {Picture : Type}

/-! ### The packets so far -/

/-- The sizes of the packets that a move hands to the callback of the encoder. -/
def Pipeline.given (s : Pipeline Picture) : Pipeline.Move Picture → List (BitVec 32)
  | .encode packets =>
    match s.threads.encode with
    | .encoding _ => packets
    | _ => []
  | .flush packets => packets
  | _ => []

/-- A pipeline with the sizes of the packets so far. -/
@[reducible] def recordingMachine (Picture : Type) : Machine where
  State := Pipeline Picture × List (BitVec 32)
  Move := Pipeline.Move Picture
  next := fun (s, sizes) m => (s.next m).map fun s' => (s', sizes ++ s.given m)

/-- `start` is called for the first time, and every packet has a positive size. -/
def FirstRun (state : Pipeline Picture × List (BitVec 32)) : Pipeline.Move Picture → Prop
  | .start => state.1.run = 0
  | .encode packets | .flush packets => ∀ size ∈ packets, 0 < size.toInt
  | _ => True

/-- The bytes of some packets. -/
def totalBytes (sizes : List (BitVec 32)) : Int :=
  (sizes.map BitVec.toInt).sum

/-! ### The bitrate that is due -/

/-- The bits of the packets in a second, `elapsed` seconds after the start. -/
def exactBitrate (sizes : List (BitVec 32)) (elapsed : ℚ) : Int :=
  truncate (8 * totalBytes sizes / elapsed)

/-- `getBitrate` of a pipeline that runs, `elapsed` seconds after its start. -/
def Statistics.bitrateAfter (s : Statistics) (elapsed : ℚ) : Int :=
  truncate ((s.bitrate * 8).toInt / elapsed)

/-- The number is an `int`. -/
def FitsInt (n : Int) : Prop := -2 ^ 31 ≤ n ∧ n < 2 ^ 31

/-- The bitrate is right for the packets so far. -/
structure RightBitrate (s : Pipeline Picture) (sizes : List (BitVec 32)) : Prop where
  /-- At every elapsed time, the exact bitrate is reported if it is an `int`. -/
  value : ∀ elapsed : ℚ, 0 < elapsed → FitsInt (exactBitrate sizes elapsed) →
    s.statistics.bitrateAfter elapsed = exactBitrate sizes elapsed
  /-- So it is at every reading of the clock. -/
  reported : ∀ now, 0 < s.statistics.elapsed now →
    FitsInt (exactBitrate sizes (s.statistics.elapsed now / 1000000000)) →
    s.statistics.getBitrate s.joinable now =
      exactBitrate sizes (s.statistics.elapsed now / 1000000000)
  /-- The counter has not wrapped. -/
  counter : s.statistics.bitrate.toInt = totalBytes sizes
  /-- Nor does its product by 8. -/
  product : (s.statistics.bitrate * 8).toInt = 8 * totalBytes sizes

/-! ### What is counted -/

variable {s s' : Pipeline Picture} {m : Pipeline.Move Picture} {sizes : List (BitVec 32)}

@[simp] theorem bitrate_enqueue : s.enqueue.statistics.bitrate = s.statistics.bitrate := by
  unfold Pipeline.enqueue
  dsimp only
  split <;> rfl

/-- Every move adds to the counter the packets that it hands to the callback. -/
theorem bitrate_next (step : s.next m = some s') :
    s'.statistics.bitrate = s.statistics.bitrate + (s.given m).sum := by
  have none : s.statistics.bitrate = s.statistics.bitrate + ([] : List (BitVec 32)).sum :=
    (BitVec.add_zero _).symm
  cases m with
  | init | start =>
    dsimp only [Pipeline.next] at step
    split at step <;> cases step <;> exact none
  | frame picture =>
    dsimp only [Pipeline.next] at step
    split at step
    · cases step
    · obtain ⟨_, threads, _, rfl⟩ := Pipeline.moved_eq_some.mp step
      exact none
  | capture =>
    dsimp only [Pipeline.next] at step
    split at step
    · cases step
      exact none
    · obtain ⟨_, threads, _, rfl⟩ := Pipeline.moved_eq_some.mp step
      split
      · exact bitrate_enqueue.trans none
      · exact none
      · exact none
  | eos =>
    dsimp only [Pipeline.next] at step
    split at step
    · cases step
    · obtain ⟨_, threads, _, rfl⟩ := Pipeline.moved_eq_some.mp step
      exact none
  | encode packets =>
    obtain ⟨_, threads, _, rfl⟩ := Pipeline.moved_eq_some.mp step
    rw [Pipeline.given]
    cases s.threads.encode with
    | encoding frame => rfl
    | looping | locking | checking | blocking | waiting | taking | returned => exact none
  | stop | destroy =>
    obtain ⟨_, threads, _, rfl⟩ := Pipeline.moved_eq_some.mp step
    exact none
  | stopper =>
    obtain ⟨_, threads, _, rfl⟩ := Pipeline.moved_eq_some.mp step
    split <;> exact none
  | flush packets =>
    dsimp only [Pipeline.next] at step
    split at step <;> cases step
    rfl
  | tick =>
    cases step
    exact none

@[simp] theorem totalBytes_cons (size : BitVec 32) (sizes : List (BitVec 32)) :
    totalBytes (size :: sizes) = size.toInt + totalBytes sizes := rfl

theorem sum_eq (sizes : List (BitVec 32)) : sizes.sum = BitVec.ofInt 32 (totalBytes sizes) := by
  induction sizes with
  | nil => rfl
  | cons size sizes ih =>
    rw [List.sum_cons, ih, totalBytes_cons, BitVec.ofInt_add, BitVec.ofInt_toInt]

theorem totalBytes_append (sizes sizes' : List (BitVec 32)) :
    totalBytes (sizes ++ sizes') = totalBytes sizes + totalBytes sizes' := by
  rw [totalBytes, List.map_append, List.sum_append]
  rfl

theorem totalBytes_nonneg (positive : ∀ size ∈ sizes, 0 < size.toInt) : 0 ≤ totalBytes sizes := by
  induction sizes with
  | nil => exact Int.le_refl 0
  | cons size sizes ih =>
    have first := positive size List.mem_cons_self
    have rest := ih fun size' member => positive size' (List.mem_cons_of_mem _ member)
    exact Int.add_nonneg (Int.le_of_lt first) rest

/-- The counter holds the bytes so far in 32 bits, and they are not negative. -/
structure Counted (state : Pipeline Picture × List (BitVec 32)) : Prop where
  bitrate : state.1.statistics.bitrate = BitVec.ofInt 32 (totalBytes state.2)
  nonneg : 0 ≤ totalBytes state.2

theorem counted_of_reach {state : Pipeline Picture × List (BitVec 32)}
    (reach : (recordingMachine Picture).Reach FirstRun (constructed, []) state) :
    Counted state := by
  refine reach.invariant ⟨rfl, Int.le_refl 0⟩ ?_
  intro holds m state' counted guard step
  rcases holds with ⟨s, sizes⟩
  obtain ⟨s', moved, rfl⟩ := Option.map_eq_some_iff.mp step
  have positive : ∀ size ∈ s.given m, 0 < size.toInt := by
    intro size member
    cases m with
    | encode packets =>
      dsimp only [Pipeline.given] at member
      split at member
      · exact guard size member
      · cases member
    | flush packets => exact guard size member
    | init | start | frame | capture | eos | stop | destroy | stopper | tick => cases member
  constructor
  · rw [bitrate_next moved, counted.bitrate, sum_eq, totalBytes_append, BitVec.ofInt_add]
  · rw [totalBytes_append]
    exact Int.add_nonneg counted.nonneg (totalBytes_nonneg positive)

/-! ### What is reported -/

/-- A reading of the clock is a reading after so many seconds. -/
theorem getBitrate_eq {s : Statistics} {now : Nat} (later : 0 < s.elapsed now) :
    s.getBitrate true now = s.bitrateAfter (s.elapsed now / 1000000000) := by
  have quotient : ((s.bitrate * 8).toInt : ℚ) / ((s.elapsed now : ℚ) / 1000000000) =
      (((s.bitrate * 8).toInt * 1000000000 : Int) : ℚ) / ((s.elapsed now : Int) : ℚ) := by
    push_cast
    rw [div_div_eq_mul_div]
  rw [Statistics.getBitrate, if_neg (by decide), if_pos later, Statistics.bitrateAfter, quotient,
    truncate_div _ (by exact_mod_cast later)]

/-- Once the product has wrapped, a bitrate of one bit in a second is not reported. -/
theorem reported_wrong (joinable : s.joinable = true) (large : 2 ^ 31 ≤ 8 * totalBytes sizes) :
    ∃ now, 0 < s.statistics.elapsed now ∧
      FitsInt (exactBitrate sizes (s.statistics.elapsed now / 1000000000)) ∧
      s.statistics.getBitrate s.joinable now ≠
        exactBitrate sizes (s.statistics.elapsed now / 1000000000) := by
  obtain ⟨total, total_eq⟩ := Int.eq_ofNat_of_zero_le (show 0 ≤ totalBytes sizes by omega)
  have positive : (0 : Int) < 8 * totalBytes sizes := by omega
  have elapsed : s.statistics.elapsed (s.statistics.startTime + 8 * total * 1000000000) =
      8 * total * 1000000000 := Nat.add_sub_cancel_left ..
  have seconds : ((8 * total * 1000000000 : Nat) : ℚ) / 1000000000 =
      ((8 * totalBytes sizes : Int) : ℚ) := by
    rw [total_eq]
    push_cast
    exact mul_div_cancel_right₀ _ (by norm_num)
  have exact_eq : exactBitrate sizes ((8 * totalBytes sizes : Int) : ℚ) = 1 := by
    have same : (8 * totalBytes sizes : ℚ) = ((8 * totalBytes sizes : Int) : ℚ) := by push_cast; rfl
    rw [exactBitrate, same, truncate_div _ positive, Int.tdiv_self positive.ne']
  have below : (s.statistics.bitrate * 8).toInt < 2 ^ 31 := BitVec.toInt_lt
  refine ⟨s.statistics.startTime + 8 * total * 1000000000, ?_, ?_, ?_⟩
  · rw [elapsed]
    omega
  · rw [elapsed, seconds, exact_eq]
    exact ⟨by decide, by decide⟩
  · rw [joinable, getBitrate_eq (by rw [elapsed]; omega), elapsed, seconds, exact_eq,
      Statistics.bitrateAfter, truncate_div _ positive]
    have least : (s.statistics.bitrate * 8).toInt.tdiv (8 * totalBytes sizes) ≤
        (8 * totalBytes sizes - 1).tdiv (8 * totalBytes sizes) :=
      Int.tdiv_le_tdiv positive (by omega)
    have none : (8 * totalBytes sizes - 1).tdiv (8 * totalBytes sizes) = 0 :=
      Int.tdiv_eq_zero_of_lt (by omega) (by omega)
    omega

theorem rightBitrate_of_fits (counted : Counted (s, sizes)) (joinable : s.joinable = true)
    (fits : totalBytes sizes ≤ 268435455) : RightBitrate s sizes := by
  have nonneg := counted.nonneg
  have bitrate := counted.bitrate
  dsimp only at nonneg bitrate
  have counter : s.statistics.bitrate.toInt = totalBytes sizes := by
    rw [bitrate]
    exact BitVec.toInt_ofInt_eq_self (by decide) (by omega) (by omega)
  have product : (s.statistics.bitrate * 8).toInt = 8 * totalBytes sizes := by
    have eight : (8 : BitVec 32) = BitVec.ofInt 32 8 := rfl
    rw [bitrate, eight, ← BitVec.ofInt_mul, Int.mul_comm]
    exact BitVec.toInt_ofInt_eq_self (by decide) (by omega) (by omega)
  have value : ∀ elapsed : ℚ,
      s.statistics.bitrateAfter elapsed = exactBitrate sizes elapsed := by
    intro elapsed
    rw [Statistics.bitrateAfter, product, exactBitrate]
    push_cast
    rfl
  refine ⟨fun elapsed _ _ => value elapsed, ?_, counter, product⟩
  intro now later _
  rw [joinable, getBitrate_eq later, value]

/-- **The bitrate is right** in the first run of a pipeline exactly as long as the packets so far
have no more than 268435455 bytes. -/
theorem bitrate_right_iff
    (reach : (recordingMachine Picture).Reach FirstRun (constructed, []) (s, sizes))
    (joinable : s.joinable = true) : RightBitrate s sizes ↔ totalBytes sizes ≤ 268435455 := by
  constructor
  · intro right
    by_contra large
    obtain ⟨now, later, fits, wrong⟩ := @reported_wrong _ s sizes joinable (by omega)
    exact wrong (right.reported now later fits)
  · exact rightBitrate_of_fits (counted_of_reach reach) joinable

instance {state : Pipeline Picture × List (BitVec 32)} : Decidable (FirstRun state m) :=
  match m with
  | .start => inferInstanceAs (Decidable (state.1.run = 0))
  | .encode packets | .flush packets =>
    List.decidableBAll (fun size : BitVec 32 => 0 < size.toInt) packets
  | .init | .frame _ | .capture | .eos | .stop | .destroy | .stopper | .tick => .isTrue trivial

/-- Four packets of 64 MiB. -/
def fourPackets : List (BitVec 32) :=
  List.replicate 4 67108864

/-- The first frame of a run is encoded, and the encoder makes these packets of it. -/
theorem reach_encoded (packets : List (BitVec 32))
    (positive : ∀ size ∈ packets, 0 < size.toInt) :
    ∃ s : Pipeline Unit, s.joinable = true ∧
      (recordingMachine Unit).Reach FirstRun (constructed, []) (s, packets) := by
  have computed : ((recordingMachine Unit).run (fun state m => decide (FirstRun state m))
      ([.init, .start] ++ Pipeline.push ++ Pipeline.take) (constructed, [])).any
        (fun state => state.2 = [] ∧ state.1.joinable = true ∧
          state.1.threads.encode = .encoding ⟨0, 1, ()⟩) = true := by
    decide +kernel
  obtain ⟨⟨s, given⟩, run, result⟩ := (Option.any_eq_true _ _).mp computed
  obtain ⟨rfl, joinable, encoding⟩ := of_decide_eq_true result
  dsimp only at joinable encoding
  have reach : (recordingMachine Unit).Reach FirstRun (constructed, []) (s, []) :=
    (Machine.reach_of_run run).mono fun _ _ passed => of_decide_eq_true passed
  have encoded : s.threads.next .encode = some { s.threads with encode := .looping } := by
    simp only [State.next, State.stepEncode, encoding]
  have moved : s.next (.encode packets) = some
      { s.encodeFrame ⟨0, 1, ()⟩ packets with threads := { s.threads with encode := .looping } } :=
    Pipeline.moved_eq_some.mpr ⟨joinable, _, encoded, by rw [encoding]⟩
  have given : s.given (.encode packets) = packets := by
    rw [Pipeline.given, encoding]
  have recorded : (recordingMachine Unit).next (s, []) (.encode packets) = some (_, packets) :=
    Option.map_eq_some_iff.mpr ⟨_, moved, by rw [given]; rfl⟩
  refine ⟨_, ?_, @Machine.Reach.step _ _ _ _ _ (.encode packets) reach positive recorded⟩
  exact joinable

theorem bitrate_right_iff_sample : ∃ (s : Pipeline Unit) (sizes : List (BitVec 32)),
    sizes ≠ [] ∧ (RightBitrate s sizes ↔ totalBytes sizes ≤ 268435455) := by
  obtain ⟨s, joinable, reach⟩ := reach_encoded [1500] (List.forall_mem_singleton.mpr (by decide))
  exact ⟨s, [1500], by decide, bitrate_right_iff reach joinable⟩

/-- Two seconds after the start of a stream of 256 MiB, the bitrate is reported with its sign
changed. -/
theorem bitrate_changes_sign : ∃ (s : Pipeline Unit) (sizes : List (BitVec 32)),
    (recordingMachine Unit).Reach FirstRun (constructed, []) (s, sizes) ∧ s.joinable = true ∧
      exactBitrate sizes 2 = 1073741824 ∧ s.statistics.bitrateAfter 2 = -1073741824 ∧
      ¬ RightBitrate s sizes := by
  have positive : ∀ size ∈ fourPackets, 0 < size.toInt := by
    intro size member
    rw [List.eq_of_mem_replicate member]
    decide
  obtain ⟨s, joinable, reach⟩ := reach_encoded fourPackets positive
  have total : totalBytes fourPackets = 268435456 := by decide +kernel
  have bitrate : (s.statistics.bitrate * 8).toInt = -2147483648 := by
    rw [(counted_of_reach reach).bitrate, total]
    decide +kernel
  have exact_eq : exactBitrate fourPackets 2 = 1073741824 := by
    have same : (8 * (268435456 : Int) / 2 : ℚ) = ((2147483648 : Int) : ℚ) / ((2 : Int) : ℚ) := by
      norm_num
    rw [exactBitrate, total, same, truncate_div _ (by decide)]
    rfl
  have reported : s.statistics.bitrateAfter 2 = -1073741824 := by
    have same : ((-2147483648 : Int) / 2 : ℚ) = ((-2147483648 : Int) : ℚ) / ((2 : Int) : ℚ) := by
      norm_num
    rw [Statistics.bitrateAfter, bitrate, same, truncate_div _ (by decide)]
    rfl
  refine ⟨s, fourPackets, reach, joinable, exact_eq, reported, ?_⟩
  intro right
  have value := right.value 2 (by norm_num) (by rw [exact_eq]; exact ⟨by decide, by decide⟩)
  rw [exact_eq, reported] at value
  cases value

end VideoPipeline

end DirectLink
