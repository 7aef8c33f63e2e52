import Mathlib.Algebra.Order.Field.Rat
import Mathlib.Algebra.Order.Ring.Abs
import Mathlib.Tactic.Linarith

/-!
# Rounding to an integer

Quotients of integers, rounded to the nearest integer with halves away from zero, and rational
numbers truncated to an integer.
-/

namespace DirectLink

/-- The integer nearest to `n / d`, halves away from zero. -/
def nearest (n d : Int) : Int :=
  n.sign * ((2 * n.natAbs + d) / (2 * d))

variable {n m d : Int}

theorem nearest_of_nonneg (positive : 0 < d) (nonneg : 0 ≤ n) :
    nearest n d = (2 * n + d) / (2 * d) := by
  have size : ((n.natAbs : Nat) : Int) = n := Int.natAbs_of_nonneg nonneg
  rw [nearest, size]
  rcases nonneg.eq_or_lt with zero | more
  · subst zero
    have none : d / (2 * d) = 0 := Int.ediv_eq_zero_of_lt positive.le (by omega)
    simp [none]
  · rw [Int.sign_eq_one_of_pos more, one_mul]

@[simp] theorem nearest_zero : nearest 0 d = 0 := by
  simp [nearest]

theorem nearest_nonneg (positive : 0 < d) (nonneg : 0 ≤ n) : 0 ≤ nearest n d := by
  rw [nearest_of_nonneg positive nonneg]
  exact Int.ediv_nonneg (by omega) (by omega)

/-- The rounded quotient is at most half away. -/
theorem abs_nearest_sub_le (positive : 0 < d) (nonneg : 0 ≤ n) :
    2 * |d * nearest n d - n| ≤ d := by
  rw [nearest_of_nonneg positive nonneg]
  have split := Int.mul_ediv_add_emod (2 * n + d) (2 * d)
  have low := Int.emod_nonneg (2 * n + d) (show 2 * d ≠ 0 by omega)
  have high := Int.emod_lt_of_pos (2 * n + d) (show 0 < 2 * d by omega)
  have twice : 2 * (d * ((2 * n + d) / (2 * d)) - n) = d - (2 * n + d) % (2 * d) := by
    linarith
  have double := congrArg abs twice
  rw [abs_mul, abs_two] at double
  rw [double, abs_le]
  constructor <;> linarith

theorem nearest_mono (positive : 0 < d) (nonneg : 0 ≤ n) (le : n ≤ m) :
    nearest n d ≤ nearest m d := by
  rw [nearest_of_nonneg positive nonneg, nearest_of_nonneg positive (nonneg.trans le)]
  exact Int.ediv_le_ediv (by omega) (by omega)

theorem nearest_eq_zero_iff (positive : 0 < d) (nonneg : 0 ≤ n) :
    nearest n d = 0 ↔ 2 * n < d := by
  have split := Int.mul_ediv_add_emod (2 * n + d) (2 * d)
  have low := Int.emod_nonneg (2 * n + d) (show 2 * d ≠ 0 by omega)
  have high := Int.emod_lt_of_pos (2 * n + d) (show 0 < 2 * d by omega)
  rw [nearest_of_nonneg positive nonneg]
  constructor
  · intro zero
    rw [zero] at split
    omega
  · intro less
    exact Int.ediv_eq_zero_of_lt (by omega) (by omega)

/-- Where the rounding of a quotient reaches an integer. -/
theorem le_nearest_iff (positive : 0 < d) {k : Int} :
    k ≤ nearest n d ↔ if 0 < k then (2 * k - 1) * d ≤ 2 * n else (2 * k - 1) * d < 2 * n := by
  rcases le_or_gt 0 n with nonneg | negative
  · rw [nearest_of_nonneg positive nonneg, Int.le_ediv_iff_mul_le (by omega)]
    split
    · next above =>
      constructor <;> intro le <;> linarith
    · next below =>
      have low : (2 * k - 1) * d < 0 := mul_neg_of_neg_of_pos (by omega) positive
      have low' : k * (2 * d) ≤ 0 := mul_nonpos_of_nonpos_of_nonneg (by omega) (by omega)
      exact iff_of_true (by omega) (by omega)
  · have size : ((n.natAbs : Nat) : Int) = -n := Int.ofNat_natAbs_of_nonpos negative.le
    rw [nearest, size, Int.sign_eq_neg_one_of_neg negative, neg_one_mul, le_neg]
    split
    · next above =>
      have high : 0 ≤ (2 * -n + d) / (2 * d) := Int.ediv_nonneg (by omega) (by omega)
      have high' : 0 < (2 * k - 1) * d := mul_pos (by omega) positive
      exact iff_of_false (by omega) (by omega)
    · next below =>
      rw [← Int.lt_add_one_iff, Int.ediv_lt_iff_lt_mul (by omega)]
      constructor <;> intro less <;> linarith

/-- Between two numbers lies a place where the rounding of their quotients by `d` goes up. -/
def RoundsUpBetween (n m d : Int) : Prop :=
  ∃ k, if 0 < k then 2 * n < (2 * k - 1) * d ∧ (2 * k - 1) * d ≤ 2 * m
    else 2 * n ≤ (2 * k - 1) * d ∧ (2 * k - 1) * d < 2 * m

theorem nearest_lt_iff (positive : 0 < d) :
    nearest n d < nearest m d ↔ RoundsUpBetween n m d := by
  have reaches (k : Int) : nearest n d < k ∧ k ≤ nearest m d ↔
      if 0 < k then 2 * n < (2 * k - 1) * d ∧ (2 * k - 1) * d ≤ 2 * m
        else 2 * n ≤ (2 * k - 1) * d ∧ (2 * k - 1) * d < 2 * m := by
    rw [← not_le, le_nearest_iff positive, le_nearest_iff positive]
    split <;> simp only [not_le, not_lt]
  constructor
  · intro less
    exact ⟨nearest m d, (reaches _).mp ⟨less, le_rfl⟩⟩
  · intro holds
    rcases holds with ⟨k, between⟩
    obtain ⟨above, below⟩ := (reaches k).mpr between
    exact above.trans_le below

/-- Numbers that are `d` apart are rounded to different integers. -/
theorem roundsUpBetween_of_apart (positive : 0 < d) (apart : n + d ≤ m) :
    RoundsUpBetween n m d := by
  rw [← nearest_lt_iff positive, Int.lt_iff_add_one_le, le_nearest_iff positive]
  have reached := (le_nearest_iff (n := n) positive).mp le_rfl
  split at reached
  · next above =>
    rw [if_pos (by omega)]
    linarith
  · next below =>
    split <;> linarith

/-! ### Truncation -/

/-- A rational number without its fraction: `static_cast<int>` of a number that fits. -/
def truncate (q : ℚ) : Int := q.num.tdiv q.den

theorem truncate_div (a : Int) {b : Int} (positive : 0 < b) : truncate (a / b) = a.tdiv b := by
  have cross : (a / b : ℚ).num * b = a * (a / b : ℚ).den := by
    have fraction : (((a / b : ℚ).num : Int) : ℚ) / ((a / b : ℚ).den : Int) = a / b :=
      Rat.num_div_den _
    have nonzero : (b : ℚ) ≠ 0 := by exact_mod_cast positive.ne'
    have nonzero' : (((a / b : ℚ).den : Int) : ℚ) ≠ 0 := by exact_mod_cast (a / b : ℚ).den_ne_zero
    rw [div_eq_div_iff nonzero' nonzero] at fraction
    exact_mod_cast fraction
  have positive' : (0 : Int) < (a / b : ℚ).den := by exact_mod_cast (a / b : ℚ).den_pos
  calc truncate (a / b)
    _ = ((a / b : ℚ).num * b).tdiv ((a / b : ℚ).den * b) :=
        (Int.mul_tdiv_mul_of_pos_left _ _ positive).symm
    _ = (a * (a / b : ℚ).den).tdiv (b * (a / b : ℚ).den) := by rw [cross, mul_comm b]
    _ = a.tdiv b := Int.mul_tdiv_mul_of_pos_left _ _ positive'

end DirectLink
