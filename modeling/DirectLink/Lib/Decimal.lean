import Mathlib.Data.Nat.Digits.Defs

/-!
# Decimal numerals

Numerals padded with zeros to a fixed width, their digits, and reading a numeral back.
-/

namespace DirectLink

/-- The last `width` decimal digits of `n`: what `%0<width>d` prints for `n < 10 ^ width`. -/
def fixedDigits : Nat → Nat → List Char
  | 0, _ => []
  | width + 1, n => fixedDigits width (n / 10) ++ [Nat.digitChar (n % 10)]

/-- Read a non-empty string of decimal digits. -/
def parseDecimal (cs : List Char) : Option Nat :=
  if cs ≠ [] ∧ cs.all Char.isDigit then some (Nat.ofDigitChars 10 cs 0) else none

@[simp] theorem length_fixedDigits (width n : Nat) : (fixedDigits width n).length = width := by
  induction width generalizing n with
  | zero => rfl
  | succ width ih => rw [fixedDigits, List.length_append, ih, List.length_singleton]

theorem isDigit_of_mem_fixedDigits {width n : Nat} {c : Char} (member : c ∈ fixedDigits width n) :
    c.isDigit = true := by
  induction width generalizing n with
  | zero => cases member
  | succ width ih =>
    rcases List.mem_append.mp member with earlier | last
    · exact ih earlier
    · rw [List.mem_singleton.mp last]
      rw [Nat.isDigit_digitChar, decide_eq_true_iff]
      omega

theorem ofDigitChars_fixedDigits {width n : Nat} (lt : n < 10 ^ width) :
    Nat.ofDigitChars 10 (fixedDigits width n) 0 = n := by
  induction width generalizing n with
  | zero =>
    have : n = 0 := by omega
    rw [this, fixedDigits, Nat.ofDigitChars_nil]
  | succ width ih =>
    have high : n / 10 < 10 ^ width := Nat.div_lt_of_lt_mul (by rwa [pow_succ'] at lt)
    rw [fixedDigits, Nat.ofDigitChars_append, ih high,
      Nat.ofDigitChars_cons_digitChar_of_lt_ten (Nat.mod_lt n (by omega)), Nat.ofDigitChars_nil]
    omega

theorem parseDecimal_of_isDigit {cs : List Char} (ne : cs ≠ [])
    (digits : ∀ c ∈ cs, c.isDigit = true) : parseDecimal cs = some (Nat.ofDigitChars 10 cs 0) :=
  if_pos ⟨ne, List.all_eq_true.mpr digits⟩

theorem parseDecimal_fixedDigits {width n : Nat} (pos : 0 < width) (lt : n < 10 ^ width) :
    parseDecimal (fixedDigits width n) = some n := by
  have ne : fixedDigits width n ≠ [] := by
    intro nil
    have := congrArg List.length nil
    rw [length_fixedDigits, List.length_nil] at this
    omega
  rw [parseDecimal_of_isDigit ne fun c => isDigit_of_mem_fixedDigits, ofDigitChars_fixedDigits lt]

theorem parseDecimal_toDigits (n : Nat) : parseDecimal (Nat.toDigits 10 n) = some n := by
  rw [parseDecimal_of_isDigit Nat.toDigits_ne_nil
    fun c => Nat.isDigit_of_mem_toDigits (by omega) (by omega), Nat.ofDigitChars_ten_toDigits]

end DirectLink
