import DirectLink.Lib.Rounding
import Mathlib.Data.Int.Log
import Mathlib.Data.Rat.Floor

/-!
# Durations and integers in texts

`time.ParseDuration` and `strconv.Atoi` of Go, on the bytes of a text.  A duration is a sign and a
sequence of decimal numbers, each with an optional fraction and a unit.  Only the fractions go
through floating point.
-/

namespace DirectLink

namespace Duration

/-- A string of Go: any sequence of bytes. -/
abbrev Bytes : Type := List UInt8

/-- The bytes of a text. -/
def utf8 (text : String) : Bytes := text.toByteArray.data.toList

/-- `'0' <= c && c <= '9'`. -/
def isDigit (c : UInt8) : Bool := 48 ≤ c && c ≤ 57

/-- The point of a decimal number. -/
def point : UInt8 := 46

/-! ### Floating point -/

/-- The integer nearest to `q`, halves to the even one. -/
def halfEven (q : ℚ) : Int :=
  if q - ⌊q⌋ < 1 / 2 then ⌊q⌋
  else if 1 / 2 < q - ⌊q⌋ then ⌊q⌋ + 1
  else if ⌊q⌋ % 2 = 0 then ⌊q⌋ else ⌊q⌋ + 1

/-- The nearest number with a significand of 53 bits.  Exponents have no bounds: what would overflow
or underflow here only divides or multiplies what comes to less than a nanosecond. -/
def float64 (q : ℚ) : ℚ :=
  if q = 0 then 0 else halfEven (q / 2 ^ (Int.log 2 q - 52)) * 2 ^ (Int.log 2 q - 52)

/-! ### Numbers -/

/-- `leadingInt`: the digits in front, unless they exceed `1 << 63`. -/
def leadingInt (x : Nat) : Bytes → Option (Nat × Bytes)
  | [] => some (x, [])
  | c :: s =>
    if isDigit c then
      if 2 ^ 63 / 10 < x then none
      else if 2 ^ 63 < x * 10 + (c.toNat - 48) then none
      else leadingInt (x * 10 + (c.toNat - 48)) s
    else some (x, c :: s)

/-- `leadingFraction`: the digits in front, as many as fit, and the power of ten they are to be
divided by. -/
def leadingFraction (x : Nat) (scale : ℚ) (overflow : Bool) : Bytes → Nat × ℚ × Bytes
  | [] => (x, scale, [])
  | c :: s =>
    if isDigit c then
      if overflow then leadingFraction x scale true s
      else if (2 ^ 63 - 1) / 10 < x then leadingFraction x scale true s
      else if 2 ^ 63 < x * 10 + (c.toNat - 48) then leadingFraction x scale true s
      else leadingFraction (x * 10 + (c.toNat - 48)) (float64 (scale * 10)) false s
    else (x, scale, c :: s)

def microsecond : Nat := 1000

def millisecond : Nat := 1000 * microsecond

def second : Nat := 1000 * millisecond

def minute : Nat := 60 * second

def hour : Nat := 60 * minute

/-- The nanoseconds of a unit; the micro symbol and the Greek letter are both read. -/
def unitMap : List (Bytes × Nat) :=
  [(utf8 "ns", 1), (utf8 "us", microsecond), (utf8 "µs", microsecond), (utf8 "μs", microsecond),
    (utf8 "ms", millisecond), (utf8 "s", second), (utf8 "m", minute), (utf8 "h", hour)]

/-- `(\.[0-9]*)?`: the fraction, its scale, whether it has digits, and the rest. -/
def fraction : Bytes → Nat × ℚ × Bool × Bytes
  | [] => (0, 1, false, [])
  | c :: s =>
    if c = point then
      let (f, scale, rest) := leadingFraction 0 1 false s
      (f, scale, rest.length ≠ s.length, rest)
    else (0, 1, false, c :: s)

/-- A byte of a unit. -/
def inUnit (c : UInt8) : Bool := !(c = point || isDigit c)

/-- The nanoseconds of `v + f / scale` units. -/
def nanoseconds (v f : Nat) (scale : ℚ) (unit : Nat) : Option Nat :=
  if 2 ^ 63 / unit < v then none
  else if 0 < f then
    let v := v * unit + (truncate (float64 (float64 f * float64 (unit / scale)))).toNat
    if 2 ^ 63 < v then none else some v
  else some (v * unit)

/-- One number with its unit: its nanoseconds and the rest of the text. -/
def part (s : Bytes) : Option (Nat × Bytes) :=
  if s.head?.any (fun c => c = point || isDigit c) = false then none
  else
    match leadingInt 0 s with
    | none => none
    | some (v, afterInt) =>
      let (f, scale, post, rest) := fraction afterInt
      let u := rest.takeWhile inUnit
      if afterInt.length = s.length ∧ post = false then none
      else if u = [] then none
      else
        match unitMap.lookup u with
        | none => none
        | some unit => (nanoseconds v f scale unit).map fun v => (v, rest.dropWhile inUnit)

theorem leadingInt_length {x v : Nat} {s rest : Bytes}
    (found : leadingInt x s = some (v, rest)) : rest.length ≤ s.length := by
  induction s generalizing x with
  | nil =>
    cases found
    exact Nat.le_refl _
  | cons c s ih =>
    rw [leadingInt] at found
    split at found
    · split at found
      · cases found
      · split at found
        · cases found
        · exact Nat.le_succ_of_le (ih found)
    · cases found
      exact Nat.le_refl _

theorem leadingFraction_length (x : Nat) (scale : ℚ) (overflow : Bool) (s : Bytes) :
    (leadingFraction x scale overflow s).2.2.length ≤ s.length := by
  induction s generalizing x scale overflow with
  | nil => exact Nat.le_refl _
  | cons c s ih =>
    rw [leadingFraction]
    repeat' split
    all_goals first
      | exact Nat.le_succ_of_le (ih ..)
      | exact Nat.le_refl _

theorem fraction_length (s : Bytes) : (fraction s).2.2.2.length ≤ s.length := by
  cases s with
  | nil => exact Nat.le_refl _
  | cons c s =>
    rw [fraction]
    split
    · exact Nat.le_succ_of_le (leadingFraction_length 0 1 false s)
    · exact Nat.le_refl _

/-- A part takes something of the text. -/
theorem part_length {s rest : Bytes} {v : Nat} (found : part s = some (v, rest)) :
    rest.length < s.length := by
  unfold part at found
  split at found
  · cases found
  split at found
  · cases found
  next w afterInt digits =>
    have short := leadingInt_length digits
    have short' := fraction_length afterInt
    generalize fraction afterInt = number at found short'
    obtain ⟨f, scale, post, afterFraction⟩ := number
    dsimp only at found short'
    split at found
    · cases found
    split at found
    · cases found
    next named =>
      split at found
      · cases found
      · obtain ⟨v', _, same⟩ := Option.map_eq_some_iff.mp found
        cases same
        have whole := congrArg List.length (@List.takeWhile_append_dropWhile _ inUnit afterFraction)
        have some := List.length_pos_iff.mpr named
        rw [List.length_append] at whole
        omega

/-- The parts, added up in 64 bits from `d` on. -/
def parts (d : Nat) (s : Bytes) : Option Nat :=
  if s = [] then some d
  else
    match found : part s with
    | none => none
    | some (v, rest) =>
      if 2 ^ 63 < (d + v) % 2 ^ 64 then none else parts ((d + v) % 2 ^ 64) rest
termination_by s.length
decreasing_by exact part_length found

/-- A text that is a single part. -/
theorem parts_single {s : Bytes} {v : Nat} (single : part s = some (v, [])) (fits : v ≤ 2 ^ 63) :
    parts 0 s = some v := by
  have some : s ≠ [] := by
    intro agrees
    subst agrees
    cases single
  have same : (0 + v) % 2 ^ 64 = v := by omega
  unfold parts
  rw [if_neg some]
  split
  · next none =>
    rw [single] at none
    cases none
  · next v' rest found =>
    rw [single] at found
    cases found
    rw [same, if_neg (by omega), parts, if_pos rfl]

/-- `[-+]?`: whether the sign is a minus, and what follows it. -/
def signed : Bytes → Bool × Bytes
  | [] => (false, [])
  | c :: s => if c = 45 then (true, s) else if c = 43 then (false, s) else (false, c :: s)

/-- The nanoseconds of the text without its sign. -/
def magnitude (s : Bytes) : Option Nat :=
  if s = utf8 "0" then some 0 else if s = [] then none else parts 0 s

/-- `time.ParseDuration`, in nanoseconds. -/
def parseDuration (s : Bytes) : Option Int :=
  match magnitude (signed s).2 with
  | none => none
  | some d => if (signed s).1 then some (-d) else if 2 ^ 63 - 1 < d then none else some d

/-- The minus sign. -/
def minus : UInt8 := 45

/-- An accepted duration is positive unless it has a minus sign or comes to nothing. -/
theorem parseDuration_pos_iff {s : Bytes} {d : Int} (accepted : parseDuration s = some d) :
    0 < d ↔ s.head? ≠ some minus ∧ magnitude (signed s).2 ≠ some 0 := by
  have sign : (signed s).1 = true ↔ s.head? = some minus := by
    cases s with
    | nil => simp [signed]
    | cons c s =>
      rw [signed, List.head?_cons, Option.some.injEq, minus]
      split <;> grind
  rw [parseDuration] at accepted
  cases size : magnitude (signed s).2 with
  | none =>
    rw [size] at accepted
    cases accepted
  | some n =>
    rw [size] at accepted
    rw [ne_eq, ne_eq, ← sign, Option.some.injEq]
    dsimp only at accepted
    split at accepted
    · next negative =>
      cases accepted
      have nonpos : ¬ 0 < -(n : Int) := by omega
      exact iff_of_false nonpos fun holds => holds.1 negative
    · next positive =>
      split at accepted
      · cases accepted
      · cases accepted
        constructor
        · intro more
          exact ⟨positive, by omega⟩
        · intro holds
          omega

/-- `strconv.Atoi`. -/
def atoi (s : Bytes) : Option Int :=
  let digits := (signed s).2
  if digits = [] ∨ digits.all isDigit = false then none
  else
    let n := digits.foldl (fun n c => n * 10 + (c.toNat - 48 : Int)) 0
    let n := if (signed s).1 then -n else n
    if -2 ^ 63 ≤ n ∧ n < 2 ^ 63 then some n else none

end Duration

end DirectLink
