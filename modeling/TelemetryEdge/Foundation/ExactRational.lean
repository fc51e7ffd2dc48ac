import Mathlib.Algebra.Order.Round
import Mathlib.Data.Rat.Floor
import Mathlib.Tactic.Linarith
import Mathlib.Tactic.Ring
import TelemetryEdge.Foundation.Float64

/-!
# Exact rational arithmetic

Rounding to integers, half away from zero and toward zero, over any ordered
field with a floor, and the reading of the double-precision interface in which
every operation on rational numbers is exact.
-/

namespace TelemetryEdge
namespace ExactRational

section Rounding

variable {K : Type*} [Field K] [LinearOrder K] [IsStrictOrderedRing K]
  [FloorRing K]

/-- The nearest integer, half away from zero. -/
def roundAway (number : K) : Int :=
  if 0 ≤ number then ⌊number + 1 / 2⌋ else ⌈number - 1 / 2⌉

/-- The integer part, toward zero. -/
def truncate (number : K) : Int :=
  if 0 ≤ number then ⌊number⌋ else ⌈number⌉

@[simp] theorem truncate_intCast (integer : Int) :
    truncate (integer : K) = integer := by
  rw [truncate, Int.floor_intCast, Int.ceil_intCast, ite_self]

/-- Rounding moves a number by at most one half. -/
theorem abs_roundAway_sub_le (number : K) :
    |(roundAway number : K) - number| ≤ 1 / 2 := by
  rw [roundAway, abs_le]
  split
  · have below := Int.floor_le (number + 1 / 2)
    have above := Int.lt_floor_add_one (number + 1 / 2)
    constructor
    · linarith
    · linarith
  · have above := Int.le_ceil (number - 1 / 2)
    have below := Int.ceil_lt_add_one (number - 1 / 2)
    constructor
    · linarith
    · linarith

/-- No integer is nearer to a number than the one it is rounded to. -/
theorem abs_roundAway_sub_le_abs_sub (number : K) (integer : Int) :
    |(roundAway number : K) - number| ≤ |(integer : K) - number| := by
  by_cases same : roundAway number = integer
  · rw [same]
  · have apart : (1 : K) ≤ |(roundAway number : K) - integer| := by
      have integral : 1 ≤ |roundAway number - integer| :=
        Int.one_le_abs (sub_ne_zero.mpr same)
      exact_mod_cast integral
    have near := abs_roundAway_sub_le number
    have detour := abs_sub_le (roundAway number : K) number integer
    rw [abs_sub_comm number] at detour
    linarith

@[simp] theorem roundAway_intCast (integer : Int) :
    roundAway (integer : K) = integer := by
  have near := abs_roundAway_sub_le_abs_sub (integer : K) integer
  rw [sub_self, abs_zero, abs_nonpos_iff, sub_eq_zero] at near
  exact_mod_cast near

/-- Rounding keeps the order of numbers. -/
theorem roundAway_mono
    {left right : K}
    (ordered : left ≤ right) :
    roundAway left ≤ roundAway right := by
  rw [roundAway, roundAway]
  split_ifs with leftSign rightSign rightSign
  · exact Int.floor_mono (by linarith)
  · exact absurd (leftSign.trans ordered) rightSign
  · calc
      ⌈left - 1 / 2⌉ ≤ 0 := Int.ceil_le.mpr (by push_cast; linarith)
      _ ≤ ⌊right + 1 / 2⌋ := Int.le_floor.mpr (by push_cast; linarith)
  · exact Int.ceil_mono (by linarith)

omit [FloorRing K] in
/-- Scaling and shifting stretches the distance between numbers. -/
theorem abs_scaled_sub
    {scale : K}
    (scaled : scale ≠ 0)
    (raw offset number : K) :
    |raw * scale + offset - number| =
      |raw - (number - offset) / scale| * |scale| := by
  rw [← abs_mul, sub_mul, div_mul_cancel₀ _ scaled]
  congr 1
  ring

end Rounding

/-- An integer cut off at the ends of the `i128` range. -/
def saturate (integer : Int) : Int :=
  max (-(2 ^ 127)) (min (2 ^ 127 - 1) integer)

/-- A cut-off integer lies in a smaller range only if it has not been cut
off. -/
theorem saturate_mem_iff
    {low high : Int}
    (above : -(2 ^ 127) < low)
    (below : high < 2 ^ 127 - 1)
    (integer : Int) :
    (low ≤ saturate integer ∧ saturate integer ≤ high) ↔
      low ≤ integer ∧ integer ≤ high := by
  unfold saturate
  omega

/-- An integer in a smaller range is not cut off. -/
theorem saturate_of_mem
    {low high integer : Int}
    (above : -(2 ^ 127) < low)
    (below : high < 2 ^ 127 - 1)
    (inRange : low ≤ integer ∧ integer ≤ high) :
    saturate integer = integer := by
  unfold saturate
  omega

/-- The exact reading.  There are no bit patterns in it: the functions that read
or write them are constant. -/
instance : F64 ℚ where
  zero := 0
  nan := 0
  add left right := left + right
  sub left right := left - right
  mul left right := left * right
  div left right := left / right
  abs number := |number|
  round number := roundAway number
  eq left right := decide (left = right)
  lt left right := decide (left < right)
  isFinite _ := true
  ofInt integer := integer
  toInt number := saturate (truncate number)
  ofBits _ := 0
  toBits _ := 0
  ofSingleBits _ := 0
  toSingleBits _ := 0
  lt_congr equal other := by rw [of_decide_eq_true equal]
  isFinite_zero := rfl
  lt_zero_zero := rfl

end ExactRational
end TelemetryEdge
