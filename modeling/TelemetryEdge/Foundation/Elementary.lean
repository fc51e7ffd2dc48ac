import TelemetryEdge.Foundation.Binary64
import TelemetryEdge.Foundation.ExactRational

/-!
# Comparisons, literals and elementary functions

The `f64` functions that can be written over the double-precision interface,
their meaning in exact arithmetic, and an interface for the remainder and the
sine.
-/

namespace TelemetryEdge

/-- The remainder, with the sign of the dividend. -/
def Binary64.rem (left right : Binary64) : Binary64 :=
  if left.isNan || right.isNan || left.isInfinite then nan
  else if right.magnitude = 0 then nan
  else if right.isInfinite then left
  else round left.negative (left.scaled.tmod right.scaled) 1

/-- `-7.5 % 2.0`. -/
example :
    (Binary64.rem ⟨0xC01E000000000000⟩ ⟨0x4000000000000000⟩).bits =
      0xBFF8000000000000 := by decide +kernel

namespace F64

section Derived

variable [F64 F]

/-- A decimal literal, as a fraction of integers. -/
def decimal (numerator denominator : Nat) : F :=
  F64.div (F64.ofInt numerator) (F64.ofInt denominator)

/-- `a <= b`. -/
def le (a b : F) : Bool := F64.lt a b || F64.eq a b

/-- `a.is_nan()`. -/
def isNan (a : F) : Bool := !F64.eq a a

/-- `a.min(b)`, which is the other one where one is not a number. -/
def min (a b : F) : F :=
  if isNan a then b
  else if isNan b then a
  else if F64.lt b a then b
  else a

/-- `a.max(b)`, which is the other one where one is not a number. -/
def max (a b : F) : F :=
  if isNan a then b
  else if isNan b then a
  else if F64.lt a b then b
  else a

/-- `a.clamp(low, high)`. -/
def clamp (a low high : F) : F :=
  if F64.lt a low then low
  else if F64.lt high a then high
  else a

end Derived

section Exact

variable (left right : ℚ)

@[simp] theorem zero_exact : (F64.zero : ℚ) = 0 := rfl

@[simp] theorem add_exact : F64.add left right = left + right := rfl

@[simp] theorem sub_exact : F64.sub left right = left - right := rfl

@[simp] theorem mul_exact : F64.mul left right = left * right := rfl

@[simp] theorem div_exact : F64.div left right = left / right := rfl

@[simp] theorem ofInt_exact (integer : Int) :
    (F64.ofInt integer : ℚ) = integer := rfl

@[simp] theorem lt_exact : F64.lt left right = decide (left < right) := rfl

@[simp] theorem eq_exact : F64.eq left right = decide (left = right) := rfl

@[simp] theorem decimal_exact (numerator denominator : Nat) :
    (decimal numerator denominator : ℚ) = numerator / denominator := rfl

@[simp] theorem le_exact : le left right = decide (left ≤ right) := by
  rw [le, lt_exact, eq_exact, ← Bool.decide_or]
  exact decide_eq_decide.mpr le_iff_lt_or_eq.symm

@[simp] theorem isNan_exact : isNan left = false := by
  rw [isNan, eq_exact, decide_eq_true rfl]
  rfl

@[simp] theorem min_exact : min left right = left ⊓ right := by
  simp only [min, isNan_exact, lt_exact, Bool.false_eq_true, if_false,
    decide_eq_true_eq]
  split
  · next less => exact (inf_eq_right.mpr less.le).symm
  · next notLess => exact (inf_eq_left.mpr (not_lt.mp notLess)).symm

@[simp] theorem max_exact : max left right = left ⊔ right := by
  simp only [max, isNan_exact, lt_exact, Bool.false_eq_true, if_false,
    decide_eq_true_eq]
  split
  · next less => exact (sup_eq_right.mpr less.le).symm
  · next notLess => exact (sup_eq_left.mpr (not_lt.mp notLess)).symm

/-- A clamped number lies between the bounds. -/
theorem clamp_exact_mem
    (number : ℚ)
    {low high : ℚ}
    (ordered : low ≤ high) :
    low ≤ clamp number low high ∧ clamp number low high ≤ high := by
  simp only [clamp, lt_exact, decide_eq_true_eq]
  split
  · exact ⟨le_refl low, ordered⟩
  · next above =>
      split
      · exact ⟨ordered, le_refl high⟩
      · next below => exact ⟨not_lt.mp above, not_lt.mp below⟩

/-- A number that is too low is clamped to the lower bound. -/
theorem clamp_exact_of_lt
    {number low : ℚ}
    (high : ℚ)
    (less : number < low) :
    clamp number low high = low := by
  simp only [clamp, lt_exact, decide_eq_true less, if_true]

end Exact

/-- The literals `0.5` and `0.65`, bit by bit, and a comparison with NaN. -/
example :
    (decimal 1 2 : Binary64).bits = 0x3FE0000000000000 ∧
      (decimal 65 100 : Binary64).bits = 0x3FE4CCCCCCCCCCCD ∧
      max (F64.zero : Binary64) Binary64.nan = F64.zero := by decide +kernel

end F64

/-- The remainder and the sine. -/
class Elementary (F : Type) where
  /-- `a % b`. -/
  rem : F → F → F
  /-- `a.sin()`. -/
  sin : F → F

/-- The sine lies between minus one and one. -/
def Elementary.SineBounded (elementary : Elementary ℚ) : Prop :=
  ∀ angle : ℚ, -1 ≤ elementary.sin angle ∧ elementary.sin angle ≤ 1

end TelemetryEdge
