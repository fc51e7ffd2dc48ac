import Mathlib.Tactic.ByContra
import Mathlib.Tactic.SplitIfs
import TelemetryEdge.Foundation.Binary64Integer

/-!
# Differences in double precision

Rounding keeps the order.  So a difference that comes out at most as large as a
given number is, before rounding, smaller than the next representable number;
and a number does not differ from itself.
-/

namespace TelemetryEdge
namespace FloatFormat

/-- The nearest integer grows with the numerator. -/
theorem nearestEven_mono
    {numerator larger : Nat}
    (denominator : Nat)
    (ordered : numerator ≤ larger) :
    nearestEven numerator denominator ≤ nearestEven larger denominator := by
  have wholes := Nat.div_le_div_right (c := denominator) ordered
  cases Nat.lt_or_eq_of_le wholes with
  | inl less =>
      calc
        _ ≤ numerator / denominator + 1 :=
            nearestEven_le_div_succ numerator denominator
        _ ≤ larger / denominator := less
        _ ≤ _ := div_le_nearestEven larger denominator
  | inr same =>
      have smallSplit := Nat.div_add_mod numerator denominator
      have largeSplit := Nat.div_add_mod larger denominator
      rw [same] at smallSplit
      have remainders : numerator % denominator ≤ larger % denominator := by
        omega
      have parity := Nat.mod_lt (larger / denominator) Nat.two_pos
      simp only [nearestEven, same]
      split_ifs <;> omega

variable {format : FloatFormat}

/-- More bits are in excess of larger numbers. -/
theorem excessBits_mono
    {number larger : Nat}
    (ordered : number ≤ larger) :
    format.excessBits number ≤ format.excessBits larger := by
  by_cases zero : number = 0
  · rw [zero, excessBits, Nat.log2_zero]
    unfold excessBits
    omega
  · have nonzero : larger ≠ 0 := by omega
    have bits : number.log2 ≤ larger.log2 :=
      (Nat.le_log2 nonzero).mpr (Nat.le_trans (Nat.log2_self_le zero) ordered)
    unfold excessBits
    omega

/-- Magnitude bits grow with the number they are rounded from. -/
theorem roundMagnitude_mono
    (positive : 0 < format.precision)
    {number larger : Nat}
    (ordered : number ≤ larger) :
    format.roundMagnitude number 1 ≤ format.roundMagnitude larger 1 := by
  rw [roundMagnitude_one positive, roundMagnitude_one positive]
  apply min_le_min_right
  have excess : format.excessBits number ≤ format.excessBits larger :=
    excessBits_mono ordered
  cases Nat.lt_or_eq_of_le excess with
  | inr same =>
      rw [same]
      exact Nat.add_le_add_left (nearestEven_mono _ ordered) _
  | inl less =>
      -- The larger number has its leading bit one place higher at least.
      have shifted := nearestEven_shifted_le format number
      have nonzero : format.excessBits larger ≠ 0 := by omega
      have leading := Nat.le_trans (le_shifted positive nonzero)
        (div_le_nearestEven _ _)
      rw [← Nat.two_pow_pred_mul_two positive] at shifted
      generalize 2 ^ (format.precision - 1) = leadingBit at *
      calc
        _ ≤ format.excessBits number * leadingBit + leadingBit * 2 :=
            Nat.add_le_add_left shifted _
        _ = (format.excessBits number + 1) * leadingBit + leadingBit := by
            rw [Nat.succ_mul]
            omega
        _ ≤ format.excessBits larger * leadingBit + leadingBit :=
            Nat.add_le_add_right (Nat.mul_le_mul_right _ less) _
        _ ≤ _ := Nat.add_le_add_left leading _

end FloatFormat

namespace Binary64

open FloatFormat

/-- The number with the other sign is as large. -/
theorem magnitude_neg (number : Binary64) :
    (neg number).magnitude = number.magnitude :=
  magnitude_ofMagnitude _ (Nat.mod_lt _ (Nat.two_pow_pos _))

theorem negative_neg (number : Binary64) :
    (neg number).negative = !number.negative :=
  negative_ofMagnitude _ (Nat.mod_lt _ (Nat.two_pow_pos _))

/-- The number with the other sign stands for the opposite. -/
theorem scaled_neg (number : Binary64) :
    (neg number).scaled = -number.scaled := by
  simp only [scaled, magnitude_neg, negative_neg]
  cases number.negative with
  | false => rfl
  | true => exact (Int.neg_neg _).symm

theorem magnitude_abs (number : Binary64) :
    (abs number).magnitude = number.magnitude :=
  magnitude_ofMagnitude _ (Nat.mod_lt _ (Nat.two_pow_pos _))

theorem negative_abs (number : Binary64) : (abs number).negative = false :=
  negative_ofMagnitude _ (Nat.mod_lt _ (Nat.two_pow_pos _))

theorem isFinite_neg
    {number : Binary64}
    (finite : number.isFinite = true) :
    (neg number).isFinite = true := by
  rw [isFinite, magnitude_neg]
  exact finite

/-- Magnitude bits of the difference of finite numbers. -/
theorem magnitude_abs_sub
    {left right : Binary64}
    (leftFinite : left.isFinite = true)
    (rightFinite : right.isFinite = true) :
    (abs (sub left right)).magnitude =
      double.roundMagnitude (left.scaled - right.scaled).natAbs 1 := by
  have negFinite := isFinite_neg rightFinite
  have small : double.roundMagnitude (left.scaled - right.scaled).natAbs 1 <
      double.signBit := by
    rw [roundMagnitude_one (by decide)]
    exact Nat.lt_of_le_of_lt (Nat.min_le_right _ _) (by decide)
  simp only [magnitude_abs, sub, add, isNan_of_isFinite leftFinite,
    isInfinite_of_isFinite leftFinite, isNan_of_isFinite negFinite,
    isInfinite_of_isFinite negFinite, scaled_neg, ← Int.sub_eq_add_neg,
    Bool.or_self, Bool.false_eq_true, if_false, round]
  exact magnitude_ofMagnitude _ small

/-- A number that is not finite does not have a difference with itself. -/
theorem isNan_abs_sub_self
    {number : Binary64}
    (notFinite : number.isFinite = false) :
    (abs (sub number number)).isNan = true := by
  have reaches : double.infinityBits ≤ number.magnitude :=
    Nat.le_of_not_lt (of_decide_eq_false notFinite)
  have invalid : sub number number = nan := by
    rw [sub, add]
    cases notNumber : number.isNan with
    | true => rfl
    | false =>
        have infinite : number.magnitude = double.infinityBits :=
          Nat.le_antisymm (Nat.le_of_not_lt (of_decide_eq_false notNumber))
            reaches
        have isInfinite : number.isInfinite = true := beq_iff_eq.mpr infinite
        have negInfinite : (neg number).isInfinite = true := by
          rw [Binary64.isInfinite, magnitude_neg]
          exact isInfinite
        have negNumber : (neg number).isNan = false := by
          rw [isNan, magnitude_neg]
          exact notNumber
        simp [isInfinite, negInfinite, negNumber, negative_neg]
  rw [invalid]
  decide

/-- A number does not differ from itself by more than a bound that is not
negative. -/
theorem lt_abs_sub_self
    {bound : Binary64}
    (positive : lt bound ⟨0⟩ = false)
    (number : Binary64) :
    lt bound (abs (sub number number)) = false := by
  cases finite : number.isFinite with
  | false => simp [lt, isNan_abs_sub_self finite]
  | true =>
      have none : (abs (sub number number)).magnitude = 0 := by
        rw [magnitude_abs_sub finite finite, Int.sub_self]
        decide
      have rank : (abs (sub number number)).rank = rank ⟨0⟩ := by
        rw [Binary64.rank, negative_abs, none]
        decide
      have isNan : (abs (sub number number)).isNan = isNan ⟨0⟩ := by
        rw [Binary64.isNan, none]
        decide
      rw [← positive, lt, lt, rank, isNan]

/-- Positions do not reach above the magnitude bits. -/
theorem rank_le_magnitude (number : Binary64) :
    number.rank ≤ number.magnitude := by
  rw [rank]
  split <;> omega

/-- Rounding gives magnitude bits back, also those of infinity. -/
theorem roundMagnitude_multiple_of_le
    {magnitude : Nat}
    (finite : magnitude ≤ double.infinityBits) :
    double.roundMagnitude (double.multiple magnitude) 1 = magnitude := by
  cases Nat.lt_or_eq_of_le finite with
  | inl less => exact roundMagnitude_multiple (by decide) less
  | inr same =>
      rw [same]
      decide +kernel

/-- A difference of finite numbers that comes out at most as large as a bound is
smaller than the next number above the bound. -/
theorem natAbs_sub_lt_of_not_lt
    {left right bound : Binary64}
    (leftFinite : left.isFinite = true)
    (rightFinite : right.isFinite = true)
    (boundFinite : bound.isFinite = true)
    (within : lt bound (abs (sub left right)) = false) :
    (left.scaled - right.scaled).natAbs <
      double.multiple (bound.magnitude + 1) := by
  by_contra reaches
  have rounded := magnitude_abs_sub leftFinite rightFinite
  have next : bound.magnitude + 1 ≤
      double.roundMagnitude (left.scaled - right.scaled).natAbs 1 := by
    have representable : bound.magnitude + 1 ≤ double.infinityBits :=
      of_decide_eq_true boundFinite
    rw [← roundMagnitude_multiple_of_le representable]
    exact roundMagnitude_mono (by decide) (Nat.le_of_not_lt reaches)
  have capped : double.roundMagnitude (left.scaled - right.scaled).natAbs 1 ≤
      double.infinityBits := Nat.min_le_right _ _
  have isNumber : (abs (sub left right)).isNan = false := by
    rw [isNan, rounded]
    exact decide_eq_false (Nat.not_lt_of_le capped)
  have ordered : (abs (sub left right)).rank ≤ bound.rank := by
    rw [lt, isNan_of_isFinite boundFinite, isNumber] at within
    exact Int.not_lt.mp (of_decide_eq_false within)
  have position : (abs (sub left right)).rank =
      (double.roundMagnitude (left.scaled - right.scaled).natAbs 1 : Nat) := by
    rw [rank, negative_abs, rounded]
    rfl
  have bounded := rank_le_magnitude bound
  omega

end Binary64
end TelemetryEdge
