import TelemetryEdge.Foundation.Binary64Fraction

/-!
# Signs in double precision

A fraction that is not zero is not rounded to zero, unless it is smaller than the
smallest positive number; so a clear difference, divided by a small integer,
keeps its sign.  A maximum is a number that is not below its bound.
-/

namespace TelemetryEdge
namespace FloatFormat

/-- A fraction of at least one unit is not rounded to zero. -/
theorem roundMagnitude_pos
    {format : FloatFormat}
    (positive : 0 < format.precision)
    (wide : 0 < format.infinityBits)
    {numerator denominator : Nat}
    (nonzero : 0 < denominator)
    (reaches : denominator ≤ numerator) :
    0 < format.roundMagnitude numerator denominator := by
  have whole : 1 ≤ numerator / denominator :=
    (Nat.one_le_div_iff nonzero).mpr reaches
  have shifted : 1 ≤ numerator / (denominator *
      2 ^ (Nat.log2 (numerator / denominator) + 1 - format.precision)) := by
    rw [← Nat.div_div_eq_div_mul]
    apply (Nat.one_le_div_iff (Nat.two_pow_pos _)).mpr
    apply Nat.le_trans _ (Nat.log2_self_le (Nat.ne_of_gt whole))
    exact Nat.pow_le_pow_right Nat.two_pos (by omega)
  have rounded := Nat.le_trans shifted (div_le_nearestEven _ _)
  rw [roundMagnitude, if_neg (Nat.ne_of_gt whole)]
  exact Nat.lt_min.mpr ⟨by omega, wide⟩

end FloatFormat

namespace Binary64

open FloatFormat

/-- A number with the negative sign and some magnitude is below zero. -/
theorem lt_zero_ofMagnitude
    {magnitude : Nat}
    (positive : 0 < magnitude)
    (bounded : magnitude ≤ double.infinityBits) :
    lt (ofMagnitude true magnitude) ⟨0⟩ = true := by
  have small : magnitude < double.signBit :=
    Nat.lt_of_le_of_lt bounded (by decide)
  have number : (ofMagnitude true magnitude).isNan = false := by
    rw [isNan, magnitude_ofMagnitude true small]
    exact decide_eq_false (Nat.not_lt_of_le bounded)
  have zeroNumber : isNan ⟨0⟩ = false := by decide
  have zeroRank : rank ⟨0⟩ = 0 := by decide
  have ranked : (ofMagnitude true magnitude).rank = -magnitude := by
    rw [rank, negative_ofMagnitude true small, if_pos rfl,
      magnitude_ofMagnitude true small]
  rw [lt, number, zeroNumber, zeroRank, ranked, decide_eq_true (by omega)]
  rfl

/-- A negative fraction of at least one unit is rounded to a number below
zero. -/
theorem lt_zero_round
    {numerator : Int}
    {denominator : Nat}
    (zeroNegative : Bool)
    (nonzero : 0 < denominator)
    (reaches : numerator ≤ -denominator) :
    lt (round zeroNegative numerator denominator) ⟨0⟩ = true := by
  have negative : numerator < 0 := by omega
  rw [round, if_neg (Int.ne_of_lt negative), decide_eq_true negative]
  exact lt_zero_ofMagnitude
    (roundMagnitude_pos (by decide) (by decide) nonzero (by omega))
    (Nat.min_le_right _ _)

/-- A number below zero that is not infinite and has some units, divided by a
small integer, is below zero. -/
theorem lt_zero_div
    {number divisor : Binary64}
    {integer : Nat}
    (isDivisor : IsInteger divisor integer)
    (positive : 0 < integer)
    (isNumber : number.isNan = false)
    (signed : number.negative = true)
    (reaches : number.isInfinite = false → number.scaled ≤ -integer) :
    lt (div number divisor) ⟨0⟩ = true := by
  have divisorSign : divisor.negative = false := by
    rw [isDivisor.negative]
    exact decide_eq_false (by omega)
  have scaledPositive : 0 < integer * unit := Nat.mul_pos positive unit_pos
  have divisorScaled : divisor.scaled = (integer * unit : Nat) := by
    rw [isDivisor.scaled, Nat.cast_mul]
  have nonzero : divisor.magnitude ≠ 0 := by
    intro zero
    have stands := natAbs_scaled divisor
    have none : double.multiple 0 = 0 := by decide
    rw [zero, none, divisorScaled, Int.natAbs_natCast] at stands
    omega
  have signum : ((integer * unit : Nat) : Int).sign = 1 :=
    Int.sign_eq_one_of_pos (Int.natCast_pos.mpr scaledPositive)
  cases infinite : number.isInfinite with
  | true =>
      have quotient : div number divisor = infinity true := by
        simp only [div, isNumber, infinite, isNan_of_isFinite isDivisor.finite,
          isInfinite_of_isFinite isDivisor.finite, signed, divisorSign]
        rfl
      rw [quotient]
      exact lt_zero_ofMagnitude (by decide) (Nat.le_refl _)
  | false =>
      have quotient : div number divisor =
          round true (number.scaled * (unit : Int)) (integer * unit) := by
        simp only [div, isNumber, infinite, isNan_of_isFinite isDivisor.finite,
          isInfinite_of_isFinite isDivisor.finite, signed, divisorSign, nonzero,
          divisorScaled, signum, Int.mul_one, Int.natAbs_natCast, ← unit_cast,
          Bool.or_self, Bool.false_eq_true, if_false, Bool.bne_false]
      rw [quotient]
      apply lt_zero_round true scaledPositive
      have scaled := Int.mul_le_mul_of_nonneg_right (reaches infinite)
        (Int.natCast_nonneg unit)
      rw [Nat.cast_mul]
      rwa [Int.neg_mul] at scaled

/-- A finite number that is ten units or more below another one leaves a negative
difference of ten units or more. -/
theorem sub_of_apart
    {left right : Binary64}
    (leftFinite : left.isFinite = true)
    (rightFinite : right.isFinite = true)
    (apart : left.scaled + 10 ≤ right.scaled) :
    (sub left right).isNan = false ∧ (sub left right).negative = true ∧
      ((sub left right).isInfinite = false →
        (sub left right).scaled ≤ -(10 : Nat)) := by
  have negFinite := isFinite_neg rightFinite
  have negative : left.scaled - right.scaled < 0 := by omega
  have difference : sub left right = ofMagnitude true
      (double.roundMagnitude (left.scaled - right.scaled).natAbs 1) := by
    simp only [sub, add, isNan_of_isFinite leftFinite,
      isInfinite_of_isFinite leftFinite, isNan_of_isFinite negFinite,
      isInfinite_of_isFinite negFinite, scaled_neg, ← Int.sub_eq_add_neg,
      Bool.or_self, Bool.false_eq_true, if_false, round,
      if_neg (Int.ne_of_lt negative), decide_eq_true negative]
  have bounded : double.roundMagnitude (left.scaled - right.scaled).natAbs 1 ≤
      double.infinityBits := Nat.min_le_right _ _
  have small := Nat.lt_of_le_of_lt bounded
    (by decide : double.infinityBits < double.signBit)
  have reaches : 10 ≤
      double.roundMagnitude (left.scaled - right.scaled).natAbs 1 := by
    have ten : double.roundMagnitude 10 1 = 10 := by decide
    have grows : double.roundMagnitude 10 1 ≤
        double.roundMagnitude (left.scaled - right.scaled).natAbs 1 :=
      roundMagnitude_mono (by decide) (by omega)
    rwa [ten] at grows
  rw [difference]
  refine ⟨?_, negative_ofMagnitude true small, fun _ => ?_⟩
  · rw [isNan, magnitude_ofMagnitude true small]
    exact decide_eq_false (Nat.not_lt_of_le bounded)
  · have ten : double.multiple 10 = 10 := by decide
    have grows : double.multiple 10 ≤ double.multiple
        (double.roundMagnitude (left.scaled - right.scaled).natAbs 1) := by
      apply Nat.le_of_not_lt
      rw [multiple_lt_iff bounded (by decide)]
      exact Nat.not_lt_of_le reaches
    rw [ten] at grows
    rw [scaled, negative_ofMagnitude true small, if_pos rfl,
      magnitude_ofMagnitude true small]
    omega

/-- A number that is not finite is not a number or infinite. -/
theorem isInfinite_of_not_isFinite
    {number : Binary64}
    (isNumber : number.isNan = false)
    (notFinite : number.isFinite = false) :
    number.isInfinite = true :=
  beq_iff_eq.mpr (Nat.le_antisymm (Nat.le_of_not_lt (of_decide_eq_false isNumber))
    (Nat.le_of_not_lt (of_decide_eq_false notFinite)))

/-- An infinite number is beyond all finite ones. -/
theorem lt_of_isInfinite
    {number bound : Binary64}
    (infinite : number.isInfinite = true)
    (finite : bound.isFinite = true) :
    lt number bound = number.negative ∧ lt bound number = !number.negative := by
  have top : number.magnitude = double.infinityBits := beq_iff_eq.mp infinite
  have isNumber : number.isNan = false := by
    rw [isNan, top]
    exact decide_eq_false (Nat.lt_irrefl _)
  have below : bound.magnitude < double.infinityBits := of_decide_eq_true finite
  rw [lt, lt, isNumber, isNan_of_isFinite finite, rank, rank, top]
  cases number.negative with
  | true =>
      have less : -(double.infinityBits : Int) <
          if bound.negative then -(bound.magnitude : Int)
          else bound.magnitude := by
        split <;> omega
      have notGreater : ¬ (if bound.negative then -(bound.magnitude : Int)
          else bound.magnitude) < -(double.infinityBits : Int) := by
        omega
      simp only [if_true, decide_eq_true less, decide_eq_false notGreater]
      exact ⟨rfl, rfl⟩
  | false =>
      have greater : (if bound.negative then -(bound.magnitude : Int)
          else bound.magnitude) < (double.infinityBits : Int) := by
        split <;> omega
      have notLess : ¬ (double.infinityBits : Int) <
          if bound.negative then -(bound.magnitude : Int)
          else bound.magnitude := by
        omega
      simp only [Bool.false_eq_true, if_false, decide_eq_true greater,
        decide_eq_false notLess]
      exact ⟨rfl, rfl⟩

section Tenths

variable
  {number bound other divisor : Binary64}
  (boundFinite : bound.isFinite = true)
  (otherFinite : other.isFinite = true)
  (isDivisor : IsInteger divisor 10)

include boundFinite otherFinite isDivisor

/-- A tenth of the difference from a number below a bound to a finite one clearly
above the bound is below zero. -/
theorem lt_zero_div_sub_of_lt
    (below : lt number bound = true)
    (apart : bound.scaled + 10 ≤ other.scaled) :
    lt (div (sub number other) divisor) ⟨0⟩ = true := by
  have isNumber : number.isNan = false := by
    rw [lt, Bool.and_eq_true, Bool.and_eq_true, Bool.not_eq_true'] at below
    exact below.1.1
  cases finite : number.isFinite with
  | true =>
      have less := (lt_iff_scaled_lt finite boundFinite).mp below
      obtain ⟨difference, signed, reaches⟩ :=
        sub_of_apart finite otherFinite (by omega)
      exact lt_zero_div isDivisor (by decide) difference signed reaches
  | false =>
      have infinite := isInfinite_of_not_isFinite isNumber finite
      have signed : number.negative = true := by
        rw [← (lt_of_isInfinite infinite boundFinite).1]
        exact below
      have negFinite := isFinite_neg otherFinite
      have difference : sub number other = number := by
        simp only [sub, add, isNumber, infinite, isNan_of_isFinite negFinite,
          isInfinite_of_isFinite negFinite, Bool.or_self, Bool.false_and,
          Bool.false_eq_true, if_false, if_true]
      rw [difference]
      exact lt_zero_div isDivisor (by decide) isNumber signed
        fun notInfinite => by
          rw [infinite] at notInfinite
          cases notInfinite

/-- A tenth of the difference from a finite number clearly below a bound to one
that is not below the bound is below zero. -/
theorem lt_zero_div_sub_of_not_lt
    (isNumber : number.isNan = false)
    (above : lt number bound = false)
    (apart : other.scaled + 10 ≤ bound.scaled) :
    lt (div (sub other number) divisor) ⟨0⟩ = true := by
  cases finite : number.isFinite with
  | true =>
      have notLess : ¬ number.scaled < bound.scaled := by
        rw [← lt_iff_scaled_lt finite boundFinite, above]
        exact Bool.false_ne_true
      obtain ⟨difference, signed, reaches⟩ :=
        sub_of_apart otherFinite finite (by omega)
      exact lt_zero_div isDivisor (by decide) difference signed reaches
  | false =>
      have infinite := isInfinite_of_not_isFinite isNumber finite
      have sign : number.negative = false := by
        rw [← (lt_of_isInfinite infinite boundFinite).1]
        exact above
      have negNumber : (neg number).isNan = false := by
        rw [isNan, magnitude_neg]
        exact isNumber
      have negInfinite : (neg number).isInfinite = true := by
        rw [isInfinite, magnitude_neg]
        exact infinite
      have difference : sub other number = neg number := by
        simp only [sub, add, negNumber, negInfinite,
          isNan_of_isFinite otherFinite, isInfinite_of_isFinite otherFinite,
          Bool.or_self, Bool.false_eq_true, if_false, if_true]
      rw [difference]
      refine lt_zero_div isDivisor (by decide) negNumber ?_ fun notInfinite => ?_
      · rw [negative_neg, sign]
        rfl
      · rw [negInfinite] at notInfinite
        cases notInfinite

end Tenths

end Binary64
end TelemetryEdge
