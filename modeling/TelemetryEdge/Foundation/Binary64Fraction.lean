import TelemetryEdge.Foundation.Binary64Difference

/-!
# Binary fractions in double precision

The order of finite numbers is that of the multiples they stand for, and an
integer divided by a power of two is exact.
-/

namespace TelemetryEdge
namespace Binary64

open FloatFormat

@[simp] theorem f64_lt (left right : Binary64) :
    F64.lt left right = lt left right := rfl

/-- Magnitude bits that stand for a larger multiple are larger. -/
theorem le_of_multiple_le
    {left right : Nat}
    (leftFinite : left ≤ double.infinityBits)
    (rightFinite : right ≤ double.infinityBits)
    (ordered : double.multiple left ≤ double.multiple right) :
    left ≤ right := by
  have rounded : double.roundMagnitude (double.multiple left) 1 ≤
      double.roundMagnitude (double.multiple right) 1 :=
    roundMagnitude_mono (by decide) ordered
  rwa [roundMagnitude_multiple_of_le leftFinite,
    roundMagnitude_multiple_of_le rightFinite] at rounded

/-- The order of magnitude bits is that of the multiples they stand for. -/
theorem multiple_lt_iff
    {left right : Nat}
    (leftFinite : left ≤ double.infinityBits)
    (rightFinite : right ≤ double.infinityBits) :
    double.multiple left < double.multiple right ↔ left < right := by
  constructor
  · intro less
    by_contra notLess
    cases Nat.lt_or_eq_of_le (Nat.le_of_not_lt notLess) with
    | inl greater =>
        have backwards := le_of_multiple_le leftFinite rightFinite
          (Nat.le_of_lt less)
        omega
    | inr same =>
        rw [same] at less
        exact Nat.lt_irrefl _ less
  · intro less
    by_contra notLess
    have backwards := le_of_multiple_le rightFinite leftFinite
      (Nat.le_of_not_lt notLess)
    omega

/-- The order of finite numbers is that of the multiples they stand for. -/
theorem lt_iff_scaled_lt
    {left right : Binary64}
    (leftFinite : left.isFinite = true)
    (rightFinite : right.isFinite = true) :
    lt left right = true ↔ left.scaled < right.scaled := by
  have leftBound : left.magnitude ≤ double.infinityBits :=
    Nat.le_of_lt (of_decide_eq_true leftFinite)
  have rightBound : right.magnitude ≤ double.infinityBits :=
    Nat.le_of_lt (of_decide_eq_true rightFinite)
  have zero : double.multiple 0 = 0 := by decide
  have less := multiple_lt_iff leftBound rightBound
  have greater := multiple_lt_iff rightBound leftBound
  have leftPositive := multiple_lt_iff (Nat.zero_le _) leftBound
  have rightPositive := multiple_lt_iff (Nat.zero_le _) rightBound
  rw [zero] at leftPositive rightPositive
  have ordered : lt left right = decide (left.rank < right.rank) := by
    rw [lt, isNan_of_isFinite leftFinite, isNan_of_isFinite rightFinite]
    rfl
  rw [ordered, decide_eq_true_iff]
  simp only [rank, scaled]
  split_ifs <;> omega

/-- An integer with the bits of the significand is converted exactly. -/
theorem isInteger_ofInt_of_fits
    {integer : Nat}
    (bounded : integer ≤ 2 ^ 64)
    (fits : double.Fits integer) :
    IsInteger (ofInt integer) integer := by
  have exact : nearestInteger integer = integer :=
    (nearestInteger_eq_self_iff integer).mpr fits
  have converted := @isInteger_ofInt integer bounded
  rwa [exact] at converted

/-- A fraction that is not negative is rounded to a number with the positive
sign. -/
theorem round_natCast (numerator denominator : Nat) :
    round false numerator denominator =
      ofMagnitude false (double.roundMagnitude numerator denominator) := by
  have positive : ¬ (numerator : Int) < 0 := by omega
  rw [round, Int.natAbs_natCast, decide_eq_false positive, ite_self]

/-- The quotient of natural numbers is the rounded fraction. -/
theorem div_of_isInteger
    {left right : Binary64}
    {numerator denominator : Nat}
    (isLeft : IsInteger left numerator)
    (isRight : IsInteger right denominator)
    (positive : 0 < denominator) :
    div left right =
      ofMagnitude false (double.roundMagnitude (numerator * unit) denominator) := by
  have leftSign : left.negative = false := by
    rw [isLeft.negative]
    exact decide_eq_false (by omega)
  have rightSign : right.negative = false := by
    rw [isRight.negative]
    exact decide_eq_false (by omega)
  have scaledPositive : 0 < denominator * unit := Nat.mul_pos positive unit_pos
  have rightScaled : right.scaled = (denominator * unit : Nat) := by
    rw [isRight.scaled, Nat.cast_mul]
  have rightSignum : ((denominator * unit : Nat) : Int).sign = 1 :=
    Int.sign_eq_one_of_pos (Int.natCast_pos.mpr scaledPositive)
  have nonzero : right.magnitude ≠ 0 := by
    intro zero
    have stands := natAbs_scaled right
    have none : double.multiple 0 = 0 := by decide
    rw [zero, none, rightScaled, Int.natAbs_natCast] at stands
    omega
  have numeratorEq : left.scaled * (unit : Int) =
      (numerator * unit * unit : Nat) := by
    rw [isLeft.scaled, Nat.cast_mul, Nat.cast_mul]
  simp only [div, isNan_of_isFinite isLeft.finite,
    isInfinite_of_isFinite isLeft.finite, isNan_of_isFinite isRight.finite,
    isInfinite_of_isFinite isRight.finite, leftSign, rightSign, nonzero,
    rightScaled, rightSignum, Int.mul_one, Int.natAbs_natCast, ← unit_cast,
    numeratorEq, bne_self_eq_false, Bool.or_self, Bool.false_eq_true, if_false]
  rw [round_natCast, roundMagnitude_mul_right _ _ unit_pos]

/-- A rounded number that fits stands for itself. -/
theorem scaled_ofMagnitude_of_fits
    {number exponent : Nat}
    (fits : double.Fits number)
    (below : number < 2 ^ (exponent + double.precision))
    (finite : exponent + 2 < 2 ^ double.exponentBits - 1) :
    (ofMagnitude false (double.roundMagnitude number 1)).isFinite = true ∧
      (ofMagnitude false (double.roundMagnitude number 1)).scaled = number := by
  obtain ⟨magnitudeFinite, stands⟩ :=
    multiple_roundMagnitude (by decide) below finite
  rw [nearestNumber_of_fits (by decide) fits] at stands
  refine ⟨isFinite_ofMagnitude false magnitudeFinite, ?_⟩
  rw [scaled, negative_ofMagnitude false (lt_signBit magnitudeFinite),
    magnitude_ofMagnitude false (lt_signBit magnitudeFinite), stands]
  rfl

/-- An integer with the bits of the significand is divided by a power of two
exactly. -/
theorem scaled_div_two_pow
    {numerator exponent : Nat}
    (significant : numerator < 2 ^ 53)
    (small : exponent ≤ 64) :
    (div (ofInt numerator) (ofInt (2 ^ exponent : Nat))).isFinite = true ∧
      (div (ofInt numerator) (ofInt (2 ^ exponent : Nat))).scaled =
        (numerator * 2 ^ (double.unitExponent - exponent) : Nat) := by
  have numeratorFits : double.Fits numerator :=
    ⟨numerator, 0, significant, by simp⟩
  have denominatorFits : double.Fits (2 ^ exponent) :=
    ⟨1, exponent, by decide, (Nat.one_mul _).symm⟩
  have units : numerator * unit =
      numerator * 2 ^ (double.unitExponent - exponent) * 2 ^ exponent := by
    have wide : exponent ≤ double.unitExponent := Nat.le_trans small (by decide)
    rw [Nat.mul_assoc, ← Nat.pow_add, Nat.sub_add_cancel wide, unit]
  have below : numerator * 2 ^ (double.unitExponent - exponent) <
      2 ^ (double.unitExponent - exponent + double.precision) := by
    rw [Nat.pow_add, Nat.mul_comm]
    exact Nat.mul_lt_mul_of_pos_left significant (Nat.two_pow_pos _)
  have finite : double.unitExponent - exponent + 2 <
      2 ^ double.exponentBits - 1 :=
    Nat.lt_of_le_of_lt (Nat.add_le_add_right (Nat.sub_le _ _) 2) (by decide)
  have scaling := @roundMagnitude_mul_right double
    (numerator * 2 ^ (double.unitExponent - exponent)) 1 (2 ^ exponent)
    (Nat.two_pow_pos exponent)
  rw [Nat.one_mul] at scaling
  rw [div_of_isInteger (isInteger_ofInt_of_fits (by omega) numeratorFits)
    (isInteger_ofInt_of_fits (Nat.pow_le_pow_right Nat.two_pos small)
      denominatorFits) (Nat.two_pow_pos exponent), units, scaling]
  exact scaled_ofMagnitude_of_fits ⟨numerator, _, significant, rfl⟩ below finite

end Binary64
end TelemetryEdge
