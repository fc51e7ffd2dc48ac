import TelemetryEdge.Foundation.Significand

/-!
# Integers in double precision

Conversion from an integer rounds it to the nearest one with a significand of 53
bits.  On the numbers it yields, multiplication and division by one, addition
and subtraction of a zero, and rounding to an integer are exact.
-/

namespace TelemetryEdge
namespace Binary64

open FloatFormat

section Interface

-- A proof rewrites with these instead of unfolding the instance, which would
-- compute with powers as large as the unit.

variable (left right number : Binary64)

@[simp] theorem f64_add : F64.add left right = add left right := rfl

@[simp] theorem f64_sub : F64.sub left right = sub left right := rfl

@[simp] theorem f64_mul : F64.mul left right = mul left right := rfl

@[simp] theorem f64_div : F64.div left right = div left right := rfl

@[simp] theorem f64_round : F64.round number = roundToInteger number := rfl

@[simp] theorem f64_toInt : F64.toInt number = toInt number := rfl

@[simp] theorem f64_isFinite : F64.isFinite number = isFinite number := rfl

@[simp] theorem f64_ofInt (integer : Int) :
    (F64.ofInt integer : Binary64) = ofInt integer := rfl

end Interface

/-- The bits are below twice the sign bit. -/
theorem toNat_bits_lt (number : Binary64) :
    number.bits.toNat < double.signBit * 2 :=
  number.bits.toNat_lt

/-- The bits of a number with a sign and magnitude bits. -/
theorem toNat_ofMagnitude
    (negative : Bool)
    {magnitude : Nat}
    (small : magnitude < double.signBit) :
    (ofMagnitude negative magnitude).bits.toNat =
      (if negative then double.signBit else 0) + magnitude := by
  have width : double.signBit * 2 = 2 ^ 64 := rfl
  rw [ofMagnitude, UInt64.toNat_ofNat', ← width, Nat.mod_eq_of_lt]
  split <;> omega

@[simp] theorem negative_ofMagnitude
    (negative : Bool)
    {magnitude : Nat}
    (small : magnitude < double.signBit) :
    (ofMagnitude negative magnitude).negative = negative := by
  rw [Binary64.negative, toNat_ofMagnitude negative small]
  cases negative with
  | true => exact decide_eq_true (Nat.le_add_right _ _)
  | false =>
      apply decide_eq_false
      rw [if_neg Bool.false_ne_true]
      omega

@[simp] theorem magnitude_ofMagnitude
    (negative : Bool)
    {magnitude : Nat}
    (small : magnitude < double.signBit) :
    (ofMagnitude negative magnitude).magnitude = magnitude := by
  rw [Binary64.magnitude, toNat_ofMagnitude negative small]
  cases negative with
  | true => rw [if_pos rfl, Nat.add_mod_left, Nat.mod_eq_of_lt small]
  | false => rw [if_neg Bool.false_ne_true, Nat.zero_add, Nat.mod_eq_of_lt small]

/-- A number is its sign and its magnitude bits. -/
theorem ofMagnitude_magnitude (number : Binary64) :
    ofMagnitude number.negative number.magnitude = number := by
  have bounded := number.toNat_bits_lt
  have small : number.magnitude < double.signBit :=
    Nat.mod_lt _ (Nat.two_pow_pos _)
  have bits : (ofMagnitude number.negative number.magnitude).bits =
      number.bits := by
    apply UInt64.toNat_inj.mp
    rw [toNat_ofMagnitude number.negative small, Binary64.negative,
      Binary64.magnitude]
    by_cases signed : double.signBit ≤ number.bits.toNat
    · rw [decide_eq_true signed, if_pos rfl, Nat.mod_eq_sub_mod signed,
        Nat.mod_eq_of_lt (by omega)]
      omega
    · rw [decide_eq_false signed, if_neg Bool.false_ne_true,
        Nat.mod_eq_of_lt (Nat.lt_of_not_le signed), Nat.zero_add]
  exact congrArg Binary64.mk bits

/-- The multiple of the unit that a number stands for, without its sign. -/
@[simp] theorem natAbs_scaled (number : Binary64) :
    number.scaled.natAbs = double.multiple number.magnitude := by
  simp only [scaled]
  split
  · rw [Int.natAbs_neg, Int.natAbs_natCast]
  · exact Int.natAbs_natCast _

/-- Finite magnitude bits do not reach the sign bit. -/
theorem lt_signBit
    {magnitude : Nat}
    (finite : magnitude < double.infinityBits) :
    magnitude < double.signBit :=
  Nat.lt_trans finite (by decide)

theorem isFinite_ofMagnitude
    (negative : Bool)
    {magnitude : Nat}
    (finite : magnitude < double.infinityBits) :
    (ofMagnitude negative magnitude).isFinite = true := by
  rw [isFinite, magnitude_ofMagnitude negative (lt_signBit finite)]
  exact decide_eq_true finite

section Finite

variable
  {number : Binary64}
  (finite : number.isFinite = true)

include finite

theorem isNan_of_isFinite : number.isNan = false :=
  decide_eq_false (Nat.not_lt_of_lt (of_decide_eq_true finite))

theorem isInfinite_of_isFinite : number.isInfinite = false :=
  beq_false_of_ne (Nat.ne_of_lt (of_decide_eq_true finite))

end Finite

/-- The units of the smallest positive number in one. -/
def unit : Nat := 2 ^ double.unitExponent

theorem unit_pos : 0 < unit := Nat.two_pow_pos _

theorem two_pow_unitExponent : 2 ^ double.unitExponent = unit := rfl

theorem unit_cast : ((unit : Nat) : Int) = 2 ^ double.unitExponent :=
  Nat.cast_pow 2 double.unitExponent

/-- A positive factor keeps the sign. -/
private theorem mul_neg_iff_of_pos
    {integer factor : Int}
    (positive : 0 < factor) :
    integer * factor < 0 ↔ integer < 0 := by
  constructor
  · intro below
    exact Int.neg_of_mul_neg_left below positive
  · intro below
    exact Int.mul_neg_of_neg_of_pos below positive

/-- A finite number that is an integer; zero has the positive sign. -/
structure IsInteger (number : Binary64) (integer : Int) : Prop where
  finite : number.isFinite = true
  scaled : number.scaled = integer * unit
  negative : number.negative = decide (integer < 0)

/-- The constant `1.0`. -/
def one : Binary64 := ⟨0x3FF0000000000000⟩

theorem isFinite_one : one.isFinite = true := by decide

theorem scaled_one : one.scaled = unit := by decide +kernel

/-- Only one equals one. -/
theorem eq_one_of_eq
    {number : Binary64}
    (equal : eq number one = true) :
    number = one := by
  simp only [eq, Bool.and_eq_true, beq_iff_eq] at equal
  have ranks := equal.2
  have oneRank : one.rank = 1023 * 2 ^ 52 := by decide
  rw [oneRank, rank] at ranks
  rw [← ofMagnitude_magnitude number]
  split at ranks
  · omega
  · next positive =>
      have magnitude : number.magnitude = 1023 * 2 ^ 52 := by omega
      rw [magnitude, Bool.eq_false_of_not_eq_true positive]
      rfl

/-- A number that equals zero has no magnitude bits. -/
theorem magnitude_of_eq_zero
    {number : Binary64}
    (equal : eq number ⟨0⟩ = true) :
    number.magnitude = 0 := by
  simp only [eq, Bool.and_eq_true, beq_iff_eq] at equal
  have ranks := equal.2
  have zero : rank ⟨0⟩ = 0 := by decide
  rw [zero, rank] at ranks
  split at ranks
  · omega
  · omega

namespace IsInteger

section Exact

variable
  {number : Binary64}
  {integer : Int}
  (is : IsInteger number integer)

include is

/-- The magnitude bits stand for the absolute value. -/
theorem multiple_magnitude :
    double.multiple number.magnitude = integer.natAbs * unit := by
  rw [← natAbs_scaled, is.scaled, Int.natAbs_mul, Int.natAbs_natCast]

/-- Rounding the absolute value gives the magnitude bits. -/
theorem roundMagnitude_eq :
    double.roundMagnitude (integer.natAbs * unit) 1 = number.magnitude := by
  rw [← is.multiple_magnitude]
  exact roundMagnitude_multiple (by decide) (of_decide_eq_true is.finite)

/-- Rounding an exact result that is the number gives the number. -/
theorem round_eq
    {zeroNegative : Bool}
    (sign : integer = 0 → zeroNegative = false)
    {factor : Nat}
    (positive : 0 < factor) :
    round zeroNegative (number.scaled * factor) factor = number := by
  have factorPositive : (0 : Int) < factor := Int.natCast_pos.mpr positive
  have unitPositive : (0 : Int) < unit := Int.natCast_pos.mpr unit_pos
  have magnitude : double.roundMagnitude (number.scaled * factor).natAbs factor =
      number.magnitude := by
    have scaling := @roundMagnitude_mul_right double
      (integer.natAbs * unit) 1 factor positive
    rw [Nat.one_mul] at scaling
    rw [Int.natAbs_mul, Int.natAbs_natCast, natAbs_scaled,
      is.multiple_magnitude, scaling, is.roundMagnitude_eq]
  have negative : (if number.scaled * factor = 0 then zeroNegative
      else decide (number.scaled * factor < 0)) = number.negative := by
    rw [is.scaled, is.negative]
    by_cases zero : integer = 0
    · rw [zero, Int.zero_mul, Int.zero_mul, if_pos rfl, sign zero]
      rfl
    · have nonzero : integer * (unit : Int) * factor ≠ 0 :=
        Int.mul_ne_zero (Int.mul_ne_zero zero unitPositive.ne')
          factorPositive.ne'
      rw [if_neg nonzero]
      apply decide_eq_decide.mpr
      rw [mul_neg_iff_of_pos factorPositive, mul_neg_iff_of_pos unitPositive]
  simp only [round, magnitude, negative, ofMagnitude_magnitude]

/-- Rounding to an integer changes no integer. -/
theorem roundToInteger_eq : roundToInteger number = number := by
  have whole : (2 * (integer.natAbs * unit) + unit) / (2 * unit) =
      integer.natAbs := by
    calc
      _ = (2 * integer.natAbs + 1) * unit / (2 * unit) := by
          rw [Nat.add_mul, Nat.one_mul, Nat.mul_assoc]
      _ = (2 * integer.natAbs + 1) / 2 :=
          Nat.mul_div_mul_right _ _ unit_pos
      _ = integer.natAbs := by omega
  simp only [roundToInteger, is.finite, Bool.not_true, Bool.false_eq_true,
    if_false, natAbs_scaled, is.multiple_magnitude, two_pow_unitExponent]
  rw [whole, is.roundMagnitude_eq, ofMagnitude_magnitude]

/-- An integer in the `i128` range is converted to itself. -/
theorem toInt_eq
    (above : -(2 ^ 127) ≤ integer)
    (below : integer ≤ 2 ^ 127 - 1) :
    toInt number = integer := by
  have unitNonzero : (unit : Int) ≠ 0 := Int.natCast_ne_zero.mpr unit_pos.ne'
  have whole : number.scaled.tdiv (2 ^ double.unitExponent) = integer := by
    rw [is.scaled, ← unit_cast, Int.mul_tdiv_cancel _ unitNonzero]
  simp only [toInt, isNan_of_isFinite is.finite,
    isInfinite_of_isFinite is.finite, Bool.false_eq_true, if_false, whole]
  rw [min_eq_right below, max_eq_right above]

/-- Multiplication by one is exact. -/
theorem mul_one : mul number one = number := by
  have positive : one.negative = false := by decide
  simp only [mul, isNan_of_isFinite is.finite,
    isInfinite_of_isFinite is.finite, isNan_of_isFinite isFinite_one,
    isInfinite_of_isFinite isFinite_one, positive, scaled_one, Bool.or_self,
    Bool.bne_false, Bool.false_eq_true, if_false, two_pow_unitExponent]
  apply is.round_eq _ unit_pos
  intro zero
  rw [is.negative, zero]
  rfl

/-- Division by one is exact. -/
theorem div_one : div number one = number := by
  have positive : one.negative = false := by decide
  have nonzero : one.magnitude ≠ 0 := by decide
  have sign : (unit : Int).sign = 1 :=
    Int.sign_eq_one_of_pos (Int.natCast_pos.mpr unit_pos)
  simp only [div, isNan_of_isFinite is.finite,
    isInfinite_of_isFinite is.finite, isNan_of_isFinite isFinite_one,
    isInfinite_of_isFinite isFinite_one, positive, nonzero, scaled_one, sign,
    Bool.or_self, Bool.bne_false, Bool.false_eq_true, if_false, Int.mul_one,
    Int.natAbs_natCast, ← unit_cast]
  apply is.round_eq _ unit_pos
  intro zero
  rw [is.negative, zero]
  rfl

/-- Addition of a zero of either sign is exact. -/
theorem add_zero
    {zero : Binary64}
    (none : zero.magnitude = 0) :
    add number zero = number := by
  have finite : zero.isFinite = true := by
    rw [isFinite, none]
    decide
  have scaled : zero.scaled = 0 := by
    rw [← Int.natAbs_eq_zero, natAbs_scaled, none]
    rfl
  simp only [add, isNan_of_isFinite is.finite,
    isInfinite_of_isFinite is.finite, isNan_of_isFinite finite,
    isInfinite_of_isFinite finite, scaled, Bool.or_self, Bool.false_eq_true,
    if_false, Int.add_zero]
  rw [← Int.mul_one number.scaled, ← Nat.cast_one]
  apply is.round_eq _ Nat.one_pos
  intro zero
  rw [is.negative, zero]
  rfl

/-- Subtraction of a zero of either sign is exact. -/
theorem sub_zero
    {zero : Binary64}
    (none : zero.magnitude = 0) :
    sub number zero = number := by
  apply is.add_zero
  rw [neg, none]
  exact magnitude_ofMagnitude _ (by decide)

end Exact

end IsInteger

/-! ## Conversion -/

/-- The nearest integer with 53 significant bits, ties to even. -/
def nearestInteger (integer : Int) : Int :=
  if integer < 0 then -(double.nearestNumber integer.natAbs : Int)
  else double.nearestNumber integer.natAbs

theorem natAbs_nearestInteger (integer : Int) :
    (nearestInteger integer).natAbs = double.nearestNumber integer.natAbs := by
  rw [nearestInteger]
  split
  · rw [Int.natAbs_neg, Int.natAbs_natCast]
  · exact Int.natAbs_natCast _

/-- Rounding keeps exactly the integers with 53 significant bits. -/
theorem nearestInteger_eq_self_iff (integer : Int) :
    nearestInteger integer = integer ↔ double.Fits integer.natAbs := by
  rw [← nearestNumber_eq_self_iff (by decide), nearestInteger]
  split
  · omega
  · omega

/-- Rounding keeps the sign. -/
theorem nearestInteger_neg_iff (integer : Int) :
    nearestInteger integer < 0 ↔ integer < 0 := by
  rw [nearestInteger]
  split
  · next negative =>
      have nonzero : double.nearestNumber integer.natAbs ≠ 0 := by
        rw [Ne, nearestNumber_eq_zero_iff (by decide)]
        omega
      omega
  · omega

/-- The sign and the magnitude bits of a converted integer. -/
theorem ofInt_eq (integer : Int) :
    ofInt integer = ofMagnitude (decide (integer < 0))
      (double.roundMagnitude (integer.natAbs * unit) 1) := by
  have unitPositive : (0 : Int) < unit := Int.natCast_pos.mpr unit_pos
  have negative : (if integer * unit = 0 then false
      else decide (integer * unit < 0)) = decide (integer < 0) := by
    split
    · next none =>
        cases Int.mul_eq_zero.mp none with
        | inl zero =>
            rw [zero]
            rfl
        | inr zero => exact absurd zero unitPositive.ne'
    · exact decide_eq_decide.mpr (mul_neg_iff_of_pos unitPositive)
  simp only [ofInt, round, ← unit_cast, negative, Int.natAbs_mul,
    Int.natAbs_natCast]

/-- An integer of at most 64 bits is converted to the nearest one with 53
significant bits. -/
theorem isInteger_ofInt
    {integer : Int}
    (bounded : integer.natAbs ≤ 2 ^ 64) :
    IsInteger (ofInt integer) (nearestInteger integer) := by
  have below : integer.natAbs * unit <
      2 ^ (double.unitExponent + 12 + double.precision) := by
    have bits : 64 + double.unitExponent <
        double.unitExponent + 12 + double.precision := by decide
    calc
      _ ≤ 2 ^ 64 * 2 ^ double.unitExponent := Nat.mul_le_mul_right _ bounded
      _ = 2 ^ (64 + double.unitExponent) := by rw [Nat.pow_add]
      _ < _ := Nat.pow_lt_pow_right Nat.one_lt_two bits
  obtain ⟨finite, stands⟩ :=
    multiple_roundMagnitude (by decide) below (by decide)
  rw [unit, nearestNumber_mul_two_pow (by decide), two_pow_unitExponent]
    at stands
  rw [ofInt_eq]
  refine ⟨isFinite_ofMagnitude _ finite, ?_, ?_⟩
  · simp only [scaled, magnitude_ofMagnitude _ (lt_signBit finite),
      negative_ofMagnitude _ (lt_signBit finite), stands, nearestInteger,
      decide_eq_true_eq, Nat.cast_mul]
    split
    · rw [Int.neg_mul]
    · rfl
  · rw [negative_ofMagnitude _ (lt_signBit finite)]
    exact decide_eq_decide.mpr (nearestInteger_neg_iff integer).symm

/-- Converting an integer of at most 64 bits and back rounds it to 53
significant bits. -/
theorem toInt_ofInt
    {integer : Int}
    (bounded : integer.natAbs ≤ 2 ^ 64) :
    toInt (ofInt integer) = nearestInteger integer := by
  have small : (nearestInteger integer).natAbs ≤ 2 ^ 64 := by
    rw [natAbs_nearestInteger]
    exact nearestNumber_le_two_pow (by decide) bounded
  apply (isInteger_ofInt bounded).toInt_eq
  · omega
  · omega

end Binary64
end TelemetryEdge
