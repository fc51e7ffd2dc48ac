import Mathlib.Tactic.ByContra
import TelemetryEdge.Foundation.Binary64Integer

/-!
# Numbers that operations leave alone

A finite number times one, divided by one and plus zero is itself, apart from
the sign of zero.  A number of the smaller format is a number of the larger one,
and converting it there and back gives its bits again.
-/

namespace TelemetryEdge
namespace FloatFormat

variable {format : FloatFormat}

@[simp] theorem multiple_zero : format.multiple 0 = 0 := by
  rw [multiple, Nat.zero_div, if_pos rfl, Nat.zero_mod]

@[simp] theorem roundMagnitude_zero : format.roundMagnitude 0 1 = 0 := by
  simp [roundMagnitude, nearestEven]

/-- Only the magnitude bits of zero stand for zero. -/
theorem multiple_eq_zero_iff
    (positive : 0 < format.precision)
    {magnitude : Nat}
    (finite : magnitude < format.infinityBits) :
    format.multiple magnitude = 0 ↔ magnitude = 0 := by
  constructor
  · intro zero
    rw [← roundMagnitude_multiple positive finite, zero, roundMagnitude_zero]
  · rintro rfl
    exact multiple_zero

/-- What finite magnitude bits stand for has few significant bits and is below
the overflow bound. -/
theorem exists_multiple
    (positive : 0 < format.precision)
    {magnitude : Nat}
    (finite : magnitude < format.infinityBits) :
    ∃ shift significand, format.multiple magnitude = significand * 2 ^ shift ∧
      significand < 2 ^ format.precision ∧
      shift < 2 ^ format.exponentBits := by
  obtain ⟨shift, significand, rfl, leading, small⟩ :=
    exists_shifted format magnitude
  rw [Nat.two_pow_pred_mul_two positive] at small
  refine ⟨shift, significand,
    multiple_shifted positive leading (Nat.le_of_lt small), small, ?_⟩
  have scaled : shift * 2 ^ (format.precision - 1) <
      2 ^ format.exponentBits * 2 ^ (format.precision - 1) := by
    refine Nat.lt_of_le_of_lt (Nat.le_add_right _ significand)
      (Nat.lt_of_lt_of_le finite ?_)
    exact Nat.mul_le_mul_right _ (Nat.sub_le _ _)
  exact Nat.lt_of_mul_lt_mul_right scaled

end FloatFormat

namespace Binary64

open FloatFormat

section Finite

variable
  {number : Binary64}
  (finite : number.isFinite = true)

include finite

theorem scaled_eq_zero_iff : number.scaled = 0 ↔ number.magnitude = 0 := by
  rw [← Int.natAbs_eq_zero, natAbs_scaled]
  exact multiple_eq_zero_iff (by decide) (of_decide_eq_true finite)

/-- The sign of a number other than zero. -/
theorem scaled_neg_iff (nonzero : number.magnitude ≠ 0) :
    number.scaled < 0 ↔ number.negative = true := by
  have absolute : double.multiple number.magnitude ≠ 0 :=
    mt (multiple_eq_zero_iff (by decide) (of_decide_eq_true finite)).mp nonzero
  cases sign : number.negative with
  | true =>
      simp only [scaled, sign, if_true, iff_true]
      omega
  | false =>
      simp only [scaled, sign, Bool.false_eq_true, if_false, iff_false]
      omega

/-- Rounding an exact result that is the number gives the number. -/
theorem round_scaled
    {zeroNegative : Bool}
    (sign : number.magnitude = 0 → zeroNegative = number.negative)
    {factor : Nat}
    (positive : 0 < factor) :
    round zeroNegative (number.scaled * factor) factor = number := by
  have factorPositive : (0 : Int) < factor := Int.natCast_pos.mpr positive
  have magnitude : double.roundMagnitude (number.scaled * factor).natAbs factor =
      number.magnitude := by
    have scaling := @roundMagnitude_mul_right double
      (double.multiple number.magnitude) 1 factor positive
    rw [Nat.one_mul] at scaling
    rw [Int.natAbs_mul, Int.natAbs_natCast, natAbs_scaled, scaling,
      roundMagnitude_multiple (by decide) (of_decide_eq_true finite)]
  have negative : (if number.scaled * factor = 0 then zeroNegative
      else decide (number.scaled * factor < 0)) = number.negative := by
    by_cases zero : number.magnitude = 0
    · rw [(scaled_eq_zero_iff finite).mpr zero, Int.zero_mul, if_pos rfl]
      exact sign zero
    · have nonzero : number.scaled ≠ 0 := mt (scaled_eq_zero_iff finite).mp zero
      rw [if_neg (Int.mul_ne_zero nonzero factorPositive.ne'), Bool.eq_iff_iff,
        decide_eq_true_iff, ← scaled_neg_iff finite zero]
      exact ⟨fun below => Int.neg_of_mul_neg_left below factorPositive,
        fun below => Int.mul_neg_of_neg_of_pos below factorPositive⟩
  simp only [round, magnitude, negative, ofMagnitude_magnitude]

/-- Multiplication by one is exact. -/
theorem mul_one_of_isFinite : mul number one = number := by
  have positive : one.negative = false := by decide
  simp only [mul, isNan_of_isFinite finite, isInfinite_of_isFinite finite,
    isNan_of_isFinite isFinite_one, isInfinite_of_isFinite isFinite_one,
    positive, scaled_one, Bool.or_self, Bool.bne_false, Bool.false_eq_true,
    if_false, two_pow_unitExponent]
  exact round_scaled finite (fun _ => rfl) unit_pos

/-- Division by one is exact. -/
theorem div_one_of_isFinite : div number one = number := by
  have positive : one.negative = false := by decide
  have nonzero : one.magnitude ≠ 0 := by decide
  have sign : (unit : Int).sign = 1 :=
    Int.sign_eq_one_of_pos (Int.natCast_pos.mpr unit_pos)
  simp only [div, isNan_of_isFinite finite, isInfinite_of_isFinite finite,
    isNan_of_isFinite isFinite_one, isInfinite_of_isFinite isFinite_one,
    positive, nonzero, scaled_one, sign, Bool.or_self, Bool.bne_false,
    Bool.false_eq_true, if_false, Int.mul_one, Int.natAbs_natCast, ← unit_cast]
  exact round_scaled finite (fun _ => rfl) unit_pos

/-- Addition of a zero is exact, apart from the sign of a zero result. -/
theorem add_zero_of_isFinite
    {zero : Binary64}
    (none : zero.magnitude = 0) :
    add number zero =
      if number.magnitude = 0 then
        ofMagnitude (number.negative && zero.negative) 0
      else number := by
  have zeroFinite : zero.isFinite = true := by
    rw [isFinite, none]
    decide
  have scaled : zero.scaled = 0 := (scaled_eq_zero_iff zeroFinite).mpr none
  simp only [add, isNan_of_isFinite finite, isInfinite_of_isFinite finite,
    isNan_of_isFinite zeroFinite, isInfinite_of_isFinite zeroFinite, scaled,
    Bool.or_self, Bool.false_eq_true, if_false, Int.add_zero]
  split
  · next vanishes =>
      rw [(scaled_eq_zero_iff finite).mpr vanishes, round, if_pos rfl,
        Int.natAbs_zero, roundMagnitude_zero]
  · next nonzero =>
      rw [← Int.mul_one number.scaled, ← Nat.cast_one]
      exact round_scaled finite (fun vanishes => absurd vanishes nonzero)
        Nat.one_pos

end Finite

/-- Subtraction of a zero is exact, apart from the sign of a zero result. -/
theorem sub_zero_of_isFinite
    {number zero : Binary64}
    (finite : number.isFinite = true)
    (none : zero.magnitude = 0) :
    sub number zero =
      if number.magnitude = 0 then
        ofMagnitude (number.negative && !zero.negative) 0
      else number := by
  have small : zero.magnitude < double.signBit := by
    rw [none]
    decide
  rw [sub, add_zero_of_isFinite finite]
  · rw [neg, negative_ofMagnitude _ small]
  · rw [neg, magnitude_ofMagnitude _ small, none]

/-- The factor between the smallest positive numbers of the two formats. -/
def unitRatio : Nat := 2 ^ (double.unitExponent - single.unitExponent)

theorem unitRatio_pos : 0 < unitRatio := Nat.two_pow_pos _

/-- Finite magnitude bits of the smaller format are those of a number of the
larger one. -/
theorem multiple_widened
    {magnitude : Nat}
    (finite : magnitude < single.infinityBits) :
    double.roundMagnitude (single.multiple magnitude * unitRatio) 1 <
        double.infinityBits ∧
      double.multiple
          (double.roundMagnitude (single.multiple magnitude * unitRatio) 1) =
        single.multiple magnitude * unitRatio := by
  obtain ⟨shift, significand, same, small, low⟩ :=
    exists_multiple (by decide) finite
  have units : single.multiple magnitude * unitRatio =
      significand * 2 ^ (shift + (double.unitExponent - single.unitExponent)) := by
    rw [same, unitRatio, Nat.mul_assoc, ← Nat.pow_add]
  have fits : double.Fits (single.multiple magnitude * unitRatio) := by
    refine ⟨significand, _, Nat.lt_of_lt_of_le small ?_, units⟩
    exact Nat.pow_le_pow_right Nat.two_pos (by decide)
  have below : single.multiple magnitude * unitRatio <
      2 ^ (1200 + double.precision) := by
    have exponent : single.precision +
        (shift + (double.unitExponent - single.unitExponent)) ≤
          1200 + double.precision := by
      have high : shift < 256 := low
      have widths : double.unitExponent - single.unitExponent = 925 := by decide
      have narrow : single.precision = 24 := rfl
      have wide : double.precision = 53 := rfl
      omega
    rw [units]
    calc significand * 2 ^ (shift + (double.unitExponent - single.unitExponent))
      _ < 2 ^ single.precision *
            2 ^ (shift + (double.unitExponent - single.unitExponent)) :=
        Nat.mul_lt_mul_of_pos_right small (Nat.two_pow_pos _)
      _ = 2 ^ (single.precision +
            (shift + (double.unitExponent - single.unitExponent))) :=
        (Nat.pow_add ..).symm
      _ ≤ _ := Nat.pow_le_pow_right Nat.two_pos exponent
  obtain ⟨bounded, stands⟩ :=
    multiple_roundMagnitude (by decide) below (by decide)
  exact ⟨bounded, stands.trans (nearestNumber_of_fits (by decide) fits)⟩

/-- The magnitude bits of an `f32`. -/
def singleMagnitude (bits : UInt32) : Nat :=
  bits.toNat % single.signBit

/-- A finite `f32` has its sign and its value as an `f64`. -/
theorem ofSingleBits_eq
    {bits : UInt32}
    (finite : singleMagnitude bits < single.infinityBits) :
    ofSingleBits bits =
      ofMagnitude (decide (single.signBit ≤ bits.toNat))
        (double.roundMagnitude
          (single.multiple (singleMagnitude bits) * unitRatio) 1) := by
  unfold singleMagnitude at finite
  simp only [ofSingleBits, if_neg (Nat.not_lt_of_lt finite),
    if_neg (Nat.ne_of_lt finite)]
  rfl

theorem isFinite_ofSingleBits_iff (bits : UInt32) :
    (ofSingleBits bits).isFinite = true ↔
      singleMagnitude bits < single.infinityBits := by
  constructor
  · intro finite
    by_contra notBelow
    have infinite (negative : Bool) : (infinity negative).isFinite = false := by
      cases negative <;> decide
    have noNumber : nan.isFinite = false := by decide
    unfold singleMagnitude at notBelow
    simp only [ofSingleBits] at finite
    split at finite
    · rw [noNumber] at finite
      contradiction
    · next notAbove =>
        rw [if_pos (by omega), infinite] at finite
        contradiction
  · intro finite
    rw [ofSingleBits_eq finite]
    exact isFinite_ofMagnitude _ (multiple_widened finite).1

/-- Only zero becomes zero. -/
theorem magnitude_ofSingleBits_eq_zero_iff
    {bits : UInt32}
    (finite : singleMagnitude bits < single.infinityBits) :
    (ofSingleBits bits).magnitude = 0 ↔ singleMagnitude bits = 0 := by
  obtain ⟨bounded, stands⟩ := multiple_widened finite
  rw [ofSingleBits_eq finite, magnitude_ofMagnitude _ (lt_signBit bounded),
    ← multiple_eq_zero_iff (by decide) bounded, stands, Nat.mul_eq_zero,
    or_iff_left unitRatio_pos.ne']
  exact multiple_eq_zero_iff (by decide) finite

/-- Bits are their sign bit and their magnitude bits. -/
theorem sign_add_singleMagnitude (bits : UInt32) :
    (if decide (single.signBit ≤ bits.toNat) then single.signBit else 0) +
      singleMagnitude bits = bits.toNat := by
  have bounded : bits.toNat < single.signBit * 2 := bits.toNat_lt
  have positive : 0 < single.signBit := Nat.two_pow_pos _
  unfold singleMagnitude
  simp only [decide_eq_true_eq]
  generalize single.signBit = signBit at *
  split
  · next signed =>
      rw [Nat.mod_eq_sub_mod signed, Nat.mod_eq_of_lt (by omega)]
      omega
  · next unsigned =>
      rw [Nat.mod_eq_of_lt (by omega), Nat.zero_add]

/-- A finite `f32` converted to `f64` and back has its bits again. -/
theorem toSingleBits_ofSingleBits
    {bits : UInt32}
    (finite : singleMagnitude bits < single.infinityBits) :
    toSingleBits (ofSingleBits bits) = bits := by
  obtain ⟨bounded, stands⟩ := multiple_widened finite
  have widened := (isFinite_ofSingleBits_iff bits).mpr finite
  have scaling := @roundMagnitude_mul_right single
    (single.multiple (singleMagnitude bits)) 1 unitRatio unitRatio_pos
  rw [Nat.one_mul] at scaling
  have sign : (ofSingleBits bits).negative =
      decide (single.signBit ≤ bits.toNat) := by
    rw [ofSingleBits_eq finite, negative_ofMagnitude _ (lt_signBit bounded)]
  have magnitude : double.multiple (ofSingleBits bits).magnitude =
      single.multiple (singleMagnitude bits) * unitRatio := by
    rw [ofSingleBits_eq finite, magnitude_ofMagnitude _ (lt_signBit bounded),
      stands]
  have rounded : single.roundMagnitude (ofSingleBits bits).scaled.natAbs
      unitRatio = singleMagnitude bits := by
    rw [natAbs_scaled, magnitude, scaling,
      roundMagnitude_multiple (by decide) finite]
  unfold unitRatio at rounded
  simp only [toSingleBits, isNan_of_isFinite widened,
    isInfinite_of_isFinite widened, Bool.false_eq_true, if_false, sign, rounded]
  rw [sign_add_singleMagnitude]
  exact UInt32.ofNat_toNat

end Binary64
end TelemetryEdge
