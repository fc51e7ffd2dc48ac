import TelemetryEdge.Foundation.Binary64

/-!
# Significant bits

How a binary format rounds natural numbers.  The nearest number with the bits of
the significand is computed by shifting out the bits below them; rounding
changes no number that fits, and the magnitude bits it yields stand for that
nearest number.
-/

namespace TelemetryEdge
namespace FloatFormat

/-- A common factor does not change the nearest integer. -/
theorem nearestEven_mul_right
    (numerator denominator : Nat)
    {factor : Nat}
    (positive : 0 < factor) :
    nearestEven (numerator * factor) (denominator * factor) =
      nearestEven numerator denominator := by
  simp only [nearestEven, Nat.mul_div_mul_right _ _ positive,
    Nat.mul_mod_mul_right, ← Nat.mul_assoc, Nat.mul_lt_mul_right positive]

/-- The nearest integer to a multiple of the denominator is its factor. -/
theorem nearestEven_mul_left
    (whole : Nat)
    {denominator : Nat}
    (positive : 0 < denominator) :
    nearestEven (whole * denominator) denominator = whole := by
  simp only [nearestEven, Nat.mul_div_cancel _ positive, Nat.mul_mod_left,
    Nat.mul_zero, positive, if_true]

/-- The nearest integer is not below the integer part. -/
theorem div_le_nearestEven (numerator denominator : Nat) :
    numerator / denominator ≤ nearestEven numerator denominator := by
  simp only [nearestEven]
  split
  · exact Nat.le_refl _
  · split
    · exact Nat.le_succ _
    · exact Nat.le_add_right _ _

/-- The nearest integer is at most the next one above the integer part. -/
theorem nearestEven_le_div_succ (numerator denominator : Nat) :
    nearestEven numerator denominator ≤ numerator / denominator + 1 := by
  simp only [nearestEven]
  split
  · exact Nat.le_succ _
  · split
    · exact Nat.le_refl _
    · have parity := Nat.mod_lt (numerator / denominator) Nat.two_pos
      omega

/-- Rounding does not pass an integer bound. -/
theorem nearestEven_le
    {numerator denominator bound : Nat}
    (positive : 0 < denominator)
    (bounded : numerator ≤ bound * denominator) :
    nearestEven numerator denominator ≤ bound := by
  cases Nat.eq_or_lt_of_le bounded with
  | inl same => rw [same, nearestEven_mul_left bound positive]
  | inr less =>
      have whole : numerator / denominator < bound :=
        (Nat.div_lt_iff_lt_mul positive).mpr less
      exact Nat.le_trans (nearestEven_le_div_succ numerator denominator) whole

variable (format : FloatFormat)

/-- Bits of a number below those the significand can hold. -/
def excessBits (number : Nat) : Nat :=
  number.log2 + 1 - format.precision

/-- The nearest number with the bits of the significand, ties to even. -/
def nearestNumber (number : Nat) : Nat :=
  nearestEven number (2 ^ format.excessBits number) *
    2 ^ format.excessBits number

/-- A number whose significant bits fit the significand. -/
def Fits (number : Nat) : Prop :=
  ∃ significand exponent,
    significand < 2 ^ format.precision ∧
      number = significand * 2 ^ exponent

variable {format}

/-- A number below a power of two has no more bits than its exponent. -/
theorem excessBits_le_of_lt
    {number exponent : Nat}
    (positive : 0 < format.precision)
    (below : number < 2 ^ (exponent + format.precision)) :
    format.excessBits number ≤ exponent := by
  unfold excessBits
  by_cases zero : number = 0
  · rw [zero, Nat.log2_zero]
    omega
  · have := (Nat.log2_lt zero).mpr below
    omega

/-- The shifted number has no more bits than the significand. -/
theorem shifted_lt (format : FloatFormat) (number : Nat) :
    number / 2 ^ format.excessBits number < 2 ^ format.precision := by
  rw [Nat.div_lt_iff_lt_mul (Nat.two_pow_pos _), ← Nat.pow_add]
  apply Nat.lt_of_lt_of_le Nat.lt_log2_self
  apply Nat.pow_le_pow_right Nat.two_pos
  unfold excessBits
  omega

/-- The shifted number has the leading bit of the significand. -/
theorem le_shifted
    {number : Nat}
    (positive : 0 < format.precision)
    (excess : format.excessBits number ≠ 0) :
    2 ^ (format.precision - 1) ≤ number / 2 ^ format.excessBits number := by
  have nonzero : number ≠ 0 := by
    intro zero
    rw [excessBits, zero, Nat.log2_zero] at excess
    omega
  rw [Nat.le_div_iff_mul_le (Nat.two_pow_pos _), ← Nat.pow_add]
  apply Nat.le_trans _ (Nat.log2_self_le nonzero)
  apply Nat.pow_le_pow_right Nat.two_pos
  unfold excessBits at excess ⊢
  omega

/-- The shifted and rounded number has at most one bit more. -/
theorem nearestEven_shifted_le (format : FloatFormat) (number : Nat) :
    nearestEven number (2 ^ format.excessBits number) ≤
      2 ^ format.precision :=
  Nat.le_trans (nearestEven_le_div_succ _ _) (shifted_lt format number)

/-- Rounding keeps the numbers that fit. -/
theorem nearestNumber_of_fits
    (positive : 0 < format.precision)
    {number : Nat}
    (fits : format.Fits number) :
    format.nearestNumber number = number := by
  obtain ⟨significand, exponent, small, rfl⟩ := fits
  have excess : format.excessBits (significand * 2 ^ exponent) ≤ exponent := by
    apply excessBits_le_of_lt positive
    rw [Nat.pow_add, Nat.mul_comm]
    exact Nat.mul_lt_mul_of_pos_left small (Nat.two_pow_pos exponent)
  unfold nearestNumber
  generalize format.excessBits (significand * 2 ^ exponent) = shift at excess ⊢
  obtain ⟨rest, rfl⟩ := Nat.exists_eq_add_of_le' excess
  rw [Nat.pow_add, ← Nat.mul_assoc,
    nearestEven_mul_left _ (Nat.two_pow_pos shift)]

/-- What rounding yields fits. -/
theorem fits_nearestNumber
    (positive : 0 < format.precision)
    (number : Nat) :
    format.Fits (format.nearestNumber number) := by
  cases Nat.eq_or_lt_of_le (nearestEven_shifted_le format number) with
  | inl carried =>
      refine ⟨1, format.precision + format.excessBits number, ?_, ?_⟩
      · exact Nat.one_lt_two_pow (Nat.ne_of_gt positive)
      · rw [nearestNumber, carried, Nat.pow_add, Nat.one_mul]
  | inr small => exact ⟨_, _, small, rfl⟩

/-- Rounding keeps exactly the numbers that fit. -/
theorem nearestNumber_eq_self_iff
    (positive : 0 < format.precision)
    (number : Nat) :
    format.nearestNumber number = number ↔ format.Fits number := by
  constructor
  · intro kept
    rw [← kept]
    exact fits_nearestNumber positive number
  · exact nearestNumber_of_fits positive

/-- Rounding does not pass a power of two. -/
theorem nearestNumber_le_two_pow
    (positive : 0 < format.precision)
    {number exponent : Nat}
    (bounded : number ≤ 2 ^ exponent) :
    format.nearestNumber number ≤ 2 ^ exponent := by
  have excess : format.excessBits number ≤ exponent := by
    apply excessBits_le_of_lt positive
    apply Nat.lt_of_le_of_lt bounded
    exact Nat.pow_lt_pow_right Nat.one_lt_two (Nat.lt_add_of_pos_right positive)
  unfold nearestNumber
  generalize format.excessBits number = shift at excess ⊢
  obtain ⟨rest, rfl⟩ := Nat.exists_eq_add_of_le' excess
  rw [Nat.pow_add] at bounded ⊢
  exact Nat.mul_le_mul_right _ (nearestEven_le (Nat.two_pow_pos shift) bounded)

/-- Numbers without excess bits fit. -/
theorem fits_of_excessBits_eq_zero
    {number : Nat}
    (none : format.excessBits number = 0) :
    format.Fits number := by
  refine ⟨number, 0, ?_, (Nat.mul_one number).symm⟩
  have small := shifted_lt format number
  rwa [none, Nat.pow_zero, Nat.div_one] at small

/-- A trailing zero bit is one more bit in excess, if there are any. -/
theorem excessBits_mul_two_pow
    {number : Nat}
    (excess : format.excessBits number ≠ 0)
    (positive : 0 < format.precision)
    (exponent : Nat) :
    format.excessBits (number * 2 ^ exponent) =
      format.excessBits number + exponent := by
  have nonzero : number ≠ 0 := by
    intro zero
    rw [excessBits, zero, Nat.log2_zero] at excess
    omega
  have bits : (number * 2 ^ exponent).log2 = number.log2 + exponent := by
    rw [Nat.log2_eq_iff (Nat.mul_ne_zero nonzero (Nat.two_pow_pos _).ne'),
      Nat.pow_add, Nat.add_right_comm, Nat.pow_add]
    constructor
    · exact Nat.mul_le_mul_right _ (Nat.log2_self_le nonzero)
    · exact Nat.mul_lt_mul_of_pos_right Nat.lt_log2_self (Nat.two_pow_pos _)
  unfold excessBits at excess ⊢
  omega

/-- Rounding commutes with trailing zero bits. -/
theorem nearestNumber_mul_two_pow
    (positive : 0 < format.precision)
    (number exponent : Nat) :
    format.nearestNumber (number * 2 ^ exponent) =
      format.nearestNumber number * 2 ^ exponent := by
  by_cases excess : format.excessBits number = 0
  · have fits := fits_of_excessBits_eq_zero excess
    rw [nearestNumber_of_fits positive fits]
    obtain ⟨significand, shift, small, rfl⟩ := fits
    apply nearestNumber_of_fits positive
    exact ⟨significand, shift + exponent, small, by
      rw [Nat.mul_assoc, Nat.pow_add]⟩
  · rw [nearestNumber, excessBits_mul_two_pow excess positive, Nat.pow_add,
      nearestEven_mul_right _ _ (Nat.two_pow_pos exponent), ← Nat.mul_assoc,
      nearestNumber]

/-- Only zero is rounded to zero. -/
theorem nearestNumber_eq_zero_iff
    (positive : 0 < format.precision)
    (number : Nat) :
    format.nearestNumber number = 0 ↔ number = 0 := by
  have small : format.Fits 0 := ⟨0, 0, Nat.two_pow_pos _, rfl⟩
  constructor
  · intro zero
    by_cases excess : format.excessBits number = 0
    · rwa [nearestNumber_of_fits positive (fits_of_excessBits_eq_zero excess)]
        at zero
    · have leading := Nat.le_trans (le_shifted positive excess)
        (div_le_nearestEven _ _)
      have unit := Nat.two_pow_pos (format.precision - 1)
      cases Nat.mul_eq_zero.mp zero with
      | inl none => omega
      | inr none => exact absurd none (Nat.two_pow_pos _).ne'
  · rintro rfl
    exact nearestNumber_of_fits positive small

/-! ## Magnitude bits -/

/-- The magnitude bits of a shifted significand stand for their product. -/
theorem multiple_shifted
    (positive : 0 < format.precision)
    {shift significand : Nat}
    (leading : shift = 0 ∨ 2 ^ (format.precision - 1) ≤ significand)
    (bounded : significand ≤ 2 ^ format.precision) :
    format.multiple (shift * 2 ^ (format.precision - 1) + significand) =
      significand * 2 ^ shift := by
  have twice : 2 ^ format.precision = 2 ^ (format.precision - 1) * 2 :=
    (Nat.two_pow_pred_mul_two positive).symm
  have unit := Nat.two_pow_pos (format.precision - 1)
  rw [twice] at bounded
  simp only [multiple]
  generalize 2 ^ (format.precision - 1) = leadingBit at *
  rw [Nat.add_comm, Nat.add_mul_div_right _ _ unit, Nat.add_mul_mod_self_right]
  by_cases carried : significand = leadingBit * 2
  · rw [carried, Nat.mul_div_cancel_left _ unit, Nat.mul_mod_right,
      if_neg (by omega), Nat.add_zero, Nat.mul_assoc, ← Nat.pow_succ']
    congr 2
    omega
  · by_cases normal : leadingBit ≤ significand
    · obtain ⟨fraction, rfl⟩ := Nat.exists_eq_add_of_le normal
      rw [Nat.add_div_left _ unit, Nat.add_mod_left,
        Nat.div_eq_of_lt (by omega), Nat.mod_eq_of_lt (by omega),
        if_neg (by omega)]
      congr 2
      omega
    · obtain rfl : shift = 0 := leading.resolve_right normal
      rw [Nat.div_eq_of_lt (by omega), Nat.mod_eq_of_lt (by omega),
        if_pos rfl, Nat.pow_zero, Nat.mul_one]

/-- Rounding a whole number of units shifts out the excess bits. -/
theorem roundMagnitude_one
    (positive : 0 < format.precision)
    (number : Nat) :
    format.roundMagnitude number 1 =
      min
        (format.excessBits number * 2 ^ (format.precision - 1) +
          nearestEven number (2 ^ format.excessBits number))
        format.infinityBits := by
  have shift : (if number = 0 then 0
      else number.log2 + 1 - format.precision) = format.excessBits number := by
    split
    · next zero =>
        rw [excessBits, zero, Nat.log2_zero]
        omega
    · rfl
  simp only [roundMagnitude, Nat.div_one, Nat.one_mul, shift]

/-- A common factor does not change the rounded magnitude. -/
theorem roundMagnitude_mul_right
    (numerator denominator : Nat)
    {factor : Nat}
    (positive : 0 < factor) :
    format.roundMagnitude (numerator * factor) (denominator * factor) =
      format.roundMagnitude numerator denominator := by
  simp only [roundMagnitude, Nat.mul_div_mul_right _ _ positive,
    Nat.mul_right_comm denominator factor,
    nearestEven_mul_right _ _ positive]

/-- The rounded magnitude of a number below the overflow bound. -/
theorem roundMagnitude_lt
    (positive : 0 < format.precision)
    {number exponent : Nat}
    (below : number < 2 ^ (exponent + format.precision))
    (finite : exponent + 2 < 2 ^ format.exponentBits - 1) :
    format.excessBits number * 2 ^ (format.precision - 1) +
        nearestEven number (2 ^ format.excessBits number) <
      format.infinityBits := by
  have twice : 2 ^ format.precision = 2 ^ (format.precision - 1) * 2 :=
    (Nat.two_pow_pred_mul_two positive).symm
  have shifted := nearestEven_shifted_le format number
  have excess := excessBits_le_of_lt positive below
  rw [twice] at shifted
  calc
    _ ≤ exponent * 2 ^ (format.precision - 1) +
          2 ^ (format.precision - 1) * 2 :=
        Nat.add_le_add (Nat.mul_le_mul_right _ excess) shifted
    _ = (exponent + 2) * 2 ^ (format.precision - 1) := by
        rw [Nat.add_mul, Nat.mul_comm 2]
    _ < format.infinityBits :=
        Nat.mul_lt_mul_of_pos_right finite (Nat.two_pow_pos _)

/-- The magnitude bits of a number stand for the nearest number. -/
theorem multiple_roundMagnitude
    (positive : 0 < format.precision)
    {number exponent : Nat}
    (below : number < 2 ^ (exponent + format.precision))
    (finite : exponent + 2 < 2 ^ format.exponentBits - 1) :
    format.roundMagnitude number 1 < format.infinityBits ∧
      format.multiple (format.roundMagnitude number 1) =
        format.nearestNumber number := by
  have fits := roundMagnitude_lt positive below finite
  rw [roundMagnitude_one positive, Nat.min_eq_left (Nat.le_of_lt fits)]
  refine ⟨fits, multiple_shifted positive ?_ (nearestEven_shifted_le format number)⟩
  by_cases excess : format.excessBits number = 0
  · exact .inl excess
  · exact .inr (Nat.le_trans (le_shifted positive excess)
      (div_le_nearestEven _ _))

/-- Magnitude bits are a shift and a significand with its leading bit, unless
nothing is shifted. -/
theorem exists_shifted (format : FloatFormat) (magnitude : Nat) :
    ∃ shift significand,
      magnitude = shift * 2 ^ (format.precision - 1) + significand ∧
        (shift = 0 ∨ 2 ^ (format.precision - 1) ≤ significand) ∧
        significand < 2 ^ (format.precision - 1) * 2 := by
  have unit := Nat.two_pow_pos (format.precision - 1)
  generalize 2 ^ (format.precision - 1) = leadingBit at *
  have fraction := Nat.mod_lt magnitude unit
  have split := Nat.div_add_mod' magnitude leadingBit
  cases biased : magnitude / leadingBit with
  | zero =>
      rw [biased, Nat.zero_mul, Nat.zero_add] at split
      exact ⟨0, magnitude, by omega, .inl rfl, by omega⟩
  | succ shift =>
      rw [biased, Nat.succ_mul] at split
      exact ⟨shift, leadingBit + magnitude % leadingBit, by omega,
        .inr (Nat.le_add_right _ _), by omega⟩

/-- A significand with its leading bit is shifted by as many bits as are in
excess. -/
theorem excessBits_shifted
    (positive : 0 < format.precision)
    {shift significand : Nat}
    (leading : shift = 0 ∨ 2 ^ (format.precision - 1) ≤ significand)
    (small : significand < 2 ^ format.precision) :
    format.excessBits (significand * 2 ^ shift) = shift := by
  apply Nat.le_antisymm
  · apply excessBits_le_of_lt positive
    rw [Nat.pow_add, Nat.mul_comm]
    exact Nat.mul_lt_mul_of_pos_left small (Nat.two_pow_pos shift)
  · cases leading with
    | inl none => rw [none]; exact Nat.zero_le _
    | inr leading =>
        have reaches : 2 ^ (format.precision - 1 + shift) ≤
            significand * 2 ^ shift := by
          rw [Nat.pow_add]
          exact Nat.mul_le_mul_right _ leading
        have nonzero : significand * 2 ^ shift ≠ 0 :=
          Nat.ne_of_gt (Nat.lt_of_lt_of_le (Nat.two_pow_pos _) reaches)
        have bits := (Nat.le_log2 nonzero).mpr reaches
        unfold excessBits
        omega

/-- Rounding the number that magnitude bits stand for gives the bits back. -/
theorem roundMagnitude_multiple
    (positive : 0 < format.precision)
    {magnitude : Nat}
    (finite : magnitude < format.infinityBits) :
    format.roundMagnitude (format.multiple magnitude) 1 = magnitude := by
  obtain ⟨shift, significand, rfl, leading, small⟩ :=
    exists_shifted format magnitude
  rw [Nat.two_pow_pred_mul_two positive] at small
  rw [multiple_shifted positive leading (Nat.le_of_lt small),
    roundMagnitude_one positive, excessBits_shifted positive leading small,
    nearestEven_mul_left _ (Nat.two_pow_pos shift),
    Nat.min_eq_left (Nat.le_of_lt finite)]

end FloatFormat
end TelemetryEdge
