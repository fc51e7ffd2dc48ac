import Mathlib.Algebra.Order.Ring.Int
import TelemetryEdge.Foundation.Float64

/-!
# IEEE 754 double precision

A reading of the double-precision interface by bit patterns.  A finite number is
an integer multiple of the smallest positive number of its format; an operation
computes the exact result as a fraction of such multiples and rounds it to the
nearest representable one, ties to even.
-/

namespace TelemetryEdge

/-- A binary interchange format: bits of the significand, with the implicit one,
and bits of the exponent. -/
structure FloatFormat where
  precision : Nat
  exponentBits : Nat

namespace FloatFormat

/-- `f64`. -/
def double : FloatFormat := ⟨53, 11⟩

/-- `f32`. -/
def single : FloatFormat := ⟨24, 8⟩

/-- Magnitude bits of infinity. -/
def infinityBits (format : FloatFormat) : Nat :=
  (2 ^ format.exponentBits - 1) * 2 ^ (format.precision - 1)

/-- Position of the sign bit. -/
def signBit (format : FloatFormat) : Nat :=
  2 ^ (format.precision - 1 + format.exponentBits)

/-- Negative exponent of the smallest positive number. -/
def unitExponent (format : FloatFormat) : Nat :=
  2 ^ (format.exponentBits - 1) - 2 + (format.precision - 1)

/-- Multiple of the smallest positive number that finite magnitude bits
stand for. -/
def multiple (format : FloatFormat) (magnitude : Nat) : Nat :=
  let biased := magnitude / 2 ^ (format.precision - 1)
  let fraction := magnitude % 2 ^ (format.precision - 1)
  if biased = 0 then fraction
  else (2 ^ (format.precision - 1) + fraction) * 2 ^ (biased - 1)

/-- The nearest integer to a fraction, ties to even. -/
def nearestEven (numerator denominator : Nat) : Nat :=
  let whole := numerator / denominator
  let twice := 2 * (numerator % denominator)
  if twice < denominator then whole
  else if denominator < twice then whole + 1
  else whole + whole % 2

/-- Magnitude bits nearest to a fraction of the smallest positive number. -/
def roundMagnitude
    (format : FloatFormat)
    (numerator denominator : Nat) : Nat :=
  let whole := numerator / denominator
  let shift := if whole = 0 then 0 else Nat.log2 whole + 1 - format.precision
  min
    (shift * 2 ^ (format.precision - 1) +
      nearestEven numerator (denominator * 2 ^ shift))
    format.infinityBits

end FloatFormat

/-- A double-precision number, by its bits. -/
structure Binary64 where
  bits : UInt64
  deriving DecidableEq

namespace Binary64

open FloatFormat

/-- The number with a sign and magnitude bits. -/
def ofMagnitude (negative : Bool) (magnitude : Nat) : Binary64 :=
  ⟨UInt64.ofNat ((if negative then double.signBit else 0) + magnitude)⟩

/-- Whether the sign bit is set. -/
def negative (number : Binary64) : Bool :=
  decide (double.signBit ≤ number.bits.toNat)

/-- The bits without the sign bit. -/
def magnitude (number : Binary64) : Nat :=
  number.bits.toNat % double.signBit

/-- Not a number. -/
def isNan (number : Binary64) : Bool :=
  decide (double.infinityBits < number.magnitude)

/-- Neither infinite nor not a number. -/
def isFinite (number : Binary64) : Bool :=
  decide (number.magnitude < double.infinityBits)

/-- Positive or negative infinity. -/
def isInfinite (number : Binary64) : Bool :=
  number.magnitude == double.infinityBits

/-- The canonical quiet not-a-number. -/
def nan : Binary64 := ⟨0x7FF8000000000000⟩

/-- Infinity with a sign. -/
def infinity (negative : Bool) : Binary64 :=
  ofMagnitude negative double.infinityBits

/-- A finite number as a signed multiple of the smallest positive number. -/
def scaled (number : Binary64) : Int :=
  let unsigned : Int := double.multiple number.magnitude
  if number.negative then -unsigned else unsigned

/-- The number nearest to a fraction of the smallest positive number; a zero
result takes the given sign. -/
def round (zeroNegative : Bool) (numerator : Int) (denominator : Nat) :
    Binary64 :=
  let negative := if numerator = 0 then zeroNegative else decide (numerator < 0)
  ofMagnitude negative (double.roundMagnitude numerator.natAbs denominator)

/-- Sum. -/
def add (left right : Binary64) : Binary64 :=
  if left.isNan || right.isNan then nan
  else if left.isInfinite then
    if right.isInfinite && left.negative != right.negative then nan else left
  else if right.isInfinite then right
  else
    round (left.negative && right.negative) (left.scaled + right.scaled) 1

/-- The number with the other sign. -/
def neg (number : Binary64) : Binary64 :=
  ofMagnitude (!number.negative) number.magnitude

/-- Difference. -/
def sub (left right : Binary64) : Binary64 := add left (neg right)

/-- Product. -/
def mul (left right : Binary64) : Binary64 :=
  let negative := left.negative != right.negative
  if left.isNan || right.isNan then nan
  else if left.isInfinite then
    if right.magnitude = 0 then nan else infinity negative
  else if right.isInfinite then
    if left.magnitude = 0 then nan else infinity negative
  else
    round negative (left.scaled * right.scaled) (2 ^ double.unitExponent)

/-- Quotient. -/
def div (left right : Binary64) : Binary64 :=
  let negative := left.negative != right.negative
  if left.isNan || right.isNan then nan
  else if left.isInfinite then
    if right.isInfinite then nan else infinity negative
  else if right.isInfinite then ofMagnitude negative 0
  else if right.magnitude = 0 then
    if left.magnitude = 0 then nan else infinity negative
  else
    round negative (left.scaled * 2 ^ double.unitExponent * right.scaled.sign)
      right.scaled.natAbs

/-- Absolute value. -/
def abs (number : Binary64) : Binary64 := ofMagnitude false number.magnitude

/-- Position in the order of the numbers, infinities at the ends. -/
def rank (number : Binary64) : Int :=
  if number.negative then -number.magnitude else number.magnitude

/-- Numeric equality: false for not-a-number, true for zeros of either sign. -/
def eq (left right : Binary64) : Bool :=
  !left.isNan && !right.isNan && left.rank == right.rank

/-- Numeric order. -/
def lt (left right : Binary64) : Bool :=
  !left.isNan && !right.isNan && decide (left.rank < right.rank)

/-- Nearest integer, half away from zero. -/
def roundToInteger (number : Binary64) : Binary64 :=
  if !number.isFinite then number
  else
    let unit := 2 ^ double.unitExponent
    let integer := (2 * number.scaled.natAbs + unit) / (2 * unit)
    ofMagnitude number.negative (double.roundMagnitude (integer * unit) 1)

/-- The integer part, saturating at the ends of the `i128` range. -/
def toInt (number : Binary64) : Int :=
  let low : Int := -(2 ^ 127)
  let high : Int := 2 ^ 127 - 1
  if number.isNan then 0
  else if number.isInfinite then if number.negative then low else high
  else
    let integer := number.scaled.tdiv (2 ^ double.unitExponent)
    max low (min high integer)

/-- The number nearest to an integer. -/
def ofInt (integer : Int) : Binary64 :=
  round false (integer * 2 ^ double.unitExponent) 1

/-- The number with the value of the `f32` with given bits. -/
def ofSingleBits (bits : UInt32) : Binary64 :=
  let negative := decide (single.signBit ≤ bits.toNat)
  let magnitude := bits.toNat % single.signBit
  if single.infinityBits < magnitude then nan
  else if magnitude = single.infinityBits then infinity negative
  else
    ofMagnitude negative
      (double.roundMagnitude
        (single.multiple magnitude *
          2 ^ (double.unitExponent - single.unitExponent)) 1)

/-- Bits of the nearest `f32`. -/
def toSingleBits (number : Binary64) : UInt32 :=
  let sign := if number.negative then single.signBit else 0
  if number.isNan then 0x7FC00000
  else if number.isInfinite then UInt32.ofNat (sign + single.infinityBits)
  else
    UInt32.ofNat (sign +
      single.roundMagnitude number.scaled.natAbs
        (2 ^ (double.unitExponent - single.unitExponent)))

/-- Numbers that compare equal have the same rank and are both numbers. -/
theorem lt_congr
    {left right : Binary64}
    (equal : eq left right = true)
    (other : Binary64) :
    lt left other = lt right other := by
  simp only [eq, Bool.and_eq_true, Bool.not_eq_true', beq_iff_eq] at equal
  obtain ⟨⟨leftNumber, rightNumber⟩, ranks⟩ := equal
  simp only [lt, leftNumber, rightNumber, ranks]

instance : F64 Binary64 where
  zero := ⟨0⟩
  nan := nan
  add := add
  sub := sub
  mul := mul
  div := div
  abs := abs
  round := roundToInteger
  eq := eq
  lt := lt
  isFinite := isFinite
  ofInt := ofInt
  toInt := toInt
  ofBits := Binary64.mk
  toBits := Binary64.bits
  ofSingleBits := ofSingleBits
  toSingleBits := toSingleBits
  lt_congr := lt_congr
  isFinite_zero := by decide
  lt_zero_zero := by decide

/-- `0.1 + 0.2`, `1.0 / 3.0` and `2.5.round()`, bit by bit. -/
example :
    (add ⟨0x3FB999999999999A⟩ ⟨0x3FC999999999999A⟩).bits =
        0x3FD3333333333334 ∧
      (div (ofInt 1) (ofInt 3)).bits = 0x3FD5555555555555 ∧
      toInt (roundToInteger ⟨0x4004000000000000⟩) = 3 := by decide +kernel

end Binary64
end TelemetryEdge
