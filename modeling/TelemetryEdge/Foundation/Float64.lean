import Mathlib.Algebra.Order.Ring.Int

/-!
# Double-precision arithmetic as an interface

The operations on 64-bit floating-point numbers that a Rust program uses.  A
model written over this interface is a model for every reading of the
operations: the IEEE 754 one, or exact rational arithmetic.  The laws are those
every reading shares: numbers that compare equal cannot be told apart by an
order comparison, and zero is finite and not below itself.
-/

namespace TelemetryEdge

/-- The `f64` operations, under their Rust meaning. -/
class F64 (F : Type) where
  /-- The constant `0.0`. -/
  zero : F
  /-- The constant `f64::NAN`. -/
  nan : F
  /-- `a + b`. -/
  add : F → F → F
  /-- `a - b`. -/
  sub : F → F → F
  /-- `a * b`. -/
  mul : F → F → F
  /-- `a / b`. -/
  div : F → F → F
  /-- `a.abs()`. -/
  abs : F → F
  /-- `a.round()`, half away from zero. -/
  round : F → F
  /-- `a == b`. -/
  eq : F → F → Bool
  /-- `a < b`. -/
  lt : F → F → Bool
  /-- `a.is_finite()`. -/
  isFinite : F → Bool
  /-- `i as f64` for an `i128`. -/
  ofInt : Int → F
  /-- `a as i128`, saturating at the ends of the range. -/
  toInt : F → Int
  /-- `f64::from_bits`. -/
  ofBits : UInt64 → F
  /-- `a.to_bits()`. -/
  toBits : F → UInt64
  /-- `f64::from(f32::from_bits(bits))`. -/
  ofSingleBits : UInt32 → F
  /-- `(a as f32).to_bits()`. -/
  toSingleBits : F → UInt32
  /-- Numbers that compare equal are below the same numbers. -/
  lt_congr : ∀ {left right : F}, eq left right = true →
    ∀ other, lt left other = lt right other
  /-- Zero is finite. -/
  isFinite_zero : isFinite zero = true
  /-- Zero is not below zero. -/
  lt_zero_zero : lt zero zero = false

end TelemetryEdge
