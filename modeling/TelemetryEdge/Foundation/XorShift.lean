import Mathlib.Algebra.Order.Ring.Nat

/-!
# Words xored with their own shifts

A word can be recovered from itself xored with its shift, in either direction:
the difference of two words with the same result is its own shift, and only zero
is.  Generators that mix their state by such steps therefore never merge two
states.
-/

namespace TelemetryEdge
namespace XorShift

variable {width : Nat}

/-- Shifting on does not change a word that is its own shift. -/
theorem eq_shiftLeft_mul
    {word : BitVec width}
    {shift : Nat}
    (own : word = word <<< shift)
    (count : Nat) :
    word = word <<< (shift * count) := by
  induction count with
  | zero => exact (BitVec.shiftLeft_zero word).symm
  | succ count inductionHypothesis =>
      calc
        word = word <<< shift := own
        _ = word <<< (shift * count) <<< shift := by
            rw [← inductionHypothesis]
        _ = word <<< (shift * count + shift) :=
            (BitVec.shiftLeft_add word (shift * count) shift).symm

/-- Only zero is its own left shift. -/
theorem eq_zero_of_eq_shiftLeft
    {word : BitVec width}
    {shift : Nat}
    (positive : 0 < shift)
    (own : word = word <<< shift) :
    word = BitVec.ofNat width 0 := by
  rw [eq_shiftLeft_mul own width]
  exact BitVec.shiftLeft_eq_zero (Nat.le_mul_of_pos_left width positive)

/-- Only zero is its own right shift. -/
theorem eq_zero_of_eq_ushiftRight
    {word : BitVec width}
    {shift : Nat}
    (positive : 0 < shift)
    (own : word = word >>> shift) :
    word = BitVec.ofNat width 0 := by
  have value := congrArg BitVec.toNat own
  rw [BitVec.toNat_ushiftRight, Nat.shiftRight_eq_div_pow] at value
  apply BitVec.eq_of_toNat_eq
  by_cases zero : word.toNat = 0
  · rw [zero]
    rfl
  · have less : word.toNat / 2 ^ shift < word.toNat :=
      Nat.div_lt_self (Nat.pos_of_ne_zero zero)
        (Nat.one_lt_two_pow (Nat.ne_of_gt positive))
    omega

/-- The difference of two words with the same result, under a shift that
respects differences, is its own shift. -/
theorem xor_eq_of_same
    {shifted : BitVec width → BitVec width}
    (linear : ∀ left right,
      shifted (left ^^^ right) = shifted left ^^^ shifted right)
    {left right : BitVec width}
    (same : left ^^^ shifted left = right ^^^ shifted right) :
    left ^^^ right = shifted (left ^^^ right) := by
  have rearranged : left ^^^ right ^^^ (shifted left ^^^ shifted right) =
      (left ^^^ shifted left) ^^^ (right ^^^ shifted right) := by ac_rfl
  rw [linear]
  apply BitVec.xor_eq_zero_iff.mp
  rw [rearranged, same, BitVec.xor_self]

/-- A word is recovered from itself xored with its left shift. -/
theorem xor_shiftLeft_injective
    {shift : Nat}
    (positive : 0 < shift) :
    Function.Injective fun word : BitVec width => word ^^^ word <<< shift := by
  intro left right same
  have own := @xor_eq_of_same width (· <<< shift)
    (fun left right => BitVec.shiftLeft_xor_distrib left right shift) _ _ same
  exact BitVec.xor_eq_zero_iff.mp (eq_zero_of_eq_shiftLeft positive own)

/-- A word is recovered from itself xored with its right shift. -/
theorem xor_ushiftRight_injective
    {shift : Nat}
    (positive : 0 < shift) :
    Function.Injective fun word : BitVec width => word ^^^ word >>> shift := by
  intro left right same
  have own := @xor_eq_of_same width (· >>> shift)
    (fun left right => BitVec.ushiftRight_xor_distrib left right shift) _ _ same
  exact BitVec.xor_eq_zero_iff.mp (eq_zero_of_eq_ushiftRight positive own)

/-- A word is recovered from its product with a word that has an inverse. -/
theorem mul_right_injective
    {factor inverse : BitVec width}
    (inverts : factor * inverse = BitVec.ofNat width 1) :
    Function.Injective (· * factor : BitVec width → BitVec width) := by
  intro left right same
  have multiplied := congrArg (· * inverse) same
  simpa only [BitVec.mul_assoc, inverts, BitVec.mul_one] using multiplied

end XorShift
end TelemetryEdge
