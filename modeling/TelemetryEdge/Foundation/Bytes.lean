import Mathlib.Algebra.Order.Ring.Nat
import Mathlib.Data.Nat.ModEq
import Mathlib.Tactic.Positivity
import Mathlib.Tactic.Ring

/-!
# Fixed-width integers as bytes

Unsigned integers of a given number of bytes in little-endian and big-endian
order, and signed integers in two's complement.  For every width the written
bytes read back to the number, and bytes of that width that have been read are
written back unchanged.
-/

namespace TelemetryEdge
namespace Bytes

/-- The `width` low bytes of a number, least significant first. -/
def toLittleEndian : Nat → Nat → List UInt8
  | 0, _ => []
  | width + 1, number =>
      UInt8.ofNat number :: toLittleEndian width (number / 256)

/-- The number written by bytes, least significant first. -/
def ofLittleEndian : List UInt8 → Nat
  | [] => 0
  | byte :: bytes => byte.toNat + 256 * ofLittleEndian bytes

/-- The `width` low bytes of a number, most significant first. -/
def toBigEndian (width number : Nat) : List UInt8 :=
  (toLittleEndian width number).reverse

/-- The number written by bytes, most significant first. -/
def ofBigEndian (bytes : List UInt8) : Nat :=
  ofLittleEndian bytes.reverse

@[simp] theorem length_toLittleEndian (width number : Nat) :
    (toLittleEndian width number).length = width := by
  induction width generalizing number with
  | zero => rfl
  | succ width inductionHypothesis =>
      simp [toLittleEndian, inductionHypothesis]

@[simp] theorem length_toBigEndian (width number : Nat) :
    (toBigEndian width number).length = width := by
  simp [toBigEndian]

/-- The bytes of a width read back to the number modulo the range. -/
theorem ofLittleEndian_toLittleEndian (width number : Nat) :
    ofLittleEndian (toLittleEndian width number) = number % 256 ^ width := by
  induction width generalizing number with
  | zero => simp [toLittleEndian, ofLittleEndian, Nat.mod_one]
  | succ width inductionHypothesis =>
      have range : 256 ^ (width + 1) = 256 * 256 ^ width := pow_succ' 256 width
      rw [toLittleEndian, ofLittleEndian, inductionHypothesis,
        UInt8.toNat_ofNat', range, Nat.mod_mul]

/-- Bytes that have been read are written back unchanged. -/
theorem toLittleEndian_ofLittleEndian (bytes : List UInt8) :
    toLittleEndian bytes.length (ofLittleEndian bytes) = bytes := by
  induction bytes with
  | nil => rfl
  | cons byte bytes inductionHypothesis =>
      have small : byte.toNat < 256 := byte.toNat_lt
      have quotient :
          (byte.toNat + 256 * ofLittleEndian bytes) / 256 =
            ofLittleEndian bytes := by
        omega
      have lowByte :
          UInt8.ofNat (byte.toNat + 256 * ofLittleEndian bytes) = byte := by
        apply UInt8.toNat_inj.mp
        rw [UInt8.toNat_ofNat']
        omega
      rw [List.length_cons, ofLittleEndian, toLittleEndian, quotient,
        lowByte, inductionHypothesis]

/-- A number read from bytes lies in the range of their width. -/
theorem ofLittleEndian_lt (bytes : List UInt8) :
    ofLittleEndian bytes < 256 ^ bytes.length := by
  induction bytes with
  | nil => simp [ofLittleEndian]
  | cons byte bytes inductionHypothesis =>
      have small : byte.toNat < 256 := byte.toNat_lt
      rw [ofLittleEndian, List.length_cons, pow_succ']
      omega

theorem ofBigEndian_toBigEndian (width number : Nat) :
    ofBigEndian (toBigEndian width number) = number % 256 ^ width := by
  rw [ofBigEndian, toBigEndian, List.reverse_reverse,
    ofLittleEndian_toLittleEndian]

theorem toBigEndian_ofBigEndian (bytes : List UInt8) :
    toBigEndian bytes.length (ofBigEndian bytes) = bytes := by
  rw [ofBigEndian, toBigEndian, ← List.length_reverse,
    toLittleEndian_ofLittleEndian, List.reverse_reverse]

theorem ofBigEndian_lt (bytes : List UInt8) :
    ofBigEndian bytes < 256 ^ bytes.length := by
  have bound := ofLittleEndian_lt bytes.reverse
  rwa [List.length_reverse] at bound

theorem ofBigEndian_u16 (number : UInt16) :
    UInt16.ofNat (ofBigEndian (toBigEndian 2 number.toNat)) = number := by
  have inRange : number.toNat < 256 ^ 2 := number.toNat_lt
  rw [ofBigEndian_toBigEndian, Nat.mod_eq_of_lt inRange]
  exact UInt16.ofNat_toNat

theorem ofBigEndian_u64 (number : UInt64) :
    UInt64.ofNat (ofBigEndian (toBigEndian 8 number.toNat)) = number := by
  have inRange : number.toNat < 256 ^ 8 := number.toNat_lt
  rw [ofBigEndian_toBigEndian, Nat.mod_eq_of_lt inRange]
  exact UInt64.ofNat_toNat

theorem toBigEndian_u16
    {bytes : List UInt8}
    (length : bytes.length = 2) :
    toBigEndian 2 (UInt16.ofNat (ofBigEndian bytes)).toNat = bytes := by
  have inRange := ofBigEndian_lt bytes
  rw [length] at inRange
  rw [UInt16.toNat_ofNat_of_lt' inRange, ← length, toBigEndian_ofBigEndian]

theorem toBigEndian_u64
    {bytes : List UInt8}
    (length : bytes.length = 8) :
    toBigEndian 8 (UInt64.ofNat (ofBigEndian bytes)).toNat = bytes := by
  have inRange := ofBigEndian_lt bytes
  rw [length] at inRange
  rw [UInt64.toNat_ofNat_of_lt' inRange, ← length, toBigEndian_ofBigEndian]

/-- Signed value of an unsigned number of `width` bytes. -/
def toSigned (width number : Nat) : Int :=
  if 2 * number < 256 ^ width then number else number - (256 : Int) ^ width

/-- Unsigned number of `width` bytes that stands for a signed value. -/
def ofSigned (width : Nat) (value : Int) : Nat :=
  (value % (256 : Int) ^ width).toNat

/-- Reading a number as signed loses nothing. -/
theorem ofSigned_toSigned
    {width number : Nat}
    (inRange : number < 256 ^ width) :
    ofSigned width (toSigned width number) = number := by
  have rangeCast : ((256 ^ width : Nat) : Int) = (256 : Int) ^ width := by
    push_cast
    ring
  have inRangeInt : (number : Int) < (256 : Int) ^ width := by
    rw [← rangeCast]
    exact_mod_cast inRange
  unfold ofSigned toSigned
  split
  · rw [Int.emod_eq_of_lt (by omega) inRangeInt]
    rfl
  · rw [Int.sub_emod_right, Int.emod_eq_of_lt (by omega) inRangeInt]
    rfl

/-- A value in the signed range is read back from its unsigned number. -/
theorem toSigned_ofSigned
    {width : Nat}
    {value : Int}
    (above : -(256 : Int) ^ width ≤ 2 * value)
    (below : 2 * value < (256 : Int) ^ width) :
    toSigned width (ofSigned width value) = value := by
  have positive : (0 : Int) < (256 : Int) ^ width := by positivity
  have rangeCast : ((256 ^ width : Nat) : Int) = (256 : Int) ^ width := by
    push_cast
    ring
  have residueNonneg := Int.emod_nonneg value positive.ne'
  have residueLt := Int.emod_lt_of_pos value positive
  have residueCast :
      ((value % (256 : Int) ^ width).toNat : Int) =
        value % (256 : Int) ^ width := Int.toNat_of_nonneg residueNonneg
  unfold toSigned ofSigned
  rcases lt_or_ge value 0 with negative | nonnegative
  · have residue :
        value % (256 : Int) ^ width = value + (256 : Int) ^ width := by
      rw [← Int.add_emod_right, Int.emod_eq_of_lt (by omega) (by omega)]
    rw [if_neg (by omega), residueCast, residue]
    omega
  · have residue : value % (256 : Int) ^ width = value :=
      Int.emod_eq_of_lt nonnegative (by omega)
    rw [if_pos (by omega), residueCast, residue]

end Bytes
end TelemetryEdge
