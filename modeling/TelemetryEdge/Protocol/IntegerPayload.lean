import TelemetryEdge.Protocol.Wire

/-!
# Integer payloads

For every integer wire type and both byte orders, the payloads of the type's
size are exactly the raw values in its range: writing and reading are inverse to
each other.
-/

namespace TelemetryEdge
namespace Protocol

theorem length_toBytes
    (endian : Endian)
    (width number : Nat) :
    (toBytes endian width number).length = width := by
  cases endian <;> simp [toBytes]

theorem fromBytes_toBytes
    (endian : Endian)
    (width number : Nat) :
    fromBytes endian (toBytes endian width number) = number % 256 ^ width := by
  cases endian with
  | big => exact Bytes.ofBigEndian_toBigEndian width number
  | little => exact Bytes.ofLittleEndian_toLittleEndian width number

theorem toBytes_fromBytes
    (endian : Endian)
    (payload : List UInt8) :
    toBytes endian payload.length (fromBytes endian payload) = payload := by
  cases endian with
  | big => exact Bytes.toBigEndian_ofBigEndian payload
  | little => exact Bytes.toLittleEndian_ofLittleEndian payload

theorem fromBytes_lt
    (endian : Endian)
    (payload : List UInt8) :
    fromBytes endian payload < 256 ^ payload.length := by
  cases endian with
  | big => exact Bytes.ofBigEndian_lt payload
  | little => exact Bytes.ofLittleEndian_lt payload

/-- Lowest raw value of a width and signedness. -/
def lowestRaw (width : Nat) (signed : Bool) : Int :=
  if signed then -(2 ^ (8 * width - 1)) else 0

/-- First raw value above the range of a width and signedness. -/
def beyondRaw (width : Nat) (signed : Bool) : Int :=
  if signed then 2 ^ (8 * width - 1) else 2 ^ (8 * width)

private theorem range_eq_pow (width : Nat) :
    (256 : Int) ^ width = 2 ^ (8 * width) := by
  rw [pow_mul]
  rfl

private theorem double_half_range
    {width : Nat}
    (positive : 0 < width) :
    2 * (2 : Int) ^ (8 * width - 1) = 256 ^ width := by
  rw [range_eq_pow, ← pow_succ']
  congr 1
  omega

/-- Writing succeeds exactly in the range, with the two's-complement bytes. -/
theorem writeInt_eq_some_iff
    (width : Nat)
    (signed : Bool)
    (endian : Endian)
    (value : Int)
    (payload : List UInt8) :
    writeInt width signed endian (.int value : Raw F) = some payload ↔
      (lowestRaw width signed ≤ value ∧ value < beyondRaw width signed) ∧
        payload = toBytes endian width (Bytes.ofSigned width value) := by
  change (if lowestRaw width signed ≤ value ∧ value < beyondRaw width signed then
      some (toBytes endian width (Bytes.ofSigned width value)) else none) =
    some payload ↔ _
  by_cases inRange :
      lowestRaw width signed ≤ value ∧ value < beyondRaw width signed
  · simp [inRange, eq_comm]
  · simp [inRange]

/-- Reading a payload of the right width always succeeds. -/
theorem readInt_eq_some_iff
    (width : Nat)
    (signed : Bool)
    (endian : Endian)
    (payload : List UInt8)
    (value : Int) :
    readInt width signed endian payload = some (.int value : Raw F) ↔
      payload.length = width ∧
        value = if signed then Bytes.toSigned width (fromBytes endian payload)
          else fromBytes endian payload := by
  simp only [readInt]
  split
  · next sized => simp [sized, eq_comm]
  · next missized => simp [missized]

/-- The unsigned number written for a value in range reads back as the
value. -/
theorem signedValue_ofSigned
    {width : Nat}
    (positive : 0 < width)
    {signed : Bool}
    {value : Int}
    (above : lowestRaw width signed ≤ value)
    (below : value < beyondRaw width signed) :
    (if signed then Bytes.toSigned width (Bytes.ofSigned width value)
      else Bytes.ofSigned width value) = value := by
  have half := double_half_range positive
  have range := range_eq_pow width
  cases signed with
  | true =>
      simp only [lowestRaw, beyondRaw, if_true] at above below ⊢
      exact Bytes.toSigned_ofSigned (by omega) (by omega)
  | false =>
      simp only [lowestRaw, beyondRaw, Bool.false_eq_true, if_false]
        at above below ⊢
      rw [Bytes.ofSigned, Int.emod_eq_of_lt above (by omega),
        Int.toNat_of_nonneg above]

/-- A number in the unsigned range of a width stands for a value in range, and
is the number written for it. -/
theorem ofSigned_signedValue
    {width number : Nat}
    (positive : 0 < width)
    (signed : Bool)
    (inRange : number < 256 ^ width) :
    let value : Int := if signed then Bytes.toSigned width number else number
    (lowestRaw width signed ≤ value ∧ value < beyondRaw width signed) ∧
      Bytes.ofSigned width value = number := by
  have half := double_half_range positive
  have range := range_eq_pow width
  have inRangeInt : (number : Int) < (256 : Int) ^ width := by
    exact_mod_cast inRange
  cases signed with
  | true =>
      simp only [lowestRaw, beyondRaw, if_true]
      refine ⟨?_, Bytes.ofSigned_toSigned inRange⟩
      have rangeCast : ((256 ^ width : Nat) : Int) = (256 : Int) ^ width := by
        push_cast
        rfl
      unfold Bytes.toSigned
      split <;> omega
  | false =>
      simp only [lowestRaw, beyondRaw, Bool.false_eq_true, if_false]
      refine ⟨by omega, ?_⟩
      rw [Bytes.ofSigned, Int.emod_eq_of_lt (by omega) inRangeInt,
        Int.toNat_natCast]

/-- What has been written reads back, and has the width. -/
theorem readInt_of_writeInt
    {width : Nat}
    (positive : 0 < width)
    {signed : Bool}
    {endian : Endian}
    {value : Int}
    {payload : List UInt8}
    (written : writeInt width signed endian (.int value : Raw F) =
      some payload) :
    payload.length = width ∧
      readInt width signed endian payload = some (.int value : Raw F) := by
  obtain ⟨⟨above, below⟩, rfl⟩ :=
    (writeInt_eq_some_iff width signed endian value payload).mp written
  have sized := length_toBytes endian width (Bytes.ofSigned width value)
  refine ⟨sized, (readInt_eq_some_iff ..).mpr ⟨sized, ?_⟩⟩
  have inRange : Bytes.ofSigned width value < 256 ^ width := by
    have modPositive : (0 : Int) < 256 ^ width := by positivity
    have residueLt := Int.emod_lt_of_pos value modPositive
    have rangeCast : ((256 ^ width : Nat) : Int) = (256 : Int) ^ width := by
      push_cast
      rfl
    rw [Bytes.ofSigned]
    omega
  rw [fromBytes_toBytes, Nat.mod_eq_of_lt inRange,
    signedValue_ofSigned positive above below]

/-- What has been read is written back unchanged. -/
theorem writeInt_of_readInt
    {width : Nat}
    (positive : 0 < width)
    {signed : Bool}
    {endian : Endian}
    {value : Int}
    {payload : List UInt8}
    (read : readInt width signed endian payload = some (.int value : Raw F)) :
    writeInt width signed endian (.int value : Raw F) = some payload := by
  obtain ⟨sized, rfl⟩ :=
    (readInt_eq_some_iff width signed endian payload value).mp read
  have inRange := fromBytes_lt endian payload
  rw [sized] at inRange
  obtain ⟨bounds, number⟩ := ofSigned_signedValue positive signed inRange
  refine (writeInt_eq_some_iff ..).mpr ⟨bounds, ?_⟩
  rw [number, ← sized, toBytes_fromBytes]

section WireTypes

variable [F64 F]

/-- The layout of the types whose raw values are integers. -/
def SignalType.intLayout : SignalType → Option (Nat × Bool)
  | .bool | .u8 => some (1, false)
  | .i8 => some (1, true)
  | .u16 => some (2, false)
  | .i16 => some (2, true)
  | .u32 => some (4, false)
  | .i32 => some (4, true)
  | .u64 => some (8, false)
  | .i64 => some (8, true)
  | .f32 | .f64 => none

/-- A type with an integer layout is read and written as such. -/
theorem readRaw_writeRaw_of_intLayout
    {ty : SignalType}
    {width : Nat}
    {signed : Bool}
    (layout : ty.intLayout = some (width, signed)) :
    (0 < width ∧ ty.size = width) ∧
      (∀ endian payload,
        readRaw ty endian payload =
          (readInt width signed endian payload : Option (Raw F))) ∧
      ∀ endian (raw : Raw F),
        writeRaw ty endian raw = writeInt width signed endian raw := by
  cases ty <;>
    simp only [SignalType.intLayout, Option.some.injEq, Prod.mk.injEq,
      reduceCtorEq] at layout <;>
    obtain ⟨rfl, rfl⟩ := layout <;>
    exact ⟨⟨by decide, rfl⟩, fun _ _ => rfl, fun _ _ => rfl⟩

/-- What a type with an integer layout has written reads back, and has the size
of the type. -/
theorem readRaw_of_writeRaw
    {ty : SignalType}
    {layout : Nat × Bool}
    (integer : ty.intLayout = some layout)
    {endian : Endian}
    {value : Int}
    {payload : List UInt8}
    (written : writeRaw ty endian (.int value : Raw F) = some payload) :
    payload.length = ty.size ∧
      readRaw ty endian payload = some (.int value : Raw F) := by
  obtain ⟨⟨positive, sized⟩, reads, writes⟩ :=
    readRaw_writeRaw_of_intLayout (F := F) integer
  rw [writes] at written
  rw [reads, sized]
  exact readInt_of_writeInt positive written

/-- What a type with an integer layout has read is written back unchanged. -/
theorem writeRaw_of_readRaw
    {ty : SignalType}
    {layout : Nat × Bool}
    (integer : ty.intLayout = some layout)
    {endian : Endian}
    {value : Int}
    {payload : List UInt8}
    (read : readRaw ty endian payload = some (.int value : Raw F)) :
    writeRaw ty endian (.int value : Raw F) = some payload := by
  obtain ⟨⟨positive, _⟩, reads, writes⟩ :=
    readRaw_writeRaw_of_intLayout (F := F) integer
  rw [reads] at read
  rw [writes]
  exact writeInt_of_readInt positive read

/-- The range that is checked for enum keys is the range that can be written. -/
theorem writeRaw_isSome_of_intRange
    {ty : SignalType}
    {range : Int × Int}
    (ranged : ty.intRange = some range)
    (endian : Endian)
    (value : Int) :
    (∃ payload, writeRaw ty endian (.int value : Raw F) = some payload) ↔
      range.1 ≤ value ∧ value ≤ range.2 := by
  cases ty <;>
    simp only [SignalType.intRange, Option.some.injEq, reduceCtorEq]
      at ranged <;>
    subst ranged <;>
    simp only [writeRaw, writeInt_eq_some_iff, exists_and_left, exists_eq,
      and_true, lowestRaw, beyondRaw, if_true, if_false, Bool.false_eq_true] <;>
    omega

/-- Every type with an enum range has an integer layout. -/
theorem SignalType.intLayout_of_intRange
    {ty : SignalType}
    {range : Int × Int}
    (ranged : ty.intRange = some range) :
    ∃ layout, ty.intLayout = some layout := by
  cases ty <;> simp [SignalType.intRange, SignalType.intLayout] at ranged ⊢

end WireTypes

end Protocol
end TelemetryEdge
