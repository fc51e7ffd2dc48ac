import TelemetryEdge.Foundation.Binary64Integer
import TelemetryEdge.Protocol.ScaledInteger

/-!
# Unscaled integers on the wire

An integer signal with scale one and offset zero in double precision.  The
number a payload decodes to is the nearest one with 53 significant bits to its
integer, so exactly the payloads whose integers have no more bits are encoded
again from their numbers.
-/

namespace TelemetryEdge
namespace Protocol

open FloatFormat Binary64

/-- The integer that a payload of an integer type stands for. -/
def Signal.payloadInteger
    (signal : Signal F)
    (payload : List UInt8) : Int :=
  match signal.ty.intLayout with
  | some (width, true) =>
      Bytes.toSigned width (fromBytes signal.endian payload)
  | _ => fromBytes signal.endian payload

section Payloads

variable [F64 F]

/-- A payload is encoded again from the value it decodes to. -/
def Signal.RoundTrips (signal : Signal F) (payload : List UInt8) : Prop :=
  ∃ value, decodeValue signal payload = .ok value ∧
    encodeValue signal value = .ok payload

/-- Reading a payload of the size of the type gives its integer. -/
theorem Signal.Integral.readRaw_payloadInteger
    {signal : Signal F}
    {range : Int × Int}
    (integral : signal.Integral range)
    {payload : List UInt8}
    (sized : payload.length = signal.ty.size) :
    readRaw signal.ty signal.endian payload =
      some (.int (signal.payloadInteger payload) : Raw F) := by
  obtain ⟨⟨width, signed⟩, integer⟩ :=
    SignalType.intLayout_of_intRange integral.intRange
  obtain ⟨⟨-, size⟩, reads, -⟩ :=
    readRaw_writeRaw_of_intLayout (F := F) integer
  rw [reads, readInt_eq_some_iff, ← size, Signal.payloadInteger, integer, size]
  refine ⟨sized.trans size, ?_⟩
  cases signed with
  | true => rfl
  | false => rfl

end Payloads

/-- The signal has scale one and offset zero. -/
structure Signal.Unscaled (signal : Signal Binary64) : Prop where
  scale : F64.eq signal.definition.scale Binary64.one = true
  offset : F64.eq signal.definition.offset F64.zero = true

/-- The integers of a type have at most the bits of its size. -/
theorem SignalType.natAbs_le_of_intRange
    {ty : SignalType}
    {range : Int × Int}
    (ranged : ty.intRange = some range)
    {integer : Int}
    (inRange : range.1 ≤ integer ∧ integer ≤ range.2) :
    integer.natAbs ≤ 2 ^ (8 * ty.size) := by
  cases ty <;>
    simp only [SignalType.intRange, Option.some.injEq, reduceCtorEq]
      at ranged <;>
    subst ranged <;>
    simp only [SignalType.size] at inRange ⊢ <;>
    omega

/-- No type has more than eight bytes. -/
theorem SignalType.size_le (ty : SignalType) : ty.size ≤ 8 := by
  cases ty <;> decide

/-- The integer of a payload has at most the bits of its type. -/
theorem Signal.Integral.natAbs_payloadInteger_le
    {signal : Signal Binary64}
    {range : Int × Int}
    (integral : signal.Integral range)
    {payload : List UInt8}
    (sized : payload.length = signal.ty.size) :
    (signal.payloadInteger payload).natAbs ≤ 2 ^ (8 * signal.ty.size) := by
  obtain ⟨raw, read, inRange⟩ := integral.exists_raw sized
  rw [integral.readRaw_payloadInteger sized] at read
  injection read with same
  injection same with same
  rw [same]
  exact SignalType.natAbs_le_of_intRange integral.intRange inRange

/-- The integer of a payload has at most 64 bits. -/
theorem Signal.Integral.natAbs_payloadInteger_le_word
    {signal : Signal Binary64}
    {range : Int × Int}
    (integral : signal.Integral range)
    {payload : List UInt8}
    (sized : payload.length = signal.ty.size) :
    (signal.payloadInteger payload).natAbs ≤ 2 ^ 64 := by
  apply Nat.le_trans (integral.natAbs_payloadInteger_le sized)
  apply Nat.pow_le_pow_right Nat.two_pos
  exact Nat.mul_le_mul_left 8 signal.ty.size_le

section Unscaled

variable
  {signal : Signal Binary64}
  {range : Int × Int}
  (integral : signal.Integral range)
  (unscaled : signal.Unscaled)

include integral unscaled

/-- A payload decodes to its integer, converted to double precision. -/
theorem Signal.Unscaled.decodeValue_eq
    {payload : List UInt8}
    (sized : payload.length = signal.ty.size) :
    decodeValue signal payload =
      .ok (.num (ofInt (signal.payloadInteger payload))) := by
  have bounded := integral.natAbs_payloadInteger_le_word sized
  have is := isInteger_ofInt bounded
  have physical : signal.physical (signal.payloadInteger payload) =
      ofInt (signal.payloadInteger payload) := by
    rw [Signal.physical, f64_add, f64_mul, f64_ofInt,
      eq_one_of_eq unscaled.scale, is.mul_one,
      is.add_zero (magnitude_of_eq_zero unscaled.offset)]
  rw [integral.decodeValue_eq sized (integral.readRaw_payloadInteger sized),
    physical, f64_isFinite, is.finite, if_pos rfl]

/-- A converted integer is encoded as the nearest one with 53 significant
bits. -/
theorem Signal.Unscaled.encodeValue_ofInt_iff
    {integer : Int}
    (bounded : integer.natAbs ≤ 2 ^ 64)
    (payload : List UInt8) :
    encodeValue signal (.num (ofInt integer)) = .ok payload ↔
      writeRaw signal.ty signal.endian
        (.int (nearestInteger integer) : Raw Binary64) = some payload := by
  have is := isInteger_ofInt bounded
  have unscaling : signal.unscaled (ofInt integer) = ofInt integer := by
    rw [Signal.unscaled, f64_div, f64_sub, eq_one_of_eq unscaled.scale,
      is.sub_zero (magnitude_of_eq_zero unscaled.offset), is.div_one]
  have rounding : F64.toInt (F64.round (ofInt integer)) =
      nearestInteger integer := by
    rw [f64_toInt, f64_round, is.roundToInteger_eq, toInt_ofInt bounded]
  rw [integral.encodeValue_eq_ok_iff, unscaling, rounding, f64_isFinite,
    is.finite]
  exact and_iff_right rfl

/-- A payload is encoded again exactly when its integer fits. -/
theorem Signal.Unscaled.roundTrips_iff
    {payload : List UInt8}
    (sized : payload.length = signal.ty.size) :
    signal.RoundTrips payload ↔
      double.Fits (signal.payloadInteger payload).natAbs := by
  have bounded := integral.natAbs_payloadInteger_le_word sized
  have read := integral.readRaw_payloadInteger sized
  have decoded := unscaled.decodeValue_eq integral sized
  have encoded := unscaled.encodeValue_ofInt_iff integral bounded payload
  obtain ⟨layout, integer⟩ :=
    SignalType.intLayout_of_intRange integral.intRange
  rw [← nearestInteger_eq_self_iff]
  constructor
  · rintro ⟨value, success, again⟩
    rw [decoded] at success
    injection success with same
    rw [← same, encoded] at again
    have reread := (readRaw_of_writeRaw integer again).2
    rw [read] at reread
    injection reread with raw
    injection raw with kept
    exact kept.symm
  · intro kept
    refine ⟨_, decoded, encoded.mpr ?_⟩
    rw [kept]
    exact writeRaw_of_readRaw integer read

/-- Types of at most four bytes lose no payload. -/
theorem Signal.Unscaled.roundTrips_of_size_le
    (narrow : signal.ty.size ≤ 4)
    {payload : List UInt8}
    (sized : payload.length = signal.ty.size) :
    signal.RoundTrips payload := by
  apply (unscaled.roundTrips_iff integral sized).mpr
  refine ⟨_, 0, ?_, (Nat.mul_one _).symm⟩
  apply Nat.lt_of_le_of_lt (integral.natAbs_payloadInteger_le sized)
  apply Nat.pow_lt_pow_right Nat.one_lt_two
  change 8 * signal.ty.size < 53
  omega

end Unscaled

/-- In double precision every payload of an integer signal without an enum map,
with scale one and offset zero, decodes, and exactly those whose integers have
at most 53 significant bits are encoded again from their numbers. -/
theorem roundTrips_iff_fits
    {signal : Signal Binary64}
    {range : Int × Int}
    (integer : signal.ty.intRange = some range)
    (noEnum : signal.definition.enumMap = none)
    (unscaled : signal.Unscaled)
    {payload : List UInt8}
    (sized : payload.length = signal.ty.size) :
    (∃ number, decodeValue signal payload = .ok (.num number)) ∧
      (signal.RoundTrips payload ↔
        double.Fits (signal.payloadInteger payload).natAbs) := by
  have integral : signal.Integral range := ⟨integer, noEnum⟩
  exact ⟨⟨_, unscaled.decodeValue_eq integral sized⟩,
    unscaled.roundTrips_iff integral sized⟩

/-- Energy drawn from the battery, in milliwatt seconds. -/
def energyCounter : SignalDef Binary64 where
  id := 11
  name := "energy"
  ty := .u64
  endian := some .big
  scale := ⟨0x3FF0000000000000⟩
  offset := ⟨0⟩
  unit := some "mWs"
  enumMap := none

/-- The signal of the counter. -/
def energySignal : Signal Binary64 := ⟨energyCounter, ∅, ∅⟩

/-- The catalog of the counter. -/
def energyCatalog : AcceptedCatalog Binary64 where
  model := "R1S"
  catalogVersion := 1
  signals := [energySignal]
  byIdIndex := (∅ : KeyedMap UInt16 Nat).insert 11 0
  byNameIndex := (∅ : KeyedMap String Nat).insert "energy" 0
  accepted := ⟨⟨"R1S", 1, [energyCounter]⟩, by rfl⟩

theorem energySignal_unscaled : energySignal.Unscaled :=
  ⟨by decide, by decide⟩

/-- A count of one significant bit round-trips. -/
theorem energySignal_roundTrips :
    energySignal.RoundTrips [0, 0x20, 0, 0, 0, 0, 0, 0] :=
  (roundTrips_iff_fits rfl rfl energySignal_unscaled rfl).2.mpr
    ⟨1, 53, by decide, by decide⟩

/-- The next count decodes to the same number, and is encoded as the one
before. -/
theorem energySignal_not_roundTrips :
    energySignal ∈ energyCatalog.signals ∧
      energySignal.ty.intRange = some (0, 2 ^ 64 - 1) ∧
      energySignal.definition.enumMap = none ∧ energySignal.Unscaled ∧
      decodeValue energySignal [0, 0x20, 0, 0, 0, 0, 0, 1] =
        .ok (.num ⟨0x4340000000000000⟩) ∧
      encodeValue energySignal (.num ⟨0x4340000000000000⟩) =
        .ok [0, 0x20, 0, 0, 0, 0, 0, 0] ∧
      ¬ energySignal.RoundTrips [0, 0x20, 0, 0, 0, 0, 0, 1] := by
  have decoded : decodeValue energySignal [0, 0x20, 0, 0, 0, 0, 0, 1] =
      .ok (.num ⟨0x4340000000000000⟩) := by decide +kernel
  have encoded : encodeValue energySignal (.num ⟨0x4340000000000000⟩) =
      .ok [0, 0x20, 0, 0, 0, 0, 0, 0] := by decide +kernel
  refine ⟨List.mem_cons_self, rfl, rfl, energySignal_unscaled, decoded,
    encoded, ?_⟩
  rintro ⟨value, success, again⟩
  rw [decoded] at success
  injection success with same
  rw [← same, encoded] at again
  injection again with bytes
  revert bytes
  decide

/-- The largest count decodes to a number that is out of range. -/
example :
    decodeValue energySignal (List.replicate 8 0xFF) =
        .ok (.num ⟨0x43F0000000000000⟩) ∧
      encodeValue energySignal (.num ⟨0x43F0000000000000⟩) =
        .error (.outOfRange "energy" ⟨0x43F0000000000000⟩) := by
  decide +kernel

end Protocol
end TelemetryEdge
