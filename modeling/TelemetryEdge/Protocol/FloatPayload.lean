import TelemetryEdge.Foundation.Binary64Sign
import TelemetryEdge.Foundation.Binary64Single
import TelemetryEdge.Protocol.UnscaledInteger

/-!
# Floating-point payloads

A signal of a floating-point type with scale one and offset zero in double
precision.  Exactly the payloads of finite numbers decode, and their values are
encoded as the same payloads, apart from negative zero, which comes back as
positive zero.
-/

namespace TelemetryEdge
namespace Protocol

open FloatFormat Binary64

/-- The format of a floating-point type. -/
def SignalType.floatFormat : SignalType → Option FloatFormat
  | .f32 => some single
  | .f64 => some double
  | _ => none

namespace Signal

variable {signal : Signal Binary64} {format : FloatFormat}
variable {payload : List UInt8}

/-- The number of a payload of a floating-point type, before it is scaled. -/
def payloadNumber (signal : Signal Binary64) (payload : List UInt8) :
    Binary64 :=
  let bits := fromBytes signal.endian payload
  if signal.ty = .f32 then ofSingleBits (UInt32.ofNat bits)
  else ⟨UInt64.ofNat bits⟩

/-- The magnitude bits of a payload of a floating-point type. -/
def payloadMagnitude
    (signal : Signal F)
    (format : FloatFormat)
    (payload : List UInt8) : Nat :=
  fromBytes signal.endian payload % format.signBit

/-- The payload with the sign of zero taken away. -/
def canonicalPayload
    (signal : Signal F)
    (format : FloatFormat)
    (payload : List UInt8) : List UInt8 :=
  if signal.payloadMagnitude format payload = 0 then
    toBytes signal.endian signal.ty.size 0
  else payload

/-- The bits of a payload fit into its type. -/
theorem fromBytes_lt_of_sized
    (sized : payload.length = signal.ty.size) :
    fromBytes signal.endian payload < 256 ^ signal.ty.size :=
  sized ▸ fromBytes_lt signal.endian payload

theorem readRaw_payloadNumber
    (float : signal.ty.floatFormat = some format)
    (sized : payload.length = signal.ty.size) :
    readRaw signal.ty signal.endian payload =
      some (.float (signal.payloadNumber payload)) := by
  unfold payloadNumber
  cases named : signal.ty <;> rw [named] at float sized <;>
    simp only [SignalType.floatFormat, reduceCtorEq] at float
  case f32 => exact if_pos sized
  case f64 => exact if_pos sized

/-- A payload has a finite number exactly if its magnitude bits are below those
of infinity. -/
theorem isFinite_payloadNumber_iff
    (float : signal.ty.floatFormat = some format)
    (sized : payload.length = signal.ty.size) :
    (signal.payloadNumber payload).isFinite = true ↔
      signal.payloadMagnitude format payload < format.infinityBits := by
  have bounded := fromBytes_lt_of_sized sized
  unfold payloadNumber payloadMagnitude
  cases named : signal.ty <;> rw [named] at float bounded <;>
    simp only [SignalType.floatFormat, Option.some.injEq, reduceCtorEq] at float
  case f32 =>
    subst float
    rw [if_pos rfl, isFinite_ofSingleBits_iff, singleMagnitude,
      UInt32.toNat_ofNat_of_lt' bounded]
  case f64 =>
    subst float
    rw [if_neg (by decide), isFinite, magnitude,
      UInt64.toNat_ofNat_of_lt' bounded]
    exact decide_eq_true_iff

/-- Only the payloads of the two zeros have the number zero. -/
theorem magnitude_payloadNumber_iff
    (float : signal.ty.floatFormat = some format)
    (sized : payload.length = signal.ty.size)
    (finite : signal.payloadMagnitude format payload < format.infinityBits) :
    (signal.payloadNumber payload).magnitude = 0 ↔
      signal.payloadMagnitude format payload = 0 := by
  have bounded := fromBytes_lt_of_sized sized
  unfold payloadNumber
  unfold payloadMagnitude at finite ⊢
  cases named : signal.ty <;> rw [named] at float bounded <;>
    simp only [SignalType.floatFormat, Option.some.injEq, reduceCtorEq] at float
  case f32 =>
    subst float
    have same : singleMagnitude
        (UInt32.ofNat (fromBytes signal.endian payload)) =
          fromBytes signal.endian payload % single.signBit := by
      rw [singleMagnitude, UInt32.toNat_ofNat_of_lt' bounded]
    rw [if_pos rfl, ← same]
    exact magnitude_ofSingleBits_eq_zero_iff (same ▸ finite)
  case f64 =>
    subst float
    rw [if_neg (by decide), magnitude, UInt64.toNat_ofNat_of_lt' bounded]

/-- Whether an `f32` is finite can be read off its magnitude bits. -/
theorem singleIsFinite_of_lt
    {bits : UInt32}
    (finite : singleMagnitude bits < single.infinityBits) :
    singleIsFinite bits = true := by
  have below : bits.toNat % 2 ^ 31 < 255 * 2 ^ 23 := finite
  rw [singleIsFinite, bne_iff_ne]
  intro full
  have exponent := congrArg UInt32.toNat full
  have field : ((bits >>> 23) &&& 0xFF).toNat = bits.toNat / 2 ^ 23 % 2 ^ 8 := by
    rw [UInt32.toNat_and, UInt32.toNat_shiftRight, Nat.shiftRight_eq_div_pow]
    exact Nat.and_two_pow_sub_one_eq_mod _ 8
  rw [field] at exponent
  have ones : (0xFF : UInt32).toNat = 255 := rfl
  omega

/-- The finite number of a payload is written as the payload. -/
theorem writeRaw_payloadNumber
    (float : signal.ty.floatFormat = some format)
    (sized : payload.length = signal.ty.size)
    (finite : signal.payloadMagnitude format payload < format.infinityBits) :
    writeRaw signal.ty signal.endian (.float (signal.payloadNumber payload)) =
      some payload := by
  have bounded := fromBytes_lt_of_sized sized
  have again := toBytes_fromBytes signal.endian payload
  rw [sized] at again
  unfold payloadNumber
  unfold payloadMagnitude at finite
  cases named : signal.ty <;> rw [named] at float bounded again <;>
    simp only [SignalType.floatFormat, Option.some.injEq, reduceCtorEq] at float
  case f32 =>
    subst float
    have below : singleMagnitude
        (UInt32.ofNat (fromBytes signal.endian payload)) <
          single.infinityBits := by
      rwa [singleMagnitude, UInt32.toNat_ofNat_of_lt' bounded]
    have written : F64.toSingleBits (ofSingleBits
        (UInt32.ofNat (fromBytes signal.endian payload))) =
          UInt32.ofNat (fromBytes signal.endian payload) :=
      toSingleBits_ofSingleBits below
    simp only [writeRaw, if_true, written, singleIsFinite_of_lt below,
      Bool.not_true, Bool.false_eq_true, if_false,
      UInt32.toNat_ofNat_of_lt' bounded]
    exact congrArg some again
  case f64 =>
    subst float
    have written : (F64.toBits (⟨UInt64.ofNat
        (fromBytes signal.endian payload)⟩ : Binary64)).toNat =
          fromBytes signal.endian payload :=
      UInt64.toNat_ofNat_of_lt' bounded
    simp only [writeRaw, reduceCtorEq, if_false, written]
    exact congrArg some again

/-- Zero is written as the payload of positive zero. -/
theorem writeRaw_zero
    (float : signal.ty.floatFormat = some format) :
    writeRaw signal.ty signal.endian (.float (⟨0⟩ : Binary64)) =
      some (toBytes signal.endian signal.ty.size 0) := by
  have written : F64.toSingleBits (⟨0⟩ : Binary64) = 0 := by decide +kernel
  cases named : signal.ty <;> rw [named] at float <;>
    simp only [SignalType.floatFormat, reduceCtorEq] at float
  case f32 =>
    rw [writeRaw, written]
    rfl
  case f64 => rfl

/-- A number with the positive sign if it is zero. -/
def canonicalNumber (number : Binary64) : Binary64 :=
  if number.magnitude = 0 then ⟨0⟩ else number

section Unscaled

variable
  (float : signal.ty.floatFormat = some format)
  (noEnum : signal.definition.enumMap = none)
  (unscaled : signal.Unscaled)

include float noEnum in
/-- A signal of a floating-point type without an enum map has numbers as
values. -/
theorem kind_eq_of_float :
    signal.kind = .num ∧ signal.definition.ty.isFloat = true := by
  unfold ty at float
  cases named : signal.definition.ty <;> rw [named] at float <;>
    simp only [SignalType.floatFormat, reduceCtorEq] at float <;>
    simp [kind, named, noEnum, SignalType.isFloat]

/-- The value of a number: itself, apart from the sign of zero. -/
def floatValue (signal : Signal Binary64) (number : Binary64) : Binary64 :=
  add (mul number signal.definition.scale) signal.definition.offset

include unscaled in
/-- The value of a finite number is the number, apart from the sign of zero. -/
theorem floatValue_eq
    {number : Binary64}
    (finite : number.isFinite = true) :
    signal.floatValue number =
      if number.magnitude = 0 then
        ofMagnitude (number.negative && signal.definition.offset.negative) 0
      else number := by
  rw [floatValue, eq_one_of_eq unscaled.scale, mul_one_of_isFinite finite,
    add_zero_of_isFinite finite (magnitude_of_eq_zero unscaled.offset)]

include unscaled in
/-- Only finite numbers have finite values. -/
theorem isFinite_floatValue (number : Binary64) :
    (signal.floatValue number).isFinite = number.isFinite := by
  have offset := magnitude_of_eq_zero unscaled.offset
  have offsetFinite : signal.definition.offset.isFinite = true := by
    rw [isFinite, offset]
    decide
  cases finite : number.isFinite with
  | true =>
      rw [floatValue_eq unscaled finite]
      split
      · exact isFinite_ofMagnitude _ (by decide)
      · exact finite
  | false =>
      have oneNumber := isNan_of_isFinite isFinite_one
      have oneBounded := isInfinite_of_isFinite isFinite_one
      have oneNonzero : one.magnitude ≠ 0 := by decide
      rw [floatValue, eq_one_of_eq unscaled.scale]
      cases isNumber : number.isNan with
      | true =>
          have product : mul number one = nan := by
            simp only [mul, isNumber, Bool.true_or, if_true]
          have noNumber : nan.isNan = true := by decide
          rw [product, add, noNumber, Bool.true_or, if_pos rfl]
          decide
      | false =>
          have infinite := isInfinite_of_not_isFinite isNumber finite
          have product : mul number one =
              infinity (number.negative != one.negative) := by
            simp only [mul, isNumber, oneNumber, infinite, oneNonzero,
              Bool.or_self, Bool.false_eq_true, if_true, if_false]
          have stays (negative : Bool) : (infinity negative).isNan = false ∧
              (infinity negative).isInfinite = true ∧
              (infinity negative).isFinite = false := by
            cases negative <;> decide
          obtain ⟨stillNumber, still, beyond⟩ :=
            stays (number.negative != one.negative)
          rw [product, add, stillNumber, isNan_of_isFinite offsetFinite, still,
            isInfinite_of_isFinite offsetFinite]
          exact beyond

include unscaled in
/-- The value of a finite number is brought back to the number, zero with the
positive sign. -/
theorem unscaled_floatValue
    {number : Binary64}
    (finite : number.isFinite = true) :
    signal.unscaled (signal.floatValue number) = canonicalNumber number := by
  have offset := magnitude_of_eq_zero unscaled.offset
  have valueFinite : (signal.floatValue number).isFinite = true :=
    (isFinite_floatValue unscaled number).trans finite
  have zeroSmall : 0 < double.signBit := Nat.two_pow_pos _
  have back : sub (signal.floatValue number) signal.definition.offset =
      canonicalNumber number := by
    rw [sub_zero_of_isFinite valueFinite offset, floatValue_eq unscaled finite,
      canonicalNumber]
    by_cases zero : number.magnitude = 0
    · rw [if_pos zero, if_pos zero,
        if_pos (magnitude_ofMagnitude _ zeroSmall),
        negative_ofMagnitude _ zeroSmall]
      cases number.negative <;> cases signal.definition.offset.negative <;> rfl
    · rw [if_neg zero, if_neg zero, if_neg zero]
  have canonicalFinite : (canonicalNumber number).isFinite = true := by
    unfold canonicalNumber
    split
    · decide
    · exact finite
  rw [Signal.unscaled, f64_div, f64_sub, back, eq_one_of_eq unscaled.scale,
    div_one_of_isFinite canonicalFinite]

include float noEnum unscaled

/-- A payload of a finite number decodes to its value, and no other. -/
theorem decodeValue_float
    (sized : payload.length = signal.ty.size) :
    decodeValue signal payload =
      if signal.payloadMagnitude format payload < format.infinityBits then
        .ok (.num (signal.floatValue (signal.payloadNumber payload)))
      else .error .invalidValue := by
  have finite := isFinite_floatValue unscaled (signal.payloadNumber payload)
  have below := isFinite_payloadNumber_iff float sized
  rw [← finite] at below
  simp only [decodeValue, sized, readRaw_payloadNumber float sized,
    (kind_eq_of_float float noEnum).1, ne_eq, not_true_eq_false, if_false,
    ← below]
  rfl

/-- The value of a payload is encoded as the payload, zero with the positive
sign. -/
theorem encodeValue_floatValue
    (sized : payload.length = signal.ty.size)
    (finite : signal.payloadMagnitude format payload < format.infinityBits) :
    encodeValue signal
        (.num (signal.floatValue (signal.payloadNumber payload))) =
      .ok (signal.canonicalPayload format payload) := by
  have numberFinite := (isFinite_payloadNumber_iff float sized).mpr finite
  have back := unscaled_floatValue unscaled numberFinite
  have zero := magnitude_payloadNumber_iff float sized finite
  obtain ⟨numeric, isFloat⟩ := kind_eq_of_float float noEnum
  have bounded : (canonicalNumber (signal.payloadNumber payload)).isFinite =
      true := by
    rw [canonicalNumber]
    split
    · decide
    · exact numberFinite
  have raw : rawOfValue signal
      (.num (signal.floatValue (signal.payloadNumber payload))) =
        .ok (.float (canonicalNumber (signal.payloadNumber payload))) := by
    rw [Signal.unscaled] at back
    simp only [rawOfValue, numeric, isFloat, back, f64_isFinite, bounded,
      Bool.not_true, Bool.false_eq_true, if_true, if_false]
  rw [encodeValue_eq_ok_iff]
  refine ⟨_, raw, ?_⟩
  rw [canonicalPayload, canonicalNumber]
  by_cases vanishes : signal.payloadMagnitude format payload = 0
  · rw [if_pos (zero.mpr vanishes), if_pos vanishes]
    exact writeRaw_zero float
  · rw [if_neg (mt zero.mp vanishes), if_neg vanishes]
    exact writeRaw_payloadNumber float sized finite

end Unscaled

end Signal

/-- In double precision exactly the payloads of finite numbers of a
floating-point signal with scale one and offset zero decode.  The value that one
decodes to is encoded as the payload, negative zero as positive zero, and that
decodes to an equal value. -/
theorem floatPayload_roundTrips
    {signal : Signal Binary64}
    {format : FloatFormat}
    (float : signal.ty.floatFormat = some format)
    (noEnum : signal.definition.enumMap = none)
    (unscaled : signal.Unscaled)
    {payload : List UInt8}
    (sized : payload.length = signal.ty.size) :
    ((∃ value, decodeValue signal payload = .ok value) ↔
      signal.payloadMagnitude format payload < format.infinityBits) ∧
    ∀ value, decodeValue signal payload = .ok value →
      encodeValue signal value = .ok (signal.canonicalPayload format payload) ∧
      ∃ again, decodeValue signal (signal.canonicalPayload format payload) =
          .ok again ∧ again.eq value = true := by
  have decoded := Signal.decodeValue_float float noEnum unscaled sized
  constructor
  · rw [decoded]
    split
    · next finite => exact ⟨fun _ => finite, fun _ => ⟨_, rfl⟩⟩
    · next infinite =>
        exact ⟨fun ⟨_, success⟩ => (nomatch success),
          fun finite => absurd finite infinite⟩
  intro value success
  rw [decoded] at success
  split at success
  case isFalse => cases success
  case isTrue finite =>
    obtain rfl := Except.ok.inj success
    refine ⟨Signal.encodeValue_floatValue float noEnum unscaled sized finite, ?_⟩
    have numberFinite := (signal.isFinite_payloadNumber_iff float sized).mpr finite
    by_cases vanishes : signal.payloadMagnitude format payload = 0
    · -- Both values are zeros, of either sign.
      rw [Signal.canonicalPayload, if_pos vanishes]
      have zeroSized :
          (toBytes signal.endian signal.ty.size 0).length = signal.ty.size :=
        length_toBytes ..
      have zeroMagnitude : signal.payloadMagnitude format
          (toBytes signal.endian signal.ty.size 0) = 0 := by
        rw [Signal.payloadMagnitude, fromBytes_toBytes, Nat.zero_mod,
          Nat.zero_mod]
      have zeroFinite : signal.payloadMagnitude format
          (toBytes signal.endian signal.ty.size 0) < format.infinityBits := by
        rwa [zeroMagnitude, ← vanishes]
      have again := Signal.decodeValue_float float noEnum unscaled zeroSized
      rw [if_pos zeroFinite] at again
      refine ⟨_, again, ?_⟩
      have zeros (left right : Bool) :
          eq (ofMagnitude left 0) (ofMagnitude right 0) = true := by
        cases left <;> cases right <;> decide
      change eq _ _ = true
      rw [Signal.floatValue_eq unscaled numberFinite,
        if_pos ((Signal.magnitude_payloadNumber_iff float sized finite).mpr
          vanishes),
        Signal.floatValue_eq unscaled
          ((Signal.isFinite_payloadNumber_iff float zeroSized).mpr zeroFinite),
        if_pos ((Signal.magnitude_payloadNumber_iff float zeroSized
          zeroFinite).mpr zeroMagnitude)]
      exact zeros _ _
    · rw [Signal.canonicalPayload, if_neg vanishes, decoded, if_pos finite]
      refine ⟨_, rfl, ?_⟩
      have isNumber := isNan_of_isFinite
        ((Signal.isFinite_floatValue unscaled _).trans numberFinite)
      change eq _ _ = true
      rw [eq, isNumber, beq_self_eq_true]
      rfl

/-- The motor temperature of the R2 catalog. -/
def r2MotorTemp : Signal Binary64 where
  definition :=
    { id := 1027
      name := "motor_temp"
      ty := .f32
      endian := some .big
      scale := ⟨0x3FF0000000000000⟩
      offset := ⟨0⟩
      unit := some "C"
      enumMap := none }
  enumByRaw := ∅
  enumByLabel := ∅

/-- A temperature of 90.116 degrees in single precision, and negative zero. -/
theorem r2MotorTemp_roundTrips :
    (∃ value, decodeValue r2MotorTemp [0x42, 0xB4, 0x3B, 0x64] = .ok value ∧
      encodeValue r2MotorTemp value = .ok [0x42, 0xB4, 0x3B, 0x64]) ∧
    ∃ value, decodeValue r2MotorTemp [0x80, 0, 0, 0] = .ok value ∧
      encodeValue r2MotorTemp value = .ok [0, 0, 0, 0] := by
  have unscaled : r2MotorTemp.Unscaled := ⟨by decide, by decide⟩
  constructor
  · obtain ⟨finite, again⟩ := @floatPayload_roundTrips r2MotorTemp single rfl rfl
      unscaled [0x42, 0xB4, 0x3B, 0x64] rfl
    obtain ⟨value, decoded⟩ := finite.mpr (by decide)
    exact ⟨value, decoded, (again value decoded).1⟩
  · obtain ⟨finite, again⟩ := @floatPayload_roundTrips r2MotorTemp single rfl rfl
      unscaled [0x80, 0, 0, 0] rfl
    obtain ⟨value, decoded⟩ := finite.mpr (by decide)
    exact ⟨value, decoded, (again value decoded).1⟩

end Protocol
end TelemetryEdge
