import TelemetryEdge.Foundation.ExactRational
import TelemetryEdge.Protocol.IntegerPayload
import TelemetryEdge.Protocol.ValidCatalog

/-!
# Scaled integers on the wire

How a number is decoded from and encoded to an integer payload, for every
reading of the arithmetic, and that in exact arithmetic a number is encoded to
the nearest raw value in range and to no other.
-/

namespace TelemetryEdge
namespace Protocol

section Numbers

variable [F64 F]

/-- A numeric signal whose payload is an integer in a range. -/
structure Signal.Integral (signal : Signal F) (range : Int × Int) : Prop where
  intRange : signal.ty.intRange = some range
  noEnum : signal.definition.enumMap = none

/-- The number that stands for a raw value. -/
def Signal.physical (signal : Signal F) (raw : Int) : F :=
  F64.add (F64.mul (F64.ofInt raw) signal.definition.scale)
    signal.definition.offset

/-- A number before it is rounded to a raw value. -/
def Signal.unscaled (signal : Signal F) (number : F) : F :=
  F64.div (F64.sub number signal.definition.offset) signal.definition.scale

section Integral

variable
  {signal : Signal F}
  {range : Int × Int}
  (integral : signal.Integral range)

include integral

omit [F64 F] in
/-- An integer signal without an enum map has numbers as values. -/
theorem Signal.Integral.kind_eq : signal.kind = .num := by
  have notBool : signal.definition.ty ≠ .bool := by
    intro bool
    have ranged := integral.intRange
    rw [Signal.ty, bool] at ranged
    cases ranged
  rw [Signal.kind, if_neg notBool, integral.noEnum, if_neg (by simp)]

omit [F64 F] in
/-- Integer types are not floating-point types. -/
theorem Signal.Integral.isFloat_eq : signal.definition.ty.isFloat = false := by
  have ranged := integral.intRange
  rw [Signal.ty] at ranged
  cases named : signal.definition.ty with
  | f32 =>
      rw [named] at ranged
      cases ranged
  | f64 =>
      rw [named] at ranged
      cases ranged
  | _ => rfl

/-- The payloads of the size of an integer type read as the raw values in its
range. -/
theorem Signal.Integral.exists_raw
    {payload : List UInt8}
    (sized : payload.length = signal.ty.size) :
    ∃ raw, readRaw signal.ty signal.endian payload = some (.int raw : Raw F) ∧
      range.1 ≤ raw ∧ raw ≤ range.2 := by
  obtain ⟨layout, integer⟩ :=
    SignalType.intLayout_of_intRange integral.intRange
  obtain ⟨⟨-, width⟩, reads, -⟩ :=
    readRaw_writeRaw_of_intLayout (F := F) integer
  rw [width] at sized
  have read := (readInt_eq_some_iff (F := F) layout.1 layout.2 signal.endian
    payload _).mpr ⟨sized, rfl⟩
  rw [← reads] at read
  exact ⟨_, read, (writeRaw_isSome_of_intRange integral.intRange signal.endian
    _).mp ⟨payload, writeRaw_of_readRaw integer read⟩⟩

/-- A payload decodes to the number that stands for its raw value. -/
theorem Signal.Integral.decodeValue_eq
    {payload : List UInt8}
    (sized : payload.length = signal.ty.size)
    {raw : Int}
    (read : readRaw signal.ty signal.endian payload =
      some (.int raw : Raw F)) :
    decodeValue signal payload =
      if F64.isFinite (signal.physical raw) then
        .ok (.num (signal.physical raw))
      else .error .invalidValue := by
  simp only [decodeValue, sized, read, integral.kind_eq, ne_eq,
    not_true_eq_false, if_false]
  rfl

/-- A number is encoded as the integer it is rounded to, if that is in range. -/
theorem Signal.Integral.encodeValue_eq_ok_iff
    (number : F)
    (payload : List UInt8) :
    encodeValue signal (.num number) = .ok payload ↔
      F64.isFinite (signal.unscaled number) = true ∧
        writeRaw signal.ty signal.endian
          (.int (F64.toInt (F64.round (signal.unscaled number))) : Raw F) =
            some payload := by
  have raws : rawOfValue signal (.num number) =
      if !F64.isFinite (signal.unscaled number) then
        .error (.outOfRange signal.name number)
      else .ok (.int (F64.toInt (F64.round (signal.unscaled number)))) := by
    simp only [rawOfValue, integral.kind_eq, integral.isFloat_eq,
      Bool.false_eq_true, if_false]
    rfl
  rw [Protocol.encodeValue_eq_ok_iff, raws]
  cases F64.isFinite (signal.unscaled number) with
  | false => simp
  | true => simp

end Integral

end Numbers

/-- The range of an integer type lies inside the `i128` range. -/
theorem SignalType.intRange_bounds
    {ty : SignalType}
    {range : Int × Int}
    (ranged : ty.intRange = some range) :
    -(2 ^ 127) < range.1 ∧ range.2 < 2 ^ 127 - 1 := by
  cases ty <;>
    simp only [SignalType.intRange, Option.some.injEq, reduceCtorEq]
      at ranged <;>
    subst ranged <;>
    decide

open ExactRational

/-- In exact arithmetic a signal encodes numbers to the nearest raw values. -/
structure Signal.EncodesNearest
    (signal : Signal ℚ)
    (range : Int × Int) : Prop where
  /-- Every payload of the size of the type decodes to its raw value, scaled and
  shifted, and this number is encoded as the payload. -/
  decodes : ∀ payload : List UInt8, payload.length = signal.ty.size →
    ∃ raw : Int,
      readRaw signal.ty signal.endian payload = some (.int raw : Raw ℚ) ∧
        (range.1 ≤ raw ∧ raw ≤ range.2) ∧
        decodeValue signal payload = .ok (.num
          (raw * signal.definition.scale + signal.definition.offset)) ∧
        encodeValue signal (.num
          (raw * signal.definition.scale + signal.definition.offset)) =
            .ok payload
  /-- A number is encoded when its rounded raw value is in range. -/
  encodable : ∀ number : ℚ,
    (∃ payload, encodeValue signal (.num number) = .ok payload) ↔
      range.1 ≤ roundAway
          ((number - signal.definition.offset) / signal.definition.scale) ∧
        roundAway
          ((number - signal.definition.offset) / signal.definition.scale) ≤
            range.2
  /-- What is encoded has the size of the type and decodes to a number at most
  half a step away, and no payload decodes to a nearer one. -/
  nearest : ∀ (number : ℚ) (payload : List UInt8),
    encodeValue signal (.num number) = .ok payload →
      payload.length = signal.ty.size ∧ ∃ decoded : ℚ,
        decodeValue signal payload = .ok (.num decoded) ∧
          |decoded - number| ≤ |signal.definition.scale| / 2 ∧
          ∀ (other : List UInt8) (otherDecoded : ℚ),
            decodeValue signal other = .ok (.num otherDecoded) →
              |decoded - number| ≤ |otherDecoded - number|

section Exact

variable
  {signal : Signal ℚ}
  {range : Int × Int}
  (integral : signal.Integral range)

include integral

/-- Every payload decodes to its raw value, scaled and shifted. -/
theorem Signal.Integral.decodeValue_exact
    {payload : List UInt8}
    (sized : payload.length = signal.ty.size)
    {raw : Int}
    (read : readRaw signal.ty signal.endian payload =
      some (.int raw : Raw ℚ)) :
    decodeValue signal payload = .ok (.num
      (raw * signal.definition.scale + signal.definition.offset)) :=
  integral.decodeValue_eq sized read

/-- A number is encoded as its rounded raw value, when that is in range. -/
theorem Signal.Integral.encodeValue_exact_iff
    (number : ℚ)
    (payload : List UInt8) :
    encodeValue signal (.num number) = .ok payload ↔
      writeRaw signal.ty signal.endian (.int (roundAway
        ((number - signal.definition.offset) / signal.definition.scale)) :
          Raw ℚ) = some payload := by
  obtain ⟨above, below⟩ := SignalType.intRange_bounds integral.intRange
  have rounded : F64.toInt (F64.round (signal.unscaled number)) =
      saturate (roundAway
        ((number - signal.definition.offset) / signal.definition.scale)) :=
    congrArg saturate (truncate_intCast _)
  have finite : F64.isFinite (signal.unscaled number) = true := rfl
  rw [integral.encodeValue_eq_ok_iff, rounded, finite]
  generalize roundAway
    ((number - signal.definition.offset) / signal.definition.scale) = raw
  have writable := writeRaw_isSome_of_intRange (F := ℚ) integral.intRange
    signal.endian
  constructor
  · rintro ⟨-, written⟩
    have inRange := (writable _).mp ⟨payload, written⟩
    rw [saturate_mem_iff above below] at inRange
    rwa [saturate_of_mem above below inRange] at written
  · intro written
    have inRange := (writable _).mp ⟨payload, written⟩
    rw [saturate_of_mem above below inRange]
    exact ⟨rfl, written⟩

/-- A decoded number stands for the raw value of its payload. -/
theorem Signal.Integral.exists_raw_of_decodeValue
    {payload : List UInt8}
    {decoded : ℚ}
    (success : decodeValue signal payload = .ok (.num decoded)) :
    ∃ raw : Int,
      decoded = raw * signal.definition.scale + signal.definition.offset := by
  have sized : payload.length = signal.ty.size := by
    by_contra missized
    simp [decodeValue, missized] at success
  obtain ⟨raw, read, -⟩ := integral.exists_raw sized
  rw [integral.decodeValue_exact sized read] at success
  injection success with same
  injection same with same
  exact ⟨raw, same.symm⟩

/-- A payload is encoded again from the number it decodes to. -/
theorem Signal.Integral.encodeValue_of_readRaw
    (scaled : signal.definition.scale ≠ 0)
    {payload : List UInt8}
    {raw : Int}
    (read : readRaw signal.ty signal.endian payload =
      some (.int raw : Raw ℚ)) :
    encodeValue signal (.num
      (raw * signal.definition.scale + signal.definition.offset)) =
        .ok payload := by
  obtain ⟨layout, integer⟩ :=
    SignalType.intLayout_of_intRange integral.intRange
  rw [integral.encodeValue_exact_iff, add_sub_cancel_right,
    mul_div_cancel_right₀ _ scaled, roundAway_intCast]
  exact writeRaw_of_readRaw integer read

/-- What is encoded decodes to the number of the rounded raw value. -/
theorem Signal.Integral.decodeValue_of_encodeValue
    {number : ℚ}
    {payload : List UInt8}
    (encoded : encodeValue signal (.num number) = .ok payload) :
    payload.length = signal.ty.size ∧
      decodeValue signal payload = .ok (.num (roundAway
          ((number - signal.definition.offset) / signal.definition.scale) *
        signal.definition.scale + signal.definition.offset)) := by
  obtain ⟨layout, integer⟩ :=
    SignalType.intLayout_of_intRange integral.intRange
  obtain ⟨sized, read⟩ := readRaw_of_writeRaw integer
    ((integral.encodeValue_exact_iff number payload).mp encoded)
  exact ⟨sized, integral.decodeValue_exact sized read⟩

/-- A signal with a scale other than zero encodes numbers to the nearest raw
values. -/
theorem Signal.Integral.encodesNearest
    (scaled : signal.definition.scale ≠ 0) :
    signal.EncodesNearest range := by
  refine ⟨?_, ?_, ?_⟩
  · intro payload sized
    obtain ⟨raw, read, inRange⟩ := integral.exists_raw sized
    exact ⟨raw, read, inRange, integral.decodeValue_exact sized read,
      integral.encodeValue_of_readRaw scaled read⟩
  · intro number
    simp only [integral.encodeValue_exact_iff]
    exact writeRaw_isSome_of_intRange integral.intRange signal.endian _
  · intro number payload encoded
    obtain ⟨sized, decoded⟩ :=
      integral.decodeValue_of_encodeValue encoded
    refine ⟨sized, _, decoded, ?_, ?_⟩
    · have near := abs_roundAway_sub_le
        ((number - signal.definition.offset) / signal.definition.scale)
      calc
        _ = |(roundAway ((number - signal.definition.offset) /
                signal.definition.scale) : ℚ) -
              (number - signal.definition.offset) / signal.definition.scale| *
            |signal.definition.scale| := abs_scaled_sub scaled _ _ _
        _ ≤ 1 / 2 * |signal.definition.scale| :=
            mul_le_mul_of_nonneg_right near (abs_nonneg _)
        _ = |signal.definition.scale| / 2 := one_div_mul_eq_div _ _
    · intro other otherDecoded success
      obtain ⟨raw, rfl⟩ := integral.exists_raw_of_decodeValue success
      rw [abs_scaled_sub scaled, abs_scaled_sub scaled]
      have nearest := abs_roundAway_sub_le_abs_sub
        ((number - signal.definition.offset) / signal.definition.scale) raw
      exact mul_le_mul_of_nonneg_right nearest (abs_nonneg _)

end Exact

/-- In exact arithmetic every integer signal without an enum map of an accepted
catalog encodes numbers to the nearest raw values, and none outside the range
of its type. -/
theorem encodesNearest_of_mem
    (catalog : AcceptedCatalog ℚ)
    {signal : Signal ℚ}
    (member : signal ∈ catalog.signals)
    {range : Int × Int}
    (integer : signal.ty.intRange = some range)
    (noEnum : signal.definition.enumMap = none) :
    signal.EncodesNearest range := by
  have valid := (Signal.new_isOk_iff signal.definition).mp
    ⟨signal, catalog.new_definition member⟩
  have scaled : signal.definition.scale ≠ 0 :=
    of_decide_eq_false valid.scaleNotZero
  exact Signal.Integral.encodesNearest ⟨integer, noEnum⟩ scaled

/-- A temperature in tenths of a degree below zero, counted down. -/
def countdownTemperature : SignalDef ℚ where
  id := 9
  name := "countdown"
  ty := .i16
  endian := some .little
  scale := ⟨-1, 10, by decide, by decide⟩
  offset := -40
  unit := some "degC"
  enumMap := none

/-- The catalog of this signal. -/
def countdownCatalog : AcceptedCatalog ℚ where
  model := "R1S"
  catalogVersion := 1
  signals := [⟨countdownTemperature, ∅, ∅⟩]
  byIdIndex := (∅ : KeyedMap UInt16 Nat).insert 9 0
  byNameIndex := (∅ : KeyedMap String Nat).insert "countdown" 0
  accepted := ⟨⟨"R1S", 1, [countdownTemperature]⟩, by rfl⟩

/-- The signal with a negative scale encodes to the nearest raw values. -/
theorem countdownTemperature_encodesNearest :
    Signal.EncodesNearest ⟨countdownTemperature, ∅, ∅⟩ (-(2 ^ 15), 2 ^ 15 - 1) :=
  encodesNearest_of_mem countdownCatalog List.mem_cons_self rfl rfl

end Protocol
end TelemetryEdge
