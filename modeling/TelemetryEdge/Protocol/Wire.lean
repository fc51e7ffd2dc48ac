import TelemetryEdge.Foundation.Bytes
import TelemetryEdge.Protocol.Catalog
import TelemetryEdge.Protocol.Value

/-!
# Wire format

A packet is a four-byte header followed by self-delimiting frames.  Headers are
big-endian; the byte order of a payload comes from the catalog.
-/

namespace TelemetryEdge
namespace Protocol

/-- The packet magic, `"TE"`. -/
def magic : UInt16 := 0x5445

/-- The protocol version. -/
def version : UInt8 := 1

/-- Bytes of the packet header. -/
def packetHeaderLen : Nat := 4

/-- Bytes of a frame header. -/
def frameHeaderLen : Nat := 11

/-- Most frames in one packet. -/
def maxFrames : Nat := 64

/-- Largest accepted datagram. -/
def maxDatagramLen : Nat := 1500

/-- A decoded sample: catalog signal plus physical value. -/
structure Sample (F : Type) where
  signalId : UInt16
  name : String
  timestampUs : UInt64
  value : SignalValue F
  deriving DecidableEq

/-- Errors that reject the whole packet. -/
inductive PacketError
  | oversize (length : Nat)
  | headerTruncated (length : Nat)
  | badMagic (magic : UInt16)
  | badVersion (version : UInt8)
  | zeroFrames
  | tooManyFrames (count : UInt8)
  deriving DecidableEq

/-- Metric label of a packet error. -/
def PacketError.reason : PacketError → String
  | .oversize _ => "oversize"
  | .headerTruncated _ => "truncated"
  | .badMagic _ => "bad_magic"
  | .badVersion _ => "bad_version"
  | .zeroFrames => "zero_frames"
  | .tooManyFrames _ => "too_many_frames"

/-- Problems with individual frames. -/
inductive FrameErrorKind
  | truncated
  | lengthMismatch (expected actual : Nat)
  | invalidValue
  | trailingBytes (count : Nat)
  deriving DecidableEq

/-- Metric label of a frame error. -/
def FrameErrorKind.reason : FrameErrorKind → String
  | .truncated => "truncated"
  | .lengthMismatch _ _ => "length_mismatch"
  | .invalidValue => "invalid_value"
  | .trailingBytes _ => "trailing_bytes"

/-- A problem with the frame at an index. -/
structure FrameError where
  index : Nat
  /-- Signal id, if the frame header was readable that far. -/
  signalId : Option UInt16
  kind : FrameErrorKind
  deriving DecidableEq

/-- Result of decoding one packet that passed header validation. -/
structure DecodedPacket (F : Type) where
  samples : List (Sample F)
  errors : List FrameError
  /-- Frames skipped because their signal id is not in the catalog. -/
  unknownSignals : Nat
  deriving DecidableEq

/-- Bounds-checked cursor over a byte string. -/
structure Reader where
  buf : List UInt8
  pos : Nat
  /-- The cursor never passes the end. -/
  inBounds : pos ≤ buf.length

namespace Reader

/-- A cursor at the start of a byte string. -/
def new (buf : List UInt8) : Reader := ⟨buf, 0, Nat.zero_le _⟩

/-- The next `n` bytes; a failed read does not move the cursor. -/
def take (reader : Reader) (n : Nat) : Option (List UInt8) × Reader :=
  let stop := reader.pos + n
  if fits : stop ≤ reader.buf.length then
    (some ((reader.buf.drop reader.pos).take n),
      { reader with pos := stop, inBounds := fits })
  else (none, reader)

/-- One byte. -/
def u8 (reader : Reader) : Option UInt8 × Reader :=
  let (bytes, next) := reader.take 1
  (bytes.map fun bytes => UInt8.ofNat (Bytes.ofBigEndian bytes), next)

/-- A big-endian 16-bit number. -/
def u16Be (reader : Reader) : Option UInt16 × Reader :=
  let (bytes, next) := reader.take 2
  (bytes.map fun bytes => UInt16.ofNat (Bytes.ofBigEndian bytes), next)

/-- A big-endian 64-bit number. -/
def u64Be (reader : Reader) : Option UInt64 × Reader :=
  let (bytes, next) := reader.take 8
  (bytes.map fun bytes => UInt64.ofNat (Bytes.ofBigEndian bytes), next)

/-- Bytes after the cursor. -/
def remaining (reader : Reader) : Nat := reader.buf.length - reader.pos

end Reader

/-- Raw payload value before scaling or enum lookup. -/
inductive Raw (F : Type)
  | int (value : Int)
  | float (value : F)

/-- The unsigned number of a payload in a byte order. -/
def fromBytes : Endian → List UInt8 → Nat
  | .big, payload => Bytes.ofBigEndian payload
  | .little, payload => Bytes.ofLittleEndian payload

/-- The payload of an unsigned number in a byte order. -/
def toBytes : Endian → Nat → Nat → List UInt8
  | .big, width, number => Bytes.toBigEndian width number
  | .little, width, number => Bytes.toLittleEndian width number

/-- Read an integer type: `from_be_bytes` or `from_le_bytes` on exactly
`width` bytes. -/
def readInt
    (width : Nat)
    (signed : Bool)
    (endian : Endian)
    (payload : List UInt8) : Option (Raw F) :=
  if payload.length = width then
    let number := fromBytes endian payload
    some (.int (if signed then Bytes.toSigned width number else number))
  else none

/-- Raw value of a payload of a wire type. -/
def readRaw [F64 F]
    (ty : SignalType)
    (endian : Endian)
    (payload : List UInt8) : Option (Raw F) :=
  match ty with
  | .bool | .u8 => readInt 1 false endian payload
  | .i8 => readInt 1 true endian payload
  | .u16 => readInt 2 false endian payload
  | .i16 => readInt 2 true endian payload
  | .u32 => readInt 4 false endian payload
  | .i32 => readInt 4 true endian payload
  | .u64 => readInt 8 false endian payload
  | .i64 => readInt 8 true endian payload
  | .f32 =>
      if payload.length = 4 then
        some (.float (F64.ofSingleBits (UInt32.ofNat (fromBytes endian payload))))
      else none
  | .f64 =>
      if payload.length = 8 then
        some (.float (F64.ofBits (UInt64.ofNat (fromBytes endian payload))))
      else none

/-- Write an integer type: the checked narrowing `try_from`, then
`to_be_bytes` or `to_le_bytes`. -/
def writeInt
    (width : Nat)
    (signed : Bool)
    (endian : Endian)
    (raw : Raw F) : Option (List UInt8) :=
  match raw with
  | .float _ => none
  | .int value =>
      let low : Int := if signed then -(2 ^ (8 * width - 1)) else 0
      let high : Int := if signed then 2 ^ (8 * width - 1) else 2 ^ (8 * width)
      if low ≤ value ∧ value < high then
        some (toBytes endian width (Bytes.ofSigned width value))
      else none

/-- Whether the `f32` with given bits is finite. -/
def singleIsFinite (bits : UInt32) : Bool :=
  (bits >>> 23) &&& 0xFF != 0xFF

/-- Payload of a raw value of a wire type. -/
def writeRaw [F64 F]
    (ty : SignalType)
    (endian : Endian)
    (raw : Raw F) : Option (List UInt8) :=
  match ty with
  | .bool | .u8 => writeInt 1 false endian raw
  | .i8 => writeInt 1 true endian raw
  | .u16 => writeInt 2 false endian raw
  | .i16 => writeInt 2 true endian raw
  | .u32 => writeInt 4 false endian raw
  | .i32 => writeInt 4 true endian raw
  | .u64 => writeInt 8 false endian raw
  | .i64 => writeInt 8 true endian raw
  | .f32 =>
      match raw with
      | .int _ => none
      | .float value =>
          let bits := F64.toSingleBits value
          if !singleIsFinite bits then none
          else some (toBytes endian 4 bits.toNat)
  | .f64 =>
      match raw with
      | .int _ => none
      | .float value => some (toBytes endian 8 (F64.toBits value).toNat)

/-- Decode one frame payload into a physical value. -/
def decodeValue [F64 F]
    (signal : Signal F)
    (payload : List UInt8) : Except FrameErrorKind (SignalValue F) :=
  let ty := signal.ty
  let lengthMismatch := FrameErrorKind.lengthMismatch ty.size payload.length
  if payload.length ≠ ty.size then .error lengthMismatch
  else
    match readRaw ty signal.endian payload with
    | none => .error lengthMismatch
    | some raw =>
        match signal.kind, raw with
        | .bool, .int 0 => .ok (.bool false)
        | .bool, .int 1 => .ok (.bool true)
        | .enum, .int value =>
            match signal.enumLabel value with
            | some label => .ok (.enum label)
            | none => .error .invalidValue
        | .num, raw =>
            let number := match raw with
              | .int value => F64.ofInt value
              | .float value => value
            let phys := F64.add
              (F64.mul number signal.definition.scale) signal.definition.offset
            if F64.isFinite phys then .ok (.num phys)
            else .error .invalidValue
        | _, _ => .error .invalidValue

/-! ## Decoding packets -/

namespace DecodedPacket

/-- The packet with nothing in it. -/
def empty : DecodedPacket F := ⟨[], [], 0⟩

/-- Append one sample. -/
def pushSample (out : DecodedPacket F) (sample : Sample F) : DecodedPacket F :=
  { out with samples := out.samples ++ [sample] }

/-- Append one error. -/
def pushError (out : DecodedPacket F) (error : FrameError) : DecodedPacket F :=
  { out with errors := out.errors ++ [error] }

/-- Count one unknown signal. -/
def countUnknown (out : DecodedPacket F) : DecodedPacket F :=
  { out with unknownSignals := out.unknownSignals + 1 }

end DecodedPacket

/-- The frame loop over the remaining frame indices, and the check for trailing
bytes after it.  The three header fields are all read before any of them is
looked at. -/
def decodeFrames [F64 F]
    (catalog : Catalog F)
    (frameCount : Nat) :
    List Nat → Reader → DecodedPacket F → DecodedPacket F
  | [], reader, out =>
      if 0 < reader.remaining then
        out.pushError ⟨frameCount, none, .trailingBytes reader.remaining⟩
      else out
  | index :: indices, reader, out =>
      let (signalId, reader) := reader.u16Be
      let (timestampUs, reader) := reader.u64Be
      let (len, reader) := reader.u8
      match signalId, timestampUs, len with
      | some id, some timestampUs, some len =>
          match reader.take len.toNat with
          | (none, _) => out.pushError ⟨index, some id, .truncated⟩
          | (some payload, reader) =>
              match catalog.byId id with
              | none =>
                  decodeFrames catalog frameCount indices reader out.countUnknown
              | some signal =>
                  match decodeValue signal payload with
                  | .ok value =>
                      decodeFrames catalog frameCount indices reader
                        (out.pushSample ⟨id, signal.name, timestampUs, value⟩)
                  | .error kind =>
                      decodeFrames catalog frameCount indices reader
                        (out.pushError ⟨index, some id, kind⟩)
      | signalId, _, _ => out.pushError ⟨index, signalId, .truncated⟩

/-- Decode one datagram against a catalog. -/
def decodePacket [F64 F]
    (buf : List UInt8)
    (catalog : Catalog F) : Except PacketError (DecodedPacket F) :=
  if maxDatagramLen < buf.length then .error (.oversize buf.length)
  else
    let reader := Reader.new buf
    let (magicRead, reader) := reader.u16Be
    let (versionRead, reader) := reader.u8
    let (frameCountRead, reader) := reader.u8
    match magicRead, versionRead, frameCountRead with
    | some magicFound, some versionFound, some frameCount =>
        if magicFound ≠ magic then .error (.badMagic magicFound)
        else if versionFound ≠ version then .error (.badVersion versionFound)
        else if frameCount = 0 then .error .zeroFrames
        else if maxFrames < frameCount.toNat then
          .error (.tooManyFrames frameCount)
        else
          .ok (decodeFrames catalog frameCount.toNat
            (List.range frameCount.toNat) reader .empty)
    | _, _, _ => .error (.headerTruncated buf.length)

/-! ## Encoding -/

/-- A frame with an already-encoded payload. -/
structure RawFrame where
  signalId : UInt16
  timestampUs : UInt64
  payload : List UInt8
  deriving DecidableEq

/-- Why a value or a packet cannot be encoded. -/
inductive EncodeError (F : Type)
  | noFrames
  | tooManyFrames (count : Nat)
  | payloadTooLong (signalId : UInt16) (len : Nat)
  | oversize (total : Nat)
  | kindMismatch (signal : String) (value : SignalValue F)
  | outOfRange (signal : String) (value : F)
  | unknownEnumLabel (signal label : String)
  deriving DecidableEq

/-- The raw value that stands for a physical value. -/
def rawOfValue [F64 F]
    (signal : Signal F)
    (value : SignalValue F) : Except (EncodeError F) (Raw F) :=
  match signal.kind, value with
  | .bool, .bool flag => .ok (.int (if flag then 1 else 0))
  | .enum, .enum label =>
      match signal.enumRaw label with
      | some raw => .ok (.int raw)
      | none => .error (.unknownEnumLabel signal.name label)
  | .num, .num number =>
      let definition := signal.definition
      let scaled := F64.div (F64.sub number definition.offset) definition.scale
      if !F64.isFinite scaled then .error (.outOfRange signal.name number)
      else if definition.ty.isFloat then .ok (.float scaled)
      else .ok (.int (F64.toInt (F64.round scaled)))
  | _, _ => .error (.kindMismatch signal.name value)

/-- Encode a physical value into a payload. -/
def encodeValue [F64 F]
    (signal : Signal F)
    (value : SignalValue F) : Except (EncodeError F) (List UInt8) :=
  match rawOfValue signal value with
  | .error error => .error error
  | .ok raw =>
      match writeRaw signal.ty signal.endian raw with
      | some payload => .ok payload
      | none => .error (.outOfRange signal.name (value.asNum.getD F64.nan))

/-- Encode a sample of a signal into a frame. -/
def encodeFrame [F64 F]
    (signal : Signal F)
    (timestampUs : UInt64)
    (value : SignalValue F) : Except (EncodeError F) RawFrame :=
  match encodeValue signal value with
  | .error error => .error error
  | .ok payload => .ok ⟨signal.id, timestampUs, payload⟩

/-- Bytes of a packet of the given frames. -/
def packetLen (frames : List RawFrame) : Nat :=
  packetHeaderLen +
    (frames.map fun frame => frameHeaderLen + frame.payload.length).sum

/-- Append frames to a packet, stopping at a payload whose length does not fit
into the length byte. -/
def encodeFrames :
    List UInt8 → List RawFrame → Except (EncodeError F) (List UInt8)
  | out, [] => .ok out
  | out, frame :: frames =>
      if frame.payload.length ≤ 255 then
        encodeFrames
          (out ++ Bytes.toBigEndian 2 frame.signalId.toNat ++
            Bytes.toBigEndian 8 frame.timestampUs.toNat ++
            [UInt8.ofNat frame.payload.length] ++ frame.payload)
          frames
      else .error (.payloadTooLong frame.signalId frame.payload.length)

/-- Encode frames into one packet, enforcing the wire limits. -/
def encodePacket (frames : List RawFrame) :
    Except (EncodeError F) (List UInt8) :=
  if frames.isEmpty then .error .noFrames
  else if maxFrames < frames.length then
    .error (.tooManyFrames frames.length)
  else
    let total := packetLen frames
    if maxDatagramLen < total then .error (.oversize total)
    else
      encodeFrames
        (Bytes.toBigEndian 2 magic.toNat ++
          [version, UInt8.ofNat frames.length])
        frames

end Protocol
end TelemetryEdge
