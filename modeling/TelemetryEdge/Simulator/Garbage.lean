import TelemetryEdge.Foundation.Elementary
import TelemetryEdge.Protocol.PacketCodec
import TelemetryEdge.Simulator.Rng

/-!
# Malformed packets

The generator of malformed packets, which the simulator mixes with valid ones.
Where the code would panic (an index out of bounds, a remainder by zero, a
subtraction that does not fit) the model yields nothing.
-/

namespace TelemetryEdge
namespace Simulator

open Protocol

/-- What is wrong with a malformed packet. -/
inductive GarbageKind
  | badMagic
  | badVersion
  | zeroFrames
  | truncated
  | lengthMismatch
  | unknownSignal
  | oversize
  | trailingBytes
  | randomBytes
  deriving DecidableEq

/-- All kinds, in the order in which they are drawn from. -/
def GarbageKind.all : List GarbageKind :=
  [.badMagic, .badVersion, .zeroFrames, .truncated, .lengthMismatch,
    .unknownSignal, .oversize, .trailingBytes, .randomBytes]

/-- A signal id that a catalog does not use, if there is one at the end of the
range. -/
def freeId (catalog : Catalog F) : UInt16 :=
  (((List.range' 0xF000 0x1000).map UInt16.ofNat).find? fun id =>
    (catalog.byId id).isNone).getD 0xFFFF

/-- Build a malformed packet of a kind from the frames of a valid one. -/
def malformed
    (kind : GarbageKind)
    (frames : List RawFrame)
    (catalog : Catalog F)
    (rng : Rng) : Option (Except (EncodeError F) (List UInt8) × Rng) :=
  match encodePacket frames with
  | .error error => some (.error error, rng)
  | .ok bytes =>
      match kind with
      | .badMagic =>
          if bytes.length < 2 then none
          else some (.ok (Bytes.toBigEndian 2 0xDEAD ++ bytes.drop 2), rng)
      | .badVersion => do
          let (drawn, rng) ← rng.below 254
          if bytes.length ≤ 2 then none
          else some (.ok (bytes.set 2 (2 + UInt8.ofNat drawn)), rng)
      | .zeroFrames => some (.ok [0x54, 0x45, 0x01, 0x00], rng)
      | .truncated => do
          -- Cut into the last frame only, so earlier frames still decode.
          let last := frameHeaderLen +
            (frames.getLast?.map (·.payload.length)).getD 0
          let (drawn, rng) ← rng.below last
          if bytes.length < 1 + drawn then none
          else some (.ok (bytes.take (bytes.length - 1 - drawn)), rng)
      | .lengthMismatch =>
          match frames with
          | [] => none
          | first :: rest =>
              let bad := { first with payload := first.payload ++ [0] }
              some (encodePacket (bad :: rest), rng)
      | .unknownSignal =>
          match frames with
          | [] => none
          | first :: _ => do
              let (payload, rng) ← rng.someBytes 8
              let unknown := ⟨freeId catalog, first.timestampUs, payload⟩
              some (encodePacket (unknown :: frames), rng)
      | .oversize => do
          let (drawn, rng) ← rng.below 200
          if maxDatagramLen + 1 + drawn < bytes.length then none
          else
            let (extra, rng) :=
              rng.bytes (maxDatagramLen + 1 + drawn - bytes.length)
            some (.ok (bytes ++ extra), rng)
      | .trailingBytes => do
          let (extra, rng) ← rng.someBytes 8
          some (.ok (bytes ++ extra), rng)
      | .randomBytes => do
          let (drawn, rng) ← rng.someBytes 64
          some (.ok drawn, rng)

section Packet

variable [F64 F]

/-- A packet that is valid half of the time and malformed otherwise. -/
def packet
    (frames : List RawFrame)
    (catalog : Catalog F)
    (rng : Rng) :
    Option
      (Except (EncodeError F) (Option GarbageKind × List UInt8) × Rng) :=
  let (valid, rng) := rng.chance (F64.decimal 1 2 : F)
  if valid then some ((encodePacket frames).map (none, ·), rng)
  else do
    let (index, rng) ← rng.below GarbageKind.all.length
    let kind ← GarbageKind.all[index]?
    let (made, rng) ← malformed kind frames catalog rng
    some (made.map (some kind, ·), rng)

end Packet

section Made

/-- What is built from frames within the limits, for each kind. -/
inductive Made (frames : List RawFrame) (catalog : Catalog F) :
    GarbageKind → Except (EncodeError F) (List UInt8) → Prop
  | badMagic :
      Made frames catalog .badMagic
        (.ok (Bytes.toBigEndian 2 0xDEAD ++ (packetBytes frames).drop 2))
  | badVersion (found : UInt8)
      (wrong : found ≠ version) :
      Made frames catalog .badVersion (.ok ((packetBytes frames).set 2 found))
  | zeroFrames :
      Made frames catalog .zeroFrames (.ok [0x54, 0x45, 0x01, 0x00])
  | truncated (start : List RawFrame) (last : RawFrame) (kept : Nat)
      (ends : frames = start ++ [last])
      (short : kept < (frameBytes last).length) :
      Made frames catalog .truncated
        (.ok (packetHeader frames.length ++ start.flatMap frameBytes ++
          (frameBytes last).take kept))
  | lengthMismatch (first : RawFrame) (rest : List RawFrame)
      (starts : frames = first :: rest) :
      Made frames catalog .lengthMismatch
        (encodePacket
          ({ first with payload := first.payload ++ [0] } :: rest))
  | unknownSignal (timestampUs : UInt64) (payload : List UInt8)
      (few : payload.length ≤ 8) :
      Made frames catalog .unknownSignal
        (encodePacket (⟨freeId catalog, timestampUs, payload⟩ :: frames))
  | oversize (bytes : List UInt8)
      (long : maxDatagramLen < bytes.length) :
      Made frames catalog .oversize (.ok bytes)
  | trailingBytes (extra : List UInt8)
      (some : extra ≠ [])
      (few : extra.length ≤ 8) :
      Made frames catalog .trailingBytes (.ok (packetBytes frames ++ extra))
  | randomBytes (drawn : List UInt8) :
      Made frames catalog .randomBytes (.ok drawn)

/-- A wrong version is drawn. -/
theorem drawn_version_ne
    {drawn : Nat}
    (less : drawn < 254) :
    2 + UInt8.ofNat drawn ≠ version := by
  intro same
  have value := congrArg UInt8.toNat same
  have expected : version.toNat = 1 := rfl
  have two : (2 : UInt8).toNat = 2 := rfl
  rw [UInt8.toNat_add, UInt8.toNat_ofNat', expected, two] at value
  omega

/-- Cutting fewer bytes off a packet than its last frame has, cuts into that
frame. -/
theorem take_packetBytes
    (start : List RawFrame)
    (last : RawFrame)
    (kept : Nat) :
    (packetBytes (start ++ [last])).take
        ((packetBytes (start ++ [last])).length - (frameBytes last).length +
          kept) =
      packetHeader (start ++ [last]).length ++ start.flatMap frameBytes ++
        (frameBytes last).take kept := by
  have whole : packetBytes (start ++ [last]) =
      packetHeader (start ++ [last]).length ++ start.flatMap frameBytes ++
        frameBytes last := by
    rw [packetBytes, List.flatMap_append, List.flatMap_singleton,
      List.append_assoc]
  rw [whole, List.length_append, Nat.add_sub_cancel, List.take_length_add_append]

/-- From frames within the limits something is built, without a panic. -/
theorem malformed_made
    (kind : GarbageKind)
    {frames : List RawFrame}
    (within : WithinLimits frames)
    (catalog : Catalog F)
    (rng : Rng) :
    ∃ made next, malformed kind frames catalog rng = some (made, next) ∧
      Made frames catalog kind made := by
  have encoded : (encodePacket frames : Except (EncodeError F) _) =
      .ok (packetBytes frames) :=
    (encodePacket_eq_ok_iff frames _).mpr ⟨within, rfl⟩
  have length := length_packetBytes frames
  have header : packetHeaderLen ≤ packetLen frames := Nat.le_add_right _ _
  have total := within.total_le
  rw [packetHeaderLen] at header
  simp only [malformed, encoded]
  cases kind with
  | badMagic => exact ⟨_, _, if_neg (by omega), .badMagic⟩
  | badVersion =>
      obtain ⟨drawn, below, less⟩ :=
        rng.below_eq_some (by decide : 0 < 254) (by decide)
      simp only [below, Option.bind_eq_bind, Option.bind_some]
      exact ⟨_, _, if_neg (by omega), .badVersion _ (drawn_version_ne less)⟩
  | zeroFrames => exact ⟨_, _, rfl, .zeroFrames⟩
  | truncated =>
      rcases frames.eq_nil_or_concat' with rfl | ⟨start, last, rfl⟩
      · exact absurd within.nonempty (by decide)
      have short := within.payload_le last (by simp)
      have lastLength := length_frameBytes last
      have lastLe : (frameBytes last).length ≤
          (packetBytes (start ++ [last])).length := by
        simp only [packetBytes, List.flatMap_append, List.flatMap_singleton,
          List.length_append]
        omega
      have bound : frameHeaderLen +
          ((start ++ [last]).getLast?.map (·.payload.length)).getD 0 =
            (frameBytes last).length := by
        rw [List.getLast?_concat, lastLength]
        rfl
      rw [frameHeaderLen] at lastLength
      obtain ⟨drawn, below, less⟩ :=
        @Rng.below_eq_some rng (frameBytes last).length (by omega) (by omega)
      have cut : (packetBytes (start ++ [last])).length - 1 - drawn =
          (packetBytes (start ++ [last])).length - (frameBytes last).length +
            ((frameBytes last).length - 1 - drawn) := by omega
      simp only [bound, below, Option.bind_eq_bind, Option.bind_some]
      refine ⟨_, _, if_neg (by omega), ?_⟩
      rw [cut, take_packetBytes]
      exact .truncated start last _ rfl (by omega)
  | lengthMismatch =>
      cases frames with
      | nil => exact absurd within.nonempty (by decide)
      | cons first rest => exact ⟨_, _, rfl, .lengthMismatch first rest rfl⟩
  | unknownSignal =>
      cases frames with
      | nil => exact absurd within.nonempty (by decide)
      | cons first rest =>
          obtain ⟨payload, next, drawn, -, few⟩ :=
            rng.someBytes_eq_some (by decide : 0 < 8) (by decide)
          simp only [drawn, Option.bind_eq_bind, Option.bind_some]
          exact ⟨_, _, rfl, .unknownSignal _ payload few⟩
  | oversize =>
      obtain ⟨drawn, below, less⟩ :=
        rng.below_eq_some (by decide : 0 < 200) (by decide)
      simp only [below, Option.bind_eq_bind, Option.bind_some]
      refine ⟨_, _, if_neg (by omega), .oversize _ ?_⟩
      rw [List.length_append, Rng.length_bytes]
      omega
  | trailingBytes =>
      obtain ⟨extra, next, drawn, some, few⟩ :=
        rng.someBytes_eq_some (by decide : 0 < 8) (by decide)
      simp only [drawn, Option.bind_eq_bind, Option.bind_some]
      refine ⟨_, _, rfl, .trailingBytes extra ?_ few⟩
      rintro rfl
      exact absurd some (by decide)
  | randomBytes =>
      obtain ⟨bytes, next, drawn, -⟩ :=
        rng.someBytes_eq_some (by decide : 0 < 64) (by decide)
      simp only [drawn, Option.bind_eq_bind, Option.bind_some]
      exact ⟨_, _, rfl, .randomBytes bytes⟩

/-- Where the frames cannot be encoded, nothing malformed is built either. -/
theorem malformed_eq_error
    (kind : GarbageKind)
    {frames : List RawFrame}
    {error : EncodeError F}
    (failed : encodePacket frames = .error error)
    (catalog : Catalog F)
    (rng : Rng) :
    malformed kind frames catalog rng = some (.error error, rng) := by
  simp only [malformed, failed]

end Made

section Sent

variable [F64 F]

/-- What may be sent for frames. -/
def Sends
    (catalog : Catalog F)
    (frames : List RawFrame)
    (sent : Option GarbageKind × List UInt8) : Prop :=
  WithinLimits frames ∧
    match sent.1 with
    | none => sent.2 = packetBytes frames
    | some kind => Made frames catalog kind (.ok sent.2)

/-- A packet is made without a panic, unless it cannot be encoded. -/
theorem exists_packet
    (frames : List RawFrame)
    (catalog : Catalog F)
    (rng : Rng) :
    ∃ made next, packet frames catalog rng = some (made, next) ∧
      ∀ sent, made = .ok sent → Sends catalog frames sent := by
  unfold packet
  dsimp only
  cases encoded : (encodePacket frames : Except (EncodeError F) _) with
  | error error =>
      split
      · exact ⟨_, _, rfl, fun sent impossible => by cases impossible⟩
      · obtain ⟨index, below, less⟩ := Rng.below_eq_some
          (rng.chance (F64.decimal 1 2 : F)).2
          (by decide : 0 < GarbageKind.all.length) (by decide)
        simp only [below, Option.bind_eq_bind, Option.bind_some,
          List.getElem?_eq_getElem less, malformed_eq_error _ encoded]
        exact ⟨_, _, rfl, fun sent impossible => by cases impossible⟩
  | ok bytes =>
      obtain ⟨within, rfl⟩ := (encodePacket_eq_ok_iff frames bytes).mp encoded
      split
      · refine ⟨_, _, rfl, ?_⟩
        rintro sent made
        obtain rfl := Except.ok.inj made
        exact ⟨within, rfl⟩
      · obtain ⟨index, below, less⟩ := Rng.below_eq_some
          (rng.chance (F64.decimal 1 2 : F)).2
          (by decide : 0 < GarbageKind.all.length) (by decide)
        obtain ⟨made, next, built, ofKind⟩ := malformed_made
          GarbageKind.all[index] within catalog
          (rng.chance (F64.decimal 1 2 : F)).2.nextU64.2
        simp only [below, Option.bind_eq_bind, Option.bind_some,
          List.getElem?_eq_getElem less, built]
        refine ⟨_, _, rfl, ?_⟩
        rintro sent done
        cases made with
        | error error => cases done
        | ok bytes =>
            obtain rfl := Except.ok.inj done
            exact ⟨within, ofKind⟩

end Sent

end Simulator
end TelemetryEdge
