import TelemetryEdge.Protocol.PacketDecode

/-!
# Encoder and decoder agree

The encoder writes exactly the byte strings that the decoder takes apart without
finding a missing frame or a trailing byte.
-/

namespace TelemetryEdge
namespace Protocol

/-- The packet header in front of a number of frames. -/
def packetHeader (count : Nat) : List UInt8 :=
  Bytes.toBigEndian 2 magic.toNat ++ [version, UInt8.ofNat count]

/-- The bytes of a packet of the given frames. -/
def packetBytes (frames : List RawFrame) : List UInt8 :=
  packetHeader frames.length ++ frames.flatMap frameBytes

/-- The limits of the wire format. -/
structure WithinLimits (frames : List RawFrame) : Prop where
  /-- There is a frame. -/
  nonempty : 1 ≤ frames.length
  /-- The frames can be counted. -/
  count_le : frames.length ≤ maxFrames
  /-- Every payload length fits into the length byte. -/
  payload_le : ∀ frame ∈ frames, frame.payload.length ≤ 255
  /-- The packet fits into a datagram. -/
  total_le : packetLen frames ≤ maxDatagramLen

theorem length_packetBytes (frames : List RawFrame) :
    (packetBytes frames).length = packetLen frames := by
  have frameLengths : (frames.map fun frame => (frameBytes frame).length) =
      frames.map fun frame => frameHeaderLen + frame.payload.length := by
    simp only [length_frameBytes]
  simp only [packetBytes, packetHeader, packetLen, packetHeaderLen,
    List.length_append, List.length_flatMap, Bytes.length_toBigEndian,
    frameLengths]
  rfl

/-- The header of an encoded packet declares its frames. -/
theorem frameCountOf_packetBytes
    {frames : List RawFrame}
    (countLe : frames.length ≤ maxFrames) :
    frameCountOf (packetBytes frames) = frames.length := by
  have byte : (packetBytes frames).getD 3 0 = UInt8.ofNat frames.length := rfl
  rw [maxFrames] at countLe
  rw [frameCountOf, byte, UInt8.toNat_ofNat']
  omega

/-- Frames within the limits are found again in their packet. -/
theorem packetFrames_packetBytes
    {frames : List RawFrame}
    (within : WithinLimits frames) :
    packetFrames (packetBytes frames) = (frames, []) := by
  have body : (packetBytes frames).drop packetHeaderLen =
      frames.flatMap frameBytes ++ [] := by
    rw [List.append_nil]
    rfl
  rw [packetFrames, frameCountOf_packetBytes within.count_le, body,
    wholeFrames_flatMap_frameBytes within.payload_le]

/-- The header of a packet within the limits is accepted. -/
theorem headerError_packetBytes
    {frames : List RawFrame}
    (within : WithinLimits frames) :
    headerError (packetBytes frames) = none := by
  have total := within.total_le
  have lengthEq := length_packetBytes frames
  have countEq := frameCountOf_packetBytes within.count_le
  have positive := within.nonempty
  have countLe := within.count_le
  have headerLe : packetHeaderLen ≤ packetLen frames := Nat.le_add_right _ _
  have magicRead :
      UInt16.ofNat (Bytes.ofBigEndian ((packetBytes frames).take 2)) = magic :=
    rfl
  have versionRead : (packetBytes frames).getD 2 0 = version := rfl
  have countByte : (packetBytes frames).getD 3 0 ≠ 0 := by
    intro zero
    rw [frameCountOf, zero] at countEq
    simp at countEq
    omega
  rw [frameCountOf] at countEq
  rw [headerError, if_neg (by omega), if_neg (by omega), magicRead,
    if_neg (not_not_intro rfl), versionRead, if_neg (not_not_intro rfl),
    if_neg countByte, if_neg (by omega)]

section Encoding

variable {F : Type}

/-- The encoder appends the bytes of the frames, or stops at a payload that is
too long. -/
theorem encodeFrames_eq_ok_iff
    (out bytes : List UInt8)
    (frames : List RawFrame) :
    (encodeFrames out frames : Except (EncodeError F) _) = .ok bytes ↔
      (∀ frame ∈ frames, frame.payload.length ≤ 255) ∧
        bytes = out ++ frames.flatMap frameBytes := by
  induction frames generalizing out with
  | nil => simp [encodeFrames, eq_comm]
  | cons frame frames inductionHypothesis =>
      rw [encodeFrames, List.forall_mem_cons, List.flatMap_cons]
      split
      · next short =>
          rw [inductionHypothesis]
          simp only [short, true_and, frameBytes, List.append_assoc]
      · next long => simp [long]

/-- Encoding succeeds exactly within the limits, with the bytes of the
packet. -/
theorem encodePacket_eq_ok_iff
    (frames : List RawFrame)
    (bytes : List UInt8) :
    (encodePacket frames : Except (EncodeError F) _) = .ok bytes ↔
      WithinLimits frames ∧ bytes = packetBytes frames := by
  unfold encodePacket
  split
  · next empty =>
      rw [List.isEmpty_iff] at empty
      subst empty
      refine ⟨fun accepted => (by cases accepted), ?_⟩
      rintro ⟨within, _⟩
      exact absurd within.nonempty (by simp)
  · next nonempty =>
      rw [List.isEmpty_iff, ← List.length_eq_zero_iff] at nonempty
      split
      · next tooMany =>
          refine ⟨fun accepted => (by cases accepted), ?_⟩
          rintro ⟨within, _⟩
          exact absurd within.count_le (by omega)
      · next countable =>
          dsimp only
          split
          · next oversize =>
              refine ⟨fun accepted => (by cases accepted), ?_⟩
              rintro ⟨within, _⟩
              exact absurd within.total_le (by omega)
          · next fits =>
              rw [encodeFrames_eq_ok_iff]
              constructor
              · rintro ⟨short, bytesEq⟩
                exact ⟨⟨by omega, by omega, short, by omega⟩, bytesEq⟩
              · rintro ⟨within, bytesEq⟩
                exact ⟨within.payload_le, bytesEq⟩

/-- Only one list of frames is encoded as a given byte string. -/
theorem packetBytes_injective
    {first second : List RawFrame}
    (firstWithin : WithinLimits first)
    (secondWithin : WithinLimits second)
    (equal : packetBytes first = packetBytes second) :
    first = second := by
  have frames := packetFrames_packetBytes firstWithin
  rw [equal, packetFrames_packetBytes secondWithin] at frames
  exact (Prod.ext_iff.mp frames).1.symm

end Encoding

/-- A byte string with an accepted header whose declared frames fill it exactly
is the packet of these frames, and they are within the limits. -/
theorem eq_packetBytes_of_filled
    {buf : List UInt8}
    (header : headerError buf = none)
    (complete : (packetFrames buf).1.length = frameCountOf buf)
    (filled : (packetFrames buf).2 = []) :
    WithinLimits (packetFrames buf).1 ∧
      buf = packetBytes (packetFrames buf).1 := by
  obtain ⟨joined, short⟩ := wholeFrames_append (frameCountOf buf)
    (buf.drop packetHeaderLen)
  change (packetFrames buf).1.flatMap frameBytes ++ (packetFrames buf).2 = _
    at joined
  rw [filled, List.append_nil] at joined
  unfold headerError at header
  split_ifs at header with oversize truncated wrongMagic wrongVersion noFrames
    tooMany
  rw [not_not] at wrongMagic wrongVersion
  have whole : buf = packetBytes (packetFrames buf).1 := by
    rw [packetBytes, complete, joined]
    match buf, truncated with
    | m0 :: m1 :: found :: count :: body, _ =>
        have magicBytes : [m0, m1] = Bytes.toBigEndian 2 magic.toNat := by
          rw [← wrongMagic]
          exact (Bytes.toBigEndian_u16 rfl).symm
        have versionByte : found = version := wrongVersion
        have countByte : UInt8.ofNat count.toNat = count := UInt8.ofNat_toNat
        simp only [packetHeader, ← magicBytes, ← versionByte, frameCountOf,
          List.getD_cons_succ, List.getD_cons_zero, countByte, packetHeaderLen,
          List.drop_succ_cons, List.drop_zero, List.cons_append,
          List.nil_append]
  refine ⟨⟨?_, ?_, short, ?_⟩, whole⟩
  · rw [complete, frameCountOf]
    have nonzero : (buf.getD 3 0).toNat ≠ 0 := fun zero =>
      noFrames (UInt8.toNat_inj.mp zero)
    omega
  · rw [complete, frameCountOf]
    omega
  · rw [← length_packetBytes, ← whole]
    omega

/-- A packet without boundary errors: no frame is missing and no byte is left
over. -/
def NoBoundaryErrors (packet : DecodedPacket F) : Prop :=
  ∀ error ∈ packet.errors,
    error.kind ≠ .truncated ∧ ∀ count, error.kind ≠ .trailingBytes count

section Codec

variable [F64 F]

/-- A packet is free of boundary errors only when the declared frames fill
it. -/
theorem filled_of_noBoundaryErrors
    {catalog : Catalog F}
    {body left : List UInt8}
    {frameCount : Nat}
    {frames : List RawFrame}
    {packet : DecodedPacket F}
    (accounts : AccountsForFrames catalog body frameCount frames left packet)
    (clean : NoBoundaryErrors packet) :
    frames.length = frameCount ∧ left = [] := by
  have complete : frames.length = frameCount := by
    by_contra incomplete
    have missing : frames.length < frameCount :=
      lt_of_le_of_ne accounts.length_le incomplete
    have member : FrameError.mk frames.length
        (if 2 ≤ left.length then some (leadingId left) else none)
        .truncated ∈ packet.errors := by
      rw [accounts.truncated missing]
      exact List.mem_append_right _ (List.mem_singleton_self _)
    exact (clean _ member).1 rfl
  refine ⟨complete, ?_⟩
  by_contra nonempty
  have member : FrameError.mk frameCount none (.trailingBytes left.length) ∈
      packet.errors := by
    rw [accounts.trailing complete, if_neg nonempty]
    exact List.mem_append_right _ (List.mem_singleton_self _)
  exact (clean _ member).2 _ rfl

/-- Decoding an encoded packet delivers exactly one outcome for each frame. -/
theorem decodePacket_packetBytes
    {frames : List RawFrame}
    (within : WithinLimits frames)
    (catalog : Catalog F) :
    decodePacket (packetBytes frames) catalog = .ok {
      samples := frames.filterMap (frameSample catalog)
      errors := frameErrors catalog 0 frames
      unknownSignals := frames.countP (isUnknown catalog) } := by
  rw [decodePacket_eq, headerError_packetBytes within,
    packetFrames_packetBytes within, frameCountOf_packetBytes within.count_le]
  simp [leftoverErrors]

/-- Encoder and decoder define the same packet format. -/
theorem encodePacket_decodePacket_agree :
    (∀ frames : List RawFrame,
      ((∃ bytes, (encodePacket frames : Except (EncodeError F) _) = .ok bytes) ↔
        (1 ≤ frames.length ∧ frames.length ≤ 64) ∧
          (∀ frame ∈ frames, frame.payload.length ≤ 255) ∧
          4 + (frames.map fun frame => 11 + frame.payload.length).sum ≤
            1500)) ∧
    (∀ (frames : List RawFrame) (bytes : List UInt8),
      (encodePacket frames : Except (EncodeError F) _) = .ok bytes →
        bytes.length =
            4 + (frames.map fun frame => 11 + frame.payload.length).sum ∧
          ∀ catalog : Catalog F, ∃ packet,
            decodePacket bytes catalog = .ok packet ∧
              NoBoundaryErrors packet ∧
              packet.samples = frames.filterMap (frameSample catalog) ∧
              packet.errors = frameErrors catalog 0 frames ∧
              packet.unknownSignals = frames.countP (isUnknown catalog)) ∧
    (∀ (buf : List UInt8) (catalog : Catalog F) (packet : DecodedPacket F),
      decodePacket buf catalog = .ok packet → NoBoundaryErrors packet →
        ∃! frames : List RawFrame,
          (encodePacket frames : Except (EncodeError F) _) = .ok buf) := by
  refine ⟨fun frames => ?_, fun frames bytes encoded => ?_,
    fun buf catalog packet decoded clean => ?_⟩
  · simp only [encodePacket_eq_ok_iff, exists_and_left, exists_eq, and_true]
    constructor
    · rintro ⟨nonempty, countLe, payloadLe, totalLe⟩
      exact ⟨⟨nonempty, countLe⟩, payloadLe, totalLe⟩
    · rintro ⟨⟨nonempty, countLe⟩, payloadLe, totalLe⟩
      exact ⟨nonempty, countLe, payloadLe, totalLe⟩
  · obtain ⟨within, rfl⟩ := (encodePacket_eq_ok_iff frames bytes).mp encoded
    refine ⟨length_packetBytes frames, fun catalog =>
      ⟨_, decodePacket_packetBytes within catalog, ?_, rfl, rfl, rfl⟩⟩
    intro error member
    rcases ((frameErrors_sound catalog 0 frames).1 error member).2 with
      ⟨expected, actual, kind⟩ | kind
    · rw [kind]
      exact ⟨by simp, by simp⟩
    · rw [kind]
      exact ⟨by simp, by simp⟩
  · obtain ⟨complete, filled⟩ :=
      filled_of_noBoundaryErrors
        (accountsForFrames_of_decodePacket decoded) clean
    have header : headerError buf = none := by
      by_contra present
      obtain ⟨error, found⟩ := Option.ne_none_iff_exists'.mp present
      rw [(decodePacket_eq_error_iff buf catalog error).mpr found] at decoded
      cases decoded
    obtain ⟨within, whole⟩ := eq_packetBytes_of_filled header complete filled
    refine ⟨(packetFrames buf).1,
      (encodePacket_eq_ok_iff _ _).mpr ⟨within, whole⟩, ?_⟩
    intro other encoded
    obtain ⟨otherWithin, otherWhole⟩ :=
      (encodePacket_eq_ok_iff other buf).mp encoded
    exact packetBytes_injective otherWithin within
      (otherWhole.symm.trans whole)

end Codec

end Protocol
end TelemetryEdge
