import TelemetryEdge.Protocol.Wire

/-!
# The packet format

The format of a packet body without a cursor: `splitFrame` takes one whole frame
off the front of a byte string and `wholeFrames` takes as many as fit.  Frames
are found again in their bytes, and the whole frames and what is left over make
up the byte string.
-/

namespace TelemetryEdge
namespace Protocol

/-- The bytes of one frame. -/
def frameBytes (frame : RawFrame) : List UInt8 :=
  Bytes.toBigEndian 2 frame.signalId.toNat ++
    Bytes.toBigEndian 8 frame.timestampUs.toNat ++
    [UInt8.ofNat frame.payload.length] ++ frame.payload

/-- The signal id at the front of a byte string. -/
def leadingId (bytes : List UInt8) : UInt16 :=
  UInt16.ofNat (Bytes.ofBigEndian (bytes.take 2))

/-- The whole frame at the front of a byte string, and the bytes after it. -/
def splitFrame (bytes : List UInt8) : Option (RawFrame × List UInt8) :=
  if frameHeaderLen ≤ bytes.length then
    let declared := (bytes.getD 10 0).toNat
    if frameHeaderLen + declared ≤ bytes.length then
      some
        (⟨leadingId bytes,
          UInt64.ofNat (Bytes.ofBigEndian ((bytes.drop 2).take 8)),
          (bytes.drop frameHeaderLen).take declared⟩,
        bytes.drop (frameHeaderLen + declared))
    else none
  else none

/-- At most `count` whole frames from the front of a byte string, and the bytes
left over. -/
def wholeFrames : Nat → List UInt8 → List RawFrame × List UInt8
  | 0, bytes => ([], bytes)
  | count + 1, bytes =>
      match splitFrame bytes with
      | none => ([], bytes)
      | some (frame, rest) =>
          (frame :: (wholeFrames count rest).1, (wholeFrames count rest).2)

theorem length_frameBytes (frame : RawFrame) :
    (frameBytes frame).length = frameHeaderLen + frame.payload.length := by
  simp only [frameBytes, List.length_append, Bytes.length_toBigEndian,
    List.length_singleton, frameHeaderLen]

/-- What splitting does once the three header fields are told apart. -/
theorem splitFrame_fields
    {idField stampField : List UInt8}
    (idLength : idField.length = 2)
    (stampLength : stampField.length = 8)
    (declared : UInt8)
    (tail : List UInt8) :
    splitFrame (idField ++ stampField ++ [declared] ++ tail) =
      if declared.toNat ≤ tail.length then
        some
          (⟨UInt16.ofNat (Bytes.ofBigEndian idField),
            UInt64.ofNat (Bytes.ofBigEndian stampField),
            tail.take declared.toNat⟩,
          tail.drop declared.toNat)
      else none := by
  match idField, idLength, stampField, stampLength with
  | [_, _], _, [_, _, _, _, _, _, _, _], _ =>
      simp [splitFrame, leadingId, frameHeaderLen, Nat.add_comm 11]

/-- A byte string that holds a frame header is made of its three fields and a
tail. -/
theorem exists_header_fields
    {bytes : List UInt8}
    (headerFits : frameHeaderLen ≤ bytes.length) :
    ∃ idField stampField declared tail,
      idField.length = 2 ∧ stampField.length = 8 ∧
        bytes = idField ++ stampField ++ [declared] ++ tail := by
  match bytes, headerFits with
  | b0 :: b1 :: b2 :: b3 :: b4 :: b5 :: b6 :: b7 :: b8 :: b9 :: b10 :: tail, _ =>
      exact ⟨[b0, b1], [b2, b3, b4, b5, b6, b7, b8, b9], b10, tail,
        rfl, rfl, rfl⟩

/-- Splitting takes a frame off the front of its own bytes. -/
theorem splitFrame_frameBytes_append
    {frame : RawFrame}
    (short : frame.payload.length ≤ 255)
    (rest : List UInt8) :
    splitFrame (frameBytes frame ++ rest) = some (frame, rest) := by
  have lengthByte :
      (UInt8.ofNat frame.payload.length).toNat = frame.payload.length := by
    rw [UInt8.toNat_ofNat']
    omega
  rw [frameBytes, List.append_assoc _ frame.payload,
    splitFrame_fields (Bytes.length_toBigEndian 2 _)
      (Bytes.length_toBigEndian 8 _),
    lengthByte, if_pos (by simp), Bytes.ofBigEndian_u16,
    Bytes.ofBigEndian_u64, List.take_left, List.drop_left]

/-- A byte string that splits is the bytes of the frame followed by the rest. -/
theorem eq_of_splitFrame
    {bytes rest : List UInt8}
    {frame : RawFrame}
    (split : splitFrame bytes = some (frame, rest)) :
    frame.payload.length ≤ 255 ∧ bytes = frameBytes frame ++ rest := by
  by_cases headerFits : frameHeaderLen ≤ bytes.length
  · obtain ⟨idField, stampField, declared, tail, idLength, stampLength, rfl⟩ :=
      exists_header_fields headerFits
    rw [splitFrame_fields idLength stampLength] at split
    split at split
    · next payloadFits =>
        obtain ⟨rfl, rfl⟩ := Prod.ext_iff.mp (Option.some.inj split)
        have small := declared.toNat_lt
        have payloadLength :
            (tail.take declared.toNat).length = declared.toNat :=
          List.length_take_of_le payloadFits
        refine ⟨by simp only [payloadLength]; omega, ?_⟩
        simp only [frameBytes, payloadLength, Bytes.toBigEndian_u16 idLength,
          Bytes.toBigEndian_u64 stampLength, UInt8.ofNat_toNat, List.append_assoc,
          List.take_append_drop]
    · cases split
  · rw [splitFrame, if_neg headerFits] at split
    cases split

/-- The whole frames and what is left over make up the byte string, and every
payload length fits into a length byte. -/
theorem wholeFrames_append
    (count : Nat)
    (bytes : List UInt8) :
    ((wholeFrames count bytes).1.flatMap frameBytes ++
        (wholeFrames count bytes).2 = bytes) ∧
      ∀ frame ∈ (wholeFrames count bytes).1, frame.payload.length ≤ 255 := by
  induction count generalizing bytes with
  | zero => simp [wholeFrames]
  | succ count inductionHypothesis =>
      cases split : splitFrame bytes with
      | none => simp [wholeFrames, split]
      | some taken =>
          obtain ⟨frame, rest⟩ := taken
          obtain ⟨short, whole⟩ := eq_of_splitFrame split
          obtain ⟨joined, tailShort⟩ := inductionHypothesis rest
          simp only [wholeFrames, split, List.flatMap_cons, List.append_assoc,
            joined, List.mem_cons, forall_eq_or_imp]
          exact ⟨whole.symm, short, tailShort⟩

/-- There are at most `count` whole frames. -/
theorem length_wholeFrames_le
    (count : Nat)
    (bytes : List UInt8) :
    (wholeFrames count bytes).1.length ≤ count := by
  induction count generalizing bytes with
  | zero => simp [wholeFrames]
  | succ count inductionHypothesis =>
      unfold wholeFrames
      split
      · simp
      · next frame rest _ =>
          simp only [List.length_cons]
          have := inductionHypothesis rest
          omega

/-- A missing frame means that no further whole frame fits. -/
theorem splitFrame_left_of_length_lt
    {count : Nat}
    {bytes : List UInt8}
    (missing : (wholeFrames count bytes).1.length < count) :
    splitFrame (wholeFrames count bytes).2 = none := by
  induction count generalizing bytes with
  | zero => omega
  | succ count inductionHypothesis =>
      cases split : splitFrame bytes with
      | none => simp [wholeFrames, split]
      | some taken =>
          simp only [wholeFrames, split, List.length_cons] at missing ⊢
          exact inductionHypothesis (by omega)

/-- The frames of a packet body are found again, with nothing left over. -/
theorem wholeFrames_flatMap_frameBytes
    {frames : List RawFrame}
    (short : ∀ frame ∈ frames, frame.payload.length ≤ 255)
    (rest : List UInt8) :
    wholeFrames frames.length (frames.flatMap frameBytes ++ rest) =
      (frames, rest) := by
  induction frames with
  | nil => rfl
  | cons frame frames inductionHypothesis =>
      rw [List.forall_mem_cons] at short
      rw [List.length_cons, List.flatMap_cons, List.append_assoc, wholeFrames,
        splitFrame_frameBytes_append short.1]
      simp only [inductionHypothesis short.2]

end Protocol
end TelemetryEdge
