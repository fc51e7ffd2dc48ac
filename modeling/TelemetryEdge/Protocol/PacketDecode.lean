import TelemetryEdge.Protocol.PacketFormat

/-!
# Decoding accounts for every frame

The cursor of the decoder is described by the bytes after it.  From this the
frame loop is shown to agree with the packet format: one outcome for each whole
frame, in order, and at most one error for what is left over.
-/

namespace TelemetryEdge
namespace Protocol

namespace Reader

/-- The bytes after the cursor. -/
def rest (reader : Reader) : List UInt8 := reader.buf.drop reader.pos

@[simp] theorem rest_new (buf : List UInt8) : (new buf).rest = buf := rfl

@[simp] theorem remaining_eq (reader : Reader) :
    reader.remaining = reader.rest.length := by
  rw [remaining, rest, List.length_drop]

/-- A read that fits delivers the next bytes and moves past them. -/
theorem take_of_le
    {reader : Reader}
    {n : Nat}
    (fits : n ≤ reader.rest.length) :
    ∃ next : Reader, reader.take n = (some (reader.rest.take n), next) ∧
      next.rest = reader.rest.drop n := by
  have inBounds := reader.inBounds
  rw [rest, List.length_drop] at fits
  have stop : reader.pos + n ≤ reader.buf.length := by omega
  refine ⟨⟨reader.buf, reader.pos + n, stop⟩, ?_, ?_⟩
  · rw [take]
    exact dif_pos stop
  · rw [rest, rest, List.drop_drop]

/-- A read that does not fit delivers nothing and leaves the cursor. -/
theorem take_of_lt
    {reader : Reader}
    {n : Nat}
    (short : reader.rest.length < n) :
    reader.take n = (none, reader) := by
  have inBounds := reader.inBounds
  rw [rest, List.length_drop] at short
  rw [take]
  exact dif_neg (by omega)

/-- Reading the three header fields of a frame that has them. -/
theorem read_header
    {reader : Reader}
    {idField stampField tail : List UInt8}
    {declared : UInt8}
    (idLength : idField.length = 2)
    (stampLength : stampField.length = 8)
    (fields : reader.rest = idField ++ stampField ++ [declared] ++ tail) :
    ∃ afterId afterStamp afterHeader : Reader,
      reader.u16Be =
          (some (UInt16.ofNat (Bytes.ofBigEndian idField)), afterId) ∧
        afterId.u64Be =
          (some (UInt64.ofNat (Bytes.ofBigEndian stampField)), afterStamp) ∧
        afterStamp.u8 = (some declared, afterHeader) ∧
        afterHeader.rest = tail := by
  have idFits : 2 ≤ reader.rest.length := by simp [fields, idLength]
  obtain ⟨afterId, idRead, idRest⟩ := take_of_le idFits
  rw [fields] at idRead idRest
  simp [idLength] at idRead idRest
  have stampFits : 8 ≤ afterId.rest.length := by simp [idRest, stampLength]
  obtain ⟨afterStamp, stampRead, stampRest⟩ := take_of_le stampFits
  rw [idRest] at stampRead stampRest
  simp [stampLength] at stampRead stampRest
  have lengthFits : 1 ≤ afterStamp.rest.length := by simp [stampRest]
  obtain ⟨afterHeader, lengthRead, lengthRest⟩ := take_of_le lengthFits
  rw [stampRest] at lengthRead lengthRest
  refine ⟨afterId, afterStamp, afterHeader, ?_, ?_, ?_, ?_⟩
  · simp [u16Be, idRead]
  · simp [u64Be, stampRead]
  · simp [u8, lengthRead, Bytes.ofBigEndian, Bytes.ofLittleEndian]
  · simpa using lengthRest

end Reader

/-- What a whole frame contributes. -/
inductive FrameOutcome (F : Type)
  | sample (sample : Sample F)
  | error (kind : FrameErrorKind)
  | unknown

section Outcomes

variable [F64 F]

/-- The outcome of a frame under a catalog. -/
def frameOutcome (catalog : Catalog F) (frame : RawFrame) : FrameOutcome F :=
  match catalog.byId frame.signalId with
  | none => .unknown
  | some signal =>
      match decodeValue signal frame.payload with
      | .ok value =>
          .sample ⟨frame.signalId, signal.name, frame.timestampUs, value⟩
      | .error kind => .error kind

/-- The sample of a frame, if that is its outcome. -/
def frameSample (catalog : Catalog F) (frame : RawFrame) : Option (Sample F) :=
  match frameOutcome catalog frame with
  | .sample sample => some sample
  | _ => none

/-- The error of the frame at an index, if that is its outcome. -/
def frameError
    (catalog : Catalog F)
    (entry : RawFrame × Nat) : Option FrameError :=
  match frameOutcome catalog entry.1 with
  | .error kind => some ⟨entry.2, some entry.1.signalId, kind⟩
  | _ => none

/-- Whether a frame only counts as an unknown signal. -/
def isUnknown (catalog : Catalog F) (frame : RawFrame) : Bool :=
  match frameOutcome catalog frame with
  | .unknown => true
  | _ => false

/-- The errors of frames whose first one has a given index. -/
def frameErrors
    (catalog : Catalog F)
    (start : Nat)
    (frames : List RawFrame) : List FrameError :=
  (frames.zipIdx start).filterMap (frameError catalog)

/-- The errors for what is left over: a frame that does not fit, or bytes after
the last frame. -/
def leftoverErrors
    (frameCount index : Nat)
    (left : List UInt8) : List FrameError :=
  if index < frameCount then
    [⟨index, if 2 ≤ left.length then some (leadingId left) else none,
      .truncated⟩]
  else if left = [] then []
  else [⟨frameCount, none, .trailingBytes left.length⟩]

/-- Append the outcomes of frames to a packet. -/
def DecodedPacket.pushFrames
    (out : DecodedPacket F)
    (catalog : Catalog F)
    (start : Nat)
    (frames : List RawFrame) : DecodedPacket F where
  samples := out.samples ++ frames.filterMap (frameSample catalog)
  errors := out.errors ++ frameErrors catalog start frames
  unknownSignals := out.unknownSignals + frames.countP (isUnknown catalog)

@[simp] theorem DecodedPacket.pushFrames_nil
    (out : DecodedPacket F)
    (catalog : Catalog F)
    (start : Nat) :
    out.pushFrames catalog start [] = out := by
  simp [pushFrames, frameErrors]

/-- Frames can be appended one after the other. -/
theorem DecodedPacket.pushFrames_cons
    (out : DecodedPacket F)
    (catalog : Catalog F)
    (start : Nat)
    (frame : RawFrame)
    (frames : List RawFrame) :
    (out.pushFrames catalog start [frame]).pushFrames catalog (start + 1)
        frames =
      out.pushFrames catalog start (frame :: frames) := by
  have samples : (frame :: frames).filterMap (frameSample catalog) =
      [frame].filterMap (frameSample catalog) ++
        frames.filterMap (frameSample catalog) :=
    @List.filterMap_append _ _ [frame] frames _
  have errors :
      ((frame, start) :: frames.zipIdx (start + 1)).filterMap
          (frameError catalog) =
        [(frame, start)].filterMap (frameError catalog) ++
          (frames.zipIdx (start + 1)).filterMap (frameError catalog) :=
    @List.filterMap_append _ _ [(frame, start)] _ _
  have unknown : (frame :: frames).countP (isUnknown catalog) =
      [frame].countP (isUnknown catalog) +
        frames.countP (isUnknown catalog) :=
    @List.countP_append _ _ [frame] frames
  simp only [pushFrames, frameErrors, List.zipIdx_cons, List.zipIdx_nil,
    List.append_assoc, samples, errors, unknown, Nat.add_assoc]

/-- The outcome of one frame, as the frame loop adds it. -/
theorem DecodedPacket.pushFrames_singleton
    (out : DecodedPacket F)
    (catalog : Catalog F)
    (start : Nat)
    (frame : RawFrame) :
    out.pushFrames catalog start [frame] =
      match frameOutcome catalog frame with
      | .unknown => out.countUnknown
      | .sample sample => out.pushSample sample
      | .error kind => out.pushError ⟨start, some frame.signalId, kind⟩ := by
  cases outcome : frameOutcome catalog frame <;>
    simp [pushFrames, frameErrors, frameSample, frameError, isUnknown,
      countUnknown, pushSample, pushError, outcome]

end Outcomes

section FrameLoop

variable [F64 F]

/-- The loop ends with a truncation error at a frame that does not fit. -/
theorem decodeFrames_of_splitFrame_none
    (catalog : Catalog F)
    (frameCount index : Nat)
    (indices : List Nat)
    {reader : Reader}
    (out : DecodedPacket F)
    (split : splitFrame reader.rest = none) :
    decodeFrames catalog frameCount (index :: indices) reader out =
      out.pushError
        ⟨index,
          if 2 ≤ reader.rest.length then some (leadingId reader.rest) else none,
          .truncated⟩ := by
  by_cases headerFits : frameHeaderLen ≤ reader.rest.length
  · -- The header is whole, so the payload is what does not fit.
    obtain ⟨idField, stampField, declared, tail, idLength, stampLength, fields⟩ :=
      exists_header_fields headerFits
    obtain ⟨afterId, afterStamp, afterHeader, idRead, stampRead, lengthRead,
      tailRest⟩ := Reader.read_header idLength stampLength fields
    rw [fields, splitFrame_fields idLength stampLength] at split
    have payloadRead : afterHeader.take declared.toNat = (none, afterHeader) := by
      apply Reader.take_of_lt
      rw [tailRest]
      split at split
      · cases split
      · omega
    simp [decodeFrames, idRead, stampRead, lengthRead, payloadRead, fields,
      idLength, leadingId]
  · rw [frameHeaderLen] at headerFits
    by_cases idFits : 2 ≤ reader.rest.length
    · obtain ⟨afterId, idRead, idRest⟩ := Reader.take_of_le idFits
      have idRestLength : afterId.rest.length = reader.rest.length - 2 := by
        rw [idRest, List.length_drop]
      by_cases stampFits : 8 ≤ afterId.rest.length
      · obtain ⟨afterStamp, stampRead, stampRest⟩ := Reader.take_of_le stampFits
        have lengthRead : afterStamp.take 1 = (none, afterStamp) := by
          apply Reader.take_of_lt
          rw [stampRest, List.length_drop]
          omega
        simp [decodeFrames, Reader.u16Be, Reader.u64Be, Reader.u8, idRead,
          stampRead, lengthRead, idFits, leadingId]
      · have stampRead := Reader.take_of_lt (Nat.lt_of_not_le stampFits)
        simp [decodeFrames, Reader.u16Be, Reader.u64Be, idRead, stampRead,
          idFits, leadingId]
    · have idRead := Reader.take_of_lt (Nat.lt_of_not_le idFits)
      simp [decodeFrames, Reader.u16Be, idRead, idFits]

/-- The loop adds the outcome of a whole frame and goes on behind it. -/
theorem decodeFrames_of_splitFrame_some
    (catalog : Catalog F)
    (frameCount index : Nat)
    (indices : List Nat)
    {reader : Reader}
    (out : DecodedPacket F)
    {frame : RawFrame}
    {rest : List UInt8}
    (split : splitFrame reader.rest = some (frame, rest)) :
    ∃ next : Reader, next.rest = rest ∧
      decodeFrames catalog frameCount (index :: indices) reader out =
        decodeFrames catalog frameCount indices next
          (out.pushFrames catalog index [frame]) := by
  have headerFits : frameHeaderLen ≤ reader.rest.length := by
    rw [(eq_of_splitFrame split).2, List.length_append, length_frameBytes]
    omega
  obtain ⟨idField, stampField, declared, tail, idLength, stampLength, fields⟩ :=
    exists_header_fields headerFits
  obtain ⟨afterId, afterStamp, afterHeader, idRead, stampRead, lengthRead,
    tailRest⟩ := Reader.read_header idLength stampLength fields
  rw [fields, splitFrame_fields idLength stampLength] at split
  split at split
  · next payloadFits =>
      obtain ⟨rfl, rfl⟩ := Prod.ext_iff.mp (Option.some.inj split)
      rw [← tailRest] at payloadFits
      obtain ⟨next, payloadRead, payloadRest⟩ := Reader.take_of_le payloadFits
      rw [tailRest] at payloadRead payloadRest
      refine ⟨next, payloadRest, ?_⟩
      rw [DecodedPacket.pushFrames_singleton]
      simp only [decodeFrames, idRead, stampRead, lengthRead, payloadRead,
        frameOutcome]
      cases catalog.byId (UInt16.ofNat (Bytes.ofBigEndian idField)) with
      | none => rfl
      | some signal =>
          dsimp only
          cases decodeValue signal (tail.take declared.toNat) with
          | ok value => rfl
          | error kind => rfl
  · cases split

/-- The frame loop delivers the outcomes of the whole frames and then the error
for what is left over. -/
theorem decodeFrames_eq
    (catalog : Catalog F)
    (start count : Nat)
    (reader : Reader)
    (out : DecodedPacket F) :
    decodeFrames catalog (start + count) (List.range' start count) reader out =
      let whole := wholeFrames count reader.rest
      let accounted := out.pushFrames catalog start whole.1
      { accounted with
        errors := accounted.errors ++
          leftoverErrors (start + count) (start + whole.1.length) whole.2 } := by
  induction count generalizing start reader out with
  | zero =>
      by_cases empty : reader.rest = []
      · simp [decodeFrames, wholeFrames, leftoverErrors, empty]
      · have nonempty := List.length_pos_iff.mpr empty
        simp [decodeFrames, wholeFrames, leftoverErrors, empty,
          DecodedPacket.pushError]
  | succ count inductionHypothesis =>
      rw [List.range'_succ]
      cases split : splitFrame reader.rest with
      | none =>
          rw [decodeFrames_of_splitFrame_none _ _ _ _ _ split]
          simp [wholeFrames, split, leftoverErrors, DecodedPacket.pushError]
      | some taken =>
          obtain ⟨frame, rest⟩ := taken
          obtain ⟨next, nextRest, step⟩ := decodeFrames_of_splitFrame_some
            catalog (start + (count + 1)) start (List.range' (start + 1) count)
            out split
          have shifted : start + (count + 1) = start + 1 + count := by omega
          rw [step, shifted, inductionHypothesis, nextRest]
          have indexShifted : start + ((wholeFrames count rest).1.length + 1) =
              start + 1 + (wholeFrames count rest).1.length := by omega
          simp only [wholeFrames, split, List.length_cons,
            DecodedPacket.pushFrames_cons, indexShifted]

end FrameLoop

/-! ## Whole packets -/

/-- The error that rejects a packet, in order of precedence. -/
def headerError (buf : List UInt8) : Option PacketError :=
  if maxDatagramLen < buf.length then some (.oversize buf.length)
  else if buf.length < packetHeaderLen then some (.headerTruncated buf.length)
  else if UInt16.ofNat (Bytes.ofBigEndian (buf.take 2)) ≠ magic then
    some (.badMagic (UInt16.ofNat (Bytes.ofBigEndian (buf.take 2))))
  else if buf.getD 2 0 ≠ version then some (.badVersion (buf.getD 2 0))
  else if buf.getD 3 0 = 0 then some .zeroFrames
  else if maxFrames < (buf.getD 3 0).toNat then
    some (.tooManyFrames (buf.getD 3 0))
  else none

/-- The declared number of frames. -/
def frameCountOf (buf : List UInt8) : Nat := (buf.getD 3 0).toNat

/-- The whole frames of a packet and the bytes left over. -/
def packetFrames (buf : List UInt8) : List RawFrame × List UInt8 :=
  wholeFrames (frameCountOf buf) (buf.drop packetHeaderLen)

section Packets

variable [F64 F]

/-- The frame loop of a packet, started behind the packet header. -/
theorem decodeFrames_packet
    (catalog : Catalog F)
    (count : Nat)
    (reader : Reader) :
    decodeFrames catalog count (List.range count) reader .empty =
      let whole := wholeFrames count reader.rest
      { samples := whole.1.filterMap (frameSample catalog)
        errors := frameErrors catalog 0 whole.1 ++
          leftoverErrors count whole.1.length whole.2
        unknownSignals := whole.1.countP (isUnknown catalog) } := by
  have loop := decodeFrames_eq catalog 0 count reader .empty
  rw [Nat.zero_add, ← List.range_eq_range'] at loop
  rw [loop]
  simp [DecodedPacket.pushFrames, DecodedPacket.empty]

/-- A packet with a good header decodes to the outcomes of its whole frames and
the error for what is left over. -/
theorem decodePacket_eq
    (buf : List UInt8)
    (catalog : Catalog F) :
    decodePacket buf catalog =
      match headerError buf with
      | some error => .error error
      | none =>
          .ok {
            samples := (packetFrames buf).1.filterMap (frameSample catalog)
            errors := frameErrors catalog 0 (packetFrames buf).1 ++
              leftoverErrors (frameCountOf buf) (packetFrames buf).1.length
                (packetFrames buf).2
            unknownSignals :=
              (packetFrames buf).1.countP (isUnknown catalog) } := by
  unfold decodePacket headerError
  by_cases oversize : maxDatagramLen < buf.length
  · simp only [if_pos oversize]
  · simp only [if_neg oversize]
    match buf with
    | [] => rfl
    | [_] => rfl
    | [_, _] => rfl
    | [_, _, _] => rfl
    | m0 :: m1 :: found :: count :: body =>
        have longEnough :
            ¬(m0 :: m1 :: found :: count :: body).length < packetHeaderLen := by
          simp [packetHeaderLen]
        have magicRead : (Reader.new (m0 :: m1 :: found :: count :: body)).u16Be
            = (some (UInt16.ofNat (Bytes.ofBigEndian [m0, m1])),
              ⟨m0 :: m1 :: found :: count :: body, 2, by simp⟩) := by
          simp [Reader.u16Be, Reader.take, Reader.new]
        have versionRead :
            (Reader.mk (m0 :: m1 :: found :: count :: body) 2 (by simp)).u8 =
              (some found,
                ⟨m0 :: m1 :: found :: count :: body, 3, by simp⟩) := by
          simp [Reader.u8, Reader.take, Bytes.ofBigEndian, Bytes.ofLittleEndian]
        have countRead :
            (Reader.mk (m0 :: m1 :: found :: count :: body) 3 (by simp)).u8 =
              (some count,
                ⟨m0 :: m1 :: found :: count :: body, 4, by simp⟩) := by
          simp [Reader.u8, Reader.take, Bytes.ofBigEndian, Bytes.ofLittleEndian]
        have bodyRest :
            (Reader.mk (m0 :: m1 :: found :: count :: body) 4
              (by simp)).rest = body := rfl
        rw [if_neg longEnough]
        simp only [magicRead, versionRead, countRead, decodeFrames_packet,
          bodyRest, packetFrames, frameCountOf, packetHeaderLen,
          List.getD_cons_succ, List.getD_cons_zero,
          List.drop_succ_cons, List.drop_zero, List.take_succ_cons,
          List.take_zero]
        split_ifs <;> rfl

/-- A payload is rejected for its length or for its value. -/
theorem decodeValue_error
    {signal : Signal F}
    {payload : List UInt8}
    {kind : FrameErrorKind}
    (rejected : decodeValue signal payload = .error kind) :
    (∃ expected actual, kind = .lengthMismatch expected actual) ∨
      kind = .invalidValue := by
  unfold decodeValue at rejected
  dsimp only at rejected
  split at rejected
  · exact .inl ⟨_, _, (Except.error.inj rejected).symm⟩
  · split at rejected
    · exact .inl ⟨_, _, (Except.error.inj rejected).symm⟩
    · repeat' split at rejected
      all_goals first
        | exact .inr (Except.error.inj rejected).symm
        | cases rejected

/-- The error of a frame names the frame and rejects its payload. -/
theorem frameError_eq_some
    {catalog : Catalog F}
    {entry : RawFrame × Nat}
    {error : FrameError}
    (rejected : frameError catalog entry = some error) :
    error.index = entry.2 ∧ error.signalId = some entry.1.signalId ∧
      ((∃ expected actual, error.kind = .lengthMismatch expected actual) ∨
        error.kind = .invalidValue) := by
  unfold frameError at rejected
  split at rejected
  · next kind outcome =>
      obtain rfl := Option.some.inj rejected
      refine ⟨rfl, rfl, ?_⟩
      unfold frameOutcome at outcome
      split at outcome
      · cases outcome
      · split at outcome
        · cases outcome
        · next found =>
            obtain rfl := FrameOutcome.error.inj outcome
            exact decodeValue_error found
  · cases rejected

/-- The errors of whole frames carry the indices of frames, in increasing
order, and reject payloads. -/
theorem frameErrors_sound
    (catalog : Catalog F)
    (start : Nat)
    (frames : List RawFrame) :
    (∀ error ∈ frameErrors catalog start frames,
        (start ≤ error.index ∧ error.index < start + frames.length) ∧
          ((∃ expected actual,
              error.kind = .lengthMismatch expected actual) ∨
            error.kind = .invalidValue)) ∧
      (frameErrors catalog start frames).Pairwise
        fun left right => left.index < right.index := by
  induction frames generalizing start with
  | nil => simp [frameErrors]
  | cons frame frames inductionHypothesis =>
      obtain ⟨members, increasing⟩ := inductionHypothesis (start + 1)
      have tailMembers : ∀ error ∈ frameErrors catalog (start + 1) frames,
          (start ≤ error.index ∧
              error.index < start + (frame :: frames).length) ∧
            ((∃ expected actual,
                error.kind = .lengthMismatch expected actual) ∨
              error.kind = .invalidValue) := by
        intro error member
        obtain ⟨bounds, kind⟩ := members error member
        refine ⟨?_, kind⟩
        rw [List.length_cons]
        omega
      rw [frameErrors, List.zipIdx_cons]
      cases rejected : frameError catalog (frame, start) with
      | none =>
          rw [List.filterMap_cons_none rejected]
          exact ⟨tailMembers, increasing⟩
      | some error =>
          obtain ⟨index, _, kind⟩ := frameError_eq_some rejected
          rw [List.filterMap_cons_some rejected, List.pairwise_cons,
            List.forall_mem_cons]
          refine ⟨⟨⟨?_, kind⟩, tailMembers⟩, ?_, increasing⟩
          · rw [index, List.length_cons]
            omega
          · intro later member
            have bounds := (members later member).1
            rw [index]
            omega

omit [F64 F] in
/-- At most one error is reported for what is left over, at a later index than
every whole frame and at most the number of declared frames. -/
theorem leftoverErrors_cases
    {frameCount index : Nat}
    (indexLe : index ≤ frameCount)
    (left : List UInt8) :
    leftoverErrors frameCount index left = [] ∨
      ∃ error, leftoverErrors frameCount index left = [error] ∧
        index ≤ error.index ∧ error.index ≤ frameCount := by
  unfold leftoverErrors
  by_cases missing : index < frameCount
  · rw [if_pos missing]
    exact .inr ⟨_, rfl, le_rfl, indexLe⟩
  · rw [if_neg missing]
    by_cases empty : left = []
    · exact .inl (if_pos empty)
    · rw [if_neg empty]
      exact .inr ⟨_, rfl, indexLe, le_rfl⟩

/-- The indices of all errors of a packet increase strictly and do not exceed
the number of declared frames. -/
theorem errors_increasing
    (catalog : Catalog F)
    {frameCount : Nat}
    {frames : List RawFrame}
    (lengthLe : frames.length ≤ frameCount)
    (left : List UInt8) :
    let errors := frameErrors catalog 0 frames ++
      leftoverErrors frameCount frames.length left
    (errors.Pairwise fun earlier later => earlier.index < later.index) ∧
      ∀ error ∈ errors, error.index ≤ frameCount := by
  obtain ⟨members, increasing⟩ := frameErrors_sound catalog 0 frames
  rw [Nat.zero_add] at members
  have early : ∀ error ∈ frameErrors catalog 0 frames,
      error.index ≤ frameCount :=
    fun error member => (members error member).1.2.le.trans lengthLe
  rcases leftoverErrors_cases lengthLe left with
    nothing | ⟨last, single, lastIndex, lastBound⟩
  · simp only [nothing, List.append_nil]
    exact ⟨increasing, early⟩
  · simp only [single, List.pairwise_append, List.forall_mem_append,
      List.forall_mem_singleton]
    refine ⟨⟨increasing, List.pairwise_singleton _ _, ?_⟩, early, lastBound⟩
    exact fun earlier member =>
      lt_of_lt_of_le (members earlier member).1.2 lastIndex

/-- Every whole frame has exactly one outcome. -/
theorem count_outcomes
    (catalog : Catalog F)
    (start : Nat)
    (frames : List RawFrame) :
    (frames.filterMap (frameSample catalog)).length +
        (frameErrors catalog start frames).length +
        frames.countP (isUnknown catalog) = frames.length := by
  induction frames generalizing start with
  | nil => rfl
  | cons frame frames inductionHypothesis =>
      have tail := inductionHypothesis (start + 1)
      unfold frameErrors at tail ⊢
      rw [List.zipIdx_cons, List.filterMap_cons, List.filterMap_cons,
        List.countP_cons, List.length_cons]
      cases outcome : frameOutcome catalog frame <;>
        simp only [frameSample, frameError, isUnknown, outcome,
          List.length_cons, if_true, if_false, Bool.false_eq_true] <;>
        omega

/-- The full account of a packet that declares `frameCount` frames: `frames` are
the frames that fit whole into the datagram and `left` are the bytes behind
them. -/
structure AccountsForFrames
    (catalog : Catalog F)
    (body : List UInt8)
    (frameCount : Nat)
    (frames : List RawFrame)
    (left : List UInt8)
    (packet : DecodedPacket F) : Prop where
  /-- Frames and left-over bytes make up the packet body. -/
  body_eq : frames.flatMap frameBytes ++ left = body
  /-- No more frames are read than declared. -/
  length_le : frames.length ≤ frameCount
  /-- A declared frame that was not read does not fit. -/
  maximal : frames.length < frameCount → splitFrame left = none
  /-- The samples are those of the whole frames, in order. -/
  samples_eq : packet.samples = frames.filterMap (frameSample catalog)
  /-- The unknown signals are counted over the whole frames. -/
  unknown_eq : packet.unknownSignals = frames.countP (isUnknown catalog)
  /-- Every whole frame is a sample, an error or an unknown signal, and only one
  of them. -/
  count_eq :
    packet.samples.length + (frameErrors catalog 0 frames).length +
      packet.unknownSignals = frames.length
  /-- The error of a whole frame rejects its payload. -/
  frame_errors : ∀ error ∈ frameErrors catalog 0 frames,
    (∃ expected actual, error.kind = .lengthMismatch expected actual) ∨
      error.kind = .invalidValue
  /-- A missing frame is reported once, as the last error, with its signal id
  when both bytes of it are there. -/
  truncated : frames.length < frameCount →
    packet.errors = frameErrors catalog 0 frames ++
      [⟨frames.length,
        if 2 ≤ left.length then some (leadingId left) else none, .truncated⟩]
  /-- Without a missing frame, exactly the left-over bytes are reported. -/
  trailing : frames.length = frameCount →
    packet.errors = frameErrors catalog 0 frames ++
      if left = [] then [] else [⟨frameCount, none, .trailingBytes left.length⟩]
  /-- The indices of all errors increase strictly. -/
  increasing : packet.errors.Pairwise fun earlier later =>
    earlier.index < later.index
  /-- No index exceeds the number of declared frames. -/
  index_le : ∀ error ∈ packet.errors, error.index ≤ frameCount

/-- Decoding rejects a packet exactly for its header. -/
theorem decodePacket_eq_error_iff
    (buf : List UInt8)
    (catalog : Catalog F)
    (error : PacketError) :
    decodePacket buf catalog = .error error ↔ headerError buf = some error := by
  rw [decodePacket_eq]
  cases headerError buf with
  | some found => simp
  | none => simp

/-- A packet that is not rejected accounts for every frame. -/
theorem accountsForFrames_of_decodePacket
    {buf : List UInt8}
    {catalog : Catalog F}
    {packet : DecodedPacket F}
    (accepted : decodePacket buf catalog = .ok packet) :
    AccountsForFrames catalog (buf.drop packetHeaderLen)
      (frameCountOf buf) (packetFrames buf).1 (packetFrames buf).2
      packet := by
  have decoded := decodePacket_eq buf catalog
  cases header : headerError buf with
  | some found =>
      rw [header, accepted] at decoded
      cases decoded
  | none =>
      rw [header, accepted] at decoded
      obtain rfl := Except.ok.inj decoded
      have lengthLe := length_wholeFrames_le (frameCountOf buf)
        (buf.drop packetHeaderLen)
      change (packetFrames buf).1.length ≤ frameCountOf buf at lengthLe
      obtain ⟨members, -⟩ := frameErrors_sound catalog 0 (packetFrames buf).1
      obtain ⟨increasing, indexLe⟩ :=
        errors_increasing catalog lengthLe (packetFrames buf).2
      refine {
        body_eq := (wholeFrames_append _ _).1
        length_le := lengthLe
        maximal := splitFrame_left_of_length_lt
        samples_eq := rfl
        unknown_eq := rfl
        count_eq := count_outcomes catalog 0 _
        frame_errors := fun error member => (members error member).2
        truncated := ?truncated
        trailing := ?trailing
        increasing
        index_le := indexLe }
      case truncated =>
        intro missing
        simp only [leftoverErrors, if_pos missing]
      case trailing =>
        intro complete
        simp only [leftoverErrors, complete, lt_irrefl, if_false]

/-- Decoding rejects a packet exactly for its header and otherwise accounts for
every frame. -/
theorem decodePacket_accounts
    (buf : List UInt8)
    (catalog : Catalog F) :
    (∀ error, decodePacket buf catalog = .error error ↔
        headerError buf = some error) ∧
      ∀ packet, decodePacket buf catalog = .ok packet →
        AccountsForFrames catalog (buf.drop packetHeaderLen)
          (frameCountOf buf) (packetFrames buf).1 (packetFrames buf).2
          packet :=
  ⟨decodePacket_eq_error_iff buf catalog,
    fun _ accepted => accountsForFrames_of_decodePacket accepted⟩

end Packets

end Protocol
end TelemetryEdge
