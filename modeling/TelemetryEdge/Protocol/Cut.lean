import TelemetryEdge.Protocol.OlderCatalog

/-!
# Datagrams cut short

The first bytes of a datagram hold the first of its whole frames, and these have
the outcomes that they have in the whole datagram.  When a declared frame is
missing, the first missing one is reported, once, and nothing behind it.
-/

namespace TelemetryEdge
namespace Protocol

/-- Whether a byte string starts with a number of whole frames. -/
def WholeFramesFit (count : Nat) (bytes : List UInt8) : Prop :=
  ∃ frames : List RawFrame, frames.length = count ∧
    (∀ frame ∈ frames, frame.payload.length ≤ 255) ∧
      frames.flatMap frameBytes <+: bytes

/-- As many frames fit as splitting finds. -/
theorem wholeFramesFit_iff
    (count : Nat)
    (bytes : List UInt8) :
    WholeFramesFit count bytes ↔ (wholeFrames count bytes).1.length = count := by
  constructor
  · rintro ⟨frames, rfl, short, rest, rfl⟩
    rw [wholeFrames_flatMap_frameBytes short]
  · intro complete
    obtain ⟨joined, short⟩ := wholeFrames_append count bytes
    exact ⟨(wholeFrames count bytes).1, complete, short, _, joined⟩

/-- More bytes leave the whole frames at the front as they are. -/
theorem wholeFrames_isPrefix_append
    (count : Nat)
    (bytes more : List UInt8) :
    (wholeFrames count bytes).1 <+: (wholeFrames count (bytes ++ more)).1 := by
  induction count generalizing bytes with
  | zero => exact List.prefix_refl _
  | succ count inductionHypothesis =>
      cases split : splitFrame bytes with
      | none =>
          simp only [wholeFrames, split]
          exact List.nil_prefix
      | some taken =>
          obtain ⟨frame, rest⟩ := taken
          obtain ⟨short, rfl⟩ := eq_of_splitFrame split
          have longer := splitFrame_frameBytes_append short (rest ++ more)
          rw [← List.append_assoc] at longer
          simp only [wholeFrames, split, longer]
          exact List.cons_prefix_cons.mpr ⟨rfl, inductionHypothesis rest⟩

/-- Splitting finds as many frames as fit and as many as are asked for. -/
theorem wholeFrames_of_le
    {fewer count : Nat}
    (le : fewer ≤ count)
    (bytes : List UInt8) :
    (wholeFrames fewer bytes).1 = (wholeFrames count bytes).1.take fewer := by
  induction fewer generalizing count bytes with
  | zero => rfl
  | succ fewer inductionHypothesis =>
      obtain ⟨more, rfl⟩ := Nat.exists_eq_succ_of_ne_zero
        (Nat.ne_of_gt (Nat.lt_of_lt_of_le (Nat.succ_pos fewer) le))
      cases split : splitFrame bytes with
      | none => simp only [wholeFrames, split, List.take_nil]
      | some taken =>
          simp only [wholeFrames, split, List.take_succ_cons,
            inductionHypothesis (Nat.le_of_succ_le_succ le)]

/-- The whole frames that are found are those that fit. -/
theorem wholeFramesFit_iff_le
    {fewer count : Nat}
    (le : fewer ≤ count)
    (bytes : List UInt8) :
    WholeFramesFit fewer bytes ↔
      fewer ≤ (wholeFrames count bytes).1.length := by
  rw [wholeFramesFit_iff, wholeFrames_of_le le, List.length_take]
  omega

/-- Whether an error rejects the payload of a whole frame. -/
def FrameError.rejectsPayload (error : FrameError) : Bool :=
  match error.kind with
  | .lengthMismatch _ _ | .invalidValue => true
  | .truncated | .trailingBytes _ => false

section Cut

variable [F64 F]

/-- The errors of whole frames reject payloads. -/
theorem rejectsPayload_of_mem_frameErrors
    {catalog : Catalog F}
    {start : Nat}
    {frames : List RawFrame}
    {error : FrameError}
    (member : error ∈ frameErrors catalog start frames) :
    error.rejectsPayload = true := by
  unfold FrameError.rejectsPayload
  rcases ((frameErrors_sound catalog start frames).1 error member).2 with
    ⟨expected, actual, kind⟩ | kind
  · rw [kind]
  · rw [kind]

omit [F64 F] in
/-- What is left over has no payload to reject. -/
theorem not_rejectsPayload_of_mem_leftoverErrors
    {frameCount index : Nat}
    {left : List UInt8}
    {error : FrameError}
    (member : error ∈ leftoverErrors frameCount index left) :
    error.rejectsPayload = false := by
  unfold leftoverErrors at member
  split at member
  · rw [List.mem_singleton.mp member]
    rfl
  · split at member
    · cases member
    · rw [List.mem_singleton.mp member]
      rfl

/-- The errors that reject payloads are those of the whole frames. -/
theorem filter_rejectsPayload
    (catalog : Catalog F)
    (frameCount index : Nat)
    (frames : List RawFrame)
    (left : List UInt8) :
    (frameErrors catalog 0 frames ++
        leftoverErrors frameCount index left).filter
          FrameError.rejectsPayload =
      frameErrors catalog 0 frames := by
  have ofFrames : (frameErrors catalog 0 frames).filter
      FrameError.rejectsPayload = frameErrors catalog 0 frames :=
    List.filter_eq_self.mpr fun _ => rejectsPayload_of_mem_frameErrors
  have ofLeftover : (leftoverErrors frameCount index left).filter
      FrameError.rejectsPayload = [] := by
    apply List.filter_eq_nil_iff.mpr
    intro error member
    rw [not_rejectsPayload_of_mem_leftoverErrors member]
    exact Bool.false_ne_true
  rw [List.filter_append, ofFrames, ofLeftover, List.append_nil]

/-- The errors of the first frames come first. -/
theorem frameErrors_isPrefix
    (catalog : Catalog F)
    {frames longer : List RawFrame}
    (first : frames <+: longer) :
    frameErrors catalog 0 frames <+: frameErrors catalog 0 longer := by
  obtain ⟨more, rfl⟩ := first
  rw [frameErrors, frameErrors, List.zipIdx_append, List.filterMap_append]
  exact List.prefix_append _ _

section Headers

omit [F64 F]

variable
  {buf : List UInt8}
  {n : Nat}
  (header : packetHeaderLen ≤ n)

include header

/-- A cut behind the packet header leaves the bytes of the header. -/
theorem getD_take_of_header
    {index : Nat}
    (inHeader : index < packetHeaderLen) :
    (buf.take n).getD index 0 = buf.getD index 0 := by
  rw [List.getD_eq_getElem?_getD,
    List.getElem?_take_of_lt (Nat.lt_of_lt_of_le inHeader header),
    ← List.getD_eq_getElem?_getD]

/-- A cut behind the packet header leaves the declared number of frames. -/
theorem frameCountOf_take :
    frameCountOf (buf.take n) = frameCountOf buf := by
  rw [frameCountOf, frameCountOf, getD_take_of_header header (by decide)]

variable (within : n ≤ buf.length)

include within

/-- A cut behind the packet header leaves an accepted header accepted. -/
theorem headerError_take (accepted : headerError buf = none) :
    headerError (buf.take n) = none := by
  have length : (buf.take n).length = n := List.length_take_of_le within
  have firstTwo : (buf.take n).take 2 = buf.take 2 := by
    rw [packetHeaderLen] at header
    rw [List.take_take, Nat.min_eq_left (by omega)]
  unfold headerError at accepted ⊢
  split_ifs at accepted with oversize short wrongMagic wrongVersion zero tooMany
  rw [length, firstTwo, getD_take_of_header header (by decide),
    getD_take_of_header header (by decide), if_neg (by omega),
    if_neg (by omega), if_neg wrongMagic, if_neg wrongVersion, if_neg zero,
    if_neg tooMany]

/-- A cut behind the packet header leaves the first whole frames. -/
theorem packetFrames_take :
    (packetFrames (buf.take n)).1 <+: (packetFrames buf).1 := by
  have length : (buf.take n).length = n := List.length_take_of_le within
  have body : buf.drop packetHeaderLen =
      (buf.take n).drop packetHeaderLen ++ buf.drop n := by
    rw [← List.drop_append_of_le_length (by omega), List.take_append_drop]
  rw [packetFrames, packetFrames, frameCountOf_take header, body]
  exact wholeFrames_isPrefix_append _ _ _

end Headers

/-- What is reported when the whole frames of a packet body end before the
declared number: the outcomes of the whole frames, and the first missing one. -/
structure StopsAt
    (body : List UInt8)
    (index : Nat)
    (packet : DecodedPacket F) : Prop where
  /-- As many whole frames fit. -/
  fit : WholeFramesFit index body
  /-- No more whole frames fit. -/
  noMore : ¬ WholeFramesFit (index + 1) body
  /-- Every whole frame has one outcome, and there are no others. -/
  counted : packet.samples.length +
    (packet.errors.filter FrameError.rejectsPayload).length +
      packet.unknownSignals = index
  /-- The first missing frame is the last error, and the others reject payloads
  of earlier frames. -/
  last : ∃ earlier signalId,
    packet.errors = earlier ++ [⟨index, signalId, .truncated⟩] ∧
      ∀ error ∈ earlier, error.index < index ∧ error.rejectsPayload = true

/-- What the first bytes of a datagram decode to, against the whole
datagram. -/
structure CutOf
    (body : List UInt8)
    (frameCount : Nat)
    (whole cut : DecodedPacket F) : Prop where
  /-- The samples are the first ones. -/
  samples : cut.samples <+: whole.samples
  /-- The rejected payloads are the first ones, with the same indices. -/
  errors : cut.errors.filter FrameError.rejectsPayload <+:
    whole.errors.filter FrameError.rejectsPayload
  /-- No unknown signal is invented. -/
  unknownSignals : cut.unknownSignals ≤ whole.unknownSignals
  /-- A truncation is reported when not all declared frames fit. -/
  truncated_iff : (∃ error ∈ cut.errors, error.kind = .truncated) ↔
    ¬ WholeFramesFit frameCount body
  /-- Nothing is reported about the frames behind the first missing one. -/
  stops : ¬ WholeFramesFit frameCount body →
    ∃ index < frameCount, StopsAt body index cut

omit [F64 F] in
/-- A truncation is left over when a declared frame is missing. -/
theorem truncated_mem_leftoverErrors_iff
    {frameCount index : Nat}
    (left : List UInt8) :
    (∃ error ∈ leftoverErrors frameCount index left,
        error.kind = .truncated) ↔ index < frameCount := by
  unfold leftoverErrors
  split
  · next missing => simp [missing]
  · next complete =>
      split
      · simp [complete]
      · simp [complete]

/-- Of a packet, a truncation is reported when a declared frame is missing. -/
theorem truncated_mem_errors_iff
    (catalog : Catalog F)
    (frameCount : Nat)
    (frames : List RawFrame)
    (left : List UInt8) :
    (∃ error ∈ frameErrors catalog 0 frames ++
        leftoverErrors frameCount frames.length left,
      error.kind = .truncated) ↔ frames.length < frameCount := by
  rw [← truncated_mem_leftoverErrors_iff left]
  constructor
  · rintro ⟨error, member, truncated⟩
    cases List.mem_append.mp member with
    | inl ofFrame =>
        have rejects := rejectsPayload_of_mem_frameErrors ofFrame
        rw [FrameError.rejectsPayload, truncated] at rejects
        cases rejects
    | inr leftover => exact ⟨error, leftover, truncated⟩
  · rintro ⟨error, leftover, truncated⟩
    exact ⟨error, List.mem_append_right _ leftover, truncated⟩

/-- A packet with a missing frame stops at it. -/
theorem stopsAt_of_length_lt
    (catalog : Catalog F)
    (frameCount : Nat)
    (body : List UInt8)
    (missing : (wholeFrames frameCount body).1.length < frameCount) :
    StopsAt body (wholeFrames frameCount body).1.length
      { samples := (wholeFrames frameCount body).1.filterMap
          (frameSample catalog)
        errors := frameErrors catalog 0 (wholeFrames frameCount body).1 ++
          leftoverErrors frameCount (wholeFrames frameCount body).1.length
            (wholeFrames frameCount body).2
        unknownSignals := (wholeFrames frameCount body).1.countP
          (isUnknown catalog) } := by
  refine ⟨?_, ?_, ?_, ?_⟩
  · rw [wholeFramesFit_iff_le missing.le]
  · rw [wholeFramesFit_iff_le missing]
    exact Nat.not_succ_le_self _
  · simp only [filter_rejectsPayload]
    exact count_outcomes catalog 0 _
  · refine ⟨_, _, by rw [leftoverErrors, if_pos missing], ?_⟩
    intro error member
    have bounds := ((frameErrors_sound catalog 0 _).1 error member).1
    rw [Nat.zero_add] at bounds
    exact ⟨bounds.2, rejectsPayload_of_mem_frameErrors member⟩

/-- The first bytes of a datagram with an accepted header decode to a packet
that agrees with the whole one as far as whole frames go. -/
theorem decodePacket_take
    {buf : List UInt8}
    {catalog : Catalog F}
    {whole : DecodedPacket F}
    (accepted : decodePacket buf catalog = .ok whole)
    {n : Nat}
    (header : packetHeaderLen ≤ n)
    (within : n ≤ buf.length) :
    ∃ cut, decodePacket (buf.take n) catalog = .ok cut ∧
      CutOf ((buf.take n).drop packetHeaderLen) (frameCountOf buf) whole
        cut := by
  have first := packetFrames_take header within
  have wholeEq := decodePacket_eq buf catalog
  have cutEq := decodePacket_eq (buf.take n) catalog
  cases fine : headerError buf with
  | some error =>
      rw [fine, accepted] at wholeEq
      cases wholeEq
  | none =>
      rw [fine, accepted] at wholeEq
      rw [headerError_take header within fine] at cutEq
      obtain rfl := Except.ok.inj wholeEq
      have body : packetFrames (buf.take n) = wholeFrames (frameCountOf buf)
          ((buf.take n).drop packetHeaderLen) := by
        rw [packetFrames, frameCountOf_take header]
      have lengthLe := length_wholeFrames_le (frameCountOf buf)
        ((buf.take n).drop packetHeaderLen)
      have missingIff : (wholeFrames (frameCountOf buf)
          ((buf.take n).drop packetHeaderLen)).1.length < frameCountOf buf ↔
          ¬ WholeFramesFit (frameCountOf buf)
            ((buf.take n).drop packetHeaderLen) := by
        rw [wholeFramesFit_iff]
        exact ⟨Nat.ne_of_lt, Nat.lt_of_le_of_ne lengthLe⟩
      rw [body] at first
      rw [body, frameCountOf_take header] at cutEq
      refine ⟨_, cutEq, ?_, ?_, ?_, ?_, ?_⟩
      · exact first.filterMap _
      · simp only [filter_rejectsPayload]
        exact frameErrors_isPrefix catalog first
      · exact first.sublist.countP_le
      · rw [← missingIff]
        exact truncated_mem_errors_iff catalog _ _ _
      · intro short
        have missing := missingIff.mpr short
        exact ⟨_, missing, stopsAt_of_length_lt catalog _ _ missing⟩

end Cut

/-- The packet of two flags, cut in the payload of the second frame. -/
theorem flagsPacket_cut :
    ∃ cut, decodePacket (flagsPacket.take 27) chargeCatalog.toCatalog =
        .ok cut ∧
      CutOf ((flagsPacket.take 27).drop packetHeaderLen) 2
        ⟨[⟨1, "door_open", 9, .bool true⟩, ⟨2, "charging", 9, .bool false⟩],
          [], 0⟩ cut := by
  refine decodePacket_take ?_ (by decide) (by decide)
  rfl

end Protocol
end TelemetryEdge
