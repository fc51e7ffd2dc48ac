import TelemetryEdge.Protocol.Lookup
import TelemetryEdge.Protocol.PacketDecode

/-!
# Decoding with an older catalog

A catalog whose signal definitions all stand in a newer one decodes the same
frames of a packet.  It differs from the newer one in the frames of signals it
does not know, and it counts exactly those.
-/

namespace TelemetryEdge
namespace Protocol

/-- Whether an error rejects the payload of a signal that is not in a
catalog. -/
def FrameError.rejectsUnknown
    (catalog : Catalog F)
    (error : FrameError) : Bool :=
  match error.kind, error.signalId with
  | .lengthMismatch _ _, some id => (catalog.byId id).isNone
  | .invalidValue, some id => (catalog.byId id).isNone
  | _, _ => false

/-- Whether the signal of a sample is in a catalog. -/
def Sample.isKnown (catalog : Catalog F) (sample : Sample F) : Bool :=
  (catalog.byId sample.signalId).isSome

/-- A packet is another one without the frames of signals that are not in a
catalog, each of which it counts. -/
structure DecodedPacket.Forgets
    (catalog : Catalog F)
    (packet whole : DecodedPacket F) : Prop where
  samples : packet.samples = whole.samples.filter (·.isKnown catalog)
  errors : packet.errors = whole.errors.filter (!·.rejectsUnknown catalog)
  unknownSignals : packet.unknownSignals = whole.unknownSignals +
    whole.samples.countP (!·.isKnown catalog) +
    whole.errors.countP (·.rejectsUnknown catalog)

section Older

variable [F64 F] {older newer : AcceptedCatalog F}

/-- A signal of the older catalog is found under its id in the newer one. -/
theorem byId_of_definitions_subset
    (extended : older.definitions ⊆ newer.definitions)
    {id : UInt16}
    {signal : Signal F}
    (found : older.byId id = some signal) :
    newer.byId id = some signal := by
  obtain ⟨member, sameId⟩ := (older.byId_eq_some_iff id signal).mp found
  obtain ⟨other, inNewer, sameDefinition⟩ :=
    List.mem_map.mp (extended (List.mem_map_of_mem member))
  have validated := newer.new_definition inNewer
  rw [sameDefinition, older.new_definition member] at validated
  obtain rfl := Except.ok.inj validated
  exact (newer.byId_eq_some_iff id signal).mpr ⟨inNewer, sameId⟩

/-- The older catalog gives a frame the outcome that the newer one gives it, or
does not know its signal. -/
theorem frameOutcome_older
    (extended : older.definitions ⊆ newer.definitions)
    (frame : RawFrame) :
    frameOutcome older.toCatalog frame =
      if (older.byId frame.signalId).isSome then
        frameOutcome newer.toCatalog frame
      else .unknown := by
  unfold frameOutcome
  cases found : older.byId frame.signalId with
  | none => rfl
  | some signal =>
      rw [byId_of_definitions_subset extended found]
      rfl

/-- The sample of a frame carries the id of the frame. -/
theorem signalId_of_frameSample
    {catalog : Catalog F}
    {frame : RawFrame}
    {sample : Sample F}
    (sampled : frameSample catalog frame = some sample) :
    sample.signalId = frame.signalId := by
  unfold frameSample frameOutcome at sampled
  cases found : catalog.byId frame.signalId with
  | none => simp [found] at sampled
  | some signal =>
      cases decoded : decodeValue signal frame.payload with
      | error kind => simp [found, decoded] at sampled
      | ok value =>
          simp only [found, decoded, Option.some.injEq] at sampled
          rw [← sampled]

/-- The older catalog keeps the samples it knows. -/
theorem frameSample_older
    (extended : older.definitions ⊆ newer.definitions)
    (frame : RawFrame) :
    frameSample older.toCatalog frame =
      (frameSample newer.toCatalog frame).filter
        (·.isKnown older.toCatalog) := by
  have outcome := frameOutcome_older extended frame
  cases known : (older.byId frame.signalId).isSome with
  | true =>
      rw [known, if_pos rfl] at outcome
      have same : frameSample older.toCatalog frame =
          frameSample newer.toCatalog frame := by
        rw [frameSample, outcome, frameSample]
      rw [same]
      cases sampled : frameSample newer.toCatalog frame with
      | none => rfl
      | some sample =>
          rw [Option.filter_some, Sample.isKnown,
            signalId_of_frameSample sampled, known, if_pos rfl]
  | false =>
      rw [known, if_neg Bool.false_ne_true] at outcome
      rw [frameSample, outcome, eq_comm, Option.filter_eq_none_iff]
      intro sample sampled
      rw [Sample.isKnown, signalId_of_frameSample sampled, known]
      exact Bool.false_ne_true

/-- The error of a whole frame is about a signal outside a catalog when the
signal of the frame is. -/
theorem rejectsUnknown_of_frameError
    {catalog other : Catalog F}
    {entry : RawFrame × Nat}
    {error : FrameError}
    (rejected : frameError other entry = some error) :
    error.rejectsUnknown catalog = (catalog.byId entry.1.signalId).isNone := by
  obtain ⟨-, signalId, kind⟩ := frameError_eq_some rejected
  unfold FrameError.rejectsUnknown
  rcases kind with ⟨expected, actual, kind⟩ | kind <;> rw [kind, signalId]

/-- The older catalog keeps the errors of signals it knows. -/
theorem frameError_older
    (extended : older.definitions ⊆ newer.definitions)
    (entry : RawFrame × Nat) :
    frameError older.toCatalog entry =
      (frameError newer.toCatalog entry).filter
        (!·.rejectsUnknown older.toCatalog) := by
  have outcome := frameOutcome_older extended entry.1
  cases known : (older.byId entry.1.signalId).isSome with
  | true =>
      rw [known, if_pos rfl] at outcome
      have same : frameError older.toCatalog entry =
          frameError newer.toCatalog entry := by
        rw [frameError, outcome, frameError]
      rw [same]
      cases rejected : frameError newer.toCatalog entry with
      | none => rfl
      | some error =>
          rw [Option.filter_some, rejectsUnknown_of_frameError rejected,
            Option.not_isNone, known, if_pos rfl]
  | false =>
      rw [known, if_neg Bool.false_ne_true] at outcome
      rw [frameError, outcome, eq_comm, Option.filter_eq_none_iff]
      intro error rejected
      rw [rejectsUnknown_of_frameError rejected, Option.not_isNone, known]
      exact Bool.false_ne_true

omit [F64 F] in
/-- What is left over is reported with either catalog. -/
theorem rejectsUnknown_of_mem_leftoverErrors
    (catalog : Catalog F)
    {frameCount index : Nat}
    {left : List UInt8}
    {error : FrameError}
    (member : error ∈ leftoverErrors frameCount index left) :
    error.rejectsUnknown catalog = false := by
  unfold leftoverErrors at member
  split at member
  · rw [List.mem_singleton.mp member]
    rfl
  · split at member
    · cases member
    · rw [List.mem_singleton.mp member]
      rfl

/-- The samples of the frames that the older catalog knows. -/
theorem samples_older
    (extended : older.definitions ⊆ newer.definitions)
    (frames : List RawFrame) :
    frames.filterMap (frameSample older.toCatalog) =
      (frames.filterMap (frameSample newer.toCatalog)).filter
        (·.isKnown older.toCatalog) := by
  rw [List.filter_filterMap]
  apply List.filterMap_congr
  intro frame _
  exact frameSample_older extended frame

/-- The errors of the frames that the older catalog knows. -/
theorem frameErrors_older
    (extended : older.definitions ⊆ newer.definitions)
    (start : Nat)
    (frames : List RawFrame) :
    frameErrors older.toCatalog start frames =
      (frameErrors newer.toCatalog start frames).filter
        (!·.rejectsUnknown older.toCatalog) := by
  rw [frameErrors, frameErrors, List.filter_filterMap]
  apply List.filterMap_congr
  intro entry _
  exact frameError_older extended entry

/-- Every frame that the older catalog leaves out is counted. -/
theorem countP_isUnknown_older
    (extended : older.definitions ⊆ newer.definitions)
    (start : Nat)
    (frames : List RawFrame) :
    frames.countP (isUnknown older.toCatalog) =
      frames.countP (isUnknown newer.toCatalog) +
        (frames.filterMap (frameSample newer.toCatalog)).countP
          (!·.isKnown older.toCatalog) +
        (frameErrors newer.toCatalog start frames).countP
          (·.rejectsUnknown older.toCatalog) := by
  have accounted := count_outcomes older.toCatalog start frames
  rw [samples_older extended, frameErrors_older extended,
    ← List.countP_eq_length_filter, ← List.countP_eq_length_filter,
    ← count_outcomes newer.toCatalog start frames,
    List.length_eq_countP_add_countP (·.isKnown older.toCatalog),
    List.length_eq_countP_add_countP (·.rejectsUnknown older.toCatalog)]
    at accounted
  simp only [Bool.not_eq_true, Bool.decide_eq_false] at accounted
  omega

/-- An older catalog rejects the same packets.  Of the others it decodes the
samples of the signals it knows, reports the errors except the rejected payloads
of signals it does not know, and counts each frame that it has left out. -/
theorem decodePacket_older
    (extended : older.definitions ⊆ newer.definitions)
    (buf : List UInt8) :
    (∃ error, decodePacket buf older.toCatalog = .error error ∧
      decodePacket buf newer.toCatalog = .error error) ∨
    ∃ packet whole, decodePacket buf older.toCatalog = .ok packet ∧
      decodePacket buf newer.toCatalog = .ok whole ∧
        packet.Forgets older.toCatalog whole := by
  rw [decodePacket_eq, decodePacket_eq]
  cases headerError buf with
  | some error => exact .inl ⟨error, rfl, rfl⟩
  | none =>
      refine .inr ⟨_, _, rfl, rfl, samples_older extended _, ?_, ?_⟩
      · rw [List.filter_append, ← frameErrors_older extended, eq_comm,
          List.append_cancel_left_eq, List.filter_eq_self]
        intro error member
        rw [rejectsUnknown_of_mem_leftoverErrors _ member]
        rfl
      · have kept : (leftoverErrors (frameCountOf buf)
            (packetFrames buf).1.length (packetFrames buf).2).countP
              (·.rejectsUnknown older.toCatalog) = 0 := by
          rw [List.countP_eq_zero]
          intro error member
          rw [rejectsUnknown_of_mem_leftoverErrors _ member]
          exact Bool.false_ne_true
        rw [List.countP_append, kept, Nat.add_zero]
        exact countP_isUnknown_older extended 0 _

end Older

/-- A bool signal. -/
def flag (id : UInt16) (name : String) : SignalDef Binary64 where
  id := id
  name := name
  ty := .bool
  endian := none
  scale := ⟨0x3FF0000000000000⟩
  offset := ⟨0⟩
  unit := none
  enumMap := none

/-- The catalog of one flag. -/
def doorCatalog : AcceptedCatalog Binary64 where
  model := "R1S"
  catalogVersion := 1
  signals := [⟨flag 1 "door_open", ∅, ∅⟩]
  byIdIndex := (∅ : KeyedMap UInt16 Nat).insert 1 0
  byNameIndex := (∅ : KeyedMap String Nat).insert "door_open" 0
  accepted := ⟨⟨"R1S", 1, [flag 1 "door_open"]⟩, by rfl⟩

/-- The catalog with a second flag. -/
def chargeCatalog : AcceptedCatalog Binary64 where
  model := "R1S"
  catalogVersion := 2
  signals := [⟨flag 1 "door_open", ∅, ∅⟩, ⟨flag 2 "charging", ∅, ∅⟩]
  byIdIndex := ((∅ : KeyedMap UInt16 Nat).insert 1 0).insert 2 1
  byNameIndex :=
    ((∅ : KeyedMap String Nat).insert "door_open" 0).insert "charging" 1
  accepted :=
    ⟨⟨"R1S", 2, [flag 1 "door_open", flag 2 "charging"]⟩, by rfl⟩

/-- A packet with a frame of each flag. -/
def flagsPacket : List UInt8 :=
  [0x54, 0x45, 1, 2, 0, 1, 0, 0, 0, 0, 0, 0, 0, 9, 1, 1,
    0, 2, 0, 0, 0, 0, 0, 0, 0, 9, 1, 0]

/-- The first catalog against the second, on this packet. -/
theorem doorCatalog_older :
    (∃ error, decodePacket flagsPacket doorCatalog.toCatalog = .error error ∧
      decodePacket flagsPacket chargeCatalog.toCatalog = .error error) ∨
    ∃ packet whole,
      decodePacket flagsPacket doorCatalog.toCatalog = .ok packet ∧
      decodePacket flagsPacket chargeCatalog.toCatalog = .ok whole ∧
        packet.Forgets doorCatalog.toCatalog whole :=
  decodePacket_older (by decide) flagsPacket

example :
    decodePacket flagsPacket doorCatalog.toCatalog =
      .ok ⟨[⟨1, "door_open", 9, .bool true⟩], [], 1⟩ := by rfl

end Protocol
end TelemetryEdge
