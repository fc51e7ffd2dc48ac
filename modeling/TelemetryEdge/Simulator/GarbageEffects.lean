import TelemetryEdge.Protocol.OlderCatalog
import TelemetryEdge.Simulator.Frames
import TelemetryEdge.Simulator.Garbage
import TelemetryEdge.Telemetryd.Metrics

/-!
# What malformed packets lead to

Every kind of malformed packet, except random bytes, takes its own path through
the decoder: the frames it spares are decoded, and it is counted under its own
label.  Only a value out of range, which is counted under a label that no kind
has, can come with the frames themselves.
-/

namespace TelemetryEdge
namespace Simulator

open Protocol Telemetryd

/-- The label under which the decoder counts a kind. -/
def GarbageKind.reason : GarbageKind → Option String
  | .badMagic => some "bad_magic"
  | .badVersion => some "bad_version"
  | .zeroFrames => some "zero_frames"
  | .truncated => some "truncated"
  | .lengthMismatch => some "length_mismatch"
  | .oversize => some "oversize"
  | .trailingBytes => some "trailing_bytes"
  | .unknownSignal | .randomBytes => none

/-- The frames that a kind leaves as they are. -/
def GarbageKind.spared (frames : List RawFrame) : GarbageKind → List RawFrame
  | .truncated => frames.dropLast
  | .lengthMismatch => frames.tail
  | .unknownSignal | .trailingBytes => frames
  | _ => []

section Effects

variable [F64 F]

/-- Frames that fit the catalog and leave room for one more frame. -/
structure Spoilable (catalog : Catalog F) (frames : List RawFrame) : Prop where
  sized : Sized catalog frames
  few : frames.length < maxFrames
  room : packetLen frames + (frameHeaderLen + 8) ≤ maxDatagramLen

/-- What the decoder makes of a datagram: the frames that are spared, the labels
that are counted, but for values out of range, and the unknown signals. -/
structure Effect
    (catalog : Catalog F)
    (datagram : List UInt8)
    (spared : List RawFrame)
    (labels : List String)
    (unknown : Nat) : Prop where
  samples : samplesOf catalog datagram =
    spared.filterMap (frameSample catalog)
  reasons : ∀ reason ≠ FrameErrorKind.invalidValue.reason,
    (reasonsOf catalog datagram).count reason = labels.count reason
  unknown : unknownIn catalog datagram = unknown

/-- A rejected datagram is counted under the label of its header error. -/
theorem effect_of_headerError
    (catalog : Catalog F)
    {datagram : List UInt8}
    {error : PacketError}
    (rejected : headerError datagram = some error) :
    Effect catalog datagram [] [error.reason] 0 := by
  have decoded := decodePacket_eq datagram catalog
  rw [rejected] at decoded
  refine ⟨?_, fun reason _ => ?_, ?_⟩
  · rw [samplesOf, decoded]
    rfl
  · rw [reasonsOf, decoded]
  · rw [unknownIn, decoded]

/-- An accepted datagram leads to the outcomes of its frames and of what is left
over. -/
theorem outcomes_of_accepted
    (catalog : Catalog F)
    {datagram left : List UInt8}
    {frames : List RawFrame}
    (accepted : headerError datagram = none)
    (taken : packetFrames datagram = (frames, left)) :
    samplesOf catalog datagram = frames.filterMap (frameSample catalog) ∧
      reasonsOf catalog datagram =
        (frameErrors catalog 0 frames).map (·.kind.reason) ++
          (leftoverErrors (frameCountOf datagram) frames.length left).map
            (·.kind.reason) ∧
      unknownIn catalog datagram = frames.countP (isUnknown catalog) := by
  have decoded := decodePacket_eq datagram catalog
  rw [accepted, taken] at decoded
  refine ⟨?_, ?_, ?_⟩
  · rw [samplesOf, decoded]
  · rw [reasonsOf, decoded]
    exact List.map_append
  · rw [unknownIn, decoded]

/-- A payload of the right size can be read. -/
theorem readRaw_isSome
    {ty : SignalType}
    (endian : Endian)
    {payload : List UInt8}
    (size : payload.length = ty.size) :
    ∃ raw, (readRaw ty endian payload : Option (Raw F)) = some raw := by
  cases ty with
  | f32 => exact ⟨_, if_pos size⟩
  | f64 => exact ⟨_, if_pos size⟩
  | _ => exact ⟨_, (readInt_eq_some_iff ..).mpr ⟨size, rfl⟩⟩

/-- A payload of the right size decodes, unless its value is out of range. -/
theorem decodeValue_of_size
    {signal : Signal F}
    {payload : List UInt8}
    (size : payload.length = signal.ty.size) :
    (∃ value, decodeValue signal payload = .ok value) ∨
      decodeValue signal payload = .error .invalidValue := by
  obtain ⟨raw, read⟩ := @readRaw_isSome F _ _ signal.endian _ size
  have number : ∀ phys : F,
      (∃ value, (if F64.isFinite phys then .ok (.num phys)
          else .error .invalidValue : Except FrameErrorKind (SignalValue F)) =
            .ok value) ∨
        (if F64.isFinite phys then .ok (.num phys) else .error .invalidValue :
          Except FrameErrorKind (SignalValue F)) = .error .invalidValue := by
    intro phys
    split
    · exact .inl ⟨_, rfl⟩
    · exact .inr rfl
  simp only [decodeValue, size, read, ne_eq, not_true_eq_false, if_false]
  split
  · exact .inl ⟨_, rfl⟩
  · exact .inl ⟨_, rfl⟩
  · split
    · exact .inl ⟨_, rfl⟩
    · exact .inr rfl
  · exact number _
  · exact .inr rfl

/-- A frame that fits the catalog decodes, unless its value is out of range. -/
theorem frameOutcome_of_sized
    {catalog : Catalog F}
    {frame : RawFrame}
    {signal : Signal F}
    (known : catalog.byId frame.signalId = some signal)
    (size : frame.payload.length = signal.ty.size) :
    (∃ sample, frameOutcome catalog frame = .sample sample) ∨
      frameOutcome catalog frame = .error .invalidValue := by
  unfold frameOutcome
  rw [known]
  rcases decodeValue_of_size size with ⟨value, decoded⟩ | failed
  · simp only [decoded]
    exact .inl ⟨_, rfl⟩
  · simp only [failed]
    exact .inr True.intro

/-- Frames that fit the catalog leave no unknown signals and no errors but for
values out of range. -/
theorem harmless_of_sized
    {catalog : Catalog F}
    {frames : List RawFrame}
    (sized : Sized catalog frames)
    (start : Nat) :
    (∀ reason ≠ FrameErrorKind.invalidValue.reason,
      ((frameErrors catalog start frames).map (·.kind.reason)).count reason =
        0) ∧
      frames.countP (isUnknown catalog) = 0 := by
  constructor
  · intro reason other
    apply List.count_eq_zero_of_not_mem
    intro member
    obtain ⟨error, found, rfl⟩ := List.mem_map.mp member
    obtain ⟨entry, inFrames, failed⟩ := List.mem_filterMap.mp found
    obtain ⟨signal, known, size⟩ :=
      sized entry.1 (List.fst_mem_of_mem_zipIdx inFrames)
    unfold frameError at failed
    rcases frameOutcome_of_sized known size with ⟨sample, outcome⟩ | outcome
    · rw [outcome] at failed
      cases failed
    · rw [outcome] at failed
      obtain rfl := Option.some.inj failed
      exact other rfl
  · rw [List.countP_eq_zero]
    intro frame member
    obtain ⟨signal, known, size⟩ := sized frame member
    unfold isUnknown
    rcases frameOutcome_of_sized known size with ⟨sample, outcome⟩ | outcome
    · rw [outcome]
      exact Bool.false_ne_true
    · rw [outcome]
      exact Bool.false_ne_true

/-- An accepted datagram of frames that fit the catalog counts what is left
over. -/
theorem effect_of_accepted
    {catalog : Catalog F}
    {datagram left : List UInt8}
    {frames : List RawFrame}
    (sized : Sized catalog frames)
    (accepted : headerError datagram = none)
    (taken : packetFrames datagram = (frames, left)) :
    Effect catalog datagram frames
      ((leftoverErrors (frameCountOf datagram) frames.length left).map
        (·.kind.reason)) 0 := by
  obtain ⟨samples, reasons, unknown⟩ :=
    outcomes_of_accepted catalog accepted taken
  obtain ⟨noErrors, noUnknown⟩ := harmless_of_sized sized 0
  refine ⟨samples, fun reason other => ?_, unknown.trans noUnknown⟩
  rw [reasons, List.count_append, noErrors reason other, Nat.zero_add]

/-- The header of a packet that fits into a datagram, field by field. -/
theorem headerError_cons
    {first second found count : UInt8}
    {body : List UInt8}
    (fits : body.length + 4 ≤ maxDatagramLen) :
    headerError (first :: second :: found :: count :: body) =
      if UInt16.ofNat (Bytes.ofBigEndian [first, second]) ≠ magic then
        some (.badMagic (UInt16.ofNat (Bytes.ofBigEndian [first, second])))
      else if found ≠ version then some (.badVersion found)
      else if count = 0 then some .zeroFrames
      else if maxFrames < count.toNat then some (.tooManyFrames count)
      else none := by
  have length : (first :: second :: found :: count :: body).length =
      body.length + 4 := rfl
  have whole : ¬ body.length + 4 < packetHeaderLen := by
    rw [packetHeaderLen]
    omega
  rw [headerError, length, if_neg (Nat.not_lt_of_le fits), if_neg whole]
  rfl

/-- The bytes of a packet, with its header taken apart. -/
theorem packetBytes_eq_cons (frames : List RawFrame) :
    packetBytes frames =
      0x54 :: 0x45 :: version :: UInt8.ofNat frames.length ::
        frames.flatMap frameBytes := rfl

section Kinds

variable
  {catalog : Catalog F}
  {frames : List RawFrame}
  (within : WithinLimits frames)

include within

/-- The body of a packet within the limits leaves room for its header. -/
theorem length_body_le :
    (frames.flatMap frameBytes).length + 4 ≤ maxDatagramLen := by
  have total := within.total_le
  rwa [← length_packetBytes] at total

/-- A wrong magic is reported. -/
theorem effect_badMagic :
    Effect catalog (Bytes.toBigEndian 2 0xDEAD ++ (packetBytes frames).drop 2)
      [] ["bad_magic"] 0 := by
  have rejected : headerError
      (Bytes.toBigEndian 2 0xDEAD ++ (packetBytes frames).drop 2) =
        some (.badMagic 0xDEAD) :=
    headerError_cons (length_body_le within)
  exact effect_of_headerError catalog rejected

/-- A wrong version is reported. -/
theorem effect_badVersion
    {found : UInt8}
    (wrong : found ≠ version) :
    Effect catalog ((packetBytes frames).set 2 found) [] ["bad_version"] 0 := by
  have rejected : headerError ((packetBytes frames).set 2 found) =
      some (.badVersion found) :=
    (headerError_cons (length_body_le within)).trans
      ((if_neg (by decide)).trans (if_pos wrong))
  exact effect_of_headerError catalog rejected

/-- Frames within the limits that fit the catalog are decoded. -/
theorem effect_valid (sized : Sized catalog frames) :
    Effect catalog (packetBytes frames) frames [] 0 := by
  have effect := effect_of_accepted sized (headerError_packetBytes within)
    (packetFrames_packetBytes within)
  rwa [frameCountOf_packetBytes within.count_le, leftoverErrors,
    if_neg (Nat.lt_irrefl _), if_pos rfl] at effect

/-- Bytes after the last frame are reported. -/
theorem effect_trailingBytes
    (sized : Sized catalog frames)
    {extra : List UInt8}
    (some : extra ≠ [])
    (fits : packetLen frames + extra.length ≤ maxDatagramLen) :
    Effect catalog (packetBytes frames ++ extra) frames ["trailing_bytes"] 0 := by
  have accepted : headerError (packetBytes frames ++ extra) = none := by
    have alone := headerError_packetBytes within
    rw [packetBytes_eq_cons, headerError_cons (length_body_le within)] at alone
    have total : (frames.flatMap frameBytes ++ extra).length + 4 ≤
        maxDatagramLen := by
      have length := length_packetBytes frames
      rw [packetBytes_eq_cons, List.length_cons, List.length_cons,
        List.length_cons, List.length_cons] at length
      rw [List.length_append]
      omega
    exact (headerError_cons total).trans alone
  have count : frameCountOf (packetBytes frames ++ extra) = frames.length :=
    frameCountOf_packetBytes within.count_le
  have taken : packetFrames (packetBytes frames ++ extra) = (frames, extra) := by
    rw [packetFrames, count]
    exact wholeFrames_flatMap_frameBytes within.payload_le extra
  have effect := effect_of_accepted sized accepted taken
  rwa [count, leftoverErrors, if_neg (Nat.lt_irrefl _), if_neg some] at effect

omit within in
/-- A frame that has been cut short is not whole. -/
theorem splitFrame_take_frameBytes
    {frame : RawFrame}
    (short : frame.payload.length ≤ 255)
    {kept : Nat}
    (cut : kept < (frameBytes frame).length) :
    splitFrame ((frameBytes frame).take kept) = none := by
  cases split : splitFrame ((frameBytes frame).take kept) with
  | none => rfl
  | some taken =>
      obtain ⟨other, rest⟩ := taken
      obtain ⟨otherShort, front⟩ := eq_of_splitFrame split
      have whole : frameBytes frame ++ [] =
          frameBytes other ++ (rest ++ (frameBytes frame).drop kept) := by
        rw [List.append_nil, ← List.append_assoc, ← front,
          List.take_append_drop]
      have taken := splitFrame_frameBytes_append short []
      rw [whole, splitFrame_frameBytes_append otherShort] at taken
      have nothing := (Prod.ext_iff.mp (Option.some.inj taken)).2
      have dropped := congrArg List.length (List.append_eq_nil_iff.mp nothing).2
      rw [List.length_drop, List.length_nil] at dropped
      omega

omit within in
/-- Whole frames at the front are taken first. -/
theorem wholeFrames_append_of_short
    {start : List RawFrame}
    (short : ∀ frame ∈ start, frame.payload.length ≤ 255)
    (more : Nat)
    (rest : List UInt8) :
    wholeFrames (start.length + more) (start.flatMap frameBytes ++ rest) =
      (start ++ (wholeFrames more rest).1, (wholeFrames more rest).2) := by
  induction start with
  | nil => simp
  | cons frame start inductionHypothesis =>
      rw [List.forall_mem_cons] at short
      have count : (frame :: start).length + more =
          (start.length + more) + 1 := by
        rw [List.length_cons]
        omega
      rw [count, List.flatMap_cons, List.append_assoc, wholeFrames,
        splitFrame_frameBytes_append short.1]
      simp only [inductionHypothesis short.2, List.cons_append]

/-- A cut into the last frame is reported, and the frames before it are
decoded. -/
theorem effect_truncated
    (sized : Sized catalog frames)
    {start : List RawFrame}
    {last : RawFrame}
    {kept : Nat}
    (ends : frames = start ++ [last])
    (cut : kept < (frameBytes last).length) :
    Effect catalog
      (packetHeader frames.length ++ start.flatMap frameBytes ++
        (frameBytes last).take kept) start ["truncated"] 0 := by
  subst ends
  have short := within.payload_le
  have startShort : ∀ frame ∈ start, frame.payload.length ≤ 255 :=
    fun frame member => short frame (List.mem_append_left _ member)
  have lastShort := short last (List.mem_append_right _ (by simp))
  have accepted : headerError (packetHeader (start ++ [last]).length ++
      start.flatMap frameBytes ++ (frameBytes last).take kept) = none := by
    have alone := headerError_packetBytes within
    have fits := length_body_le within
    rw [packetBytes_eq_cons, headerError_cons fits] at alone
    rw [List.flatMap_append, List.flatMap_singleton, List.length_append] at fits
    have total : (start.flatMap frameBytes ++
        (frameBytes last).take kept).length + 4 ≤ maxDatagramLen := by
      rw [List.length_append, List.length_take]
      omega
    exact (headerError_cons total).trans alone
  have count : frameCountOf (packetHeader (start ++ [last]).length ++
      start.flatMap frameBytes ++ (frameBytes last).take kept) =
        (start ++ [last]).length :=
    frameCountOf_packetBytes within.count_le
  have taken : packetFrames (packetHeader (start ++ [last]).length ++
      start.flatMap frameBytes ++ (frameBytes last).take kept) =
        (start, (frameBytes last).take kept) := by
    rw [packetFrames, count, List.length_append]
    refine (wholeFrames_append_of_short startShort 1 _).trans ?_
    simp only [wholeFrames, splitFrame_take_frameBytes lastShort cut,
      List.append_nil]
  have startSized : Sized catalog start :=
    fun frame member => sized frame (List.mem_append_left _ member)
  have missing : start.length < (start ++ [last]).length := by simp
  have effect := effect_of_accepted startSized accepted taken
  rwa [count, leftoverErrors, if_pos missing] at effect

omit within in
/-- A first frame that is counted in its own way does not hide the others. -/
theorem effect_of_first
    {first : RawFrame}
    {rest : List RawFrame}
    (sized : Sized catalog rest)
    (within : WithinLimits (first :: rest))
    (noSample : frameSample catalog first = none) :
    Effect catalog (packetBytes (first :: rest)) rest
      ((frameError catalog (first, 0)).map (·.kind.reason)).toList
      (if isUnknown catalog first then 1 else 0) := by
  obtain ⟨samples, reasons, unknown⟩ := outcomes_of_accepted catalog
    (headerError_packetBytes within) (packetFrames_packetBytes within)
  obtain ⟨noErrors, noUnknown⟩ := harmless_of_sized sized 1
  refine ⟨?_, fun reason other => ?_, ?_⟩
  · rw [samples, List.filterMap_cons_none noSample]
  · have others := noErrors reason other
    rw [frameErrors] at others
    rw [reasons, frameCountOf_packetBytes within.count_le, leftoverErrors,
      if_neg (Nat.lt_irrefl _), if_pos rfl, List.map_nil, List.append_nil,
      frameErrors, List.zipIdx_cons]
    cases own : frameError catalog (first, 0) with
    | none =>
        rw [List.filterMap_cons_none own, others]
        rfl
    | some error =>
        rw [List.filterMap_cons_some own, List.map_cons, List.count_cons, others,
          Nat.zero_add, Option.map_some, Option.toList_some,
          List.count_singleton]
  · rw [unknown, List.countP_cons, noUnknown, Nat.zero_add]

omit within in
/-- A first payload with one byte more is reported, and the other frames are
decoded. -/
theorem effect_lengthMismatch
    {first : RawFrame}
    {rest : List RawFrame}
    (sized : Sized catalog (first :: rest))
    (within : WithinLimits
      ({ first with payload := first.payload ++ [0] } :: rest)) :
    Effect catalog
      (packetBytes ({ first with payload := first.payload ++ [0] } :: rest))
      rest ["length_mismatch"] 0 := by
  obtain ⟨own, others⟩ := List.forall_mem_cons.mp sized
  obtain ⟨signal, known, size⟩ := own
  have longer : (first.payload ++ [0]).length ≠ signal.ty.size := by
    rw [List.length_append, size]
    exact Nat.succ_ne_self _
  have outcome : frameOutcome catalog
      { first with payload := first.payload ++ [0] } =
        .error (.lengthMismatch signal.ty.size
          (first.payload ++ [0]).length) := by
    simp only [frameOutcome, known, decodeValue, if_pos longer]
  have effect := effect_of_first others within
    (by rw [frameSample, outcome])
  rw [frameError, isUnknown, outcome] at effect
  exact effect

omit within in
/-- A frame of an id that the catalog does not use is counted, and the other
frames are decoded. -/
theorem effect_unknownSignal
    (sized : Sized catalog frames)
    {unknown : RawFrame}
    (free : catalog.byId unknown.signalId = none)
    (within : WithinLimits (unknown :: frames)) :
    Effect catalog (packetBytes (unknown :: frames)) frames [] 1 := by
  have outcome : frameOutcome catalog unknown = .unknown := by
    rw [frameOutcome, free]
  have effect := effect_of_first sized within (by rw [frameSample, outcome])
  rw [frameError, isUnknown, outcome] at effect
  exact effect

end Kinds

omit [F64 F] in
/-- Frames that leave room for one more are built into a packet of every kind. -/
theorem exists_of_made
    {catalog : Catalog F}
    {frames : List RawFrame}
    (within : WithinLimits frames)
    (spoilable : Spoilable catalog frames)
    {kind : GarbageKind}
    {made : Except (EncodeError F) (List UInt8)}
    (built : Made frames catalog kind made) :
    ∃ datagram, made = .ok datagram := by
  have few := spoilable.few
  have room := spoilable.room
  rw [frameHeaderLen] at room
  cases built with
  | lengthMismatch first rest starts =>
      subst starts
      obtain ⟨signal, -, size⟩ := spoilable.sized first List.mem_cons_self
      have small : signal.ty.size ≤ 8 := by
        cases signal.ty <;> decide
      refine ⟨_, (encodePacket_eq_ok_iff _ _).mpr ⟨?_, rfl⟩⟩
      refine ⟨by simp, within.count_le, ?_, ?_⟩
      · intro frame member
        cases List.mem_cons.mp member with
        | inl same =>
            rw [same, List.length_append, size, List.length_singleton]
            omega
        | inr later => exact within.payload_le frame (.tail _ later)
      · simp only [packetLen, List.map_cons, List.sum_cons, List.length_append,
          List.length_singleton] at room ⊢
        omega
  | unknownSignal timestampUs payload short =>
      refine ⟨_, (encodePacket_eq_ok_iff _ _).mpr ⟨?_, rfl⟩⟩
      refine ⟨by simp, few, ?_, ?_⟩
      · intro frame member
        cases List.mem_cons.mp member with
        | inl same =>
            rw [same]
            exact Nat.le_trans short (by decide)
        | inr later => exact within.payload_le frame later
      · simp only [packetLen, List.map_cons, List.sum_cons, frameHeaderLen]
          at room ⊢
        omega
  | _ => exact ⟨_, rfl⟩

/-- Every kind but random bytes leads to its own effect. -/
theorem effect_of_made
    {catalog : Catalog F}
    {frames : List RawFrame}
    (within : WithinLimits frames)
    (spoilable : Spoilable catalog frames)
    {kind : GarbageKind}
    (free : kind = .unknownSignal → catalog.byId (freeId catalog) = none)
    (notRandom : kind ≠ .randomBytes)
    {datagram : List UInt8}
    (made : Made frames catalog kind (.ok datagram)) :
    Effect catalog datagram (kind.spared frames) kind.reason.toList
      (if kind = .unknownSignal then 1 else 0) := by
  have sized := spoilable.sized
  have room := spoilable.room
  generalize result : (Except.ok datagram : Except (EncodeError F) _) = built
    at made
  cases made with
  | badMagic =>
      obtain rfl := Except.ok.inj result
      exact effect_badMagic within
  | badVersion found wrong =>
      obtain rfl := Except.ok.inj result
      exact effect_badVersion within wrong
  | zeroFrames =>
      obtain rfl := Except.ok.inj result
      exact effect_of_headerError catalog
        (rfl : headerError [0x54, 0x45, 0x01, 0x00] = some .zeroFrames)
  | truncated start last kept ends cut =>
      obtain rfl := Except.ok.inj result
      have spared : start = frames.dropLast := by
        rw [ends, List.dropLast_concat]
      rw [GarbageKind.spared, ← spared]
      exact effect_truncated within sized ends cut
  | lengthMismatch first rest starts =>
      obtain ⟨longer, rfl⟩ :=
        (encodePacket_eq_ok_iff _ datagram).mp result.symm
      subst starts
      exact effect_lengthMismatch sized longer
  | unknownSignal timestampUs payload short =>
      obtain ⟨longer, rfl⟩ :=
        (encodePacket_eq_ok_iff _ datagram).mp result.symm
      exact effect_unknownSignal sized (free rfl) longer
  | oversize bytes long =>
      obtain rfl := Except.ok.inj result
      exact effect_of_headerError catalog (if_pos long)
  | trailingBytes extra some few =>
      obtain rfl := Except.ok.inj result
      exact effect_trailingBytes within sized some (by omega)
  | randomBytes drawn => exact absurd rfl notRandom

/-- From frames that fit the catalog and leave room for one more, a packet of
every kind is built, whatever is drawn, and every kind but random bytes takes its
own path through the decoder: for an unknown signal the catalog must have an id
to spare. -/
theorem malformed_effect
    (catalog : Catalog F)
    {frames : List RawFrame}
    (within : WithinLimits frames)
    (spoilable : Spoilable catalog frames)
    (kind : GarbageKind)
    (rng : Rng) :
    ∃ datagram next,
      malformed kind frames catalog rng = some (.ok datagram, next) ∧
        (kind ≠ .randomBytes →
          (kind = .unknownSignal → catalog.byId (freeId catalog) = none) →
          Effect catalog datagram (kind.spared frames) kind.reason.toList
            (if kind = .unknownSignal then 1 else 0)) := by
  obtain ⟨made, next, built, ofKind⟩ := malformed_made kind within catalog rng
  obtain ⟨datagram, rfl⟩ := exists_of_made within spoilable ofKind
  exact ⟨datagram, next, built, fun notRandom free =>
    effect_of_made within spoilable free notRandom ofKind⟩

end Effects

/-- An unknown signal before two flags, and the second flag cut short. -/
theorem doorCatalog_malformed :
    (∃ datagram next,
      malformed .unknownSignal [⟨1, 9, [1]⟩, ⟨1, 10, [0]⟩] doorCatalog.toCatalog
          (.new 11) = some (.ok datagram, next) ∧
        Effect doorCatalog.toCatalog datagram [⟨1, 9, [1]⟩, ⟨1, 10, [0]⟩] []
          1) ∧
      ∃ datagram next,
        malformed .truncated [⟨1, 9, [1]⟩, ⟨1, 10, [0]⟩] doorCatalog.toCatalog
            (.new 11) = some (.ok datagram, next) ∧
          Effect doorCatalog.toCatalog datagram [⟨1, 9, [1]⟩] ["truncated"]
            0 := by
  have within : WithinLimits [⟨1, 9, [1]⟩, ⟨1, 10, [0]⟩] := by
    refine ⟨by decide, by decide, ?_, by decide⟩
    intro frame member
    rcases List.mem_pair.mp member with rfl | rfl
    · decide
    · decide
  have sized : Sized doorCatalog.toCatalog [⟨1, 9, [1]⟩, ⟨1, 10, [0]⟩] := by
    intro frame member
    rcases List.mem_pair.mp member with rfl | rfl
    · exact ⟨_, rfl, rfl⟩
    · exact ⟨_, rfl, rfl⟩
  have spoilable : Spoilable doorCatalog.toCatalog
      [⟨1, 9, [1]⟩, ⟨1, 10, [0]⟩] := ⟨sized, by decide, by decide⟩
  have free : doorCatalog.byId (freeId doorCatalog.toCatalog) = none := by
    decide +kernel
  constructor
  · obtain ⟨datagram, next, built, effect⟩ := malformed_effect
      doorCatalog.toCatalog within spoilable .unknownSignal (.new 11)
    exact ⟨datagram, next, built, effect (by decide) fun _ => free⟩
  · obtain ⟨datagram, next, built, effect⟩ := malformed_effect
      doorCatalog.toCatalog within spoilable .truncated (.new 11)
    exact ⟨datagram, next, built, effect (by decide) (by decide)⟩

end Simulator
end TelemetryEdge
