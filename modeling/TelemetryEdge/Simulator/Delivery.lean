import TelemetryEdge.Protocol.ScaledInteger
import TelemetryEdge.Simulator.Simulation
import TelemetryEdge.Simulator.VehicleRange

/-!
# From the vehicle to the samples of the daemon

In exact arithmetic, for a catalog whose signals can carry every value that the
vehicle may have, the simulator never stops by itself, and every packet decodes
without errors to one sample for each simulated signal: labels and flags as they
are, numbers at most half a step away.
-/

namespace TelemetryEdge
namespace Simulator

open ExactRational Protocol

/-- The least and the greatest value of a numeric signal. -/
def numberRange (name : String) : Option (ℚ × ℚ) :=
  if name = "vehicle_speed" then some (0, 1183 / 10)
  else if name = "battery_soc" then some (5, 80)
  else if name = "motor_temp" then some (25, 101895 / 1000)
  else if name = "cabin_temp" then some (1945 / 100, 2255 / 100)
  else none

/-- Whether a number is rounded to a raw value in range. -/
def InReach
    (definition : SignalDef ℚ)
    (range : Int × Int)
    (number : ℚ) : Prop :=
  range.1 ≤ roundAway ((number - definition.offset) / definition.scale) ∧
    roundAway ((number - definition.offset) / definition.scale) ≤ range.2

instance (definition : SignalDef ℚ) (range : Int × Int) (number : ℚ) :
    Decidable (InReach definition range number) :=
  inferInstanceAs (Decidable (_ ∧ _))

/-- Signals that can carry every value that the vehicle may have. -/
structure Carries (definition : SignalDef ℚ) : Prop where
  /-- Numbers are scaled integers whose range covers the least and the greatest
  value. -/
  number : ∀ low high, numberRange definition.name = some (low, high) →
    definition.enumMap = none ∧ ∃ range, definition.ty.intRange = some range ∧
      InReach definition range low ∧ InReach definition range high
  /-- The gear has a label for every gear, and no two keys of one value. -/
  gear : definition.name = "gear" →
    ∃ map, definition.enumMap = some map ∧
      (map.entries.map fun entry => Text.parseI128 entry.1).Nodup ∧
        ∀ gear : Gear, ∃ entry ∈ map.entries, entry.2 = gear.label
  /-- The door is a flag. -/
  door : definition.name = "door_open" → definition.ty = .bool

/-- A decoded value is the value itself, or a number at most half a step away. -/
def Close (signal : Signal ℚ) : SignalValue ℚ → SignalValue ℚ → Prop
  | .num number, .num decoded =>
      |decoded - number| ≤ |signal.definition.scale| / 2
  | value, decoded => decoded = value

/-- The value of a simulated signal is a number in its range, a gear or a flag. -/
theorem Vehicle.Realistic.value_cases
    {vehicle : Vehicle ℚ}
    (realistic : vehicle.Realistic)
    {name : String}
    {value : SignalValue ℚ}
    (has : vehicle.value name = some value) :
    (∃ low high number, numberRange name = some (low, high) ∧
        value = .num number ∧ low ≤ number ∧ number ≤ high) ∨
      (name = "gear" ∧ value = .enum vehicle.gear.label) ∨
      (name = "door_open" ∧ value = .bool vehicle.doorOpen) := by
  unfold Vehicle.value at has
  unfold numberRange
  split_ifs at has with speed charge motor cabin gear door
  · obtain rfl := Option.some.inj has
    exact .inl ⟨_, _, _, if_pos speed, rfl, realistic.speed⟩
  · obtain rfl := Option.some.inj has
    refine .inl ⟨5, 80, _, ?_, rfl, realistic.charge⟩
    rw [if_neg speed, if_pos charge]
  · obtain rfl := Option.some.inj has
    refine .inl ⟨25, 101895 / 1000, _, ?_, rfl, realistic.motor⟩
    rw [if_neg speed, if_neg charge, if_pos motor]
  · obtain rfl := Option.some.inj has
    refine .inl ⟨1945 / 100, 2255 / 100, _, ?_, rfl, realistic.cabin⟩
    rw [if_neg speed, if_neg charge, if_neg motor, if_pos cabin]
  · exact .inr (.inl ⟨gear, (Option.some.inj has).symm⟩)
  · exact .inr (.inr ⟨door, (Option.some.inj has).symm⟩)

/-- A number between numbers in reach is in reach. -/
theorem InReach.between
    {definition : SignalDef ℚ}
    {range : Int × Int}
    {low high number : ℚ}
    (lowReach : InReach definition range low)
    (highReach : InReach definition range high)
    (above : low ≤ number)
    (below : number ≤ high) :
    InReach definition range number := by
  unfold InReach at *
  rcases le_total 0 definition.scale with positive | negative
  · have left := roundAway_mono (div_le_div_of_nonneg_right
      (sub_le_sub_right above definition.offset) positive)
    have right := roundAway_mono (div_le_div_of_nonneg_right
      (sub_le_sub_right below definition.offset) positive)
    omega
  · have left := roundAway_mono (div_le_div_of_nonpos_of_le negative
      (sub_le_sub_right above definition.offset))
    have right := roundAway_mono (div_le_div_of_nonpos_of_le negative
      (sub_le_sub_right below definition.offset))
    omega

/-- The values of a realistic vehicle are encoded, and decode to close ones. -/
theorem exists_delivered
    (catalog : AcceptedCatalog ℚ)
    {signal : Signal ℚ}
    (member : signal ∈ catalog.signals)
    (carries : Carries signal.definition)
    {vehicle : Vehicle ℚ}
    (realistic : vehicle.Realistic)
    {value : SignalValue ℚ}
    (has : vehicle.value signal.name = some value) :
    ∃ payload decoded, encodeValue signal value = .ok payload ∧
      decodeValue signal payload = .ok decoded ∧ Close signal value decoded := by
  have validated := catalog.new_definition member
  rcases realistic.value_cases has with
    ⟨low, high, number, ranged, rfl, above, below⟩ | ⟨named, rfl⟩ | ⟨named, rfl⟩
  · obtain ⟨noEnum, range, integer, lowReach, highReach⟩ :=
      carries.number low high ranged
    have integral : signal.Integral range := ⟨integer, noEnum⟩
    have scaled : signal.definition.scale ≠ 0 :=
      of_decide_eq_false
        ((Signal.new_isOk_iff _).mp ⟨signal, validated⟩).scaleNotZero
    have nearest := integral.encodesNearest scaled
    obtain ⟨payload, encoded⟩ := (nearest.encodable number).mpr
      (lowReach.between highReach above below)
    obtain ⟨-, decoded, decodes, close, -⟩ :=
      nearest.nearest number payload encoded
    exact ⟨payload, .num decoded, encoded, decodes, close⟩
  · obtain ⟨map, mapped, distinct, labelled⟩ := carries.gear named
    obtain ⟨range, ranged, holds⟩ :=
      Signal.holdsEntries_of_new validated mapped
    have kinded : signal.kind = .enum := by
      have notBool : signal.definition.ty ≠ .bool := by
        intro bool
        rw [Signal.ty, bool] at ranged
        cases ranged
      rw [Signal.kind, if_neg notBool, mapped]
      rfl
    have survives := survivesWire_of_kind_enum (F := ℚ) kinded mapped ranged
      holds distinct
    have labelled : signal.HasValue (.enum vehicle.gear.label : SignalValue ℚ) := by
      simp only [Signal.HasValue, kinded]
      exact ⟨map, mapped, labelled vehicle.gear⟩
    obtain ⟨payload, encoded⟩ := (survives.encodable _).mpr labelled
    exact ⟨payload, _, encoded, survives.decodes_encoded _ _ encoded, rfl⟩
  · have kinded : signal.kind = .bool := if_pos (carries.door named)
    have typed : signal.ty.intRange = none := by
      rw [ty_of_kind_bool kinded]
      rfl
    have unmapped : signal.definition.enumMap = none := by
      cases mapped : signal.definition.enumMap with
      | none => rfl
      | some map =>
          obtain ⟨range, ranged, -⟩ :=
            Signal.holdsEntries_of_new validated mapped
          rw [typed] at ranged
          cases ranged
    have built := Signal.enumTables_of_new validated
    rw [unmapped, Signal.enumTables, Except.ok.injEq,
      Signal.EnumTables.mk.injEq] at built
    have survives := survivesWire_of_kind_bool (F := ℚ) kinded
      ⟨built.1.symm, built.2.symm⟩
    obtain ⟨payload, encoded⟩ :=
      exists_encodeValue_bool (F := ℚ) kinded vehicle.doorOpen
    exact ⟨payload, _, encoded, survives.decodes_encoded _ _ encoded, rfl⟩

/-- A frame that decodes to a sample of a signal with a value close to a given
one. -/
def DeliversFrame
    (catalog : Catalog ℚ)
    (nowUs : UInt64)
    (entry : Signal ℚ × SignalValue ℚ)
    (frame : RawFrame) : Prop :=
  encodeFrame entry.1 nowUs entry.2 = .ok frame ∧
    ∃ decoded, frameOutcome catalog frame =
        .sample ⟨entry.1.id, entry.1.name, nowUs, decoded⟩ ∧
      Close entry.1 entry.2 decoded

/-- A packet that decodes without errors to one sample for each simulated signal
of a state of the vehicle. -/
def Delivers
    (catalog : Catalog ℚ)
    (turn : UInt64 × Vehicle ℚ)
    (sent : Option GarbageKind × List UInt8) : Prop :=
  sent.1 = none ∧ ∃ samples,
    decodePacket sent.2 catalog = .ok ⟨samples, [], 0⟩ ∧
      List.Forall₂
        (fun entry sample => ∃ decoded,
          sample = ⟨entry.1.id, entry.1.name, turn.1, decoded⟩ ∧
            Close entry.1 entry.2 decoded)
        (turn.2.simulated catalog) samples

section Catalogs

variable
  {catalog : AcceptedCatalog ℚ}
  (carries : ∀ signal ∈ catalog.signals, Carries signal.definition)

include carries

/-- Every simulated signal has a frame. -/
theorem exists_frame
    {vehicle : Vehicle ℚ}
    (realistic : vehicle.Realistic)
    (nowUs : UInt64)
    {entry : Signal ℚ × SignalValue ℚ}
    (member : entry ∈ vehicle.simulated catalog.toCatalog) :
    ∃ frame, DeliversFrame catalog.toCatalog nowUs entry frame := by
  obtain ⟨inCatalog, has⟩ := (vehicle.mem_simulated_iff ..).mp member
  obtain ⟨payload, decoded, encoded, decodes, close⟩ := exists_delivered catalog
    inCatalog (carries _ inCatalog) realistic has
  have known := (catalog.byId_eq_some_iff ..).mpr
    (⟨inCatalog, rfl⟩ : entry.1 ∈ catalog.signals ∧ entry.1.id = entry.1.id)
  refine ⟨⟨entry.1.id, nowUs, payload⟩, ?_, decoded, ?_, close⟩
  · rw [encodeFrame, encoded]
  · rw [frameOutcome, known]
    simp only [decodes]

omit carries in
/-- Frames that decode leave no errors and no unknown signals. -/
theorem samples_of_delivers
    {nowUs : UInt64}
    {entries : List (Signal ℚ × SignalValue ℚ)}
    {frames : List RawFrame}
    (delivers : List.Forall₂ (DeliversFrame catalog.toCatalog nowUs) entries
      frames)
    (start : Nat) :
    List.Forall₂
        (fun entry sample => ∃ decoded,
          sample = ⟨entry.1.id, entry.1.name, nowUs, decoded⟩ ∧
            Close entry.1 entry.2 decoded)
        entries (frames.filterMap (frameSample catalog.toCatalog)) ∧
      frameErrors catalog.toCatalog start frames = [] ∧
        frames.countP (isUnknown catalog.toCatalog) = 0 := by
  induction delivers generalizing start with
  | nil => exact ⟨.nil, rfl, rfl⟩
  | @cons entry frame entries frames own _ inductionHypothesis =>
      obtain ⟨-, decoded, outcome, close⟩ := own
      obtain ⟨samples, noErrors, noUnknown⟩ := inductionHypothesis (start + 1)
      have sampled : frameSample catalog.toCatalog frame =
          some ⟨entry.1.id, entry.1.name, nowUs, decoded⟩ := by
        rw [frameSample, outcome]
      have noError : frameError catalog.toCatalog (frame, start) = none := by
        rw [frameError, outcome]
      have known : ¬ isUnknown catalog.toCatalog frame = true := by
        rw [isUnknown, outcome]
        exact Bool.false_ne_true
      refine ⟨?_, ?_, ?_⟩
      · rw [List.filterMap_cons_some sampled]
        exact .cons ⟨decoded, rfl, close⟩ samples
      · rw [frameErrors] at noErrors ⊢
        rw [List.zipIdx_cons, List.filterMap_cons_none noError, noErrors]
      · rw [List.countP_cons_of_neg known, noUnknown]

/-- Every realistic state is encoded into one packet, which delivers it. -/
theorem exists_packetBytes
    (simulates : ∃ signal ∈ catalog.signals, signal.name ∈ knownSignals)
    {vehicle : Vehicle ℚ}
    (realistic : vehicle.Realistic)
    (nowUs : UInt64) :
    ∃ frames, vehicle.frames catalog.toCatalog nowUs = .ok frames ∧
      (encodePacket frames : Except (EncodeError ℚ) _) =
        .ok (packetBytes frames) ∧
        Delivers catalog.toCatalog (nowUs, vehicle)
          (none, packetBytes frames) := by
  obtain ⟨frames, delivers⟩ := Registration.exists_outputs
    (fun entry => exists_frame carries realistic nowUs)
  have encoded := (vehicle.frames_eq_ok_iff ..).mpr
    (delivers.imp fun entry frame own => own.1)
  obtain ⟨sized, few⟩ := Vehicle.sized_of_frames encoded
  obtain ⟨signal, member, known⟩ := simulates
  obtain ⟨value, has⟩ := Option.isSome_iff_exists.mp
    ((vehicle.value_isSome_iff signal.name).mpr known)
  have nonempty := List.length_pos_of_mem
    ((vehicle.mem_simulated_iff ..).mpr ⟨member, has⟩)
  rw [delivers.length_eq] at nonempty
  have short := packetLen_le sized
  have within : WithinLimits frames := by
    refine ⟨nonempty, ?_, ?_, ?_⟩
    · rw [maxFrames]
      omega
    · intro frame inFrames
      obtain ⟨signal, -, length⟩ := sized frame inFrames
      rw [length]
      cases signal.ty <;> decide
    · rw [packetHeaderLen] at short
      rw [maxDatagramLen]
      omega
  obtain ⟨samples, noErrors, noUnknown⟩ := samples_of_delivers delivers 0
  refine ⟨frames, encoded, (encodePacket_eq_ok_iff ..).mpr ⟨within, rfl⟩, rfl,
    _, ?_, samples⟩
  rw [decodePacket_packetBytes within, noErrors, noUnknown]

/-! ## Whole runs -/

/-- Every turn of a run without malformed packets delivers the state of the
vehicle in that turn. -/
theorem delivered_of_run
    [elementary : Elementary ℚ]
    (bounded : elementary.SineBounded)
    (simulates : ∃ signal ∈ catalog.signals, signal.name ∈ knownSignals)
    {scenario : Scenario}
    (valid : scenario ≠ .garbage)
    {dtS : ℚ}
    (forward : 0 ≤ dtS)
    {simulation : Simulation ℚ}
    (realistic : simulation.vehicle.Realistic)
    (times : List UInt64) :
    ∃ sent last,
      simulation.run scenario catalog.toCatalog dtS times = some (sent, last) ∧
        List.Forall₂
          (fun turn entry => turn.2.Realistic ∧
            Delivers catalog.toCatalog turn entry)
          (simulation.visited dtS times) sent := by
  induction times generalizing simulation with
  | nil => exact ⟨[], simulation, rfl, .nil⟩
  | cons nowUs later inductionHypothesis =>
      have moved := realistic.step bounded forward simulation.rng
      obtain ⟨frames, encoded, packed, delivers⟩ :=
        exists_packetBytes carries simulates moved nowUs
      let next : Simulation ℚ :=
        ⟨(simulation.vehicle.step dtS simulation.rng).1,
          (simulation.vehicle.step dtS simulation.rng).2⟩
      have turned : simulation.turn scenario catalog.toCatalog dtS nowUs =
          some (.ok (none, packetBytes frames), next) := by
        simp only [Simulation.turn, encoded,
          Simulation.packetOf_of_ne_garbage valid, packed]
        rfl
      obtain ⟨rest, last, ran, others⟩ :=
        @inductionHypothesis next moved
      simp only [Simulation.run, turned, Option.bind_eq_bind, Option.bind_some,
        ran]
      exact ⟨_, last, rfl, .cons ⟨moved, delivers⟩ others⟩

end Catalogs

/-- From the start on, every turn without malformed packets sends a packet that
delivers the state of the vehicle, which is realistic. -/
theorem simulator_delivers
    (catalog : AcceptedCatalog ℚ)
    (carries : ∀ signal ∈ catalog.signals, Carries signal.definition)
    (simulates : ∃ signal ∈ catalog.signals, signal.name ∈ knownSignals)
    [elementary : Elementary ℚ]
    (bounded : elementary.SineBounded)
    {scenario : Scenario}
    (valid : scenario ≠ .garbage)
    (seed : UInt64)
    {dtS : ℚ}
    (forward : 0 ≤ dtS)
    (times : List UInt64) :
    ∃ sent last,
      (Simulation.new scenario seed).run scenario catalog.toCatalog dtS times =
          some (sent, last) ∧
        List.Forall₂
          (fun turn entry => turn.2.Realistic ∧
            Delivers catalog.toCatalog turn entry)
          ((Simulation.new scenario seed).visited dtS times) sent :=
  delivered_of_run carries bounded simulates valid forward
    (Vehicle.realistic_new scenario.behaviour) times

/-- In every scenario no run panics.  In every turn the vehicle does what the
scenario says and is realistic, and what is sent comes from its frames in that
turn. -/
theorem simulator_realistic
    (catalog : Catalog ℚ)
    [elementary : Elementary ℚ]
    (bounded : elementary.SineBounded)
    (scenario : Scenario)
    (seed : UInt64)
    {dtS : ℚ}
    (forward : 0 ≤ dtS)
    (times : List UInt64) :
    ∃ sent last,
      (Simulation.new scenario seed).run scenario catalog dtS times =
          some (sent, last) ∧
        (∀ turn ∈ (Simulation.new scenario seed).turns scenario catalog dtS
            times,
          turn.2.behaviour = scenario.behaviour ∧ turn.2.Realistic) ∧
        List.Forall₂ (Simulation.SentIn catalog)
          (((Simulation.new scenario seed).turns scenario catalog dtS
            times).take sent.length) sent := by
  have preserved (vehicle : Vehicle ℚ) (rng : Rng)
      (kept : vehicle.behaviour = scenario.behaviour ∧ vehicle.Realistic) :
      (vehicle.step dtS rng).1.behaviour = scenario.behaviour ∧
        (vehicle.step dtS rng).1.Realistic :=
    ⟨(vehicle.behaviour_step dtS rng).trans kept.1,
      kept.2.step bounded forward rng⟩
  exact Simulation.exists_run scenario catalog preserved
    ⟨rfl, Vehicle.realistic_new scenario.behaviour⟩ times

/-- The gears of the first vehicle model. -/
def r1sGears : BTreeMap where
  entries := [("0", "P"), ("1", "R"), ("2", "N"), ("3", "D")]
  sorted := by decide

/-- The catalog of the first vehicle model. -/
def r1s : CatalogSpec ℚ where
  model := "R1S"
  catalogVersion := 3
  signals :=
    [⟨257, "vehicle_speed", .u16, some .big, 1 / 100, 0, some "km/h", none⟩,
      ⟨258, "battery_soc", .u8, some .little, 1 / 2, 0, some "%", none⟩,
      ⟨259, "motor_temp", .i16, some .little, 1 / 10, -40, some "C", none⟩,
      ⟨300, "gear", .u8, some .little, 1, 0, none, some r1sGears⟩,
      ⟨301, "door_open", .bool, none, 1, 0, none, none⟩]

/-- The catalog is accepted. -/
theorem r1s_accepted :
    ∃ catalog : AcceptedCatalog ℚ, Catalog.new r1s = .ok catalog.toCatalog := by
  have accepted : (Catalog.new r1s).toBool = true := by decide +kernel
  cases built : Catalog.new r1s with
  | error error =>
      rw [built] at accepted
      cases accepted
  | ok catalog => exact ⟨⟨catalog, r1s, built⟩, rfl⟩

/-- A numeric signal whose range covers both ends carries its values. -/
theorem carries_of_number
    {definition : SignalDef ℚ}
    {low high : ℚ}
    (ranged : numberRange definition.name = some (low, high))
    (noEnum : definition.enumMap = none)
    {range : Int × Int}
    (integer : definition.ty.intRange = some range)
    (lowReach : InReach definition range low)
    (highReach : InReach definition range high) :
    Carries definition := by
  refine ⟨?_, ?_, ?_⟩
  · intro otherLow otherHigh other
    obtain ⟨rfl, rfl⟩ := Prod.ext_iff.mp
      (Option.some.inj (ranged.symm.trans other))
    exact ⟨noEnum, range, integer, lowReach, highReach⟩
  · intro named
    rw [named] at ranged
    exact absurd ranged.symm (Option.some_ne_none _)
  · intro named
    rw [named] at ranged
    exact absurd ranged.symm (Option.some_ne_none _)

/-- The signals of the catalog can carry every value of the vehicle. -/
theorem r1s_carries : ∀ definition ∈ r1s.signals, Carries definition := by
  intro definition member
  simp only [r1s, List.mem_cons, List.not_mem_nil, or_false] at member
  rcases member with rfl | rfl | rfl | rfl | rfl
  · exact carries_of_number rfl rfl rfl (by decide +kernel) (by decide +kernel)
  · exact carries_of_number rfl rfl rfl (by decide +kernel) (by decide +kernel)
  · exact carries_of_number rfl rfl rfl (by decide +kernel) (by decide +kernel)
  · refine ⟨fun low high impossible => ?_, fun _ => ⟨_, rfl, by decide, ?_⟩,
      fun other => absurd other (by decide)⟩
    · exact absurd impossible.symm (Option.some_ne_none _)
    · intro gear
      cases gear with
      | p => exact ⟨("0", "P"), by decide, rfl⟩
      | d => exact ⟨("3", "D"), by decide, rfl⟩
  · refine ⟨fun low high impossible => ?_, fun other => absurd other (by decide),
      fun _ => rfl⟩
    exact absurd impossible.symm (Option.some_ne_none _)

/-- The remainder, and the sine up to the third order, cut off at one. -/
@[reducible] def smallAngles : Elementary ℚ where
  rem number modulus := number - modulus * ⌊number / modulus⌋
  sin angle := max (-1) (min 1 (angle - angle ^ 3 / 6))

theorem smallAngles_bounded : smallAngles.SineBounded :=
  fun _ => ⟨le_max_left _ _, max_le (by norm_num) (min_le_left _ _)⟩

/-- In the park scenario the vehicle stays in gear P, and every packet comes from
its frames. -/
theorem r1s_realistic :
    ∃ catalog : AcceptedCatalog ℚ, Catalog.new r1s = .ok catalog.toCatalog ∧
      ∃ sent last,
        @Simulation.run ℚ _ smallAngles .park catalog.toCatalog (1 / 50)
            (.new .park 42) [0, 20000] = some (sent, last) ∧
          (∀ turn ∈ @Simulation.turns ℚ _ smallAngles .park catalog.toCatalog
              (1 / 50) (.new .park 42) [0, 20000],
            turn.2.Realistic ∧ turn.2.gear = .p) ∧
          List.Forall₂ (Simulation.SentIn catalog.toCatalog)
            ((@Simulation.turns ℚ _ smallAngles .park catalog.toCatalog
              (1 / 50) (.new .park 42) [0, 20000]).take sent.length) sent := by
  obtain ⟨catalog, accepted⟩ := r1s_accepted
  obtain ⟨sent, last, ran, turns, sends⟩ := @simulator_realistic
    catalog.toCatalog smallAngles smallAngles_bounded .park 42 (1 / 50)
    (by norm_num) [0, 20000]
  refine ⟨catalog, accepted, sent, last, ran, ?_, sends⟩
  intro turn member
  obtain ⟨parks, realistic⟩ := turns turn member
  exact ⟨realistic, realistic.parked parks⟩

/-- Three turns of a drive at fifty packets a second are delivered. -/
theorem r1s_delivers :
    ∃ catalog : AcceptedCatalog ℚ, Catalog.new r1s = .ok catalog.toCatalog ∧
      ∃ sent last,
        @Simulation.run ℚ _ smallAngles .drive catalog.toCatalog (1 / 50)
            (.new .drive 42) [0, 20000, 40000] = some (sent, last) ∧
          List.Forall₂
            (fun turn entry => turn.2.Realistic ∧
              Delivers catalog.toCatalog turn entry)
            (@Simulation.visited ℚ _ smallAngles (1 / 50) (.new .drive 42)
              [0, 20000, 40000]) sent := by
  obtain ⟨catalog, accepted⟩ := r1s_accepted
  have definitions := catalog.definitions_eq accepted
  have carries : ∀ signal ∈ catalog.signals, Carries signal.definition := by
    intro signal member
    apply r1s_carries
    rw [← definitions]
    exact List.mem_map_of_mem member
  have simulates : ∃ signal ∈ catalog.signals,
      signal.name ∈ knownSignals := by
    have first : (⟨301, "door_open", .bool, none, 1, 0, none, none⟩ :
        SignalDef ℚ) ∈ catalog.definitions := by
      rw [definitions]
      simp [r1s]
    obtain ⟨signal, member, same⟩ := List.mem_map.mp first
    refine ⟨signal, member, ?_⟩
    rw [Signal.name, same]
    decide
  exact ⟨catalog, accepted, @simulator_delivers catalog carries simulates
    smallAngles smallAngles_bounded .drive (by decide) 42 (1 / 50) (by norm_num)
    _⟩

end Simulator
end TelemetryEdge
