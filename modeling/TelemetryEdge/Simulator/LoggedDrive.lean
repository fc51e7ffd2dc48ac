import TelemetryEdge.Simulator.Delivery
import TelemetryEdge.Telemetryd.Provenance

/-!
# From the vehicle to the log of the daemon

A daemon listens to a simulated drive, and its datagrams may be lost, doubled or
delayed.  In exact arithmetic, whatever the order of the steps of its tasks, the
daemon counts no errors, and every record shows the vehicle as it was at the
time that the record bears.
-/

namespace TelemetryEdge
namespace Simulator

open Protocol Rules Telemetryd

section Logged

variable
  {catalog : Catalog ℚ}
  {turns : List (UInt64 × Vehicle ℚ)}
  {sent : List (Option GarbageKind × List UInt8)}
  (delivers : List.Forall₂
    (fun turn entry => turn.2.Realistic ∧ Delivers catalog turn entry) turns
    sent)

include delivers

/-- A packet that is sent delivers the state of the vehicle in some turn. -/
theorem exists_turn_of_sent
    {datagram : List UInt8}
    (member : datagram ∈ sent.map Prod.snd) :
    ∃ turn ∈ turns, turn.2.Realistic ∧ ∃ kind,
      Delivers catalog turn (kind, datagram) := by
  obtain ⟨⟨kind, bytes⟩, inSent, rfl⟩ := List.mem_map.mp member
  obtain ⟨turn, visited, realistic, own⟩ :=
    Registration.exists_of_mem_right delivers inSent
  exact ⟨turn, visited, realistic, kind, own⟩

/-- Packets that deliver states of the vehicle leave no errors. -/
theorem clean_of_sent
    {datagrams : List (List UInt8)}
    (arrived : ∀ datagram ∈ datagrams, datagram ∈ sent.map Prod.snd) :
    datagrams.flatMap (reasonsOf catalog) = [] ∧
      (datagrams.map (unknownIn catalog)).sum = 0 := by
  have clean : ∀ datagram ∈ datagrams,
      reasonsOf catalog datagram = [] ∧ unknownIn catalog datagram = 0 := by
    intro datagram member
    obtain ⟨turn, -, -, kind, -, samples, decoded, -⟩ :=
      exists_turn_of_sent delivers (arrived datagram member)
    constructor
    · rw [reasonsOf, decoded]
      rfl
    · rw [unknownIn, decoded]
  constructor
  · exact List.flatMap_eq_nil_iff.mpr fun datagram member =>
      (clean datagram member).1
  · apply List.sum_eq_zero
    intro count member
    obtain ⟨datagram, inDatagrams, rfl⟩ := List.mem_map.mp member
    exact (clean datagram inDatagrams).2

/-- A sample of a packet that is sent is close to the state of the vehicle in
some turn. -/
theorem exists_turn_of_sample
    {datagram : List UInt8}
    (member : datagram ∈ sent.map Prod.snd)
    {sample : Sample ℚ}
    (inDatagram : sample ∈ samplesOf catalog datagram) :
    ∃ turn ∈ turns, turn.2.Realistic ∧ sample.timestampUs = turn.1 ∧
      ∃ signal value, signal ∈ catalog.signals ∧
        turn.2.value signal.name = some value ∧ sample.name = signal.name ∧
          Close signal value sample.value := by
  obtain ⟨turn, visited, realistic, kind, -, samples, decoded, close⟩ :=
    exists_turn_of_sent delivers member
  have found : sample ∈ samples := by
    rwa [samplesOf, decoded] at inDatagram
  obtain ⟨⟨signal, value⟩, simulated, decodedValue, rfl, own⟩ :=
    Registration.exists_of_mem_right close found
  obtain ⟨inCatalog, has⟩ := (Vehicle.mem_simulated_iff ..).mp simulated
  exact ⟨turn, visited, realistic, rfl, signal, value, inCatalog, has, rfl, own⟩

end Logged

/-- What a daemon has logged and counted of a simulated drive. -/
structure Logged
    {cel : Cel ℚ}
    (setup : Setup cel)
    (turns : List (UInt64 × Vehicle ℚ))
    (events : List (Event ℚ))
    (system : System cel) : Prop where
  noErrors : system.ingest.stats.decodeErrors = ∅
  noUnknown : system.ingest.stats.unknownSignals = 0
  /-- Every record shows the vehicle at the time that the record bears. -/
  records : ∀ record ∈ system.reported events,
    ∃ turn ∈ turns, turn.2.Realistic ∧ record.tsUs = turn.1 ∧
      ∃ signal value, signal ∈ setup.catalog.signals ∧
        turn.2.value signal.name = some value ∧ record.signal = signal.name ∧
          Close signal value record.value

/-- Whatever datagrams of a simulated drive arrive, and in whatever order the
tasks of the daemon take their steps, the log shows the vehicle. -/
theorem drive_logged
    {cel : Cel ℚ}
    {setup : Setup cel}
    (accepted : ∃ spec, Catalog.new spec = .ok setup.catalog)
    (carries : ∀ signal ∈ setup.catalog.signals, Carries signal.definition)
    (simulates : ∃ signal ∈ setup.catalog.signals, signal.name ∈ knownSignals)
    [elementary : Elementary ℚ]
    (bounded : elementary.SineBounded)
    {scenario : Scenario}
    (valid : scenario ≠ .garbage)
    {seed : UInt64}
    {dtS : ℚ}
    (forward : 0 ≤ dtS)
    {times : List UInt64}
    {sent : List (Option GarbageKind × List UInt8)}
    {last : Simulation ℚ}
    (simulated : (Simulation.new scenario seed).run scenario setup.catalog dtS
      times = some (sent, last))
    {events : List (Event ℚ)}
    {system : System cel}
    (run : Run (Step setup) setup.initial events system)
    (arrived : ∀ datagram ∈ received events, datagram ∈ sent.map Prod.snd) :
    Logged setup ((Simulation.new scenario seed).visited dtS times) events
      system := by
  obtain ⟨found, final, ran, delivers⟩ := @delivered_of_run
    ⟨setup.catalog, accepted⟩ carries elementary bounded simulates scenario valid
    dtS forward (.new scenario seed) (Vehicle.realistic_new scenario.behaviour)
    times
  obtain ⟨rfl, rfl⟩ := Prod.ext_iff.mp
    (Option.some.inj (simulated.symm.trans ran))
  obtain ⟨noReasons, noUnknown⟩ := clean_of_sent delivers arrived
  have stats := (counts_of_run run).ingest
  refine ⟨?_, ?_, ?_⟩
  · rw [stats, IngestStats.of, noReasons]
    rfl
  · rw [stats]
    exact noUnknown
  · intro record reported
    obtain ⟨rule, -, sample, given, same, rfl⟩ :=
      sourced_of_run run record reported
    obtain ⟨datagram, inEvents, member⟩ :=
      List.mem_flatMap.mp (mem_flatMap_of_sampled run given)
    obtain ⟨turn, visited, realistic, stamped, signal, value, inCatalog, has,
      named, close⟩ := exists_turn_of_sample delivers
        (arrived datagram inEvents) member
    exact ⟨turn, visited, realistic, stamped, signal, value, inCatalog, has,
      same.trans named, close⟩

/-- No conditions. -/
def noCel : Cel ℚ where
  Program := Empty
  Other := Empty
  compile _ := .error "unsupported"
  expression := Empty.elim
  execute := Empty.elim
  debug _ := "value"

/-- The signal of the door. -/
def doorFlag : SignalDef ℚ where
  id := 1
  name := "door_open"
  ty := .bool
  endian := none
  scale := 1
  offset := 0
  unit := none
  enumMap := none

/-- The catalog of the door. -/
def doorFlagCatalog : AcceptedCatalog ℚ where
  model := "R1S"
  catalogVersion := 1
  signals := [⟨doorFlag, ∅, ∅⟩]
  byIdIndex := (∅ : KeyedMap UInt16 Nat).insert 1 0
  byNameIndex := (∅ : KeyedMap String Nat).insert "door_open" 0
  accepted := ⟨⟨"R1S", 1, [doorFlag]⟩, by rfl⟩

/-- The rule of the door. -/
def doorFlagRule : CompiledRule noCel where
  definition := ⟨"door", "door_open", .onChange, none, none, none, none⟩
  condition := none
  unit := none
  behaviour := .onChange 0

/-- A daemon with this catalog and this rule. -/
def doorFlagSetup : Setup noCel where
  catalog := doorFlagCatalog.toCatalog
  vin := "VIN"
  model := "R1S"
  rules := ⟨1, "*", [doorFlagRule]⟩
  startedMs := 0
  toVec _ := .ok []
  output := newLog

/-- The second of two packets. -/
def secondPacket : List UInt8 :=
  [84, 69, 1, 1, 0, 1, 0, 0, 0, 0, 0, 0, 0, 9, 1, 0]

/-- The first packet is lost, the second one is logged. -/
def secondEvents : List (Event ℚ) :=
  [.datagram secondPacket, .silent, .tick 1,
    .onSample 5 ⟨1, "door_open", 9, .bool false⟩]

/-- What is sent in two turns. -/
theorem secondPacket_sent :
    ∃ last, @Simulation.run ℚ _ smallAngles .park doorFlagSetup.catalog (1 / 50)
      (.new .park 42) [7, 9] =
        some ([(none, [84, 69, 1, 1, 0, 1, 0, 0, 0, 0, 0, 0, 0, 7, 1, 0]),
          (none, secondPacket)], last) := by
  have packets : (@Simulation.run ℚ _ smallAngles .park doorFlagSetup.catalog
      (1 / 50) (.new .park 42) [7, 9]).map Prod.fst =
        some [(none, [84, 69, 1, 1, 0, 1, 0, 0, 0, 0, 0, 0, 0, 7, 1, 0]),
          (none, secondPacket)] := by decide +kernel
  obtain ⟨⟨sent, last⟩, ran, rfl⟩ := Option.map_eq_some_iff.mp packets
  exact ⟨last, ran⟩

/-- The record of the door shows the parked vehicle. -/
theorem secondEvents_logged :
    ∃ system, Run (Step doorFlagSetup) doorFlagSetup.initial secondEvents system ∧
      system.reported secondEvents ≠ [] ∧
      Logged doorFlagSetup
        (@Simulation.visited ℚ _ smallAngles (1 / 50) (.new .park 42) [7, 9])
        secondEvents system := by
  have spawned : Run (Step doorFlagSetup) doorFlagSetup.initial []
      doorFlagSetup.initial := .start
  have decoded := spawned.extend (.ingest (.receive secondPacket rfl))
  have sent := decoded.extend (.ingest (.send rfl rfl))
  have ticked := sent.extend (.engine (.tick 1 rfl))
  have sampled := ticked.extend (.engine (.onSample 5 rfl rfl))
  obtain ⟨last, simulated⟩ := secondPacket_sent
  have carries : ∀ signal ∈ doorFlagSetup.catalog.signals,
      Carries signal.definition := by
    intro signal member
    obtain rfl := List.mem_singleton.mp member
    refine ⟨fun low high impossible => ?_, fun other => absurd other (by decide),
      fun _ => rfl⟩
    exact absurd impossible.symm (Option.some_ne_none _)
  have simulates : ∃ signal ∈ doorFlagSetup.catalog.signals,
      signal.name ∈ knownSignals := ⟨_, List.mem_cons_self, by decide⟩
  have arrived : ∀ datagram ∈ received secondEvents, datagram ∈
      ([(none, [84, 69, 1, 1, 0, 1, 0, 0, 0, 0, 0, 0, 0, 7, 1, 0]),
        (none, secondPacket)] : List (Option GarbageKind × List UInt8)).map
          Prod.snd := by decide
  refine ⟨_, sampled, ?_, @drive_logged noCel doorFlagSetup
    doorFlagCatalog.accepted carries simulates smallAngles smallAngles_bounded
    .park (by decide) 42 (1 / 50) (by norm_num) _ _ last simulated _ _ sampled
    arrived⟩
  exact List.cons_ne_nil _ _

end Simulator
end TelemetryEdge
