import TelemetryEdge.Telemetryd.Startup

/-!
# Where the lines of the log come from

Every record on the way to the writer, or passed to it, goes back to a frame of
a datagram that has been received before and to a rule of the rule set that the
daemon was started with.  Nothing that the daemon logs is made up, and nothing
is attributed to another signal, another time or another unit.
-/

namespace TelemetryEdge
namespace Telemetryd

open Protocol Rules

section Provenance

variable [F64 F] {cel : Cel F} {setup : Setup cel}
variable {events : List (Event F)} {system : System cel}

/-- A sample of a datagram is that of one of its whole frames. -/
theorem mem_samplesOf_iff
    (catalog : Catalog F)
    (datagram : List UInt8)
    (sample : Sample F) :
    sample ∈ samplesOf catalog datagram ↔
      headerError datagram = none ∧
        ∃ frame ∈ (packetFrames datagram).1, ∃ signal,
          catalog.byId frame.signalId = some signal ∧
            decodeValue signal frame.payload = .ok sample.value ∧
            sample = ⟨frame.signalId, signal.name, frame.timestampUs,
              sample.value⟩ := by
  unfold samplesOf
  rw [decodePacket_eq]
  cases headerError datagram with
  | some error => simp
  | none =>
      simp only [List.mem_filterMap, true_and]
      apply exists_congr
      intro frame
      apply and_congr_right
      intro _
      unfold frameSample frameOutcome
      cases found : catalog.byId frame.signalId with
      | none => simp
      | some signal =>
          cases valued : decodeValue signal frame.payload with
          | error kind => simp [valued]
          | ok value =>
              simp only [valued, Option.some.injEq, exists_eq_left']
              constructor
              · rintro rfl
                exact ⟨rfl, rfl⟩
              · rintro ⟨same, equal⟩
                rw [equal, Except.ok.inj same]

/-- A record of a rule of the daemon for a frame that decodes under its
catalog. -/
structure Setup.Logs
    (setup : Setup cel)
    (rule : CompiledRule cel)
    (frame : RawFrame)
    (signal : Signal F)
    (record : LogRecord F) : Prop where
  active : rule ∈ setup.rules.rules
  known : setup.catalog.byId frame.signalId = some signal
  decoded : decodeValue signal frame.payload = .ok record.value
  ofSignal : rule.definition.signal = signal.name
  record_eq : record =
    { tsUs := frame.timestampUs
      vin := setup.vin
      model := setup.model
      ruleId := rule.id
      rulesetVersion := setup.rules.version
      signal := signal.name
      value := record.value
      unit := rule.unit }

/-- The records that reports have brought so far. -/
def System.reported (events : List (Event F)) (system : System cel) :
    List (LogRecord F) :=
  passedOn events ++ system.records.items ++ system.engine.pending

/-- The samples of the calls of the engine are those it has been given. -/
theorem filterMap_sample_inputs (cel : Cel F) (events : List (Event F)) :
    (inputs cel events).filterMap Engine.Input.sample? = sampled events := by
  rw [inputs, sampled, List.filterMap_filterMap]
  apply List.filterMap_congr
  intro event _
  cases event <;> rfl

/-- Every record of a report logs a sample that the engine has been given. -/
theorem sourced_of_run
    (run : Run (Step setup) setup.initial events system) :
    ∀ record ∈ system.reported events,
      setup.engine.Sourced (sampled events) record := by
  have flow := (flows_of_run run).records
  unfold Channel.Conserves at flow
  have nothing : setup.engine.Stores [] := by
    intro name latest found
    cases found
  rw [System.reported, ← flow, Setup.reports,
    ← filterMap_sample_inputs cel events]
  exact Engine.sourced_of_outputs (noSwap_inputs events) rfl nothing

/-- Every record, whether it has been passed to the writer or is on its way,
logs a frame of a datagram received before, for a rule of the daemon. -/
theorem provenance_of_run
    (run : Run (Step setup) setup.initial events system) :
    ∀ record ∈ system.reported events,
      ∃ datagram ∈ received events, headerError datagram = none ∧
        ∃ frame ∈ (packetFrames datagram).1, ∃ rule signal,
          setup.Logs rule frame signal record := by
  intro record reported
  obtain ⟨rule, active, sample, given, same, rfl⟩ :=
    sourced_of_run run record reported
  obtain ⟨datagram, arrived, member⟩ :=
    List.mem_flatMap.mp (mem_flatMap_of_sampled run given)
  obtain ⟨accepted, frame, inDatagram, signal, known, decoded, sampleEq⟩ :=
    (mem_samplesOf_iff ..).mp member
  have name : rule.definition.signal = signal.name :=
    same.trans (congrArg Sample.name sampleEq)
  refine ⟨datagram, arrived, accepted, frame, inDatagram, rule, signal, active,
    known, decoded, name, ?_⟩
  have timestamp := congrArg Sample.timestampUs sampleEq
  simp only at timestamp
  rw [Engine.record, timestamp, name]
  rfl

/-- A started daemon logs values that the catalog declares, with the unit that
the catalog gives the signal of the frame. -/
theorem units_of_run
    {environment : Environment F}
    {path : String}
    (success : start cel environment path = .ok setup)
    (run : Run (Step setup) setup.initial events system) :
    ∀ record ∈ system.reported events,
      ∃ datagram ∈ received events, headerError datagram = none ∧
        ∃ frame ∈ (packetFrames datagram).1, ∃ rule signal,
          setup.Logs rule frame signal record ∧
            record.model = setup.catalog.model ∧
            record.unit = signal.unit ∧ signal.Declares record.value := by
  have started := started_of_start success
  intro record reported
  obtain ⟨datagram, arrived, accepted, frame, inDatagram, rule, signal, logs⟩ :=
    provenance_of_run run record reported
  refine ⟨datagram, arrived, accepted, frame, inDatagram, rule, signal, logs,
    ?_, ?_, ?_⟩
  · rw [logs.record_eq, started.sameModel]
  · obtain ⟨-, -, named, byName, unit, -, -⟩ :=
      (compileRule_eq_ok_iff ..).mp (started.compileRule_eq logs.active)
    obtain ⟨inCatalog, -⟩ :=
      (started.acceptedCatalog.byId_eq_some_iff ..).mp logs.known
    have found := (started.acceptedCatalog.byName_eq_some_iff ..).mpr
      ⟨inCatalog, rfl⟩
    rw [logs.ofSignal] at byName
    obtain rfl := Option.some.inj (byName.symm.trans found)
    rw [logs.record_eq, unit]
  · obtain ⟨inCatalog, -⟩ :=
      (started.acceptedCatalog.byId_eq_some_iff ..).mp logs.known
    exact declares_of_decodeValue
      (started.acceptedCatalog.new_definition inCatalog) logs.decoded

end Provenance

/-- The record of the door goes back to the second datagram. -/
theorem doorRecord_provenance :
    ∃ datagram ∈ received doorEvents, headerError datagram = none ∧
      ∃ frame ∈ (packetFrames datagram).1, ∃ rule signal,
        doorSetup.Logs rule frame signal doorRecord ∧
          doorRecord.model = doorSetup.catalog.model ∧
          doorRecord.unit = signal.unit ∧ signal.Declares doorRecord.value := by
  obtain ⟨system, run, -⟩ := doorEvents_run
  refine units_of_run doorEnvironment_start run doorRecord ?_
  have passed : doorRecord ∈ passedOn doorEvents := by
    simp [passedOn, doorEvents, Event.record?]
  exact List.mem_append_left _ (List.mem_append_left _ passed)

end Telemetryd
end TelemetryEdge
