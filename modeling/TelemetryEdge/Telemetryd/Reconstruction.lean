import TelemetryEdge.Foundation.Binary64Difference
import TelemetryEdge.Rules.Reconstruction
import TelemetryEdge.Telemetryd.Provenance

/-!
# Reconstructing a signal from the log

At every moment of every run the last record of an on-change rule without
condition tells the last value of its signal that the engine has been given: to
within the deadband as the engine computes it, and below the next number above
the deadband in exact arithmetic.
-/

namespace TelemetryEdge
namespace Telemetryd

open Protocol Rules

/-- The deadband of a compiled rule is a finite number that is not negative. -/
theorem deadband_of_compileBehaviour
    [F64 F]
    {rule : Rule F}
    {signal : Signal F}
    {deadband : F}
    (compiled : compileBehaviour rule signal = .ok (.onChange deadband)) :
    F64.isFinite deadband = true ∧ F64.lt deadband F64.zero = false := by
  obtain ⟨fields, defined⟩ := (compileBehaviour_eq_ok_iff ..).mp compiled
  unfold ValidFields at fields
  unfold definedBehaviour at defined
  cases mode : rule.mode with
  | periodic =>
      rw [mode] at defined
      cases defined
  | onChange =>
      rw [mode] at fields defined
      simp only [Behaviour.onChange.injEq] at defined
      rw [defined]
      cases given : rule.deadband with
      | none => exact ⟨F64.isFinite_zero, F64.lt_zero_zero⟩
      | some own =>
          obtain ⟨finite, positive, -⟩ := fields.2.2 own given
          exact ⟨finite, positive⟩

variable {cel : Cel Binary64}

section Reached

variable
  {setup : Setup cel}
  {events : List (Event Binary64)}
  {system : System cel}

/-- Numbers that the engine of a started daemon is given are finite. -/
theorem isFinite_of_sampled
    (started : setup.Started)
    (run : Run (Step setup) setup.initial events system)
    {sample : Sample Binary64}
    (given : sample ∈ sampled events)
    {number : Binary64}
    (numeric : sample.value = .num number) :
    number.isFinite = true := by
  obtain ⟨datagram, -, ofDatagram⟩ :=
    List.mem_flatMap.mp (mem_flatMap_of_sampled run given)
  obtain ⟨packet, accepted, inPacket⟩ := exists_packet_of_mem_samplesOf ofDatagram
  obtain ⟨signal, -, declared⟩ :=
    started.acceptedCatalog.declares_of_decodePacket accepted inPacket
  rw [numeric] at declared
  exact declared.2

/-- At every moment the last record of an on-change rule without condition,
written or on its way, is within the deadband of the last sample of its signal
that the engine has been given. -/
theorem reconstruction_of_run
    {environment : Environment Binary64}
    {path : String}
    (success : start cel environment path = .ok setup)
    (run : Run (Step setup) setup.initial events system)
    {rule : CompiledRule cel}
    (active : rule ∈ setup.rules.rules)
    {deadband : Binary64}
    (behaviour : rule.behaviour = .onChange deadband)
    (unconditional : rule.condition = none)
    {sample : Sample Binary64}
    (last : ((sampled events).filter
      (·.name = rule.definition.signal)).getLast? = some sample) :
    ∃ record,
      ((system.reported events).filter (·.ruleId == rule.id)).getLast? =
          some record ∧
        Within deadband record.value sample.value ∧
        ∀ logged value, record.value = .num logged → sample.value = .num value →
          (value.scaled - logged.scaled).natAbs <
            FloatFormat.double.multiple (deadband.magnitude + 1) := by
  have started := started_of_start success
  have wellFormed := started.loadedRules.wellFormed
  have new : (Engine.new setup.vin setup.model : Engine cel).Valid :=
    Engine.valid_new setup.vin setup.model
  obtain ⟨-, -, signal, -, -, compiled, -⟩ :=
    (compileRule_eq_ok_iff ..).mp (started.compileRule_eq active)
  rw [behaviour] at compiled
  obtain ⟨deadbandFinite, positive⟩ := deadband_of_compileBehaviour compiled
  have fresh : setup.engine.view rule.id = some (rule, ⟨none, none⟩) := by
    refine (new.view_applyRuleset setup.startedMs wellFormed rule.id).trans ?_
    have found : setup.rules.withId rule.id = some rule :=
      wellFormed.withId_of_mem active
    have started : Engine.freshState setup.startedMs rule = ⟨none, none⟩ := by
      rw [Engine.freshState, behaviour]
    change (setup.rules.withId rule.id).map _ = _
    rw [found, Option.map_some, ← started]
    rfl
  obtain ⟨ruleState, -, tells⟩ := Engine.tells_final
    (new.applyRuleset setup.startedMs wellFormed) behaviour unconditional
    (Binary64.lt_abs_sub_self positive) fresh (noSwap_inputs events)
  have flow := (flows_of_run run).records
  unfold Channel.Conserves at flow
  rw [filterMap_sample_inputs] at tells
  obtain ⟨value, stored, within⟩ := tells.within sample last
  have newest : (recordsOf rule.id (setup.reports events)).getLast?.map
      (·.value) = some value := tells.logged.symm.trans stored
  obtain ⟨record, isLast, rfl⟩ := Option.map_eq_some_iff.mp newest
  rw [recordsOf, flow] at isLast
  refine ⟨record, isLast, within, ?_⟩
  intro logged number recordNumeric sampleNumeric
  have given : sample ∈ sampled events :=
    List.mem_of_mem_filter (List.mem_of_getLast? last)
  have reported : record ∈ system.reported events :=
    List.mem_of_mem_filter (List.mem_of_getLast? isLast)
  obtain ⟨_, -, source, sourceGiven, -, rfl⟩ :=
    sourced_of_run run record reported
  rw [recordNumeric, sampleNumeric] at within
  exact Binary64.natAbs_sub_lt_of_not_lt
    (isFinite_of_sampled started run given sampleNumeric)
    (isFinite_of_sampled started run sourceGiven recordNumeric)
    deadbandFinite within

end Reached

/-- A rule that logs changes of the speed by more than one. -/
def deadbandRule : Rule Binary64 :=
  { speedRule with deadband := some ⟨0x3FF0000000000000⟩ }

/-- A vehicle with the catalog of the speed and this rule. -/
def speedEnvironment : Environment Binary64 :=
  { doorEnvironment with
    catalogFromJson := fun _ => .ok ⟨"R1S", 1, [speedSignal "km/h"]⟩
    rulesFromJson := fun _ => .ok ⟨1, "*", [deadbandRule]⟩ }

/-- The daemon with this rule. -/
def speedSetup : Setup identifierCel :=
  { doorSetup with
    catalog := speedCatalog "km/h"
    rules :=
      ⟨1, "*", [⟨deadbandRule, none, some "km/h",
        .onChange ⟨0x3FF0000000000000⟩⟩]⟩ }

theorem speedEnvironment_start :
    start identifierCel speedEnvironment "dev/config.toml" =
      .ok speedSetup := by rfl

/-- A packet with the speeds 50 and 51. -/
def speedPacket : List UInt8 :=
  [0x54, 0x45, 1, 2,
    1, 1, 0, 0, 0, 0, 0, 0, 0, 7, 8, 0x40, 0x49, 0, 0, 0, 0, 0, 0,
    1, 1, 0, 0, 0, 0, 0, 0, 0, 9, 8, 0x40, 0x49, 0x80, 0, 0, 0, 0, 0]

/-- A speed of 50. -/
def loggedSpeed : Sample Binary64 :=
  ⟨257, "vehicle_speed", 7, .num ⟨0x4049000000000000⟩⟩

/-- A speed of 51, which is within the deadband. -/
def suppressedSpeed : Sample Binary64 :=
  ⟨257, "vehicle_speed", 9, .num ⟨0x4049800000000000⟩⟩

/-- The engine is given both speeds. -/
def speedEvents : List (Event Binary64) :=
  [.datagram speedPacket, .tick 1, .silent, .silent, .onSample 5 loggedSpeed,
    .silent, .tick 6, .onSample 7 suppressedSpeed]

theorem speedEvents_run :
    ∃ system, Run (Step speedSetup) speedSetup.initial speedEvents system ∧
      (system.reported speedEvents).length = 1 := by
  have samples : samplesOf speedSetup.catalog speedPacket =
      [loggedSpeed, suppressedSpeed] := by decide +kernel
  have phase : (speedSetup.initial.ingest.receive speedSetup.catalog
      speedPacket).phase = .running [loggedSpeed, suppressedSpeed] :=
    (IngestTask.phase_receive speedSetup.catalog speedPacket rfl).trans
      (congrArg _ samples)
  have spawned : Run (Step speedSetup) speedSetup.initial []
      speedSetup.initial := .start
  have decoded := spawned.extend (.ingest (.receive speedPacket rfl))
  have ticked := decoded.extend (.engine (.tick 1 rfl))
  have sent := ticked.extend (.ingest (.send phase rfl))
  have bothSent := sent.extend (.ingest (.send rfl rfl))
  have given := bothSent.extend (.engine (.onSample 5 rfl rfl))
  have emitted := given.extend (.engine (.send rfl rfl))
  have again := emitted.extend (.engine (.tick 6 rfl))
  have suppressed := again.extend (.engine (.onSample 7 rfl rfl))
  exact ⟨_, suppressed, by decide +kernel⟩

/-- The only record of two speeds tells the second one to within the
deadband. -/
theorem speedEvents_tell :
    ∃ system, Run (Step speedSetup) speedSetup.initial speedEvents system ∧
      (system.reported speedEvents).length = 1 ∧
      ∃ record,
        ((system.reported speedEvents).filter (·.ruleId == "speed")).getLast? =
            some record ∧
          Within ⟨0x3FF0000000000000⟩ record.value suppressedSpeed.value := by
  obtain ⟨system, run, one⟩ := speedEvents_run
  have active : (⟨deadbandRule, none, some "km/h",
      .onChange ⟨0x3FF0000000000000⟩⟩ : CompiledRule identifierCel) ∈
        speedSetup.rules.rules := List.mem_cons_self
  have last : ((sampled speedEvents).filter
      (·.name = deadbandRule.signal)).getLast? = some suppressedSpeed := rfl
  obtain ⟨record, isLast, within, -⟩ := reconstruction_of_run
    speedEnvironment_start run active rfl rfl last
  exact ⟨system, run, one, record, isLast, within⟩

end Telemetryd
end TelemetryEdge
