import TelemetryEdge.Rules.Invariant
import TelemetryEdge.Rules.Portability
import TelemetryEdge.Rules.Swap

/-!
# The engine on every vehicle model

Leaving out the vehicle of an engine, the units of its rules and the same fields
of its records commutes with every operation.  Engines that agree up to these
fields therefore report the same, up to these fields, in every run.
-/

namespace TelemetryEdge
namespace Rules

open Protocol

/-- A record without the fields of the vehicle and without its unit. -/
def LogRecord.unbranded (record : LogRecord F) : LogRecord F :=
  { record with vin := "", model := "", unit := none }

/-- A report of records without vehicle and unit. -/
def EvalReport.unbranded (report : EvalReport F) : EvalReport F :=
  { report with records := report.records.map LogRecord.unbranded }

@[simp] theorem EvalReport.unbranded_zero :
    (0 : EvalReport F).unbranded = 0 := rfl

@[simp] theorem EvalReport.unbranded_add (left right : EvalReport F) :
    (left + right).unbranded = left.unbranded + right.unbranded := by
  ext1
  · exact List.map_append
  · rfl
  · rfl

namespace Engine

variable {cel : Cel F}

/-- An engine without its vehicle and without the units of its rules. -/
def unbranded (engine : Engine cel) : Engine cel :=
  { engine with vin := "", model := "", rules := engine.rules.unitless }

/-- A loop state with its report unbranded. -/
def unbrandedLoop
    (state : KeyedMap String (RuleState F) × EvalReport F) :
    KeyedMap String (RuleState F) × EvalReport F :=
  (state.1, state.2.unbranded)

/-- The condition of a rule passes with and without its unit. -/
theorem conditionPasses_unitless
    (rule : CompiledRule cel)
    (latest : KeyedMap String (Latest F))
    (report : EvalReport F) :
    conditionPasses rule.unitless latest report.unbranded =
      ((conditionPasses rule latest report).1,
        (conditionPasses rule latest report).2.unbranded) := by
  have sameCondition : rule.unitless.condition = rule.condition := rfl
  unfold conditionPasses
  rw [sameCondition]
  cases rule.condition with
  | none => rfl
  | some condition =>
      simp only
      cases condition.evaluate fun name => (latest.lookup name).map (·.value) with
      | ok pass => rfl
      | error error =>
          rw [EvalReport.unbranded_add]
          rfl

/-- `onSample` in terms of the engine that has stored the sample. -/
theorem onSample_eq [F64 F]
    (engine : Engine cel)
    (now : UInt64)
    (sample : Sample F) :
    engine.onSample now sample =
      match engine.onChangeBySignal.lookup sample.name with
      | none => (engine.receive now sample, 0)
      | some indices =>
          let result := (indices.filterMap (engine.rules.rules[·]?)).foldl
            ((engine.receive now sample).sampleRule sample) (engine.state, 0)
          ({ engine.receive now sample with state := result.1 }, result.2) :=
  rfl

section Fields

variable (engine : Engine cel) (rule : CompiledRule cel)

@[simp] theorem unitless_behaviour :
    rule.unitless.behaviour = rule.behaviour := rfl

@[simp] theorem unitless_id : rule.unitless.id = rule.id := rfl

@[simp] theorem unitless_definition :
    rule.unitless.definition = rule.definition := rfl

@[simp] theorem unbranded_latest : engine.unbranded.latest = engine.latest := rfl

@[simp] theorem record_unbranded (tsUs : UInt64) (value : SignalValue F) :
    engine.unbranded.record rule.unitless tsUs value =
      (engine.record rule tsUs value).unbranded := rfl

end Fields

/-- A record joins a report with and without vehicle and unit. -/
theorem unbranded_ofRecord (record : LogRecord F) :
    EvalReport.ofRecord record.unbranded =
      (EvalReport.ofRecord record).unbranded := rfl

/-- A tick fires a rule with and without vehicle and unit. -/
theorem tickRule_unbranded
    (engine : Engine cel)
    (now : UInt64)
    (state : KeyedMap String (RuleState F) × EvalReport F)
    (rule : CompiledRule cel) :
    engine.unbranded.tickRule now (unbrandedLoop state) rule.unitless =
      unbrandedLoop (engine.tickRule now state rule) := by
  obtain ⟨states, report⟩ := state
  unfold tickRule
  simp only [unitless_behaviour, unitless_id, unitless_definition,
    unbranded_latest, record_unbranded, unbrandedLoop]
  cases rule.behaviour with
  | onChange deadband => rfl
  | periodic intervalMs maxAgeMs =>
      cases states.lookup rule.id with
      | none => rfl
      | some ruleState =>
          simp only
          cases ruleState.nextDueMs.filter (· ≤ now) with
          | none => rfl
          | some due =>
              cases engine.latest.lookup rule.definition.signal with
              | none => rfl
              | some latest =>
                  simp only [conditionPasses_unitless]
                  split
                  · rw [EvalReport.unbranded_add]
                    rfl
                  · split
                    · rw [EvalReport.unbranded_add, unbranded_ofRecord]
                    · rfl

variable [F64 F]

/-- A sample is evaluated by a rule with and without vehicle and unit. -/
theorem sampleRule_unbranded
    (engine : Engine cel)
    (sample : Sample F)
    (state : KeyedMap String (RuleState F) × EvalReport F)
    (rule : CompiledRule cel) :
    engine.unbranded.sampleRule sample (unbrandedLoop state) rule.unitless =
      unbrandedLoop (engine.sampleRule sample state rule) := by
  obtain ⟨states, report⟩ := state
  unfold sampleRule
  simp only [unitless_behaviour, unitless_id, unbranded_latest,
    record_unbranded, unbrandedLoop]
  cases rule.behaviour with
  | periodic intervalMs maxAgeMs => rfl
  | onChange deadband =>
      cases states.lookup rule.id with
      | none => rfl
      | some ruleState =>
          simp only [conditionPasses_unitless]
          split
          · split
            · rw [EvalReport.unbranded_add, unbranded_ofRecord]
            · rfl
          · rfl

section Operations

omit [F64 F]

/-- A loop commutes with leaving out vehicle and units when its body does. -/
theorem foldl_unbranded
    {body unbrandedBody : KeyedMap String (RuleState F) × EvalReport F →
      CompiledRule cel → KeyedMap String (RuleState F) × EvalReport F}
    (commutes : ∀ state rule,
      unbrandedBody (unbrandedLoop state) rule.unitless =
        unbrandedLoop (body state rule))
    (rules : List (CompiledRule cel))
    (states : KeyedMap String (RuleState F)) :
    (rules.map CompiledRule.unitless).foldl unbrandedBody (states, 0) =
      unbrandedLoop (rules.foldl body (states, 0)) := by
  have start : (states, 0) = unbrandedLoop (states, (0 : EvalReport F)) := rfl
  rw [List.foldl_map, start]
  apply List.foldl_hom unbrandedLoop
  exact commutes

/-- A tick commutes with leaving out vehicle and units. -/
theorem tick_unbranded
    (engine : Engine cel)
    (now : UInt64) :
    engine.unbranded.tick now =
      ((engine.tick now).1.unbranded, (engine.tick now).2.unbranded) := by
  have loop := foldl_unbranded (tickRule_unbranded engine now)
    engine.rules.rules engine.state
  have sameRules : engine.unbranded.rules.rules =
      engine.rules.rules.map CompiledRule.unitless := rfl
  have sameState : engine.unbranded.state = engine.state := rfl
  rw [tick, tick, sameRules, sameState, loop]
  rfl

/-- The rules of a set by their ids, as a swap collects them. -/
def oldDefs (rules : List (CompiledRule cel)) :
    KeyedMap String (CompiledRule cel) :=
  rules.foldl (fun defs rule => defs.insert rule.id rule) ∅

/-- Rules are found by their ids with and without units. -/
theorem lookup_oldDefs_unitless
    (rules : List (CompiledRule cel))
    (id : String) :
    (oldDefs (rules.map CompiledRule.unitless)).lookup id =
      ((oldDefs rules).lookup id).map CompiledRule.unitless := by
  unfold oldDefs
  induction rules using List.reverseRecOn with
  | nil => rw [List.map_nil, List.foldl_nil, Finmap.lookup_empty, Option.map_none]
  | append_singleton rules rule inductionHypothesis =>
      simp only [List.map_append, List.map_singleton, List.foldl_append,
        List.foldl_cons, List.foldl_nil, KeyedMap.lookup_insert_eq_ite,
        unitless_id]
      split
      · rfl
      · exact inductionHypothesis

/-- The index of on-change rules does not depend on units. -/
theorem indexRules_unitless (rules : List (CompiledRule cel)) :
    indexRules (rules.map CompiledRule.unitless) = indexRules rules := by
  unfold indexRules
  rw [List.zipIdx_map, List.foldl_map]
  rfl

end Operations

/-- A sample commutes with leaving out vehicle and units. -/
theorem onSample_unbranded
    (engine : Engine cel)
    (now : UInt64)
    (sample : Sample F) :
    engine.unbranded.onSample now sample =
      ((engine.onSample now sample).1.unbranded,
        (engine.onSample now sample).2.unbranded) := by
  have sameIndex : engine.unbranded.onChangeBySignal =
      engine.onChangeBySignal := rfl
  have sameReceived : engine.unbranded.receive now sample =
      (engine.receive now sample).unbranded := rfl
  rw [onSample_eq, onSample_eq, sameIndex, sameReceived]
  cases engine.onChangeBySignal.lookup sample.name with
  | none => rfl
  | some indices =>
      have scanned : indices.filterMap (engine.unbranded.rules.rules[·]?) =
          (indices.filterMap (engine.rules.rules[·]?)).map
            CompiledRule.unitless := by
        change indices.filterMap
          ((engine.rules.rules.map CompiledRule.unitless)[·]?) = _
        simp only [List.getElem?_map, List.map_filterMap]
      have loop := foldl_unbranded
        (sampleRule_unbranded (engine.receive now sample) sample)
        (indices.filterMap (engine.rules.rules[·]?)) engine.state
      have sameState : engine.unbranded.state = engine.state := rfl
      simp only [scanned, sameState, loop]
      rfl

/-- Leaving out units keeps which rules a swap finds unchanged. -/
theorem unchanged_unitless
    (rules : List (CompiledRule cel))
    (rule : CompiledRule cel) :
    unchanged (oldDefs (rules.map CompiledRule.unitless)) rule.unitless =
      unchanged (oldDefs rules) rule := by
  unfold unchanged
  rw [unitless_id, lookup_oldDefs_unitless]
  cases (oldDefs rules).lookup rule.id with
  | none => rfl
  | some definition => rfl

/-- A swap commutes with leaving out vehicle and units. -/
theorem applyRuleset_unbranded
    (engine : Engine cel)
    (now : UInt64)
    (new : CompiledRuleSet cel) :
    engine.unbranded.applyRuleset now new.unitless =
      (engine.applyRuleset now new).unbranded := by
  have sameStates : (new.rules.map CompiledRule.unitless).foldl
        (installRule
          (oldDefs (engine.rules.rules.map CompiledRule.unitless)) now)
        (engine.state, ∅) =
      new.rules.foldl (installRule (oldDefs engine.rules.rules) now)
        (engine.state, ∅) := by
    rw [List.foldl_map]
    apply List.foldl_ext
    intro states rule _
    unfold installRule
    rw [unchanged_unitless]
    rfl
  have sameState : (engine.unbranded.applyRuleset now new.unitless).state =
      (engine.applyRuleset now new).state := congrArg Prod.snd sameStates
  have sameIndex :
      (engine.unbranded.applyRuleset now new.unitless).onChangeBySignal =
        (engine.applyRuleset now new).onChangeBySignal :=
    indexRules_unitless new.rules
  calc
    engine.unbranded.applyRuleset now new.unitless =
        { (engine.applyRuleset now new).unbranded with
          state :=
            (engine.unbranded.applyRuleset now new.unitless).state
          onChangeBySignal := (engine.unbranded.applyRuleset now
            new.unitless).onChangeBySignal } := rfl
    _ = (engine.applyRuleset now new).unbranded := by
        rw [sameState, sameIndex]
        rfl

/-! ## Two vehicles -/

/-- Inputs of two engines on vehicles with two catalogs: at the same time, the
same sample up to its id, a tick, or one document for any model compiled for
either vehicle. -/
def Input.Counterpart (first second : Catalog F) : Input cel → Input cel → Prop
  | .onSample now sample, .onSample otherNow other =>
      now = otherNow ∧ sample.name = other.name ∧
        sample.timestampUs = other.timestampUs ∧ sample.value = other.value
  | .tick now, .tick otherNow => now = otherNow
  | .applyRuleset now set, .applyRuleset otherNow other =>
      now = otherNow ∧ ∃ thread rules vehicleModel otherModel activeVersion,
        rules.model = anyModel ∧
          compileRuleset cel thread rules first vehicleModel activeVersion =
            .ok set.compiled ∧
          compileRuleset cel thread rules second otherModel activeVersion =
            .ok other.compiled
  | _, _ => False

/-- The id of a sample is never read. -/
theorem onSample_eq_of_sameReading
    (engine : Engine cel)
    (now : UInt64)
    {sample other : Sample F}
    (sameName : sample.name = other.name)
    (sameTimestamp : sample.timestampUs = other.timestampUs)
    (sameValue : sample.value = other.value) :
    engine.onSample now sample = engine.onSample now other := by
  obtain ⟨id, name, timestampUs, value⟩ := sample
  obtain ⟨otherId, otherName, otherTimestamp, otherValue⟩ := other
  obtain rfl : name = otherName := sameName
  obtain rfl : timestampUs = otherTimestamp := sameTimestamp
  obtain rfl : value = otherValue := sameValue
  rfl

/-- Engines that differ in vehicle and units only go on to differ in nothing
else. -/
theorem step_unbranded
    {first second : Catalog F}
    (same : SameKinds first second)
    {engine other : Engine cel}
    (alike : engine.unbranded = other.unbranded)
    {input otherInput : Input cel}
    (counterpart : input.Counterpart first second otherInput) :
    ((machine cel).step engine input).1.unbranded =
        ((machine cel).step other otherInput).1.unbranded ∧
      ((machine cel).step engine input).2.unbranded =
        ((machine cel).step other otherInput).2.unbranded := by
  cases input with
  | onSample now sample =>
      cases otherInput with
      | onSample otherNow otherSample =>
          obtain ⟨rfl, sameName, sameTimestamp, sameValue⟩ := counterpart
          have stepped := onSample_unbranded engine now sample
          rw [alike, onSample_eq_of_sameReading _ now sameName sameTimestamp
            sameValue, onSample_unbranded] at stepped
          obtain ⟨states, reports⟩ := Prod.ext_iff.mp stepped
          exact ⟨states.symm, reports.symm⟩
      | tick otherNow => exact counterpart.elim
      | applyRuleset otherNow otherSet => exact counterpart.elim
  | tick now =>
      cases otherInput with
      | tick otherNow =>
          obtain rfl := counterpart
          have stepped := tick_unbranded engine now
          rw [alike, tick_unbranded] at stepped
          obtain ⟨states, reports⟩ := Prod.ext_iff.mp stepped
          exact ⟨states.symm, reports.symm⟩
      | onSample otherNow otherSample => exact counterpart.elim
      | applyRuleset otherNow otherSet => exact counterpart.elim
  | applyRuleset now set =>
      cases otherInput with
      | applyRuleset otherNow otherSet =>
          obtain ⟨rfl, thread, rules, vehicleModel, otherModel, activeVersion,
            anywhere, compiled, alsoCompiled⟩ := counterpart
          have results := compileRuleset_congr cel same anywhere thread
            vehicleModel otherModel activeVersion
          rw [compiled, alsoCompiled] at results
          have sameSet := Except.ok.inj results
          refine ⟨?_, rfl⟩
          change (engine.applyRuleset now set.compiled).unbranded =
            (other.applyRuleset now otherSet.compiled).unbranded
          rw [← applyRuleset_unbranded, ← applyRuleset_unbranded, alike, sameSet]
      | onSample otherNow otherSample => exact counterpart.elim
      | tick otherNow => exact counterpart.elim

/-- Runs of counterparts on two vehicles report the same, up to vehicle and
units. -/
theorem outputs_unbranded
    {first second : Catalog F}
    (same : SameKinds first second)
    {engine other : Engine cel}
    (alike : engine.unbranded = other.unbranded)
    {inputs otherInputs : List (Input cel)}
    (counterparts : List.Forall₂ (Input.Counterpart first second)
      inputs otherInputs) :
    ((machine cel).outputs engine inputs).map EvalReport.unbranded =
      ((machine cel).outputs other otherInputs).map EvalReport.unbranded := by
  induction counterparts generalizing engine other with
  | nil => rfl
  | cons counterpart _ inductionHypothesis =>
      obtain ⟨next, report⟩ := step_unbranded same alike counterpart
      rw [Machine.outputs_cons, Machine.outputs_cons, List.map_cons,
        List.map_cons, report, inductionHypothesis next]

omit [F64 F] in
/-- Results that agree up to what a function forgets succeed alike and have the
same errors. -/
theorem alike_of_map_eq
    {result other : Except ε α}
    {forget : α → β}
    (same : result.map forget = other.map forget) :
    ((∃ value, result = .ok value) ↔ ∃ value, other = .ok value) ∧
      ∀ error, result = .error error ↔ other = .error error := by
  cases result with
  | error found =>
      cases other with
      | error otherFound =>
          obtain rfl := Except.error.inj same
          simp
      | ok value => cases same
  | ok value =>
      cases other with
      | error otherFound => cases same
      | ok otherValue => simp

/-- A document for any model compiles for two vehicles or for none, and engines
driven alike report the same on both, up to vehicle and units. -/
structure ModelIndependent
    (cel : Cel F)
    (first second : Catalog F) : Prop where
  /-- Either vehicle accepts what the other accepts. -/
  accepts : ∀ thread rules vehicleModel otherModel activeVersion,
    rules.model = anyModel →
      ((∃ set : CompiledRuleSet cel, compileRuleset cel thread rules first
          vehicleModel activeVersion = .ok set) ↔
        ∃ set : CompiledRuleSet cel, compileRuleset cel thread rules second
          otherModel activeVersion = .ok set)
  /-- A rejected document has the same errors. -/
  errors : ∀ thread rules vehicleModel otherModel activeVersion,
    rules.model = anyModel →
      ∀ errors, compileRuleset cel thread rules first vehicleModel
            activeVersion = .error errors ↔
        compileRuleset cel thread rules second otherModel activeVersion =
          .error errors
  /-- Every run on one vehicle reports what its counterpart on the other does. -/
  reports : ∀ vin model otherVin otherModel,
    ∀ inputs otherInputs : List (Input cel),
      List.Forall₂ (Input.Counterpart first second) inputs otherInputs →
        ((machine cel).outputs (Engine.new vin model) inputs).map
            EvalReport.unbranded =
          ((machine cel).outputs (Engine.new otherVin otherModel)
            otherInputs).map EvalReport.unbranded

/-- The same rule set behaves the same on two vehicles whose catalogs declare
the same names with the same kinds. -/
theorem model_independence
    (cel : Cel F)
    {first second : AcceptedCatalog F}
    (same : SameNames first second) :
    ModelIndependent cel first.toCatalog second.toCatalog := by
  refine ⟨?_, ?_, ?_⟩
  · intro thread rules vehicleModel otherModel activeVersion anywhere
    exact (alike_of_map_eq (compileRuleset_congr cel same.sameKinds anywhere thread
      vehicleModel otherModel activeVersion)).1
  · intro thread rules vehicleModel otherModel activeVersion anywhere
    exact (alike_of_map_eq (compileRuleset_congr cel same.sameKinds
      anywhere thread vehicleModel otherModel activeVersion)).2
  · intro vin model otherVin otherModel inputs otherInputs
    have alike : (Engine.new vin model : Engine cel).unbranded =
        (Engine.new otherVin otherModel).unbranded := rfl
    exact outputs_unbranded same.sameKinds alike

end Engine

/-- The catalog of the speed signal, as accepted. -/
def acceptedSpeed : AcceptedCatalog Binary64 where
  toCatalog := speedCatalog "km/h"
  accepted := ⟨⟨"R1S", 1, [speedSignal "km/h"]⟩, by rfl⟩

/-- The speed signal under another id, as an integer with a scale, in another
byte order and another unit. -/
def truckSpeed : SignalDef Binary64 where
  id := 12
  name := "vehicle_speed"
  ty := .u16
  endian := some .little
  scale := ⟨0x3F847AE147AE147B⟩
  offset := ⟨0⟩
  unit := some "mph"
  enumMap := none

/-- The catalog of this signal. -/
def truckCatalog : AcceptedCatalog Binary64 where
  model := "EDV"
  catalogVersion := 3
  signals := [⟨truckSpeed, ∅, ∅⟩]
  byIdIndex := (∅ : KeyedMap UInt16 Nat).insert 12 0
  byNameIndex := (∅ : KeyedMap String Nat).insert "vehicle_speed" 0
  accepted := ⟨⟨"EDV", 3, [truckSpeed]⟩, by rfl⟩

/-- Rule sets for any model behave the same on both vehicles. -/
theorem truck_modelIndependent :
    Engine.ModelIndependent identifierCel acceptedSpeed.toCatalog
      truckCatalog.toCatalog := by
  apply Engine.model_independence
  intro name kind
  simp only [acceptedSpeed, speedCatalog, truckCatalog, List.mem_singleton,
    exists_eq_left]
  exact Iff.rfl

end Rules
end TelemetryEdge
