import TelemetryEdge.Foundation.Binary64
import TelemetryEdge.Rules.NonInterference

/-!
# Rule set swaps

A swap is followed by samples and ticks.  Of a rule that the old set has with
an equal definition, the engine goes on to report what it would have reported
without the swap, under the version of the new set and the unit of the new rule.
Of every other rule of the new set it reports what a new engine would report
that was given the stored values and the new set.
-/

namespace TelemetryEdge
namespace Rules

open Protocol

section Alike

variable [F64 F] {cel : Cel F}

/-- Behaviours that cannot be told apart: deadbands may be zeros of different
sign. -/
def Behaviour.Alike : Behaviour F → Behaviour F → Prop
  | .onChange deadband, .onChange other =>
      ∀ difference, F64.lt deadband difference = F64.lt other difference
  | .periodic intervalMs maxAgeMs, .periodic otherInterval otherMaxAge =>
      intervalMs = otherInterval ∧ maxAgeMs = otherMaxAge
  | _, _ => False

/-- Rules that differ in nothing but their unit. -/
structure CompiledRule.Alike (rule other : CompiledRule cel) : Prop where
  id : rule.id = other.id
  signal : rule.definition.signal = other.definition.signal
  condition : rule.condition = other.condition
  behaviour : rule.behaviour.Alike other.behaviour

/-- Deadbands that compare equal bound the same differences. -/
theorem lt_getD_congr
    {deadband other : Option F}
    (equal : Rule.deadbandEq deadband other = true)
    (difference : F) :
    F64.lt (deadband.getD F64.zero) difference =
      F64.lt (other.getD F64.zero) difference := by
  cases deadband with
  | none =>
      cases other with
      | none => rfl
      | some bound => cases equal
  | some bound =>
      cases other with
      | none => cases equal
      | some otherBound => exact F64.lt_congr equal difference

/-- Rules with equal definitions are alike, whatever they were compiled
against. -/
theorem CompiledRule.Compiles.alike
    {rule old : CompiledRule cel}
    (compiles : rule.Compiles)
    (oldCompiles : old.Compiles)
    (same : old.definition.eq rule.definition = true) :
    rule.Alike old := by
  obtain ⟨sameId, sameSignal, sameMode, sameInterval, sameMaxAge,
    sameDeadband, sameCondition⟩ := (Rule.eq_iff ..).mp same
  refine ⟨sameId.symm, sameSignal.symm,
    compiles.condition_eq oldCompiles sameCondition.symm, ?_⟩
  rw [compiles.behaviour_eq, oldCompiles.behaviour_eq, definedBehaviour,
    definedBehaviour, sameMode, sameInterval, sameMaxAge]
  cases rule.definition.mode with
  | onChange => exact fun difference => (lt_getD_congr sameDeadband difference).symm
  | periodic => exact ⟨rfl, rfl⟩

/-- Rules with equal definitions have the same unit when their sets were compiled
against catalogs that give their signal the same unit. -/
theorem unit_eq_of_compileRuleset
    {thread oldThread : Except String Unit}
    {document oldDocument : RuleSet F}
    {catalog oldCatalog : Catalog F}
    {vehicleModel oldModel : String}
    {activeVersion oldVersion : Option UInt64}
    {set oldSet : CompiledRuleSet cel}
    (success : compileRuleset cel thread document catalog vehicleModel
      activeVersion = .ok set)
    (oldSuccess : compileRuleset cel oldThread oldDocument oldCatalog oldModel
      oldVersion = .ok oldSet)
    {rule old : CompiledRule cel}
    (member : rule ∈ set.rules)
    (oldMember : old ∈ oldSet.rules)
    (same : old.definition.eq rule.definition = true)
    (units : (oldCatalog.byName rule.definition.signal).map Signal.unit =
      (catalog.byName rule.definition.signal).map Signal.unit) :
    old.unit = rule.unit := by
  obtain ⟨-, -, -, -, -, results⟩ := (compileRuleset_eq_ok_iff ..).mp success
  obtain ⟨-, -, -, -, -, oldResults⟩ :=
    (compileRuleset_eq_ok_iff ..).mp oldSuccess
  obtain ⟨-, -, signal, named, unit, -⟩ := (compileRule_eq_ok_iff ..).mp
    (compileRule_definition results rule member)
  obtain ⟨-, -, oldSignal, oldNamed, oldUnit, -⟩ :=
    (compileRule_eq_ok_iff ..).mp
      (compileRule_definition oldResults old oldMember)
  have sameSignal := ((Rule.eq_iff ..).mp same).2.1
  rw [sameSignal] at oldNamed
  rw [named, oldNamed, Option.map_some, Option.map_some] at units
  rw [unit, oldUnit]
  exact Option.some.inj units

end Alike

namespace EvalReport

/-- The report with the records under another rule set version, and with one
unit replaced by another. -/
def relabel
    (report : EvalReport F)
    (version : UInt64)
    (oldUnit newUnit : Option String) : EvalReport F :=
  { report with
    records := report.records.map fun record =>
      { record with
        rulesetVersion := version
        unit := if record.unit = oldUnit then newUnit else record.unit } }

end EvalReport

namespace Engine

variable {cel : Cel F}

section Steps

/-- Engines that differ in their rules and their states only. -/
structure SameSurroundings (engine other : Engine cel) : Prop where
  vin : engine.vin = other.vin
  model : engine.model = other.model
  latest : engine.latest = other.latest

variable
  [F64 F]
  {engine other : Engine cel}
  {rule old : CompiledRule cel}

/-- Alike rules make the same emission attempt, up to version and unit. -/
theorem SameSurroundings.emit
    (same : SameSurroundings engine other)
    (alike : rule.Alike old)
    (ruleState : RuleState F)
    (tsUs : UInt64)
    (value : SignalValue F) :
    engine.emit rule ruleState tsUs value =
      ((other.emit old ruleState tsUs value).1,
        (other.emit old ruleState tsUs value).2.relabel
          engine.rules.version old.unit rule.unit) := by
  have sameVerdict : conditionVerdict rule engine.latest =
      conditionVerdict old other.latest := by
    rw [conditionVerdict, conditionVerdict, alike.condition, same.latest]
  unfold Engine.emit
  rw [sameVerdict]
  cases conditionVerdict old other.latest with
  | error error => rw [alike.id]; rfl
  | ok pass =>
      cases pass with
      | false => rfl
      | true =>
          simp only [EvalReport.relabel, EvalReport.ofRecord, Engine.record,
            List.map_cons, List.map_nil, same.vin, same.model, alike.id,
            alike.signal, if_true]

/-- Alike rules answer a sample alike, up to version and unit. -/
theorem SameSurroundings.sampleStep
    (same : SameSurroundings engine other)
    (alike : rule.Alike old)
    (sample : Sample F)
    (ruleState : RuleState F) :
    engine.sampleStep sample rule ruleState =
      ((other.sampleStep sample old ruleState).1,
        (other.sampleStep sample old ruleState).2.relabel
          engine.rules.version old.unit rule.unit) := by
  have behaves := alike.behaviour
  unfold Engine.sampleStep
  cases first : rule.behaviour with
  | periodic intervalMs maxAgeMs =>
      cases second : old.behaviour with
      | periodic otherInterval otherMaxAge => rfl
      | onChange deadband =>
          rw [first, second] at behaves
          cases behaves
  | onChange deadband =>
      cases second : old.behaviour with
      | periodic intervalMs maxAgeMs =>
          rw [first, second] at behaves
          cases behaves
      | onChange otherDeadband =>
          rw [first, second] at behaves
          have sameChanged : ∀ lastLogged value,
              changed deadband lastLogged value =
                changed otherDeadband lastLogged value := by
            intro lastLogged value
            unfold changed
            split
            · rfl
            · exact behaves _
            · rfl
          simp only [alike.signal, sameChanged]
          split
          · exact same.emit alike ruleState sample.timestampUs sample.value
          · rfl

/-- Alike rules answer a tick alike, up to version and unit. -/
theorem SameSurroundings.tickStep
    (same : SameSurroundings engine other)
    (alike : rule.Alike old)
    (now : UInt64)
    (ruleState : RuleState F) :
    engine.tickStep now rule ruleState =
      ((other.tickStep now old ruleState).1,
        (other.tickStep now old ruleState).2.relabel
          engine.rules.version old.unit rule.unit) := by
  have behaves := alike.behaviour
  unfold Engine.tickStep
  cases first : rule.behaviour with
  | onChange deadband =>
      cases second : old.behaviour with
      | onChange otherDeadband => rfl
      | periodic intervalMs maxAgeMs =>
          rw [first, second] at behaves
          cases behaves
  | periodic intervalMs maxAgeMs =>
      cases second : old.behaviour with
      | onChange deadband =>
          rw [first, second] at behaves
          cases behaves
      | periodic otherInterval otherMaxAge =>
          rw [first, second] at behaves
          obtain ⟨rfl, rfl⟩ := behaves
          cases ruleState.nextDueMs.filter (· ≤ now) with
          | none => rfl
          | some due =>
              rw [same.latest, alike.signal, alike.id]
              simp only
              cases other.latest.lookup old.definition.signal with
              | none => rfl
              | some latest =>
                  simp only
                  split
                  · rfl
                  · exact same.emit alike _ _ _

/-- Alike rules answer a sample or a tick alike, up to version and unit. -/
theorem SameSurroundings.ruleStep
    (same : SameSurroundings engine other)
    (alike : rule.Alike old)
    (input : Input cel)
    (ruleState : RuleState F) :
    input.ruleStep engine rule ruleState =
      ((input.ruleStep other old ruleState).1,
        (input.ruleStep other old ruleState).2.relabel
          engine.rules.version old.unit rule.unit) := by
  cases input with
  | onSample now sample =>
      have stored : SameSurroundings (engine.receive now sample)
          (other.receive now sample) :=
        ⟨same.vin, same.model, by simp only [receive, same.latest]⟩
      exact stored.sampleStep alike sample ruleState
  | tick now => exact same.tickStep alike now ruleState
  | applyRuleset now set => rfl

end Steps

/-! ## Continuations -/

section Continuations

variable [F64 F]

/-- An engine after a swap and the engine without the swap, seen through the id
of a rule with an equal definition in both sets. -/
structure Continued
    (id : String)
    (version : UInt64)
    (oldUnit newUnit : Option String)
    (engine other : Engine cel) : Prop where
  valid : engine.Valid
  otherValid : other.Valid
  surroundings : SameSurroundings engine other
  version : engine.rules.version = version
  /-- Both have a rule with the id, with the same state. -/
  views : ∃ rule old ruleState, rule.Alike old ∧
    (old.unit = oldUnit ∧ rule.unit = newUnit) ∧
    engine.view id = some (rule, ruleState) ∧
    other.view id = some (old, ruleState)

/-- A sample or a tick is answered alike, up to version and unit. -/
theorem Continued.step
    {id : String}
    {version : UInt64}
    {oldUnit newUnit : Option String}
    {engine other : Engine cel}
    (continued : Continued id version oldUnit newUnit engine other)
    {input : Input cel}
    (event : input.isEvent = true) :
    Continued id version oldUnit newUnit ((machine cel).step engine input).1
        ((machine cel).step other input).1 ∧
      ((machine cel).step engine input).2.only id =
        (((machine cel).step other input).2.only id).relabel version
          oldUnit newUnit := by
  obtain ⟨rule, old, ruleState, alike, units, viewed, otherViewed⟩ :=
    continued.views
  have answer :=
    continued.surroundings.ruleStep alike input ruleState
  rw [continued.version, units.1, units.2] at answer
  have same := continued.surroundings
  refine ⟨⟨continued.valid.step input, continued.otherValid.step input, ?_, ?_,
    rule, old, (input.ruleStep other old ruleState).1, alike, units, ?_, ?_⟩,
    ?_⟩
  · rw [continued.valid.step_eq event, continued.otherValid.step_eq event]
    cases input with
    | onSample now sample =>
        exact ⟨same.vin, same.model, by
          simp only [Input.prepare, receive, visitRules, same.latest]⟩
    | tick now => exact ⟨same.vin, same.model, same.latest⟩
    | applyRuleset now set => cases event
  · rw [continued.valid.step_eq event]
    cases input <;> exact continued.version
  · rw [continued.valid.view_step event, viewed, Option.map_some, answer]
  · rw [continued.otherValid.view_step event, otherViewed, Option.map_some]
  · rw [continued.valid.only_step event, continued.otherValid.only_step event,
      viewed, otherViewed, Option.elim_some, Option.elim_some, answer]

/-- The reports of a rule id along a run. -/
def reportsOf
    (id : String)
    (engine : Engine cel)
    (inputs : List (Input cel)) : List (EvalReport F) :=
  ((machine cel).outputs engine inputs).map (·.only id)

/-- A new engine that holds the same stored signal values. -/
def restarted (engine : Engine cel) : Engine cel :=
  { Engine.new engine.vin engine.model with latest := engine.latest }

section Swap

variable
  {before : Engine cel}
  (valid : before.Valid)
  (now : UInt64)
  (set : LoadedRuleSet cel)
  {continuation : List (Input cel)}
  (events : ∀ input ∈ continuation, input.isEvent = true)

include valid events

/-- A swap is invisible to a rule with an equal definition. -/
theorem Valid.reportsOf_applyRuleset_of_eq
    {rule old : CompiledRule cel}
    (member : rule ∈ set.compiled.rules)
    (found : before.rules.withId rule.id = some old)
    (same : old.definition.eq rule.definition = true) :
    reportsOf rule.id (before.applyRuleset now set.compiled) continuation =
      (reportsOf rule.id before continuation).map
        (·.relabel set.compiled.version old.unit rule.unit) := by
  have wellFormed := set.wellFormed
  obtain ⟨oldMember, -⟩ :=
    (valid.wellFormed.withId_eq_some_iff rule.id old).mp found
  have alike := (wellFormed.compiles rule member).alike
    (valid.wellFormed.compiles old oldMember) same
  obtain ⟨ruleState, -, oldView⟩ := valid.exists_state found
  have newView : (before.applyRuleset now set.compiled).view rule.id =
      some (rule, ruleState) := by
    rw [valid.view_applyRuleset now wellFormed, oldView,
      wellFormed.withId_of_mem member, Option.map_some]
    simp only [installed, same, if_true]
  rw [reportsOf, reportsOf, List.map_map]
  exact Machine.map_outputs_eq_of_lockstep
    (Continued rule.id set.compiled.version old.unit rule.unit)
    (fun input => input.isEvent = true)
    (fun _ _ _ continued event => continued.step event) events
    ⟨valid.applyRuleset now wellFormed, valid, ⟨rfl, rfl, rfl⟩, rfl,
      rule, old, ruleState, alike, ⟨rfl, rfl⟩, newView, oldView⟩

/-- A swap is a clean start for a rule that the old set does not have with an
equal definition. -/
theorem Valid.reportsOf_applyRuleset_of_not_keeps
    {rule : CompiledRule cel}
    (member : rule ∈ set.compiled.rules)
    (modified : before.rules.keeps rule = false) :
    reportsOf rule.id (before.applyRuleset now set.compiled) continuation =
      reportsOf rule.id
        (before.restarted.applyRuleset now set.compiled) continuation := by
  have wellFormed := set.wellFormed
  have restartedValid : before.restarted.Valid :=
    ⟨CompiledRuleSet.wellFormed_empty,
      (valid_new before.vin before.model).stateKeys,
      (valid_new before.vin before.model).timers, rfl⟩
  have found := wellFormed.withId_of_mem member
  have fresh : installed now (before.view rule.id) rule =
      freshState now rule := by
    unfold installed view
    rcases (before.rules.withId rule.id).eq_none_or_eq_some with
      absent | ⟨old, active⟩
    · rw [absent]
      rfl
    · have different : old.definition.eq rule.definition = false := by
        simpa only [CompiledRuleSet.keeps, active] using modified
      rw [active, Option.bind_some]
      cases before.state.lookup rule.id with
      | none => rfl
      | some ruleState => simp only [Option.map_some, different,
          Bool.false_eq_true, if_false]
  refine Machine.map_outputs_eq_of_lockstep (Related rule.id rule.names)
    (fun input => input.isEvent = true) ?_ events
    ⟨valid.applyRuleset now wellFormed,
      restartedValid.applyRuleset now wellFormed,
      ⟨rfl, rfl, rfl, fun _ _ => rfl⟩, ?_, ?_⟩
  · exact fun _ _ _ related event => related.event event
  · rw [valid.view_applyRuleset now wellFormed,
      restartedValid.view_applyRuleset now wellFormed, found, Option.map_some,
      Option.map_some, fresh]
    rfl
  · intro own viewed
    rw [valid.view_applyRuleset now wellFormed, found, Option.map_some,
      Option.mem_some_iff] at viewed
    subst viewed
    exact fun _ named => named

/-- After a swap, nothing is reported under an id that the new set lacks. -/
theorem Valid.reportsOf_applyRuleset_of_notMem
    {id : String}
    (absent : id ∉ set.compiled.rules.map CompiledRule.id) :
    ∀ report ∈
      reportsOf id (before.applyRuleset now set.compiled) continuation,
      report = 0 := by
  have wellFormed := set.wellFormed
  have unknown : set.compiled.withId id = none := by
    cases found : set.compiled.withId id with
    | none => rfl
    | some rule =>
        obtain ⟨member, rfl⟩ := (wellFormed.withId_eq_some_iff id rule).mp found
        exact absurd (List.mem_map_of_mem member) absent
  have start : (before.applyRuleset now set.compiled).Valid ∧
      (before.applyRuleset now set.compiled).view id = none := by
    refine ⟨valid.applyRuleset now wellFormed, ?_⟩
    rw [valid.view_applyRuleset now wellFormed, unknown, Option.map_none]
  have silent := Machine.forall_outputs (machine cel)
    (fun engine => engine.Valid ∧ engine.view id = none)
    (fun input => input.isEvent = true) (fun report => report.only id = 0)
    (fun engine input holds event => by
      refine ⟨⟨holds.1.step input, ?_⟩, ?_⟩
      · rw [holds.1.view_step event, holds.2, Option.map_none]
      · rw [holds.1.only_step event, holds.2, Option.elim_none])
    events start
  intro report member
  obtain ⟨output, inOutputs, rfl⟩ := List.mem_map.mp member
  exact silent output inOutputs

end Swap

/-- A swap is invisible to rules with an equal definition, a clean start for the
others, and the end of rules that the new set lacks. -/
theorem applyRuleset_continuation
    (vin model : String)
    (past : List (Input cel))
    (now : UInt64)
    (set : LoadedRuleSet cel)
    {continuation : List (Input cel)}
    (events : ∀ input ∈ continuation, input.isEvent = true) :
    let before := (machine cel).final (Engine.new vin model) past
    let swapped := before.applyRuleset now set.compiled
    swapped.latest = before.latest ∧
      (∀ rule ∈ set.compiled.rules, ∀ old ∈ before.rules.withId rule.id,
        old.definition.eq rule.definition = true →
          reportsOf rule.id swapped continuation =
            (reportsOf rule.id before continuation).map
              (·.relabel set.compiled.version old.unit rule.unit)) ∧
      (∀ rule ∈ set.compiled.rules, before.rules.keeps rule = false →
        reportsOf rule.id swapped continuation =
          reportsOf rule.id (before.restarted.applyRuleset now set.compiled)
            continuation) ∧
      ∀ id, id ∉ set.compiled.rules.map CompiledRule.id →
        ∀ report ∈ reportsOf id swapped continuation, report = 0 := by
  have valid := valid_final vin model past
  refine ⟨rfl, fun rule member old found same => ?_,
    fun rule member modified => ?_, fun id absent => ?_⟩
  · exact valid.reportsOf_applyRuleset_of_eq now set events member found same
  · exact valid.reportsOf_applyRuleset_of_not_keeps now set events member
      modified
  · exact valid.reportsOf_applyRuleset_of_notMem now set events absent

/-- A sample does not change the rules. -/
theorem rules_onSample
    (engine : Engine cel)
    (now : UInt64)
    (sample : Sample F) :
    (engine.onSample now sample).1.rules = engine.rules := by
  unfold onSample
  dsimp only
  split
  · rfl
  · rfl

end Continuations

end Engine

/-- The fragment of CEL that has identifiers only. -/
def identifierCel : Cel Binary64 where
  Program := String
  Other := Unit
  compile source :=
    if source.toList.all Text.isIdentChar then .ok source
    else .error "unsupported"
  expression := .ident
  execute name context :=
    match context.lookup name with
    | some value => .ok value
    | none => .error s!"Undeclared reference to '{name}'"
  debug _ := "value"

/-- A speed signal with a unit. -/
def speedSignal (unit : String) : SignalDef Binary64 where
  id := 257
  name := "vehicle_speed"
  ty := .f64
  endian := some .big
  scale := ⟨0x3FF0000000000000⟩
  offset := ⟨0⟩
  unit := some unit
  enumMap := none

/-- The catalog that holds only the speed signal. -/
def speedCatalog (unit : String) : Catalog Binary64 where
  model := "R1S"
  catalogVersion := 1
  signals := [⟨speedSignal unit, ∅, ∅⟩]
  byIdIndex := (∅ : KeyedMap UInt16 Nat).insert 257 0
  byNameIndex := (∅ : KeyedMap String Nat).insert "vehicle_speed" 0

/-- A rule that logs every change of the speed. -/
def speedRule : Rule Binary64 where
  id := "speed"
  signal := "vehicle_speed"
  mode := .onChange
  intervalMs := none
  maxAgeMs := none
  deadband := none
  condition := none

/-- The rule set of the rule, compiled against the catalog with a unit. -/
def speedRules (version : UInt64) (unit : String) :
    LoadedRuleSet identifierCel where
  compiled :=
    ⟨version, "*", [⟨speedRule, none, some unit, .onChange F64.zero⟩]⟩
  loaded := ⟨.ok (), ⟨version, "*", [speedRule]⟩, speedCatalog unit, "R1S",
    none, by rfl⟩

/-- A sample of the speed. -/
def speedSample : Sample Binary64 :=
  ⟨257, "vehicle_speed", 7, .num ⟨0x3FF0000000000000⟩⟩

/-- An engine with the rule under the first catalog. -/
def speedEngine : Engine identifierCel :=
  (Engine.machine identifierCel).final (Engine.new "VIN" "R1S")
    [.applyRuleset 0 (speedRules 1 "km/h")]

/-- A sample of another speed. -/
def fasterSample : Sample Binary64 :=
  ⟨257, "vehicle_speed", 9, .num ⟨0x4000000000000000⟩⟩

/-- The engine after the rule has logged the speed. -/
def loggedEngine : Engine identifierCel :=
  (Engine.machine identifierCel).final (Engine.new "VIN" "R1S")
    [.applyRuleset 0 (speedRules 1 "km/h"), .onSample 3 speedSample]

/-- Recompiling the rule under the same catalog changes the version only.  The
speed that the rule has logged before is not logged again, as it would be by a
new engine. -/
theorem speedEngine_continuation :
    Engine.reportsOf "speed"
        (loggedEngine.applyRuleset 5 (speedRules 2 "km/h").compiled)
        [.onSample 6 speedSample, .onSample 8 fasterSample] =
      (Engine.reportsOf "speed" loggedEngine
        [.onSample 6 speedSample, .onSample 8 fasterSample]).map
          (·.relabel 2 (some "km/h") (some "km/h")) ∧
    (Engine.reportsOf "speed" loggedEngine
        [.onSample 6 speedSample, .onSample 8 fasterSample]).map
          (·.records.length) = [0, 1] ∧
    (Engine.reportsOf "speed"
        (loggedEngine.restarted.applyRuleset 5 (speedRules 2 "km/h").compiled)
        [.onSample 6 speedSample, .onSample 8 fasterSample]).map
          (·.records.length) = [1, 1] := by
  have rules : loggedEngine.rules = (speedRules 1 "km/h").compiled :=
    Engine.rules_onSample speedEngine 3 speedSample
  have found : loggedEngine.rules.withId "speed" =
      some ⟨speedRule, none, some "km/h", .onChange F64.zero⟩ := by
    rw [rules]
    rfl
  have events : ∀ input ∈ ([.onSample 6 speedSample, .onSample 8 fasterSample] :
      List (Engine.Input identifierCel)), input.isEvent = true := by
    simp [Engine.Input.isEvent]
  refine ⟨?_, by decide +kernel, by decide +kernel⟩
  have kept := (Engine.applyRuleset_continuation "VIN" "R1S"
    [.applyRuleset 0 (speedRules 1 "km/h"), .onSample 3 speedSample] 5
    (speedRules 2 "km/h") events).2.1
  have relabelled := kept ⟨speedRule, none, some "km/h", .onChange F64.zero⟩
    List.mem_cons_self _ found rfl
  exact relabelled

/-- Recompiling the rule under a catalog with another unit changes the unit of
its records. -/
theorem speedEngine_unit_differs :
    Catalog.new ⟨"R1S", 1, [speedSignal "km/h"]⟩ =
        .ok (speedCatalog "km/h") ∧
      Catalog.new ⟨"R1S", 1, [speedSignal "mph"]⟩ =
        .ok (speedCatalog "mph") ∧
      (∀ rule ∈ (speedRules 2 "mph").compiled.rules,
        speedEngine.rules.keeps rule = true) ∧
      (Engine.reportsOf "speed"
          (speedEngine.applyRuleset 5 (speedRules 2 "mph").compiled)
          [.onSample 6 speedSample]).map (·.relabel 0 none none) ≠
        (Engine.reportsOf "speed" speedEngine
          [.onSample 6 speedSample]).map (·.relabel 0 none none) := by
  refine ⟨rfl, rfl, ?_, ?_⟩
  · intro rule member
    rw [List.mem_singleton.mp member]
    rfl
  · decide

end Rules
end TelemetryEdge
