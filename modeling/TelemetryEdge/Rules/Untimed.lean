import TelemetryEdge.Rules.Kinds
import TelemetryEdge.Rules.NonInterference

/-!
# On-change rules do not depend on time

What an on-change rule reports in a run is what it reports when the engine is
never ticked, every clock reading is zero, and the samples of signals that the
rule does not name and the other rules are left out.  Only the order of the
samples and swaps that concern the rule is left.
-/

namespace TelemetryEdge
namespace Rules

open Protocol

/-- A rule in on-change mode. -/
def CompiledRule.IsOnChange {cel : Cel F} (rule : CompiledRule cel) : Prop :=
  ∃ deadband, rule.behaviour = .onChange deadband

namespace Engine

variable {cel : Cel F}

/-- Engines with the same identity and version, and with the same values of the
given names, whenever these were received. -/
structure SameValues
    (names : List String)
    (engine other : Engine cel) : Prop where
  vin : engine.vin = other.vin
  model : engine.model = other.model
  version : engine.rules.version = other.rules.version
  values : ∀ name ∈ names,
    (engine.latest.lookup name).map Latest.value =
      (other.latest.lookup name).map Latest.value

namespace SameValues

variable
  {names : List String}
  {engine other : Engine cel}
  {rule : CompiledRule cel}

/-- A condition does not see when a value was received. -/
theorem conditionVerdict
    (same : SameValues names engine other)
    (named : ∀ name ∈ rule.names, name ∈ names) :
    Engine.conditionVerdict rule engine.latest =
      Engine.conditionVerdict rule other.latest := by
  unfold Engine.conditionVerdict
  cases conditioned : rule.condition with
  | none => rfl
  | some condition =>
      apply Condition.evaluate_congr
      intro name member
      have inRule : name ∈ rule.names := by
        simp [CompiledRule.names, conditioned, member]
      exact same.values name (named name inRule)

/-- The sample step does not see when a value was received. -/
theorem sampleStep
    [F64 F]
    (same : SameValues names engine other)
    (named : ∀ name ∈ rule.names, name ∈ names)
    (sample : Sample F)
    (ruleState : RuleState F) :
    engine.sampleStep sample rule ruleState =
      other.sampleStep sample rule ruleState := by
  unfold Engine.sampleStep Engine.emit Engine.record
  rw [same.conditionVerdict named, same.vin, same.model, same.version]

/-- Storing a sample at different times keeps the values the same. -/
theorem receive
    (same : SameValues names engine other)
    (now otherNow : UInt64)
    (sample : Sample F) :
    SameValues names (engine.receive now sample)
      (other.receive otherNow sample) where
  vin := same.vin
  model := same.model
  version := same.version
  values name member := by
    simp only [Engine.receive, KeyedMap.lookup_insert_eq_ite]
    split
    · rfl
    · exact same.values name member

/-- A sample of a signal that is not named makes no difference. -/
theorem receive_left
    (same : SameValues names engine other)
    (now : UInt64)
    {sample : Sample F}
    (unnamed : sample.name ∉ names) :
    SameValues names (engine.receive now sample) other where
  vin := same.vin
  model := same.model
  version := same.version
  values name member := by
    have different : name ≠ sample.name := fun equal =>
      unnamed (equal ▸ member)
    rw [Engine.receive, Finmap.lookup_insert_of_ne _ different,
      same.values name member]

end SameValues

variable [F64 F]

/-- Leave out ticks, clock readings, the samples of signals that are not named,
and the other rules. -/
def untimed
    (id : String)
    (names : List String) : Input cel → Option (Input cel)
  | .onSample _ sample =>
      if sample.name ∈ names then some (.onSample 0 sample) else none
  | .tick _ => none
  | .applyRuleset _ set => some (.applyRuleset 0 (set.only id))

/-- The engine of a run and that of the run without time. -/
structure Untimed
    (id : String)
    (names : List String)
    (engine other : Engine cel) : Prop where
  valid : engine.Valid
  otherValid : other.Valid
  surroundings : SameValues names engine other
  view : engine.view id = other.view id
  /-- The active rule is an on-change rule that names only names of the run. -/
  rule : ∀ own ∈ engine.view id,
    own.1.IsOnChange ∧ ∀ name ∈ own.1.names, name ∈ names

/-- What an input may bring for a rule id: on-change rules with the given
names. -/
def BringsOnChange (id : String) (names : List String) : Input cel → Prop
  | .applyRuleset _ set => ∀ rule ∈ set.compiled.withId id,
      rule.IsOnChange ∧ ∀ name ∈ rule.names, name ∈ names
  | _ => True

/-- An on-change rule starts afresh without a timer. -/
theorem installed_of_isOnChange
    (now otherNow : UInt64)
    (before : Option (CompiledRule cel × RuleState F))
    {rule : CompiledRule cel}
    (onChange : rule.IsOnChange) :
    installed now before rule = installed otherNow before rule := by
  have fresh : freshState now rule = freshState otherNow rule := by
    obtain ⟨deadband, behaviour⟩ := onChange
    simp only [freshState, behaviour]
  unfold installed
  rw [fresh]

omit [F64 F] in
/-- A tick passes an on-change rule by. -/
theorem tickStep_of_isOnChange
    (engine : Engine cel)
    (now : UInt64)
    {rule : CompiledRule cel}
    (onChange : rule.IsOnChange)
    (ruleState : RuleState F) :
    engine.tickStep now rule ruleState = (ruleState, 0) := by
  obtain ⟨deadband, behaviour⟩ := onChange
  rw [tickStep, behaviour]

namespace Untimed

variable
  {id : String}
  {names : List String}
  {engine other : Engine cel}

/-- The rule of an id stays in view through an event. -/
theorem rule_step
    (untimed : Untimed id names engine other)
    {input : Input cel}
    (event : input.isEvent = true) :
    ∀ own ∈ ((machine cel).step engine input).1.view id,
      own.1.IsOnChange ∧ ∀ name ∈ own.1.names, name ∈ names := by
  intro own viewed
  rw [untimed.valid.view_step event] at viewed
  obtain ⟨before, viewedBefore, rfl⟩ := Option.map_eq_some_iff.mp viewed
  exact untimed.rule before viewedBefore

/-- An event that leaves the rule alone and brings none of its values goes
unnoticed. -/
theorem idle
    (untimed : Untimed id names engine other)
    {input : Input cel}
    (event : input.isEvent = true)
    (same : SameValues names (input.prepare engine) other)
    (idle : ∀ own ∈ engine.view id,
      input.ruleStep engine own.1 own.2 = (own.2, 0)) :
    Untimed id names ((machine cel).step engine input).1 other ∧
      ((machine cel).step engine input).2.only id = 0 := by
  refine ⟨⟨untimed.valid.step input, untimed.otherValid, ?_, ?_,
    untimed.rule_step event⟩, ?_⟩
  · rw [untimed.valid.step_eq event]
    exact ⟨same.vin, same.model, same.version, same.values⟩
  · rw [untimed.valid.view_step event, ← untimed.view]
    cases viewed : engine.view id with
    | none => rfl
    | some own => rw [Option.map_some, idle own viewed]
  · rw [untimed.valid.only_step event]
    cases viewed : engine.view id with
    | none => rfl
    | some own => rw [Option.elim_some, idle own viewed]

/-- A tick goes unnoticed. -/
theorem tick
    (untimed : Untimed id names engine other)
    (now : UInt64) :
    Untimed id names (engine.tick now).1 other ∧
      (engine.tick now).2.only id = 0 := by
  have event : (Input.tick now : Input cel).isEvent = true := rfl
  exact untimed.idle event untimed.surroundings fun own viewed =>
    tickStep_of_isOnChange engine now (untimed.rule own viewed).1 own.2

/-- A sample of a signal that the rule does not name goes unnoticed. -/
theorem onSample_left
    (untimed : Untimed id names engine other)
    (now : UInt64)
    {sample : Sample F}
    (unnamed : sample.name ∉ names) :
    Untimed id names (engine.onSample now sample).1 other ∧
      (engine.onSample now sample).2.only id = 0 := by
  have event : (Input.onSample now sample : Input cel).isEvent = true := rfl
  refine untimed.idle event
    (untimed.surroundings.receive_left now unnamed) fun own viewed => ?_
  have ignores : own.1.listensTo sample.name = false := by
    obtain ⟨deadband, behaviour⟩ := (untimed.rule own viewed).1
    rw [CompiledRule.listensTo, behaviour]
    apply beq_false_of_ne
    intro equal
    exact unnamed (equal ▸ (untimed.rule own viewed).2 _ List.mem_cons_self)
  exact sampleStep_of_not_listensTo _ sample ignores own.2

/-- A sample is answered alike whenever it is received. -/
theorem onSample
    (untimed : Untimed id names engine other)
    (now otherNow : UInt64)
    (sample : Sample F) :
    Untimed id names (engine.onSample now sample).1
        (other.onSample otherNow sample).1 ∧
      (engine.onSample now sample).2.only id =
        (other.onSample otherNow sample).2.only id := by
  have event : (Input.onSample now sample : Input cel).isEvent = true := rfl
  have otherEvent : (Input.onSample otherNow sample : Input cel).isEvent =
    true := rfl
  have same := untimed.surroundings.receive now otherNow sample
  have sameStep : ∀ own ∈ engine.view id,
      (Input.onSample now sample).ruleStep engine own.1 own.2 =
        (Input.onSample otherNow sample).ruleStep other own.1 own.2 :=
    fun own viewed => same.sampleStep (untimed.rule own viewed).2 sample own.2
  have view := untimed.valid.view_step event id
  have otherView := untimed.otherValid.view_step otherEvent id
  have only := untimed.valid.only_step event id
  have otherOnly := untimed.otherValid.only_step otherEvent id
  refine ⟨⟨untimed.valid.step (.onSample now sample),
    untimed.otherValid.step (.onSample otherNow sample), ?_, ?_,
    untimed.rule_step event⟩, ?_⟩
  · rw [onSample_eq_visitRules untimed.valid.indexed,
      onSample_eq_visitRules untimed.otherValid.indexed]
    exact ⟨same.vin, same.model, same.version, same.values⟩
  · refine view.trans (Eq.trans ?_ otherView.symm)
    rw [← untimed.view]
    cases viewed : engine.view id with
    | none => rfl
    | some own => rw [Option.map_some, Option.map_some, sameStep own viewed]
  · refine only.trans (Eq.trans ?_ otherOnly.symm)
    rw [← untimed.view]
    cases viewed : engine.view id with
    | none => rfl
    | some own =>
        rw [Option.elim_some, Option.elim_some, sameStep own viewed]

/-- A swap at any time, to the whole set or to the rule alone, leaves the rule
in the same state. -/
theorem applyRuleset
    (untimed : Untimed id names engine other)
    (now otherNow : UInt64)
    {set : LoadedRuleSet cel}
    (brings : BringsOnChange id names (.applyRuleset now set)) :
    Untimed id names (engine.applyRuleset now set.compiled)
      (other.applyRuleset otherNow (set.only id).compiled) := by
  have view := untimed.valid.view_applyRuleset now set.wellFormed id
  have installs : ∀ own ∈ (engine.applyRuleset now set.compiled).view id,
      own.1.IsOnChange ∧ ∀ name ∈ own.1.names, name ∈ names := by
    intro own viewed
    rw [view] at viewed
    obtain ⟨rule, found, rfl⟩ := Option.map_eq_some_iff.mp viewed
    exact brings rule found
  refine ⟨untimed.valid.applyRuleset now set.wellFormed,
    untimed.otherValid.applyRuleset otherNow (set.only id).wellFormed,
    ⟨untimed.surroundings.vin, untimed.surroundings.model, rfl,
      untimed.surroundings.values⟩, ?_, installs⟩
  rw [view, untimed.otherValid.view_applyRuleset otherNow
    (set.only id).wellFormed, withId_only, untimed.view]
  apply Option.map_congr
  intro rule found
  rw [installed_of_isOnChange now otherNow _ (brings rule found).1]

/-- A run and the run without time look the same to an on-change rule. -/
theorem observed_eq
    (untimed : Untimed id names engine other)
    {inputs : List (Input cel)}
    (brings : ∀ input ∈ inputs, BringsOnChange id names input) :
    (machine cel).observed (carrying id) engine inputs =
      (machine cel).observed (carrying id) other
        (inputs.filterMap (Engine.untimed id names)) := by
  refine Machine.observed_eq_of_simulation (Untimed id names)
    (BringsOnChange id names) ?kept ?dropped inputs brings untimed
  case kept =>
    intro engine other input counterpart untimed brings translated
    cases input with
    | onSample now sample =>
        rw [Engine.untimed] at translated
        split_ifs at translated
        obtain rfl := Option.some.inj translated
        obtain ⟨next, alike⟩ := untimed.onSample now 0 sample
        exact ⟨next, carrying_congr alike⟩
    | tick now => cases translated
    | applyRuleset now set =>
        obtain rfl := Option.some.inj translated
        exact ⟨untimed.applyRuleset now 0 brings, rfl⟩
  case dropped =>
    intro engine other input untimed _ translated
    cases input with
    | onSample now sample =>
        rw [Engine.untimed] at translated
        split_ifs at translated with named
        obtain ⟨next, silent⟩ := untimed.onSample_left now named
        exact ⟨next, carrying_eq_none silent⟩
    | tick now =>
        obtain ⟨next, silent⟩ := untimed.tick now
        exact ⟨next, carrying_eq_none silent⟩
    | applyRuleset now set => cases translated

end Untimed

/-- What a rule id reports in a run that has it as an on-change rule only is
what it reports without ticks, without clock readings, without the samples of
signals that it does not name and without other rules. -/
theorem observed_untimed
    (vin model id : String)
    {inputs : List (Input cel)}
    (onChange : ∀ now set, Input.applyRuleset now set ∈ inputs →
      ∀ rule ∈ set.compiled.withId id, rule.IsOnChange) :
    (machine cel).observed (carrying id) (Engine.new vin model) inputs =
      (machine cel).observed (carrying id) (Engine.new vin model)
        (inputs.filterMap (untimed id (namesOf id inputs))) := by
  have start : Untimed id (namesOf id inputs)
      (Engine.new vin model : Engine cel) (Engine.new vin model) :=
    { valid := valid_new vin model
      otherValid := valid_new vin model
      surroundings := ⟨rfl, rfl, rfl, fun _ _ => rfl⟩
      view := rfl
      rule := fun own viewed => by cases viewed }
  apply start.observed_eq
  intro input member
  have admitted := admittedBy_namesOf id member
  cases input with
  | applyRuleset now set =>
      exact fun rule found =>
        ⟨onChange now set member rule found, admitted rule found⟩
  | _ => trivial

/-- Ticks, the speed and the clock make no difference to the door. -/
theorem door_untimed :
    (machine identifierCel).observed (carrying "door") (Engine.new "VIN" "R1S")
        [.tick 3, .applyRuleset 100 doorRules, .onSample 110 speedSample,
          .tick 150, .onSample 200 ⟨1, "door_open", 9, .bool true⟩, .tick 300,
          .onSample 190 ⟨1, "door_open", 10, .bool false⟩] =
      (machine identifierCel).observed (carrying "door")
        (Engine.new "VIN" "R1S")
        [.applyRuleset 0 (doorRules.only "door"),
          .onSample 0 ⟨1, "door_open", 9, .bool true⟩,
          .onSample 0 ⟨1, "door_open", 10, .bool false⟩] := by
  refine observed_untimed "VIN" "R1S" "door" ?_
  intro now set member rule found
  simp only [List.mem_cons, reduceCtorEq, Input.applyRuleset.injEq,
    List.not_mem_nil, false_or, or_false] at member
  obtain ⟨-, rfl⟩ := member
  obtain rfl := Option.some.inj found
  exact ⟨F64.zero, rfl⟩

end Engine

end Rules
end TelemetryEdge
