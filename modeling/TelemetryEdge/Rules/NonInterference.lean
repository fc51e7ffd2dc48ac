import TelemetryEdge.Rules.View

/-!
# Rules do not interfere with each other

A run, seen through one rule id, is the run in which every rule set is cut down
to the rule with that id and every sample is deleted whose signal the rule does
not name.
-/

namespace TelemetryEdge
namespace Rules

open Protocol

/-- The signals that a rule names: its own and those of its condition. -/
def CompiledRule.names {cel : Cel F} (rule : CompiledRule cel) : List String :=
  rule.definition.signal :: rule.condition.elim [] Condition.signals

namespace Engine

variable {cel : Cel F}

/-- Engines that a rule with the given names cannot tell apart, but for its own
state. -/
structure SameFor
    (names : List String)
    (engine other : Engine cel) : Prop where
  vin : engine.vin = other.vin
  model : engine.model = other.model
  version : engine.rules.version = other.rules.version
  latest : ∀ name ∈ names,
    engine.latest.lookup name = other.latest.lookup name

section Congruence

variable
  {names : List String}
  {engine other : Engine cel}
  {rule : CompiledRule cel}

/-- A condition sees only the signals that its rule names. -/
theorem SameFor.conditionVerdict
    (same : SameFor names engine other)
    (named : ∀ name ∈ rule.names, name ∈ names) :
    Engine.conditionVerdict rule engine.latest =
      Engine.conditionVerdict rule other.latest := by
  unfold Engine.conditionVerdict
  cases conditioned : rule.condition with
  | none => rfl
  | some condition =>
      apply Condition.evaluate_congr
      intro name member
      have inRule : name ∈ rule.names := by
        simp [CompiledRule.names, conditioned, member]
      rw [same.latest name (named name inRule)]

/-- An emission attempt depends on what the rule can see. -/
theorem SameFor.emit
    (same : SameFor names engine other)
    (named : ∀ name ∈ rule.names, name ∈ names)
    (ruleState : RuleState F)
    (tsUs : UInt64)
    (value : SignalValue F) :
    engine.emit rule ruleState tsUs value =
      other.emit rule ruleState tsUs value := by
  unfold Engine.emit Engine.record
  rw [same.conditionVerdict named, same.vin, same.model, same.version]

/-- The tick step depends on what the rule can see. -/
theorem SameFor.tickStep
    (same : SameFor names engine other)
    (named : ∀ name ∈ rule.names, name ∈ names)
    (now : UInt64)
    (ruleState : RuleState F) :
    engine.tickStep now rule ruleState = other.tickStep now rule ruleState := by
  unfold Engine.tickStep
  simp only [same.emit named,
    same.latest _ (named _ List.mem_cons_self)]

/-- The sample step depends on what the rule can see. -/
theorem SameFor.sampleStep
    [F64 F]
    (same : SameFor names engine other)
    (named : ∀ name ∈ rule.names, name ∈ names)
    (sample : Sample F)
    (ruleState : RuleState F) :
    engine.sampleStep sample rule ruleState =
      other.sampleStep sample rule ruleState := by
  unfold Engine.sampleStep
  simp only [same.emit named]

/-- Storing a sample in both engines keeps them alike. -/
theorem SameFor.receive
    (same : SameFor names engine other)
    (now : UInt64)
    (sample : Sample F) :
    SameFor names (engine.receive now sample) (other.receive now sample) where
  vin := same.vin
  model := same.model
  version := same.version
  latest name member := by
    simp only [Engine.receive, KeyedMap.lookup_insert_eq_ite,
      same.latest name member]

/-- A sample of a signal that is not named makes no difference. -/
theorem SameFor.receive_left
    (same : SameFor names engine other)
    (now : UInt64)
    {sample : Sample F}
    (unnamed : sample.name ∉ names) :
    SameFor names (engine.receive now sample) other where
  vin := same.vin
  model := same.model
  version := same.version
  latest name member := by
    have different : name ≠ sample.name := fun equal =>
      unnamed (equal ▸ member)
    rw [Engine.receive, Finmap.lookup_insert_of_ne _ different,
      same.latest name member]

theorem SameFor.prepare
    [F64 F]
    (same : SameFor names engine other)
    (input : Input cel) :
    SameFor names (input.prepare engine) (input.prepare other) := by
  cases input with
  | onSample now sample => exact same.receive now sample
  | tick now => exact same
  | applyRuleset now set => exact same

/-- The step of a rule at an event depends on what the rule can see. -/
theorem SameFor.ruleStep
    [F64 F]
    (same : SameFor names engine other)
    (named : ∀ name ∈ rule.names, name ∈ names)
    (input : Input cel)
    (ruleState : RuleState F) :
    input.ruleStep engine rule ruleState =
      input.ruleStep other rule ruleState := by
  cases input with
  | onSample now sample =>
      exact (same.receive now sample).sampleStep named sample ruleState
  | tick now => exact same.tickStep named now ruleState
  | applyRuleset now set => rfl

end Congruence

variable [F64 F]

/-- The names in all definitions of a rule id in the rule sets of a run. -/
def namesOf (id : String) (inputs : List (Input cel)) : List String :=
  inputs.flatMap fun
    | .applyRuleset _ set =>
        (set.compiled.withId id).elim [] CompiledRule.names
    | _ => []

/-- Cut a rule set down to one rule and drop a sample whose signal is not
named. -/
def cutDown
    (id : String)
    (names : List String) : Input cel → Option (Input cel)
  | .onSample now sample =>
      if sample.name ∈ names then some (.onSample now sample) else none
  | .tick now => some (.tick now)
  | .applyRuleset now set => some (.applyRuleset now (set.only id))

/-- The part of a report that carries an id, unless it is empty. -/
def carrying (id : String) (report : EvalReport F) : Option (EvalReport F) :=
  let part := report.only id
  if part.records.isEmpty && part.evalErrors.isEmpty &&
      part.staleSkips.isEmpty then none
  else some part

omit [F64 F] in
/-- Reports with equal parts look the same. -/
theorem carrying_congr
    {id : String}
    {report other : EvalReport F}
    (same : report.only id = other.only id) :
    carrying id report = carrying id other := by
  simp only [carrying, same]

omit [F64 F] in
/-- Nothing is seen of a report that does not carry the id. -/
theorem carrying_eq_none
    {id : String}
    {report : EvalReport F}
    (silent : report.only id = 0) :
    carrying id report = none := by
  simp only [carrying, silent]
  rfl

/-- Cutting a rule set down keeps the rule. -/
theorem withId_only
    (set : LoadedRuleSet cel)
    (id : String) :
    (set.only id).compiled.withId id = set.compiled.withId id := by
  change (set.compiled.rules.filter (·.id == id)).find? (·.id == id) =
    set.compiled.rules.find? (·.id == id)
  rw [List.find?_filter]
  congr 1
  funext rule
  rw [Bool.eq_iff_iff]
  simp

/-- The engine of a run and the engine of the run cut down to one rule. -/
structure Related
    (id : String)
    (names : List String)
    (engine other : Engine cel) : Prop where
  valid : engine.Valid
  otherValid : other.Valid
  surroundings : SameFor names engine other
  view : engine.view id = other.view id
  /-- The active rule names only names of the run. -/
  named : ∀ own ∈ engine.view id, ∀ name ∈ own.1.names, name ∈ names

section Steps

variable
  {id : String}
  {names : List String}
  {engine other : Engine cel}

/-- The rule of an id stays in view through an event. -/
theorem Related.named_step
    (related : Related id names engine other)
    {input : Input cel}
    (event : input.isEvent = true) :
    ∀ own ∈ ((machine cel).step engine input).1.view id,
      ∀ name ∈ own.1.names, name ∈ names := by
  intro own viewed
  rw [related.valid.view_step event] at viewed
  obtain ⟨before, viewedBefore, rfl⟩ := Option.map_eq_some_iff.mp viewed
  exact related.named before viewedBefore

/-- A sample of a named signal and a tick are answered alike. -/
theorem Related.event
    (related : Related id names engine other)
    {input : Input cel}
    (event : input.isEvent = true) :
    Related id names ((machine cel).step engine input).1
        ((machine cel).step other input).1 ∧
      ((machine cel).step engine input).2.only id =
        ((machine cel).step other input).2.only id := by
  have same := related.surroundings.prepare input
  have sameStep : ∀ own ∈ engine.view id,
      input.ruleStep engine own.1 own.2 = input.ruleStep other own.1 own.2 :=
    fun own viewed => related.surroundings.ruleStep
      (related.named own viewed) input own.2
  refine ⟨⟨related.valid.step input, related.otherValid.step input, ?_, ?_,
    related.named_step event⟩, ?_⟩
  · rw [related.valid.step_eq event, related.otherValid.step_eq event]
    exact ⟨same.vin, same.model, same.version, same.latest⟩
  · rw [related.valid.view_step event, related.otherValid.view_step event,
      ← related.view]
    cases viewed : engine.view id with
    | none => rfl
    | some own => rw [Option.map_some, Option.map_some, sameStep own viewed]
  · rw [related.valid.only_step event, related.otherValid.only_step event,
      ← related.view]
    cases viewed : engine.view id with
    | none => rfl
    | some own =>
        rw [Option.elim_some, Option.elim_some, sameStep own viewed]

/-- A sample of a signal that the rule does not name passes it by. -/
theorem Related.onSample_left
    (related : Related id names engine other)
    (now : UInt64)
    {sample : Sample F}
    (unnamed : sample.name ∉ names) :
    Related id names (engine.onSample now sample).1 other ∧
      (engine.onSample now sample).2.only id = 0 := by
  let input : Input cel := .onSample now sample
  have event : input.isEvent = true := rfl
  have idle : ∀ own ∈ engine.view id,
      input.ruleStep engine own.1 own.2 = (own.2, 0) := by
    intro own viewed
    have different : own.1.definition.signal ≠ sample.name := fun equal =>
      unnamed (equal ▸ related.named own viewed _ List.mem_cons_self)
    change (engine.receive now sample).sampleStep sample own.1 own.2 = _
    unfold sampleStep
    split
    · rfl
    · rw [if_neg fun both => different both.1]
  have same := related.surroundings.receive_left now unnamed
  refine ⟨⟨related.valid.step input, related.otherValid, ?_, ?_,
    related.named_step event⟩, ?_⟩
  · rw [onSample_eq_visitRules related.valid.indexed]
    exact ⟨same.vin, same.model, same.version, same.latest⟩
  · refine (related.valid.view_step event id).trans ?_
    rw [← related.view]
    cases viewed : engine.view id with
    | none => rfl
    | some own => rw [Option.map_some, idle own viewed]
  · refine (related.valid.only_step event id).trans ?_
    cases viewed : engine.view id with
    | none => rfl
    | some own => rw [Option.elim_some, idle own viewed]

/-- A swap and the swap to the set cut down to the rule keep engines
related. -/
theorem Related.applyRuleset
    (related : Related id names engine other)
    (now : UInt64)
    {set : LoadedRuleSet cel}
    (named : ∀ rule ∈ set.compiled.withId id,
      ∀ name ∈ rule.names, name ∈ names) :
    Related id names (engine.applyRuleset now set.compiled)
      (other.applyRuleset now (set.only id).compiled) := by
  refine ⟨related.valid.applyRuleset now set.wellFormed,
    related.otherValid.applyRuleset now (set.only id).wellFormed,
    ⟨related.surroundings.vin, related.surroundings.model, rfl,
      related.surroundings.latest⟩, ?_, ?_⟩
  · rw [related.valid.view_applyRuleset now set.wellFormed,
      related.otherValid.view_applyRuleset now (set.only id).wellFormed,
      withId_only, related.view]
  · intro own viewed
    rw [related.valid.view_applyRuleset now set.wellFormed] at viewed
    obtain ⟨rule, found, rfl⟩ := Option.map_eq_some_iff.mp viewed
    exact named rule found

end Steps

/-- Whether the definition of a rule id in an input has only the given names. -/
def AdmittedBy (id : String) (names : List String) : Input cel → Prop
  | .applyRuleset _ set => ∀ rule ∈ set.compiled.withId id,
      ∀ name ∈ rule.names, name ∈ names
  | _ => True

/-- The inputs of a run have the names of the run. -/
theorem admittedBy_namesOf
    (id : String)
    {inputs : List (Input cel)}
    {input : Input cel}
    (member : input ∈ inputs) :
    AdmittedBy id (namesOf id inputs) input := by
  cases input with
  | onSample now sample => trivial
  | tick now => trivial
  | applyRuleset now set =>
      intro rule found name named
      refine List.mem_flatMap.mpr ⟨_, member, ?_⟩
      simp only [Option.mem_def.mp found, Option.elim_some]
      exact named

/-- New engines are related. -/
theorem related_new
    (vin model id : String)
    (names : List String) :
    Related id names (Engine.new vin model : Engine cel)
      (Engine.new vin model) where
  valid := valid_new vin model
  otherValid := valid_new vin model
  surroundings := ⟨rfl, rfl, rfl, fun _ _ => rfl⟩
  view := rfl
  named own viewed := by cases viewed

/-- What a run reports under a rule id, step by step, is what the run cut down
to that rule reports: rules do not interfere, and a rule sees only the signals
that it names. -/
theorem observed_cutDown
    (vin model id : String)
    (inputs : List (Input cel)) :
    (machine cel).observed (carrying id) (Engine.new vin model) inputs =
      (machine cel).observed (carrying id) (Engine.new vin model)
        (inputs.filterMap (cutDown id (namesOf id inputs))) := by
  let names := namesOf id inputs
  refine Machine.observed_eq_of_simulation (Related id names) (AdmittedBy id names)
    ?kept ?dropped inputs ?admitted (related_new vin model id names)
  case kept =>
    intro engine other input counterpart related admitted translated
    cases input with
    | onSample now sample =>
        rw [cutDown] at translated
        split_ifs at translated
        obtain rfl := Option.some.inj translated
        have event : (Input.onSample now sample : Input cel).isEvent = true := rfl
        obtain ⟨next, alike⟩ := related.event event
        exact ⟨next, carrying_congr alike⟩
    | tick now =>
        obtain rfl := Option.some.inj translated
        have event : (Input.tick now : Input cel).isEvent = true := rfl
        obtain ⟨next, alike⟩ := related.event event
        exact ⟨next, carrying_congr alike⟩
    | applyRuleset now set =>
        obtain rfl := Option.some.inj translated
        exact ⟨related.applyRuleset now admitted, rfl⟩
  case dropped =>
    intro engine other input related admitted translated
    cases input with
    | onSample now sample =>
        rw [cutDown] at translated
        split_ifs at translated with named
        obtain ⟨next, silent⟩ := related.onSample_left now named
        exact ⟨next, carrying_eq_none silent⟩
    | tick now => cases translated
    | applyRuleset now set => cases translated
  case admitted => exact fun input member => admittedBy_namesOf id member

end Engine

end Rules
end TelemetryEdge
