import TelemetryEdge.Rules.Invariant

/-!
# What the engine does for one rule

The view of a rule id is the active rule with that id and its state.  Every
operation of a valid engine changes the view of an id, and contributes to the
part of the report that carries the id, by the step of that rule alone.
-/

namespace TelemetryEdge
namespace Rules

open Protocol

namespace EvalReport

/-- The entries of a report that carry a rule id. -/
def only (report : EvalReport F) (id : String) : EvalReport F where
  records := report.records.filter (·.ruleId == id)
  evalErrors := report.evalErrors.filter (·.1 == id)
  staleSkips := report.staleSkips.filter (· == id)

@[simp] theorem only_zero (id : String) : (0 : EvalReport F).only id = 0 := rfl

@[simp] theorem only_add
    (left right : EvalReport F)
    (id : String) :
    (left + right).only id = left.only id + right.only id := by
  ext1 <;> simp [only]

/-- A report whose entries all carry one rule id. -/
def IsOf (report : EvalReport F) (id : String) : Prop :=
  ∀ other, report.only other = if id = other then report else 0

theorem isOf_zero (id : String) : (0 : EvalReport F).IsOf id := by
  intro other
  simp

theorem isOf_ofRecord (record : LogRecord F) :
    (ofRecord record).IsOf record.ruleId := by
  intro other
  by_cases same : record.ruleId = other
  · simp [only, ofRecord, same]
  · have unmatched : (record.ruleId == other) = false := beq_false_of_ne same
    simp only [only, ofRecord, List.filter_cons, unmatched, if_neg same]
    rfl

theorem isOf_ofError (id : String) (error : EvalError) :
    (ofError id error : EvalReport F).IsOf id := by
  intro other
  by_cases same : id = other
  · simp [only, ofError, same]
  · have unmatched : (id == other) = false := beq_false_of_ne same
    simp only [only, ofError, List.filter_cons, unmatched, if_neg same]
    rfl

theorem isOf_ofStale (id : String) :
    (ofStale id : EvalReport F).IsOf id := by
  intro other
  by_cases same : id = other
  · simp [only, ofStale, same]
  · have unmatched : (id == other) = false := beq_false_of_ne same
    simp only [only, ofStale, List.filter_cons, unmatched, if_neg same]
    rfl

end EvalReport

namespace Engine

variable {cel : Cel F}

theorem emit_isOf
    (engine : Engine cel)
    (rule : CompiledRule cel)
    (ruleState : RuleState F)
    (tsUs : UInt64)
    (value : SignalValue F) :
    (engine.emit rule ruleState tsUs value).2.IsOf rule.id := by
  unfold emit
  split
  · exact EvalReport.isOf_ofRecord (engine.record rule tsUs value)
  · exact EvalReport.isOf_zero _
  · exact EvalReport.isOf_ofError _ _

theorem tickStep_isOf
    (engine : Engine cel)
    (now : UInt64)
    (rule : CompiledRule cel)
    (ruleState : RuleState F) :
    (engine.tickStep now rule ruleState).2.IsOf rule.id := by
  unfold tickStep
  split
  · exact EvalReport.isOf_zero _
  · split
    · exact EvalReport.isOf_zero _
    · simp only
      split
      · exact EvalReport.isOf_zero _
      · split
        · exact EvalReport.isOf_ofStale _
        · exact emit_isOf _ _ _ _ _

variable [F64 F]

theorem sampleStep_isOf
    (engine : Engine cel)
    (sample : Sample F)
    (rule : CompiledRule cel)
    (ruleState : RuleState F) :
    (engine.sampleStep sample rule ruleState).2.IsOf rule.id := by
  unfold sampleStep
  split
  · exact EvalReport.isOf_zero _
  · split
    · exact emit_isOf _ _ _ _ _
    · exact EvalReport.isOf_zero _

/-- The active rule with an id and its state. -/
def view
    (engine : Engine cel)
    (id : String) : Option (CompiledRule cel × RuleState F) :=
  (engine.rules.withId id).bind fun rule =>
    (engine.state.lookup id).map fun ruleState => (rule, ruleState)

/-- The view of an active rule is the rule with its stored state. -/
theorem Valid.view_of_mem
    {engine : Engine cel}
    (valid : engine.Valid)
    {rule : CompiledRule cel}
    (member : rule ∈ engine.rules.rules)
    {ruleState : RuleState F}
    (stored : engine.state.lookup rule.id = some ruleState) :
    engine.view rule.id = some (rule, ruleState) := by
  rw [view, valid.wellFormed.withId_of_mem member, stored]
  rfl

/-- A valid engine has a view of every active rule. -/
theorem Valid.exists_state
    {engine : Engine cel}
    (valid : engine.Valid)
    {id : String}
    {rule : CompiledRule cel}
    (found : engine.rules.withId id = some rule) :
    ∃ ruleState, engine.state.lookup id = some ruleState ∧
      engine.view id = some (rule, ruleState) := by
  have keys := valid.stateKeys id
  rw [found] at keys
  obtain ⟨ruleState, stored⟩ := Option.isSome_iff_exists.mp (keys.mpr rfl)
  exact ⟨ruleState, stored, by
    simp only [view, found, stored, Option.bind_some, Option.map_some]⟩

omit [F64 F] in
/-- Rules with distinct ids that report under their own id contribute to one id
what the rule with that id contributes. -/
theorem only_sum
    {rules : List (CompiledRule cel)}
    (distinct : (rules.map CompiledRule.id).Nodup)
    {report : CompiledRule cel → EvalReport F}
    (own : ∀ rule, (report rule).IsOf rule.id)
    (id : String) :
    ((rules.map report).sum).only id =
      (rules.find? (·.id == id)).elim 0 report := by
  induction rules with
  | nil => rfl
  | cons rule rules inductionHypothesis =>
      rw [List.map_cons, List.nodup_cons] at distinct
      rw [List.map_cons, List.sum_cons, EvalReport.only_add,
        inductionHypothesis distinct.2, own rule id, List.find?_cons]
      by_cases same : rule.id = id
      · have absent := KeyedMap.find?_eq_none_of_notMem CompiledRule.id
          (same ▸ distinct.1)
        simp [same, absent]
      · have unmatched : (rule.id == id) = false := beq_false_of_ne same
        simp [same, unmatched]

/-- A loop changes the view of an id by the step of its rule. -/
theorem Valid.view_visitRules
    {engine : Engine cel}
    (valid : engine.Valid)
    (step : CompiledRule cel → RuleState F → RuleState F × EvalReport F)
    (id : String) :
    (engine.visitRules step).1.view id =
      (engine.view id).map fun own => (own.1, (step own.1 own.2).1) := by
  have sameRules : (engine.visitRules step).1.rules = engine.rules := rfl
  unfold view
  rw [valid.lookup_state_visitRules, sameRules]
  cases engine.rules.withId id with
  | none => rfl
  | some rule => cases engine.state.lookup id <;> rfl

/-- The report of a loop, rule by rule, judged from the states before it. -/
theorem Valid.visitRules_snd
    {engine : Engine cel}
    (valid : engine.Valid)
    (step : CompiledRule cel → RuleState F → RuleState F × EvalReport F) :
    (engine.visitRules step).2 =
      (engine.rules.rules.map
        (KeyedLoop.contribution CompiledRule.id step engine.state)).sum := by
  rw [Engine.visitRules]
  simp only
  rw [KeyedLoop.foldl_snd CompiledRule.id step valid.wellFormed.idsDistinct,
    zero_add]

/-- A loop of steps that report under their own id reports under an id what the
step of its rule reports. -/
theorem Valid.only_visitRules
    {engine : Engine cel}
    (valid : engine.Valid)
    {step : CompiledRule cel → RuleState F → RuleState F × EvalReport F}
    (own : ∀ rule ruleState, (step rule ruleState).2.IsOf rule.id)
    (id : String) :
    (engine.visitRules step).2.only id =
      (engine.view id).elim 0 fun own => (step own.1 own.2).2 := by
  have contributes : ∀ rule, (KeyedLoop.contribution CompiledRule.id step
      engine.state rule).IsOf rule.id := by
    intro rule
    unfold KeyedLoop.contribution
    split
    · exact EvalReport.isOf_zero _
    · exact own rule _
  rw [valid.visitRules_snd, only_sum valid.wellFormed.idsDistinct contributes]
  change (engine.rules.withId id).elim _ _ = _
  unfold view
  cases found : engine.rules.withId id with
  | none => rfl
  | some rule =>
      obtain ⟨-, rfl⟩ := (valid.wellFormed.withId_eq_some_iff id rule).mp found
      simp only [Option.elim_some, Option.bind_some, KeyedLoop.contribution]
      cases engine.state.lookup rule.id <;> rfl

/-- Whether an input is a sample or a tick. -/
def Input.isEvent : Input cel → Bool
  | .applyRuleset _ _ => false
  | _ => true

/-- The engine that the rules see at an event: a sample is stored first. -/
def Input.prepare (input : Input cel) (engine : Engine cel) : Engine cel :=
  match input with
  | .onSample now sample => engine.receive now sample
  | _ => engine

/-- Step of one rule at an event. -/
def Input.ruleStep
    (input : Input cel)
    (engine : Engine cel)
    (rule : CompiledRule cel)
    (ruleState : RuleState F) : RuleState F × EvalReport F :=
  match input with
  | .onSample _ sample =>
      (input.prepare engine).sampleStep sample rule ruleState
  | .tick now => engine.tickStep now rule ruleState
  | .applyRuleset _ _ => (ruleState, 0)

theorem Valid.prepare
    {engine : Engine cel}
    (valid : engine.Valid)
    (input : Input cel) :
    (input.prepare engine).Valid := by
  cases input with
  | onSample now sample => exact valid.receive now sample
  | tick now => exact valid
  | applyRuleset now set => exact valid

section Events

variable
  {engine : Engine cel}
  (valid : engine.Valid)
  {input : Input cel}
  (event : input.isEvent = true)

include valid event

/-- An event runs its step for every rule. -/
theorem Valid.step_eq :
    (machine cel).step engine input =
      (input.prepare engine).visitRules (input.ruleStep engine) := by
  cases input with
  | onSample now sample => exact onSample_eq_visitRules valid.indexed now sample
  | tick now => exact tick_eq_visitRules engine now
  | applyRuleset now set => cases event

/-- An event changes the view of an id by the step of its rule. -/
theorem Valid.view_step (id : String) :
    ((machine cel).step engine input).1.view id =
      (engine.view id).map fun own =>
        (own.1, (input.ruleStep engine own.1 own.2).1) := by
  rw [valid.step_eq event, (valid.prepare input).view_visitRules]
  cases input <;> rfl

/-- An event reports under an id what the step of its rule reports. -/
theorem Valid.only_step (id : String) :
    ((machine cel).step engine input).2.only id =
      (engine.view id).elim 0 fun own =>
        (input.ruleStep engine own.1 own.2).2 := by
  have own : ∀ rule ruleState,
      (input.ruleStep engine rule ruleState).2.IsOf rule.id := by
    intro rule ruleState
    cases input with
    | onSample now sample => exact sampleStep_isOf _ sample rule ruleState
    | tick now => exact tickStep_isOf engine now rule ruleState
    | applyRuleset now set => exact EvalReport.isOf_zero _
  rw [valid.step_eq event, (valid.prepare input).only_visitRules own]
  cases input <;> rfl

end Events

/-- State of a rule after a swap, from the view of its id before. -/
def installed
    (now : UInt64)
    (before : Option (CompiledRule cel × RuleState F))
    (rule : CompiledRule cel) : RuleState F :=
  match before with
  | some (old, ruleState) =>
      if old.definition.eq rule.definition then ruleState
      else freshState now rule
  | none => freshState now rule

/-- A swap installs the rule of the new set with the state that the view before
gives it. -/
theorem Valid.view_applyRuleset
    {engine : Engine cel}
    (valid : engine.Valid)
    (now : UInt64)
    {new : CompiledRuleSet cel}
    (wellFormed : new.WellFormed)
    (id : String) :
    (engine.applyRuleset now new).view id =
      (new.withId id).map fun rule =>
        (rule, installed now (engine.view id) rule) := by
  have sameRules : (engine.applyRuleset now new).rules = new := rfl
  unfold view
  rw [lookup_state_applyRuleset valid.wellFormed now wellFormed, sameRules]
  cases found : new.withId id with
  | none => rfl
  | some rule =>
      obtain ⟨-, rfl⟩ := (wellFormed.withId_eq_some_iff id rule).mp found
      simp only [Option.map_some, Option.bind_some, CompiledRuleSet.keeps,
        Option.some.injEq, Prod.mk.injEq, true_and]
      rcases (engine.rules.withId rule.id).eq_none_or_eq_some with
        absent | ⟨old, active⟩
      · simp [absent, installed]
      · obtain ⟨ruleState, stored, -⟩ := valid.exists_state active
        simp only [active, stored, Option.bind_some, Option.map_some, installed]
        split <;> rfl

end Engine

end Rules
end TelemetryEdge
