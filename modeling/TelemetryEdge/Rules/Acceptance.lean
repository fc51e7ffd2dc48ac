import TelemetryEdge.Rules.Language
import TelemetryEdge.Rules.Loaded

/-!
# Which rule sets compile

What a valid rule set is, said without reference to the compiler, and that the
compiler accepts exactly the valid ones and keeps their rules as they are.
-/

namespace TelemetryEdge
namespace Rules

open Protocol

/-- One to sixty-four lower-case letters, digits and underscores. -/
def ValidId (id : String) : Prop :=
  (1 ≤ id.length ∧ id.length ≤ 64) ∧
    ∀ c ∈ id.toList, c.isLower ∨ c.isDigit ∨ c = '_'

/-- A condition that is neither too long nor blank, and parses to a syntax tree
that passes the check. -/
structure ValidCondition
    (cel : Cel F)
    (catalog : Catalog F)
    (source : String) : Prop where
  length_le : source.length ≤ maxConditionChars
  notBlank : Text.isBlank source = false
  checked : ∃ program, cel.compile source = .ok program ∧
    ∃ signals, checkAst (cel.expression program) catalog = .ok signals

/-- A rule that may stand in a rule set for a vehicle with a catalog. -/
structure ValidRule [F64 F]
    (cel : Cel F)
    (catalog : Catalog F)
    (rule : Rule F) : Prop where
  id : ValidId rule.id
  signal : ∃ signal, catalog.byName rule.signal = some signal ∧
    ValidFields rule signal.kind
  condition : ∀ source, rule.condition = some source →
    ValidCondition cel catalog source

/-- A rule set that a vehicle may load. -/
structure ValidRuleSet [F64 F]
    (cel : Cel F)
    (catalog : Catalog F)
    (vehicleModel : String)
    (activeVersion : Option UInt64)
    (rules : RuleSet F) : Prop where
  newer : ∀ active, activeVersion = some active →
    active < rules.rulesetVersion
  model : rules.model = anyModel ∨ rules.model = vehicleModel
  length_le : rules.rules.length ≤ maxRules
  distinct : (rules.rules.map Rule.id).Nodup
  rules : ∀ rule ∈ rules.rules, ValidRule cel catalog rule

/-- The byte length that is checked is the number of characters. -/
theorem isValidRuleId_eq_true_iff (id : String) :
    isValidRuleId id = true ↔ ValidId id := by
  have sameChars : id.toList.all Text.isIdentChar = true ↔
      ∀ c ∈ id.toList, c.isLower ∨ c.isDigit ∨ c = '_' := by
    simp only [List.all_eq_true, Text.isIdentChar, Bool.or_eq_true, beq_iff_eq,
      or_assoc]
  rw [isValidRuleId, Bool.and_eq_true, decide_eq_true_eq, ValidId, ← sameChars]
  apply and_congr_left
  intro ident
  rw [List.all_eq_true] at ident
  rw [Text.utf8ByteSize_of_isIdentChar ident]

section Compile

variable [F64 F]

omit [F64 F] in
/-- A condition compiles when it is valid. -/
theorem compile_isOk_iff
    {cel : Cel F}
    (source : String)
    (catalog : Catalog F) :
    (∃ condition, Condition.compile cel source catalog = .ok condition) ↔
      ValidCondition cel catalog source := by
  simp only [Condition.compile_eq_ok_iff]
  constructor
  · rintro ⟨condition, fits, notBlank, parsed, checked⟩
    exact ⟨fits, notBlank, condition.program, parsed, condition.signals, checked⟩
  · rintro ⟨fits, notBlank, program, parsed, signals, checked⟩
    exact ⟨⟨program, signals⟩, fits, notBlank, parsed, checked⟩

omit [F64 F] in
/-- What the condition of a rule compiles to. -/
theorem compileCondition_eq_ok_iff
    {cel : Cel F}
    (rule : Rule F)
    (catalog : Catalog F)
    (condition : Option (Condition cel)) :
    compileCondition cel rule catalog = .ok condition ↔
      match rule.condition with
      | none => condition = none
      | some source => ∃ compiled, condition = some compiled ∧
          Condition.compile cel source catalog = .ok compiled := by
  unfold compileCondition
  cases rule.condition with
  | none => simp [eq_comm]
  | some source =>
      simp only
      cases Condition.compile cel source catalog with
      | error reason => simp
      | ok compiled => simp [eq_comm]

/-- A rule compiles when it is valid. -/
theorem compileRule_isOk_iff
    {cel : Cel F}
    (rule : Rule F)
    (catalog : Catalog F) :
    (∃ compiled, compileRule cel rule catalog = .ok compiled) ↔
      ValidRule cel catalog rule := by
  simp only [compileRule_eq_ok_iff, isValidRuleId_eq_true_iff,
    compileBehaviour_eq_ok_iff, compileCondition_eq_ok_iff]
  constructor
  · rintro ⟨compiled, id, -, signal, named, -, ⟨fields, -⟩, conditioned⟩
    refine ⟨id, ⟨signal, named, fields⟩, fun source given => ?_⟩
    rw [given] at conditioned
    obtain ⟨condition, -, success⟩ := conditioned
    exact (compile_isOk_iff source catalog).mp ⟨condition, success⟩
  · rintro ⟨id, ⟨signal, named, fields⟩, valid⟩
    cases given : rule.condition with
    | none =>
        exact ⟨⟨rule, none, signal.unit, definedBehaviour rule⟩, id, rfl, signal,
          named, rfl, ⟨fields, rfl⟩, rfl⟩
    | some source =>
        obtain ⟨condition, success⟩ :=
          (compile_isOk_iff source catalog).mpr (valid source given)
        exact ⟨⟨rule, some condition, signal.unit, definedBehaviour rule⟩, id,
          rfl, signal, named, rfl, ⟨fields, rfl⟩, condition, rfl, success⟩

omit [F64 F] in
/-- The header of a document is fine when its version is newer and its model
fits. -/
theorem headerProblems_eq_nil_iff
    (rules : RuleSet F)
    (vehicleModel : String)
    (activeVersion : Option UInt64) :
    headerProblems rules vehicleModel activeVersion = [] ↔
      (∀ active, activeVersion = some active →
        active < rules.rulesetVersion) ∧
        (rules.model = anyModel ∨ rules.model = vehicleModel) := by
  have model : (if rules.model ≠ anyModel ∧ rules.model ≠ vehicleModel then
        [ValidationError.modelMismatch rules.model vehicleModel] else []) = [] ↔
      (rules.model = anyModel ∨ rules.model = vehicleModel) := by
    simp only [ite_eq_right_iff, List.cons_ne_nil, imp_false, not_and_or,
      not_not]
  unfold headerProblems
  rw [List.append_eq_nil_iff, model]
  apply and_congr_left'
  cases activeVersion with
  | none => simp
  | some active => simp

/-- A list has a pointwise counterpart when each of its elements has one. -/
theorem exists_forall₂_iff
    {relation : α → β → Prop}
    (items : List α) :
    (∃ results, List.Forall₂ relation items results) ↔
      ∀ item ∈ items, ∃ result, relation item result := by
  induction items with
  | nil => simp
  | cons item items inductionHypothesis =>
      rw [List.forall_mem_cons, ← inductionHypothesis]
      constructor
      · rintro ⟨_, _ | ⟨head, tail⟩⟩
        exact ⟨⟨_, head⟩, _, tail⟩
      · rintro ⟨⟨result, head⟩, results, tail⟩
        exact ⟨result :: results, .cons head tail⟩

/-- What a compiled rule says about the rule it was made from. -/
structure CompiledRule.Documented
    {cel : Cel F}
    (catalog : Catalog F)
    (compiled : CompiledRule cel) : Prop where
  behaviour : compiled.behaviour = definedBehaviour compiled.definition
  unit : ∃ signal, catalog.byName compiled.definition.signal = some signal ∧
    compiled.unit = signal.unit
  condition : match compiled.definition.condition with
    | none => compiled.condition = none
    | some source => ∃ condition, compiled.condition = some condition ∧
        Condition.compile cel source catalog = .ok condition

/-- A compiled rule is documented by its definition. -/
theorem documented_of_compileRule
    {cel : Cel F}
    {rule : Rule F}
    {catalog : Catalog F}
    {compiled : CompiledRule cel}
    (success : compileRule cel rule catalog = .ok compiled) :
    compiled.definition = rule ∧ compiled.Documented catalog := by
  obtain ⟨-, rfl, signal, named, unit, checked, conditioned⟩ :=
    (compileRule_eq_ok_iff ..).mp success
  exact ⟨rfl, ((compileBehaviour_eq_ok_iff ..).mp checked).2, ⟨signal, named, unit⟩,
    (compileCondition_eq_ok_iff ..).mp conditioned⟩

/-- A rule set compiles exactly when it is valid, and the result has its
version, its model and its rules, one for one and in order, each with the
documented behaviour. -/
theorem compileRuleset_exact
    (cel : Cel F)
    (rules : RuleSet F)
    (catalog : Catalog F)
    (vehicleModel : String)
    (activeVersion : Option UInt64) :
    ((∃ compiled : CompiledRuleSet cel,
      compileRuleset cel (.ok ()) rules catalog vehicleModel activeVersion =
        .ok compiled) ↔
      ValidRuleSet cel catalog vehicleModel activeVersion rules) ∧
    ∀ compiled : CompiledRuleSet cel,
      compileRuleset cel (.ok ()) rules catalog vehicleModel activeVersion =
        .ok compiled →
      compiled.version = rules.rulesetVersion ∧
        compiled.model = rules.model ∧
        List.Forall₂ (fun rule result =>
          result.definition = rule ∧ result.Documented catalog)
          rules.rules compiled.rules := by
  simp only [compileRuleset_eq_ok_iff, headerProblems_eq_nil_iff, true_and]
  refine ⟨⟨?_, ?_⟩, ?_⟩
  · rintro ⟨compiled, ⟨newer, model⟩, fits, -, distinct, results⟩
    refine ⟨newer, model, fits, distinct, fun rule member => ?_⟩
    rw [← compileRule_isOk_iff]
    exact (exists_forall₂_iff rules.rules).mp ⟨compiled.rules, results⟩ rule
      member
  · rintro ⟨newer, model, fits, distinct, valid⟩
    have each : ∀ rule ∈ rules.rules, ∃ compiled : CompiledRule cel,
        compileRule cel rule catalog = .ok compiled := fun rule member =>
      (compileRule_isOk_iff rule catalog).mpr (valid rule member)
    obtain ⟨compiled, results⟩ := (exists_forall₂_iff rules.rules).mpr each
    exact ⟨⟨rules.rulesetVersion, rules.model, compiled⟩, ⟨newer, model⟩, fits,
      ⟨rfl, rfl⟩, distinct, results⟩
  · rintro compiled ⟨-, -, ⟨version, model⟩, -, results⟩
    exact ⟨version, model,
      results.imp fun rule result success => documented_of_compileRule success⟩

end Compile

end Rules
end TelemetryEdge
