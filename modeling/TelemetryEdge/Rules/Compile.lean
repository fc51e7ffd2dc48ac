import TelemetryEdge.Foundation.Saturating
import TelemetryEdge.Protocol.Ruleset
import TelemetryEdge.Rules.Condition

/-!
# Rule set validation and compilation

`compileRuleset` collects the problems of a rule set document or turns it into
a compiled rule set.  The thread with a large stack that compiles the rules is
represented by its outcome.
-/

namespace TelemetryEdge
namespace Rules

open Protocol

/-- Most rules in a rule set. -/
def maxRules : Nat := 256

/-- Shortest interval of a periodic rule. -/
def minIntervalMs : UInt64 := 100

/-- What a compiled rule does. -/
inductive Behaviour (F : Type)
  | onChange (deadband : F)
  | periodic (intervalMs maxAgeMs : UInt64)

/-- A validated rule, ready for the engine. -/
structure CompiledRule (cel : Cel F) where
  definition : Rule F
  condition : Option (Condition cel)
  unit : Option String
  behaviour : Behaviour F

/-- Identifier of a rule. -/
def CompiledRule.id {cel : Cel F} (rule : CompiledRule cel) : String :=
  rule.definition.id

/-- A validated, compiled rule set. -/
structure CompiledRuleSet (cel : Cel F) where
  version : UInt64
  model : String
  rules : List (CompiledRule cel)

/-- The rule set used before any rules are loaded. -/
def CompiledRuleSet.empty {cel : Cel F} : CompiledRuleSet cel where
  version := 0
  model := anyModel
  rules := []

/-- A problem of a rule set document. -/
inductive ValidationError
  | notNewer (got active : UInt64)
  | modelMismatch (got vehicle : String)
  | tooManyRules (count : Nat)
  | invalidRule (rule reason : String)
  | invalidCondition (rule reason : String)
  | internal (reason : String)
  deriving DecidableEq

/-- Whether an id matches `^[a-z0-9_]{1,64}$`. -/
def isValidRuleId (id : String) : Bool :=
  decide (1 ≤ id.utf8ByteSize ∧ id.utf8ByteSize ≤ 64) &&
    id.toList.all Text.isIdentChar

section Compile

variable [F64 F]

/-- An `InvalidRule` problem of a rule. -/
def invalid (rule : Rule F) (reason : String) : ValidationError :=
  .invalidRule rule.id reason

/-- Check the fields that depend on the mode of a rule. -/
def compileBehaviour
    (rule : Rule F)
    (signal : Signal F) : Except ValidationError (Behaviour F) :=
  let fail (reason : String) : Except ValidationError (Behaviour F) :=
    .error (invalid rule reason)
  match rule.mode with
  | .onChange =>
      if rule.intervalMs.isSome || rule.maxAgeMs.isSome then
        fail "interval_ms and max_age_ms apply only to periodic rules"
      else
        let deadband := rule.deadband.getD F64.zero
        if !F64.isFinite deadband || F64.lt deadband F64.zero then
          fail "deadband must be a finite number >= 0"
        else if rule.deadband.isSome && signal.kind != .num then
          fail "deadband applies only to numeric signals"
        else .ok (.onChange deadband)
  | .periodic =>
      if rule.deadband.isSome then
        fail "deadband applies only to on_change rules"
      else
        match rule.intervalMs with
        | none => fail "periodic rules require interval_ms"
        | some intervalMs =>
            if intervalMs < minIntervalMs then
              fail s!"interval_ms must be >= {minIntervalMs}"
            else
              let maxAgeMs :=
                rule.maxAgeMs.getD (Saturating.saturatingMul intervalMs 3)
              if maxAgeMs = 0 then fail "max_age_ms must be > 0"
              else .ok (.periodic intervalMs maxAgeMs)

/-- Compile the condition of a rule, if it has one. -/
def compileCondition
    (cel : Cel F)
    (rule : Rule F)
    (catalog : Catalog F) :
    Except ValidationError (Option (Condition cel)) :=
  match rule.condition with
  | none => .ok none
  | some source =>
      match Condition.compile cel source catalog with
      | .error reason => .error (.invalidCondition rule.id reason)
      | .ok condition => .ok (some condition)

/-- Validate and compile one rule. -/
def compileRule
    (cel : Cel F)
    (rule : Rule F)
    (catalog : Catalog F) : Except ValidationError (CompiledRule cel) :=
  if !isValidRuleId rule.id then
    .error (invalid rule "id must match ^[a-z0-9_]\x7b1,64\x7d$")
  else
    match catalog.byName rule.signal with
    | none => .error (invalid rule s!"unknown signal '{rule.signal}'")
    | some signal =>
        match compileBehaviour rule signal with
        | .error error => .error error
        | .ok behaviour =>
            match compileCondition cel rule catalog with
            | .error error => .error error
            | .ok condition =>
                .ok {
                  definition := rule
                  condition
                  unit := signal.unit
                  behaviour }

/-- The loop over the rules of a document: compiled rules and problems, with
the ids seen so far. -/
def compileRules
    (cel : Cel F)
    (catalog : Catalog F) :
    List String → List (Rule F) →
      List (CompiledRule cel) × List ValidationError
  | _, [] => ([], [])
  | seen, rule :: rules =>
      if rule.id ∈ seen then
        let (compiled, errors) := compileRules cel catalog seen rules
        (compiled, invalid rule "duplicate rule id" :: errors)
      else
        let (compiled, errors) :=
          compileRules cel catalog (rule.id :: seen) rules
        match compileRule cel rule catalog with
        | .ok compiledRule => (compiledRule :: compiled, errors)
        | .error error => (compiled, error :: errors)

/-- Problems of the version and the model of a document. -/
def headerProblems
    (rules : RuleSet F)
    (vehicleModel : String)
    (activeVersion : Option UInt64) : List ValidationError :=
  (match activeVersion with
    | some active =>
        if rules.rulesetVersion ≤ active then
          [.notNewer rules.rulesetVersion active]
        else []
    | none => []) ++
  if rules.model ≠ anyModel ∧ rules.model ≠ vehicleModel then
    [.modelMismatch rules.model vehicleModel]
  else []

/-- Validate and compile a rule set document for a vehicle.  `thread` is the
outcome of the compiler thread: an error when it did not start or panicked. -/
def compileRuleset
    (cel : Cel F)
    (thread : Except String Unit)
    (rules : RuleSet F)
    (catalog : Catalog F)
    (vehicleModel : String)
    (activeVersion : Option UInt64) :
    Except (List ValidationError) (CompiledRuleSet cel) :=
  let errors := headerProblems rules vehicleModel activeVersion
  if maxRules < rules.rules.length then
    .error (errors ++ [.tooManyRules rules.rules.length])
  else
    match thread with
    | .error error => .error (errors ++ [.internal error])
    | .ok () =>
        let (compiled, ruleErrors) := compileRules cel catalog [] rules.rules
        let errors := errors ++ ruleErrors
        if errors.isEmpty then
          .ok {
            version := rules.rulesetVersion
            model := rules.model
            rules := compiled }
        else .error errors

end Compile

end Rules
end TelemetryEdge
