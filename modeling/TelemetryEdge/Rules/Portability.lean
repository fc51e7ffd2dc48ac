import TelemetryEdge.Protocol.Lookup
import TelemetryEdge.Rules.Loaded

/-!
# Rule sets for every vehicle model

Two catalogs that declare the same signal names with the same kinds accept the
same rule sets for any model, reject the others with the same errors, and compile
rules that differ in their units only.
-/

namespace TelemetryEdge
namespace Rules

open Protocol

/-- Catalogs that declare the same signal names with the same kind for each
name. -/
def SameNames [F64 F] (first second : AcceptedCatalog F) : Prop :=
  ∀ name kind,
    (∃ signal ∈ first.signals, signal.name = name ∧ signal.kind = kind) ↔
      ∃ signal ∈ second.signals, signal.name = name ∧ signal.kind = kind

/-- Catalogs whose lookups by name find signals of the same kind. -/
def SameKinds (first second : Catalog F) : Prop :=
  ∀ name, (first.byName name).map Signal.kind =
    (second.byName name).map Signal.kind

/-- Lookups in catalogs with the same names find the same kinds. -/
theorem SameNames.sameKinds [F64 F]
    {first second : AcceptedCatalog F}
    (same : SameNames first second) :
    SameKinds first.toCatalog second.toCatalog := by
  intro name
  apply Option.ext
  intro kind
  simp only [Option.map_eq_some_iff, AcceptedCatalog.byName_eq_some_iff,
    and_assoc]
  exact same name kind

/-- A rule without its unit. -/
def CompiledRule.unitless {cel : Cel F} (rule : CompiledRule cel) :
    CompiledRule cel :=
  { rule with unit := none }

/-- A rule set without units. -/
def CompiledRuleSet.unitless {cel : Cel F} (set : CompiledRuleSet cel) :
    CompiledRuleSet cel :=
  { set with rules := set.rules.map CompiledRule.unitless }

section Compile

variable {first second : Catalog F} {cel : Cel F}

/-- The check of a syntax tree asks a catalog only which names it has. -/
theorem checkStack_congr
    (same : SameKinds first second)
    (signals : List String)
    (stack : List (Expr × Nat)) :
    checkStack first signals stack = checkStack second signals stack := by
  have sameNames : ∀ name,
      (first.byName name).isNone = (second.byName name).isNone := by
    intro name
    rw [← Option.isNone_map (f := Signal.kind), same name, Option.isNone_map]
  fun_induction checkStack first signals stack with
  | case1 signals => rw [checkStack]
  | case3 signals depth rest shallow name unknown =>
      rw [sameNames] at unknown
      rw [checkStack, if_neg shallow, if_pos unknown]
  | case4 signals depth rest shallow name known inductionHypothesis =>
      rw [sameNames] at known
      rw [inductionHypothesis, checkStack.eq_def second signals (_ :: _)]
      simp only [if_neg shallow, if_neg known]
  | case7 signals depth rest shallow value notBytes notNull
      inductionHypothesis =>
      rw [inductionHypothesis, checkStack.eq_def second signals (_ :: _)]
      simp only [if_neg shallow]
  | case9 signals depth rest shallow target funcName args passes
      inductionHypothesis =>
      rw [inductionHypothesis, checkStack.eq_def second signals (_ :: _)]
      simp only [if_neg shallow, if_neg passes]
  | _ =>
      rw [checkStack.eq_def]
      simp only [*, if_true, if_false]

/-- A condition compiles to the same result. -/
theorem compile_congr
    (same : SameKinds first second)
    (source : String) :
    Condition.compile cel source first = Condition.compile cel source second := by
  unfold Condition.compile checkAst
  simp only [checkStack_congr same]

variable [F64 F]

omit [F64 F] in
/-- The condition of a rule compiles to the same result. -/
theorem compileCondition_congr
    (same : SameKinds first second)
    (rule : Rule F) :
    compileCondition cel rule first = compileCondition cel rule second := by
  unfold compileCondition
  simp only [compile_congr same]

/-- The checks of the fields look at the kind of a signal only. -/
theorem compileBehaviour_congr
    {signal other : Signal F}
    (sameKind : signal.kind = other.kind)
    (rule : Rule F) :
    compileBehaviour rule signal = compileBehaviour rule other := by
  unfold compileBehaviour
  rw [sameKind]

/-- A rule compiles to the same result, up to its unit. -/
theorem compileRule_congr
    (cel : Cel F)
    (same : SameKinds first second)
    (rule : Rule F) :
    (compileRule cel rule first).map CompiledRule.unitless =
      (compileRule cel rule second).map CompiledRule.unitless := by
  have sameSignal := same rule.signal
  unfold compileRule
  split
  · rfl
  · cases found : first.byName rule.signal with
    | none =>
        rw [found, Option.map_none, eq_comm, Option.map_eq_none_iff] at sameSignal
        rw [sameSignal]
    | some signal =>
        rw [found, Option.map_some, eq_comm, Option.map_eq_some_iff] at sameSignal
        obtain ⟨other, alsoFound, sameKind⟩ := sameSignal
        rw [alsoFound]
        simp only [compileBehaviour_congr sameKind, compileCondition_congr same]
        cases compileBehaviour rule signal with
        | error error => rfl
        | ok behaviour => cases compileCondition cel rule second <;> rfl

/-- The loop over the rules finds the same problems, and compiles the same rules
up to their units. -/
theorem compileRules_congr
    (cel : Cel F)
    (same : SameKinds first second)
    (seen : List String)
    (rules : List (Rule F)) :
    (compileRules cel first seen rules).map (List.map CompiledRule.unitless) id =
      (compileRules cel second seen rules).map
        (List.map CompiledRule.unitless) id := by
  induction rules generalizing seen with
  | nil => rfl
  | cons rule rules inductionHypothesis =>
      rw [compileRules, compileRules]
      split
      · have tail := Prod.ext_iff.mp (inductionHypothesis seen)
        exact Prod.ext tail.1 (congrArg (_ :: ·) tail.2)
      · have head := compileRule_congr cel same rule
        have tail := Prod.ext_iff.mp (inductionHypothesis (rule.id :: seen))
        cases compiled : compileRule cel rule first with
        | error error =>
            rw [compiled] at head
            cases alsoCompiled : compileRule cel rule second with
            | ok result => rw [alsoCompiled] at head; cases head
            | error other =>
                rw [alsoCompiled] at head
                obtain rfl := Except.error.inj head
                exact Prod.ext tail.1 (congrArg (error :: ·) tail.2)
        | ok result =>
            rw [compiled] at head
            cases alsoCompiled : compileRule cel rule second with
            | error error => rw [alsoCompiled] at head; cases head
            | ok other =>
                rw [alsoCompiled] at head
                exact Prod.ext
                  (congrArg₂ (· :: ·) (Except.ok.inj head) tail.1) tail.2

omit [F64 F] in
/-- A document for any model has the same header problems on every vehicle. -/
theorem headerProblems_of_anyModel
    {rules : RuleSet F}
    (anywhere : rules.model = anyModel)
    (vehicleModel otherModel : String)
    (activeVersion : Option UInt64) :
    headerProblems rules vehicleModel activeVersion =
      headerProblems rules otherModel activeVersion := by
  unfold headerProblems
  simp only [anywhere, ne_eq, not_true_eq_false, false_and, if_false]

/-- A document for any model compiles to the same result on every vehicle, up to
units. -/
theorem compileRuleset_congr
    (cel : Cel F)
    (same : SameKinds first second)
    {rules : RuleSet F}
    (anywhere : rules.model = anyModel)
    (thread : Except String Unit)
    (vehicleModel otherModel : String)
    (activeVersion : Option UInt64) :
    (compileRuleset cel thread rules first vehicleModel activeVersion).map
        CompiledRuleSet.unitless =
      (compileRuleset cel thread rules second otherModel activeVersion).map
        CompiledRuleSet.unitless := by
  have sameHeader := headerProblems_of_anyModel anywhere vehicleModel otherModel
    activeVersion
  obtain ⟨sameRules, sameErrors⟩ := Prod.ext_iff.mp
    (compileRules_congr cel same [] rules.rules)
  simp only [Prod.map_fst, Prod.map_snd, id] at sameRules sameErrors
  unfold compileRuleset
  simp only [sameHeader, sameErrors]
  split
  · rfl
  · cases thread with
    | error error => rfl
    | ok outcome =>
        simp only
        split
        · simp only [Except.map, CompiledRuleSet.unitless, sameRules]
        · rfl

end Compile

end Rules
end TelemetryEdge
