import TelemetryEdge.Rules.Swap
import TelemetryEdge.Rules.Acceptance

/-!
# What a rejected rule set reports

The errors of a rejected document, rule by rule.  A rule is checked in steps and
the first step that fails is the only one that is reported, and a rule that
repeats an id is not checked at all; so the fault of a condition is reported
when the first rule with its id reaches the compilation of a faulty condition.
-/

namespace TelemetryEdge
namespace Rules

open Protocol

/-- A rule whose id, signal and mode fields are fine. -/
def ValidApart [F64 F] (catalog : Catalog F) (rule : Rule F) : Prop :=
  ValidId rule.id ∧ ∃ signal, catalog.byName rule.signal = some signal ∧
    ValidFields rule signal.kind

/-- A fault of a rule that stands after others, its condition apart. -/
inductive RuleFault [F64 F]
    (catalog : Catalog F)
    (earlier : List (Rule F))
    (rule : Rule F) : Prop
  | badId (bad : ¬ ValidId rule.id)
  | repeatedId (repeated : rule.id ∈ earlier.map Rule.id)
  | unknownSignal (unknown : catalog.byName rule.signal = none)
  | badFields (signal : Signal F)
      (named : catalog.byName rule.signal = some signal)
      (bad : ¬ ValidFields rule signal.kind)

/-- A condition that does not compile. -/
def ConditionFault
    (cel : Cel F)
    (catalog : Catalog F)
    (rule : Rule F) : Prop :=
  ∃ source, rule.condition = some source ∧ ¬ ValidCondition cel catalog source

/-- Whether an error is about one rule. -/
def ValidationError.aboutRule : ValidationError → Bool
  | .invalidRule _ _ | .invalidCondition _ _ => true
  | _ => false

/-- An error about a rule that stands after others names a fault it has. -/
inductive Justified [F64 F]
    (cel : Cel F)
    (catalog : Catalog F)
    (earlier : List (Rule F))
    (rule : Rule F) : ValidationError → Prop
  | rule (reason : String) (fault : RuleFault catalog earlier rule) :
      Justified cel catalog earlier rule (.invalidRule rule.id reason)
  | condition (reason : String) (fault : ConditionFault cel catalog rule) :
      Justified cel catalog earlier rule (.invalidCondition rule.id reason)

/-- Errors about rules that follow others, in the order of the rules: about each
rule only the faults it has. -/
inductive AllJustified [F64 F]
    (cel : Cel F)
    (catalog : Catalog F) :
    List (Rule F) → List (Rule F) → List ValidationError → Prop
  | nil (earlier : List (Rule F)) : AllJustified cel catalog earlier [] []
  | cons (earlier : List (Rule F)) (rule : Rule F) (rules : List (Rule F))
      (about errors : List ValidationError)
      (justified : ∀ error ∈ about, Justified cel catalog earlier rule error)
      (rest : AllJustified cel catalog (earlier ++ [rule]) rules errors) :
      AllJustified cel catalog earlier (rule :: rules) (about ++ errors)

/-- The errors of a rejected document report every failure at once. -/
structure ReportsEvery [F64 F]
    (cel : Cel F)
    (catalog : Catalog F)
    (vehicleModel : String)
    (activeVersion : Option UInt64)
    (rules : RuleSet F)
    (errors : List ValidationError) : Prop where
  /-- The version is not newer than the active one. -/
  notNewer : ∀ got active, .notNewer got active ∈ errors ↔
    got = rules.rulesetVersion ∧ activeVersion = some active ∧
      rules.rulesetVersion ≤ active
  /-- The model is neither any model nor that of the vehicle. -/
  modelMismatch : ∀ got vehicle, .modelMismatch got vehicle ∈ errors ↔
    got = rules.model ∧ vehicle = vehicleModel ∧ rules.model ≠ anyModel ∧
      rules.model ≠ vehicleModel
  /-- Every rule with a fault apart from its condition is named. -/
  invalidRule : ∀ earlier rule later,
    rules.rules = earlier ++ rule :: later → RuleFault catalog earlier rule →
      ∃ reason, .invalidRule rule.id reason ∈ errors
  /-- Every rule whose condition does not compile is named. -/
  invalidCondition : ∀ rule ∈ rules.rules, ConditionFault cel catalog rule →
    ∃ reason, .invalidCondition rule.id reason ∈ errors
  /-- There is no error for a rule without a fault. -/
  faultless : AllJustified cel catalog [] rules.rules
    (errors.filter ValidationError.aboutRule)

/-- The first rule with the id of a rule whose condition does not compile has a
condition that does not compile either, and is fine otherwise. -/
def ConditionsReached [F64 F]
    (cel : Cel F)
    (catalog : Catalog F)
    (rules : List (Rule F)) : Prop :=
  ∀ rule ∈ rules, ConditionFault cel catalog rule →
    ∃ first, rules.find? (·.id == rule.id) = some first ∧
      ValidApart catalog first ∧ ConditionFault cel catalog first

section Reporting

variable [F64 F] {cel : Cel F}

/-- The checks of the mode fields fail with an error about the rule. -/
theorem compileBehaviour_eq_error
    {rule : Rule F}
    {signal : Signal F}
    {error : ValidationError}
    (failure : compileBehaviour rule signal = .error error) :
    ∃ reason, error = .invalidRule rule.id reason := by
  unfold compileBehaviour at failure
  cases mode : rule.mode with
  | onChange =>
      simp only [mode] at failure
      split_ifs at failure <;>
        exact ⟨_, (Except.error.inj failure).symm⟩
  | periodic =>
      simp only [mode] at failure
      split_ifs at failure
      · exact ⟨_, (Except.error.inj failure).symm⟩
      · split at failure
        · exact ⟨_, (Except.error.inj failure).symm⟩
        · split_ifs at failure <;>
            exact ⟨_, (Except.error.inj failure).symm⟩

/-- The checks of the mode fields fail only on fields that do not fit. -/
theorem not_validFields_of_compileBehaviour
    {rule : Rule F}
    {signal : Signal F}
    {error : ValidationError}
    (failure : compileBehaviour rule signal = .error error) :
    ¬ ValidFields rule signal.kind := by
  intro fields
  have success :=
    (compileBehaviour_eq_ok_iff rule signal _).mpr ⟨fields, rfl⟩
  rw [failure] at success
  cases success

omit [F64 F] in
/-- A condition fails with an error about the condition. -/
theorem compileCondition_eq_error
    {rule : Rule F}
    {catalog : Catalog F}
    {error : ValidationError}
    (failure : compileCondition cel rule catalog = .error error) :
    ConditionFault cel catalog rule ∧
      ∃ reason, error = .invalidCondition rule.id reason := by
  unfold compileCondition at failure
  cases given : rule.condition with
  | none =>
      rw [given] at failure
      cases failure
  | some source =>
      simp only [given] at failure
      cases compiled : Condition.compile cel source catalog with
      | ok condition =>
          rw [compiled] at failure
          cases failure
      | error reason =>
          rw [compiled] at failure
          refine ⟨⟨source, given, fun valid => ?_⟩, reason,
            (Except.error.inj failure).symm⟩
          obtain ⟨condition, success⟩ :=
            (compile_isOk_iff source catalog).mpr valid
          rw [compiled] at success
          cases success

/-- A rule is valid when it is fine apart from its condition and the condition,
if it has one, compiles. -/
theorem validRule_iff
    (catalog : Catalog F)
    (rule : Rule F) :
    ValidRule cel catalog rule ↔
      ValidApart catalog rule ∧ ¬ ConditionFault cel catalog rule := by
  have conditions : ¬ ConditionFault cel catalog rule ↔
      ∀ source, rule.condition = some source →
        ValidCondition cel catalog source := by
    simp only [ConditionFault, not_exists, not_and, not_not]
  rw [conditions]
  constructor
  · intro valid
    exact ⟨⟨valid.id, valid.signal⟩, valid.condition⟩
  · rintro ⟨⟨id, signal⟩, condition⟩
    exact ⟨id, signal, condition⟩

/-- A rule fails on its condition only when all else is fine. -/
theorem compileRule_eq_error
    {rule : Rule F}
    {catalog : Catalog F}
    {error : ValidationError}
    (failure : compileRule cel rule catalog = .error error) :
    (¬ ValidApart catalog rule ∧
        ∃ reason, error = .invalidRule rule.id reason) ∨
      ((ValidApart catalog rule ∧ ConditionFault cel catalog rule) ∧
        ∃ reason, error = .invalidCondition rule.id reason) := by
  unfold compileRule at failure
  cases validId : isValidRuleId rule.id with
  | false =>
      have badId : ¬ ValidId rule.id := by
        rw [← isValidRuleId_eq_true_iff, validId]
        exact Bool.false_ne_true
      rw [validId] at failure
      exact .inl ⟨fun fine => badId fine.1, _,
        (Except.error.inj failure).symm⟩
  | true =>
      simp only [validId, Bool.not_true, Bool.false_eq_true, if_false] at failure
      cases named : catalog.byName rule.signal with
      | none =>
          rw [named] at failure
          refine .inl ⟨?_, _, (Except.error.inj failure).symm⟩
          rintro ⟨-, signal, found, -⟩
          rw [named] at found
          cases found
      | some signal =>
          simp only [named] at failure
          cases checked : compileBehaviour rule signal with
          | error fieldError =>
              simp only [checked, Except.error.injEq] at failure
              subst failure
              refine .inl ⟨?_, compileBehaviour_eq_error checked⟩
              rintro ⟨-, other, found, fields⟩
              obtain rfl := Option.some.inj (named.symm.trans found)
              exact not_validFields_of_compileBehaviour checked fields
          | ok behaviour =>
              have fields :=
                ((compileBehaviour_eq_ok_iff rule signal behaviour).mp checked).1
              cases conditioned : compileCondition cel rule catalog with
              | error conditionError =>
                  simp only [checked, conditioned, Except.error.injEq]
                    at failure
                  subst failure
                  obtain ⟨fault, reported⟩ :=
                    compileCondition_eq_error conditioned
                  have id := (isValidRuleId_eq_true_iff rule.id).mp validId
                  exact .inr ⟨⟨⟨id, signal, named, fields⟩, fault⟩, reported⟩
              | ok condition =>
                  simp only [checked, conditioned, reduceCtorEq] at failure

/-- A rule with a fault apart from its condition fails on it. -/
theorem compileRule_of_not_validApart
    (cel : Cel F)
    {rule : Rule F}
    {catalog : Catalog F}
    (faulty : ¬ ValidApart catalog rule) :
    ∃ reason, compileRule cel rule catalog =
      .error (.invalidRule rule.id reason) := by
  cases result : compileRule cel rule catalog with
  | ok compiled =>
      have valid := (compileRule_isOk_iff rule catalog).mp ⟨compiled, result⟩
      exact absurd ((validRule_iff catalog rule).mp valid).1 faulty
  | error error =>
      cases compileRule_eq_error result with
      | inl reported =>
          obtain ⟨-, reason, rfl⟩ := reported
          exact ⟨reason, rfl⟩
      | inr reported => exact absurd reported.1.1 faulty

/-- A rule with no other fault fails on its condition. -/
theorem compileRule_of_conditionFault
    {rule : Rule F}
    {catalog : Catalog F}
    (fine : ValidApart catalog rule)
    (fault : ConditionFault cel catalog rule) :
    ∃ reason, compileRule cel rule catalog =
      .error (.invalidCondition rule.id reason) := by
  cases result : compileRule cel rule catalog with
  | ok compiled =>
      have valid := (compileRule_isOk_iff rule catalog).mp ⟨compiled, result⟩
      exact absurd fault ((validRule_iff catalog rule).mp valid).2
  | error error =>
      cases compileRule_eq_error result with
      | inl reported => exact absurd fine reported.1
      | inr reported =>
          obtain ⟨-, reason, rfl⟩ := reported
          exact ⟨reason, rfl⟩

/-! ## The loop over the rules -/

/-- The loop asks of the ids before a rule only which ones they are. -/
theorem compileRules_sameSeen
    (catalog : Catalog F)
    {seen other : List String}
    (same : ∀ id, id ∈ seen ↔ id ∈ other)
    (rules : List (Rule F)) :
    compileRules cel catalog seen rules =
      compileRules cel catalog other rules := by
  induction rules generalizing seen other with
  | nil => rfl
  | cons rule rules inductionHypothesis =>
      have longer : ∀ id, id ∈ rule.id :: seen ↔ id ∈ rule.id :: other := by
        intro id
        rw [List.mem_cons, List.mem_cons, same]
      simp only [compileRules, same rule.id, inductionHypothesis same,
        inductionHypothesis longer]

/-- The errors that the loop adds for a rule that stands after others. -/
def errorsAbout
    (cel : Cel F)
    (catalog : Catalog F)
    (earlier : List (Rule F))
    (rule : Rule F) : List ValidationError :=
  if rule.id ∈ earlier.map Rule.id then [invalid rule "duplicate rule id"]
  else
    match compileRule cel rule catalog with
    | .ok _ => []
    | .error error => [error]

/-- Each rule adds its errors to those of the rules after it. -/
theorem compileRules_errors_cons
    (catalog : Catalog F)
    (earlier : List (Rule F))
    (rule : Rule F)
    (rules : List (Rule F)) :
    (compileRules cel catalog (earlier.map Rule.id) (rule :: rules)).2 =
      errorsAbout cel catalog earlier rule ++
        (compileRules cel catalog ((earlier ++ [rule]).map Rule.id) rules).2 := by
  rw [compileRules, errorsAbout, List.map_append]
  by_cases repeated : rule.id ∈ earlier.map Rule.id
  · have same : ∀ id, id ∈ earlier.map Rule.id ↔
        id ∈ earlier.map Rule.id ++ [rule].map Rule.id := by
      intro id
      simp only [List.map_cons, List.map_nil, List.mem_append,
        List.mem_singleton, iff_self_or]
      rintro rfl
      exact repeated
    rw [if_pos repeated, if_pos repeated, ← compileRules_sameSeen catalog same]
    rfl
  · have same : ∀ id, id ∈ rule.id :: earlier.map Rule.id ↔
        id ∈ earlier.map Rule.id ++ [rule].map Rule.id := by
      intro id
      rw [List.map_singleton, List.mem_append, List.mem_singleton, List.mem_cons,
        or_comm]
    rw [if_neg repeated, if_neg repeated, ← compileRules_sameSeen catalog same]
    cases compileRule cel rule catalog with
    | ok compiled => rfl
    | error error => rfl

/-- The loop reports about every rule, against the ids of all rules before
it. -/
theorem mem_compileRules_iff
    (cel : Cel F)
    (catalog : Catalog F)
    (before rules : List (Rule F))
    (error : ValidationError) :
    error ∈ (compileRules cel catalog (before.map Rule.id) rules).2 ↔
      ∃ earlier rule later, rules = earlier ++ rule :: later ∧
        error ∈ errorsAbout cel catalog (before ++ earlier) rule := by
  induction rules generalizing before with
  | nil => simp [compileRules]
  | cons rule rules inductionHypothesis =>
      rw [compileRules_errors_cons, List.mem_append, inductionHypothesis]
      constructor
      · rintro (here | ⟨earlier, found, later, rfl, there⟩)
        · exact ⟨[], rule, rules, rfl, by rwa [List.append_nil]⟩
        · refine ⟨rule :: earlier, found, later, rfl, ?_⟩
          rwa [List.append_cons]
      · rintro ⟨earlier, found, later, split, there⟩
        cases earlier with
        | nil =>
            obtain ⟨rfl, rfl⟩ := List.cons.inj split
            exact .inl (by rwa [List.append_nil] at there)
        | cons first earlier =>
            obtain ⟨rfl, rfl⟩ := List.cons.inj split
            exact .inr ⟨earlier, found, later, rfl,
              by rwa [List.append_cons] at there⟩

/-- A rule with a fault apart from its condition gets an error. -/
theorem errorsAbout_of_ruleFault
    (cel : Cel F)
    {catalog : Catalog F}
    {earlier : List (Rule F)}
    {rule : Rule F}
    (fault : RuleFault catalog earlier rule) :
    ∃ reason, .invalidRule rule.id reason ∈
      errorsAbout cel catalog earlier rule := by
  rw [errorsAbout]
  by_cases repeated : rule.id ∈ earlier.map Rule.id
  · rw [if_pos repeated]
    exact ⟨_, List.mem_singleton_self _⟩
  · have faulty : ¬ ValidApart catalog rule := by
      rintro ⟨id, signal, named, fields⟩
      cases fault with
      | badId bad => exact bad id
      | repeatedId known => exact repeated known
      | unknownSignal unknown => simp [unknown] at named
      | badFields other found bad =>
          obtain rfl := Option.some.inj (found.symm.trans named)
          exact bad fields
    obtain ⟨reason, failure⟩ := compileRule_of_not_validApart cel faulty
    rw [if_neg repeated, failure]
    exact ⟨reason, List.mem_singleton_self _⟩

/-- A rule with no fault apart from its condition has a good id, a known signal
and mode fields that fit. -/
theorem ruleFault_of_not_validApart
    {catalog : Catalog F}
    {rule : Rule F}
    (earlier : List (Rule F))
    (faulty : ¬ ValidApart catalog rule) :
    RuleFault catalog earlier rule := by
  by_cases id : ValidId rule.id
  · cases named : catalog.byName rule.signal with
    | none => exact .unknownSignal named
    | some signal =>
        exact .badFields signal named
          fun fields => faulty ⟨id, signal, named, fields⟩
  · exact .badId id

/-- The errors about a rule name faults it has. -/
theorem justified_of_mem_errorsAbout
    {catalog : Catalog F}
    {earlier : List (Rule F)}
    {rule : Rule F}
    {error : ValidationError}
    (reported : error ∈ errorsAbout cel catalog earlier rule) :
    Justified cel catalog earlier rule error := by
  rw [errorsAbout] at reported
  split_ifs at reported with repeated
  · rw [List.mem_singleton.mp reported]
    exact .rule _ (.repeatedId repeated)
  · cases result : compileRule cel rule catalog with
    | ok compiled => simp [result] at reported
    | error found =>
        rw [result] at reported
        rw [List.mem_singleton.mp reported]
        cases compileRule_eq_error result with
        | inl ofRule =>
            obtain ⟨faulty, reason, rfl⟩ := ofRule
            exact .rule reason (ruleFault_of_not_validApart earlier faulty)
        | inr ofCondition =>
            obtain ⟨⟨-, fault⟩, reason, rfl⟩ := ofCondition
            exact .condition reason fault

/-- An error about the condition is reported for a rule whose id is new and
that has no other fault. -/
theorem invalidCondition_mem_errorsAbout_iff
    (cel : Cel F)
    (catalog : Catalog F)
    (earlier : List (Rule F))
    (rule : Rule F)
    (id : String) :
    (∃ reason, .invalidCondition id reason ∈
        errorsAbout cel catalog earlier rule) ↔
      rule.id = id ∧ rule.id ∉ earlier.map Rule.id ∧
        ValidApart catalog rule ∧ ConditionFault cel catalog rule := by
  rw [errorsAbout]
  constructor
  · rintro ⟨reason, reported⟩
    split_ifs at reported with repeated
    · cases List.mem_singleton.mp reported
    · cases result : compileRule cel rule catalog with
      | ok compiled => simp [result] at reported
      | error found =>
          rw [result] at reported
          obtain rfl := List.mem_singleton.mp reported
          cases compileRule_eq_error result with
          | inl ofRule =>
              obtain ⟨-, other, clash⟩ := ofRule
              cases clash
          | inr ofCondition =>
              obtain ⟨faults, other, same⟩ := ofCondition
              injection same with sameId
              exact ⟨sameId.symm, repeated, faults⟩
  · rintro ⟨rfl, fresh, fine, fault⟩
    obtain ⟨reason, failure⟩ := compileRule_of_conditionFault fine fault
    rw [if_neg fresh, failure]
    exact ⟨reason, List.mem_singleton_self _⟩

/-- The conditions that are reported are those of the first rule with an id,
when it has no other fault. -/
theorem invalidCondition_mem_compileRules_iff
    (catalog : Catalog F)
    (rules : List (Rule F))
    (id : String) :
    (∃ reason, .invalidCondition id reason ∈
        (compileRules cel catalog [] rules).2) ↔
      ∃ first, rules.find? (·.id == id) = some first ∧
        ValidApart catalog first ∧ ConditionFault cel catalog first := by
  have atStart := mem_compileRules_iff cel catalog [] rules
  simp only [List.map_nil, List.nil_append] at atStart
  simp only [atStart]
  constructor
  · rintro ⟨reason, earlier, rule, later, split, reported⟩
    obtain ⟨sameId, fresh, faults⟩ :=
      (invalidCondition_mem_errorsAbout_iff ..).mp ⟨reason, reported⟩
    refine ⟨rule, List.find?_eq_some_iff_append.mpr
      ⟨beq_iff_eq.mpr sameId, earlier, later, split, ?_⟩, faults⟩
    intro other member
    rw [Bool.not_eq_true', beq_eq_false_iff_ne]
    rintro rfl
    exact fresh (sameId ▸ List.mem_map_of_mem member)
  · rintro ⟨first, found, faults⟩
    obtain ⟨sameId, earlier, later, split, others⟩ :=
      List.find?_eq_some_iff_append.mp found
    rw [beq_iff_eq] at sameId
    have fresh : first.id ∉ earlier.map Rule.id := by
      intro repeated
      obtain ⟨other, member, clash⟩ := List.mem_map.mp repeated
      have differs := others other member
      simp [clash, sameId] at differs
    obtain ⟨reason, reported⟩ :=
      (invalidCondition_mem_errorsAbout_iff cel catalog earlier first
        id).mpr ⟨sameId, fresh, faults⟩
    exact ⟨reason, earlier, first, later, split, reported⟩

/-- The errors of the loop are justified rule by rule. -/
theorem allJustified_compileRules
    (cel : Cel F)
    (catalog : Catalog F)
    (earlier rules : List (Rule F)) :
    AllJustified cel catalog earlier rules
      (compileRules cel catalog (earlier.map Rule.id) rules).2 := by
  induction rules generalizing earlier with
  | nil => exact .nil earlier
  | cons rule rules inductionHypothesis =>
      rw [compileRules_errors_cons]
      exact .cons earlier rule rules _ _
        (fun error reported => justified_of_mem_errorsAbout reported)
        (inductionHypothesis (earlier ++ [rule]))

/-- Errors that are justified rule by rule are all about rules. -/
theorem AllJustified.aboutRule
    {catalog : Catalog F}
    {earlier rules : List (Rule F)}
    {errors : List ValidationError}
    (justified : AllJustified cel catalog earlier rules errors) :
    ∀ error ∈ errors, error.aboutRule = true := by
  induction justified with
  | nil earlier => exact fun _ member => absurd member List.not_mem_nil
  | cons earlier rule rules about errors each rest inductionHypothesis =>
      intro error member
      cases List.mem_append.mp member with
      | inl here =>
          cases each error here with
          | rule reason fault => rfl
          | condition reason fault => rfl
      | inr there => exact inductionHypothesis error there

omit [F64 F] in
/-- The problems of the header are an old version and a foreign model. -/
theorem mem_headerProblems_iff
    (rules : RuleSet F)
    (vehicleModel : String)
    (activeVersion : Option UInt64)
    (error : ValidationError) :
    error ∈ headerProblems rules vehicleModel activeVersion ↔
      (∃ active, activeVersion = some active ∧
        rules.rulesetVersion ≤ active ∧
          error = .notNewer rules.rulesetVersion active) ∨
      (rules.model ≠ anyModel ∧ rules.model ≠ vehicleModel) ∧
        error = .modelMismatch rules.model vehicleModel := by
  unfold headerProblems
  rw [List.mem_append]
  apply or_congr
  · cases activeVersion with
    | none => simp
    | some active =>
        by_cases old : rules.rulesetVersion ≤ active
        · simp [old]
        · simp [old]
  · split_ifs with foreign
    · simp [foreign]
    · simp [foreign]

omit [F64 F] in
/-- No problem of the header is about a rule. -/
theorem aboutRule_headerProblems
    {rules : RuleSet F}
    {vehicleModel : String}
    {activeVersion : Option UInt64}
    {error : ValidationError}
    (member : error ∈ headerProblems rules vehicleModel activeVersion) :
    error.aboutRule = false := by
  rcases (mem_headerProblems_iff ..).mp member with
    ⟨active, -, -, rfl⟩ | ⟨-, rfl⟩
  · rfl
  · rfl

/-- The errors of a rejected document that is not too long. -/
theorem compileRuleset_eq_error
    {rules : RuleSet F}
    {catalog : Catalog F}
    {vehicleModel : String}
    {activeVersion : Option UInt64}
    {errors : List ValidationError}
    (fits : rules.rules.length ≤ maxRules)
    (failed : compileRuleset cel (.ok ()) rules catalog vehicleModel
      activeVersion = .error errors) :
    errors = headerProblems rules vehicleModel activeVersion ++
      (compileRules cel catalog [] rules.rules).2 := by
  simp only [compileRuleset, Nat.not_lt.mpr fits, if_false] at failed
  split_ifs at failed
  exact (Except.error.inj failed).symm

/-- Errors about rules come from the loop, all others from the header. -/
theorem mem_errors_iff
    (cel : Cel F)
    (rules : RuleSet F)
    (catalog : Catalog F)
    (vehicleModel : String)
    (activeVersion : Option UInt64)
    (error : ValidationError) :
    error ∈ headerProblems rules vehicleModel activeVersion ++
        (compileRules cel catalog [] rules.rules).2 ↔
      if error.aboutRule then
        error ∈ (compileRules cel catalog [] rules.rules).2
      else error ∈ headerProblems rules vehicleModel activeVersion := by
  have aboutRules :=
    (allJustified_compileRules cel catalog [] rules.rules).aboutRule
  rw [List.mem_append]
  constructor
  · intro member
    cases member with
    | inl header => rwa [if_neg (by simp [aboutRule_headerProblems header])]
    | inr loop => rwa [if_pos (aboutRules error loop)]
  · intro member
    split_ifs at member
    · exact .inr member
    · exact .inl member

/-- The errors about rules are those of the loop. -/
theorem filter_aboutRule
    (rules : RuleSet F)
    (catalog : Catalog F)
    (vehicleModel : String)
    (activeVersion : Option UInt64) :
    (headerProblems rules vehicleModel activeVersion ++
        (compileRules cel catalog [] rules.rules).2).filter
          ValidationError.aboutRule =
      (compileRules cel catalog [] rules.rules).2 := by
  have aboutRules :=
    (allJustified_compileRules cel catalog [] rules.rules).aboutRule
  have header : (headerProblems rules vehicleModel activeVersion).filter
      ValidationError.aboutRule = [] := by
    apply List.filter_eq_nil_iff.mpr
    intro error member
    rw [aboutRule_headerProblems member]
    exact Bool.false_ne_true
  rw [List.filter_append, header, List.nil_append]
  exact List.filter_eq_self.mpr aboutRules

/-- A rejected document that is not too long reports every failure at once
exactly when each condition that does not compile belongs to an id whose first
rule has a condition that does not compile and no other fault. -/
theorem reportsEvery_iff
    {rules : RuleSet F}
    {catalog : Catalog F}
    {vehicleModel : String}
    {activeVersion : Option UInt64}
    {errors : List ValidationError}
    (fits : rules.rules.length ≤ maxRules)
    (failed : compileRuleset cel (.ok ()) rules catalog vehicleModel
      activeVersion = .error errors) :
    ReportsEvery cel catalog vehicleModel activeVersion rules errors ↔
      ConditionsReached cel catalog rules.rules := by
  obtain rfl := compileRuleset_eq_error fits failed
  have conditions : ∀ id, (∃ reason, .invalidCondition id reason ∈
      headerProblems rules vehicleModel activeVersion ++
        (compileRules cel catalog [] rules.rules).2) ↔
      ∃ first, rules.rules.find? (·.id == id) = some first ∧
        ValidApart catalog first ∧ ConditionFault cel catalog first := by
    intro id
    rw [← invalidCondition_mem_compileRules_iff]
    simp only [mem_errors_iff, ValidationError.aboutRule, if_true]
  constructor
  · intro reports rule member fault
    exact (conditions rule.id).mp (reports.invalidCondition rule member fault)
  · intro reached
    refine ⟨?_, ?_, ?_, ?_, ?_⟩
    · intro got active
      simp only [mem_errors_iff, ValidationError.aboutRule, Bool.false_eq_true,
        if_false, mem_headerProblems_iff, ValidationError.notNewer.injEq,
        reduceCtorEq, and_false, or_false]
      constructor
      · rintro ⟨version, given, old, rfl, rfl⟩
        exact ⟨rfl, given, old⟩
      · rintro ⟨rfl, given, old⟩
        exact ⟨active, given, old, rfl, rfl⟩
    · intro got vehicle
      simp only [mem_errors_iff, ValidationError.aboutRule, Bool.false_eq_true,
        if_false, mem_headerProblems_iff, ValidationError.modelMismatch.injEq,
        reduceCtorEq, and_false, exists_false, false_or]
      tauto
    · intro earlier rule later split fault
      obtain ⟨reason, reported⟩ := errorsAbout_of_ruleFault cel fault
      have member := (mem_compileRules_iff cel catalog [] rules.rules
        (.invalidRule rule.id reason)).mpr
          ⟨earlier, rule, later, split, reported⟩
      exact ⟨reason, List.mem_append_right _ member⟩
    · intro rule member fault
      exact (conditions rule.id).mpr (reached rule member fault)
    · rw [filter_aboutRule]
      exact allJustified_compileRules cel catalog [] rules.rules

end Reporting

/-- A rule with a blank condition. -/
def blankRule (signal : String) : Rule Binary64 :=
  { speedRule with signal, condition := some "" }

/-- A blank condition does not compile. -/
theorem conditionFault_blankRule
    (cel : Cel Binary64)
    (catalog : Catalog Binary64)
    (signal : String) :
    ConditionFault cel catalog (blankRule signal) := by
  refine ⟨"", rfl, fun valid => ?_⟩
  have blank : Text.isBlank "" = true := by decide
  rw [valid.notBlank] at blank
  cases blank

/-- The blank condition of one rule and the unknown signal of another, in a
document that is not newer and for another model, are reported together. -/
theorem faultsOfTwoRules_reported :
    ∃ errors, compileRuleset identifierCel (.ok ())
        ⟨5, "R2", [blankRule "vehicle_speed",
          { speedRule with id := "other", signal := "nope" }]⟩
        (speedCatalog "km/h") "R1S" (some 5) = .error errors ∧
      ReportsEvery identifierCel (speedCatalog "km/h") "R1S" (some 5)
        ⟨5, "R2", [blankRule "vehicle_speed",
          { speedRule with id := "other", signal := "nope" }]⟩ errors := by
  refine ⟨_, rfl, (reportsEvery_iff (by decide) rfl).mpr ?_⟩
  intro rule member fault
  simp only [List.mem_cons, List.not_mem_nil, or_false] at member
  cases member with
  | inl same =>
      subst same
      have id : ValidId "speed" :=
        (isValidRuleId_eq_true_iff "speed").mp (by decide)
      refine ⟨blankRule "vehicle_speed", rfl,
        ⟨id, ⟨speedSignal "km/h", ∅, ∅⟩, rfl, rfl, rfl, ?_⟩,
        conditionFault_blankRule ..⟩
      rintro deadband ⟨⟩
  | inr same =>
      obtain ⟨source, given, -⟩ := fault
      rw [same] at given
      cases given

/-- The blank condition of a rule whose signal is unknown is not reported. -/
theorem faultsOfOneRule_not_reported :
    ∃ errors, compileRuleset identifierCel (.ok ())
        ⟨5, "R1S", [blankRule "nope"]⟩ (speedCatalog "km/h") "R1S" none =
          .error errors ∧
      ¬ ReportsEvery identifierCel (speedCatalog "km/h") "R1S" none
        ⟨5, "R1S", [blankRule "nope"]⟩ errors := by
  refine ⟨[.invalidRule "speed" "unknown signal 'nope'"], rfl, ?_⟩
  intro reports
  obtain ⟨reason, reported⟩ := reports.invalidCondition (blankRule "nope")
    List.mem_cons_self (conditionFault_blankRule ..)
  cases List.mem_singleton.mp reported

end Rules
end TelemetryEdge
