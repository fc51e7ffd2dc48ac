import TelemetryEdge.Rules.Compile

/-!
# Compiled rule sets

What holds of every result of `compileRuleset`: ids are distinct, the fields of
each rule fit its mode, and each rule is what its own definition compiles to.
Compilation against two catalogs gives rules that differ in their unit only, and
cutting a result down to one rule gives a result again.
-/

namespace TelemetryEdge
namespace Rules

open Protocol

section Loaded

variable [F64 F] {cel : Cel F}

/-- A rule that is the result of compiling its own definition. -/
def CompiledRule.Compiles (rule : CompiledRule cel) : Prop :=
  ∃ catalog, compileRule cel rule.definition catalog = .ok rule

/-- What a successful compilation has looked up and checked. -/
theorem compileRule_eq_ok_iff
    (rule : Rule F)
    (catalog : Catalog F)
    (compiled : CompiledRule cel) :
    compileRule cel rule catalog = .ok compiled ↔
      isValidRuleId rule.id = true ∧ compiled.definition = rule ∧
        ∃ signal, catalog.byName rule.signal = some signal ∧
          compiled.unit = signal.unit ∧
          compileBehaviour rule signal = .ok compiled.behaviour ∧
          compileCondition cel rule catalog = .ok compiled.condition := by
  unfold compileRule
  cases validId : isValidRuleId rule.id with
  | false => simp
  | true =>
      cases named : catalog.byName rule.signal with
      | none => simp
      | some signal =>
          cases checked : compileBehaviour rule signal with
          | error error => simp [checked]
          | ok behaviour =>
              cases conditioned : compileCondition cel rule catalog with
              | error error => simp [checked]
              | ok condition =>
                  cases compiled
                  simp only [Bool.not_true, Bool.false_eq_true, if_false,
                    checked, Except.ok.injEq, CompiledRule.mk.injEq, true_and,
                    Option.some.injEq, exists_eq_left']
                  tauto

/-- The result of a compilation carries the definition it was made from. -/
theorem compiles_of_compileRule
    {rule : Rule F}
    {catalog : Catalog F}
    {compiled : CompiledRule cel}
    (success : compileRule cel rule catalog = .ok compiled) :
    compiled.definition = rule ∧ compiled.Compiles := by
  have same := ((compileRule_eq_ok_iff ..).mp success).2.1
  exact ⟨same, catalog, same ▸ success⟩

/-- The behaviour that the fields of a definition describe. -/
def definedBehaviour (rule : Rule F) : Behaviour F :=
  match rule.mode with
  | .onChange => .onChange (rule.deadband.getD F64.zero)
  | .periodic =>
      let intervalMs := rule.intervalMs.getD 0
      .periodic intervalMs
        (rule.maxAgeMs.getD (Saturating.saturatingMul intervalMs 3))

/-- The fields that fit the mode of a rule, for a signal of some kind. -/
def ValidFields (rule : Rule F) (kind : ValueKind) : Prop :=
  match rule.mode with
  | .onChange =>
      rule.intervalMs = none ∧ rule.maxAgeMs = none ∧
        ∀ deadband, rule.deadband = some deadband →
          F64.isFinite deadband = true ∧ F64.lt deadband F64.zero = false ∧
            kind = .num
  | .periodic =>
      rule.deadband = none ∧
        (∃ intervalMs, rule.intervalMs = some intervalMs ∧
          minIntervalMs ≤ intervalMs) ∧
        rule.maxAgeMs ≠ some 0

/-- Three times an interval that is not too short is positive, also where the
multiplication saturates. -/
theorem saturatingMul_three_ne_zero
    {intervalMs : UInt64}
    (long : minIntervalMs ≤ intervalMs) :
    Saturating.saturatingMul intervalMs 3 ≠ 0 := by
  intro zero
  have value := congrArg UInt64.toNat zero
  rw [Saturating.toNat_saturatingMul] at value
  rw [UInt64.le_iff_toNat_le] at long
  have least : minIntervalMs.toNat = 100 := rfl
  have factor : (3 : UInt64).toNat = 3 := rfl
  rw [factor, UInt64.toNat_zero] at value
  omega

/-- The checks of an on-change rule accept no timing fields, and a deadband that
is finite, not negative and declared on a numeric signal. -/
theorem compileBehaviour_onChange
    {rule : Rule F}
    (mode : rule.mode = .onChange)
    (signal : Signal F)
    (behaviour : Behaviour F) :
    compileBehaviour rule signal = .ok behaviour ↔
      ValidFields rule signal.kind ∧ behaviour = definedBehaviour rule := by
  unfold compileBehaviour ValidFields definedBehaviour
  simp only [mode]
  cases rule.intervalMs with
  | some intervalMs => simp
  | none =>
      cases rule.maxAgeMs with
      | some maxAgeMs => simp
      | none =>
          cases rule.deadband with
          | none =>
              simp only [Option.isSome_none, Bool.or_self, Option.getD_none,
                F64.isFinite_zero, F64.lt_zero_zero, Bool.not_true,
                Bool.false_eq_true, if_false, Bool.false_and, Except.ok.injEq,
                reduceCtorEq, false_implies, implies_true, true_and]
              exact eq_comm
          | some deadband =>
              by_cases finite : F64.isFinite deadband = true
              · by_cases negative : F64.lt deadband F64.zero = true
                · simp [finite, negative]
                · by_cases numeric : signal.kind = .num
                  · simpa [finite, negative, numeric] using eq_comm
                  · simp [finite, negative, numeric]
              · simp [finite]

/-- The checks of a periodic rule accept an interval that is not too short, no
deadband, and a maximal age other than zero. -/
theorem compileBehaviour_periodic
    {rule : Rule F}
    (mode : rule.mode = .periodic)
    (signal : Signal F)
    (behaviour : Behaviour F) :
    compileBehaviour rule signal = .ok behaviour ↔
      ValidFields rule signal.kind ∧ behaviour = definedBehaviour rule := by
  unfold compileBehaviour ValidFields definedBehaviour
  simp only [mode]
  cases rule.deadband with
  | some deadband => simp
  | none =>
      cases rule.intervalMs with
      | none => simp
      | some intervalMs =>
          by_cases short : intervalMs < minIntervalMs
          · simp [short, UInt64.not_le.mpr short]
          · have long : minIntervalMs ≤ intervalMs := UInt64.not_lt.mp short
            cases rule.maxAgeMs with
            | none =>
                simpa [short, long, saturatingMul_three_ne_zero long] using
                  eq_comm
            | some maxAgeMs =>
                by_cases zero : maxAgeMs = 0
                · simp [short, zero]
                · simpa [short, long, zero] using eq_comm

/-- The checks of the fields accept the fields that fit the mode, and give them
their documented meaning. -/
theorem compileBehaviour_eq_ok_iff
    (rule : Rule F)
    (signal : Signal F)
    (behaviour : Behaviour F) :
    compileBehaviour rule signal = .ok behaviour ↔
      ValidFields rule signal.kind ∧ behaviour = definedBehaviour rule := by
  cases mode : rule.mode with
  | onChange => exact compileBehaviour_onChange mode signal behaviour
  | periodic => exact compileBehaviour_periodic mode signal behaviour

/-- The behaviour of a compiled rule is that of its definition. -/
theorem CompiledRule.Compiles.behaviour_eq
    {rule : CompiledRule cel}
    (compiles : rule.Compiles) :
    rule.behaviour = definedBehaviour rule.definition := by
  obtain ⟨catalog, success⟩ := compiles
  obtain ⟨-, -, signal, -, -, checked, -⟩ :=
    (compileRule_eq_ok_iff ..).mp success
  exact ((compileBehaviour_eq_ok_iff ..).mp checked).2

/-- The interval of a compiled periodic rule is not too short. -/
theorem CompiledRule.Compiles.minInterval_le
    {rule : CompiledRule cel}
    (compiles : rule.Compiles)
    {intervalMs maxAgeMs : UInt64}
    (periodic : rule.behaviour = .periodic intervalMs maxAgeMs) :
    minIntervalMs ≤ intervalMs := by
  have defined := compiles.behaviour_eq
  obtain ⟨catalog, success⟩ := compiles
  obtain ⟨-, -, signal, -, -, checked, -⟩ :=
    (compileRule_eq_ok_iff ..).mp success
  rw [periodic, definedBehaviour] at defined
  cases mode : rule.definition.mode with
  | onChange =>
      rw [mode] at defined
      cases defined
  | periodic =>
      rw [mode] at defined
      injection defined with sameInterval
      have fits := ((compileBehaviour_eq_ok_iff ..).mp checked).1
      simp only [ValidFields, mode] at fits
      obtain ⟨-, ⟨given, some, long⟩, -⟩ := fits
      rw [sameInterval, some]
      exact long

/-- Two compiled rules have the same condition when their definitions do. -/
theorem CompiledRule.Compiles.condition_eq
    {rule other : CompiledRule cel}
    (compiles : rule.Compiles)
    (otherCompiles : other.Compiles)
    (sameSource :
      rule.definition.condition = other.definition.condition) :
    rule.condition = other.condition := by
  obtain ⟨catalog, success⟩ := compiles
  obtain ⟨otherCatalog, otherSuccess⟩ := otherCompiles
  obtain ⟨-, -, -, -, -, -, compiled⟩ := (compileRule_eq_ok_iff ..).mp success
  obtain ⟨-, -, -, -, -, -, otherCompiled⟩ :=
    (compileRule_eq_ok_iff ..).mp otherSuccess
  unfold compileCondition at compiled otherCompiled
  rw [← sameSource] at otherCompiled
  cases source : rule.definition.condition with
  | none =>
      simp only [source, Except.ok.injEq] at compiled otherCompiled
      rw [← compiled, ← otherCompiled]
  | some text =>
      simp only [source] at compiled otherCompiled
      cases first : Condition.compile cel text catalog with
      | error reason => simp [first] at compiled
      | ok found =>
          cases second : Condition.compile cel text otherCatalog with
          | error reason => simp [second] at otherCompiled
          | ok otherFound =>
              simp only [first, second, Except.ok.injEq]
                at compiled otherCompiled
              rw [← compiled, ← otherCompiled,
                Condition.compile_unique first second]

/-- The rules of a document compile without problems exactly when no id repeats
or has been seen and each rule compiles. -/
theorem compileRules_eq_iff
    (catalog : Catalog F)
    (seen : List String)
    (rules : List (Rule F))
    (compiled : List (CompiledRule cel)) :
    compileRules cel catalog seen rules = (compiled, []) ↔
      (∀ rule ∈ rules, rule.id ∉ seen) ∧ (rules.map Rule.id).Nodup ∧
        List.Forall₂ (fun rule result =>
          compileRule cel rule catalog = .ok result) rules compiled := by
  induction rules generalizing seen compiled with
  | nil => simp [compileRules, eq_comm]
  | cons rule rules inductionHypothesis =>
      rw [compileRules]
      by_cases repeated : rule.id ∈ seen
      · simp [repeated]
      · rw [if_neg repeated]
        have freshTail : (∀ later ∈ rules, later.id ∉ rule.id :: seen) ↔
            rule.id ∉ rules.map Rule.id ∧ ∀ later ∈ rules, later.id ∉ seen := by
          simp only [List.mem_cons, not_or, List.mem_map, not_exists, not_and,
            forall_and]
        cases compiled with
        | nil => cases compileRule cel rule catalog <;> simp
        | cons head tail =>
            have atTail := inductionHypothesis (rule.id :: seen) tail
            rw [freshTail, Prod.ext_iff] at atTail
            rw [List.forall_mem_cons, List.map_cons, List.nodup_cons,
              List.forall₂_cons]
            cases result : compileRule cel rule catalog with
            | error error => simp
            | ok compiledRule =>
                simp only [Prod.mk.injEq, List.cons.injEq, Except.ok.injEq,
                  repeated, not_false_eq_true, true_and, and_assoc, atTail]
                tauto

/-- Which documents compile, and what to. -/
theorem compileRuleset_eq_ok_iff
    (thread : Except String Unit)
    (rules : RuleSet F)
    (catalog : Catalog F)
    (vehicleModel : String)
    (activeVersion : Option UInt64)
    (compiled : CompiledRuleSet cel) :
    compileRuleset cel thread rules catalog vehicleModel activeVersion =
        .ok compiled ↔
      thread = .ok () ∧
        headerProblems rules vehicleModel activeVersion = [] ∧
        rules.rules.length ≤ maxRules ∧
        (compiled.version = rules.rulesetVersion ∧
          compiled.model = rules.model) ∧
        (rules.rules.map Rule.id).Nodup ∧
        List.Forall₂ (fun rule result =>
          compileRule cel rule catalog = .ok result)
          rules.rules compiled.rules := by
  unfold compileRuleset
  by_cases tooMany : maxRules < rules.rules.length
  · simp only [tooMany, if_true, reduceCtorEq, false_iff]
    rintro ⟨-, -, fits, -⟩
    omega
  · simp only [tooMany, if_false, Nat.not_lt.mp tooMany, true_and]
    cases thread with
    | error error => simp
    | ok outcome =>
        have whole := compileRules_eq_iff catalog [] rules.rules compiled.rules
        rw [Prod.ext_iff] at whole
        simp only [List.not_mem_nil, not_false_eq_true, implies_true,
          true_and] at whole
        rw [← whole]
        cases compiled
        simp only [List.isEmpty_iff, List.append_eq_nil_iff, true_and]
        split_ifs with clean
        · simp only [Except.ok.injEq, CompiledRuleSet.mk.injEq, clean, true_and]
          tauto
        · simp only [false_iff]
          tauto

/-- What every result of compilation satisfies. -/
structure CompiledRuleSet.WellFormed (set : CompiledRuleSet cel) : Prop where
  /-- No id occurs twice. -/
  idsDistinct : (set.rules.map CompiledRule.id).Nodup
  /-- Every rule is what its definition compiles to. -/
  compiles : ∀ rule ∈ set.rules, rule.Compiles
  /-- There are not too many rules. -/
  length_le : set.rules.length ≤ maxRules

/-- The rule with an id. -/
def CompiledRuleSet.withId
    (set : CompiledRuleSet cel)
    (id : String) : Option (CompiledRule cel) :=
  set.rules.find? (·.id == id)

/-- Whether a rule set has a rule with the id and the definition of a rule. -/
def CompiledRuleSet.keeps
    (set : CompiledRuleSet cel)
    (rule : CompiledRule cel) : Bool :=
  match set.withId rule.id with
  | some old => old.definition.eq rule.definition
  | none => false

/-- A kept rule has a rule with an equal definition in the set. -/
theorem CompiledRuleSet.keeps_eq_true_iff
    (set : CompiledRuleSet cel)
    (rule : CompiledRule cel) :
    set.keeps rule = true ↔
      ∃ old, set.withId rule.id = some old ∧
        old.definition.eq rule.definition = true := by
  unfold keeps
  cases set.withId rule.id <;> simp

/-- In a well-formed set, the rule with an id is the one that carries it. -/
theorem CompiledRuleSet.WellFormed.withId_eq_some_iff
    {set : CompiledRuleSet cel}
    (wellFormed : set.WellFormed)
    (id : String)
    (rule : CompiledRule cel) :
    set.withId id = some rule ↔ rule ∈ set.rules ∧ rule.id = id := by
  unfold withId
  constructor
  · intro found
    have sameId := List.find?_some found
    exact ⟨List.mem_of_find?_eq_some found, beq_iff_eq.mp sameId⟩
  · rintro ⟨member, rfl⟩
    cases found : set.rules.find? (·.id == rule.id) with
    | none =>
        have absent := List.find?_eq_none.mp found rule member
        simp at absent
    | some other =>
        have sameId := List.find?_some found
        rw [List.inj_on_of_nodup_map wellFormed.idsDistinct
          (List.mem_of_find?_eq_some found) member (beq_iff_eq.mp sameId)]

/-- The rules of a well-formed set are found under their ids. -/
theorem CompiledRuleSet.WellFormed.withId_of_mem
    {set : CompiledRuleSet cel}
    (wellFormed : set.WellFormed)
    {rule : CompiledRule cel}
    (member : rule ∈ set.rules) :
    set.withId rule.id = some rule :=
  (wellFormed.withId_eq_some_iff rule.id rule).mpr ⟨member, rfl⟩

/-- The rule set without rules is well formed. -/
theorem CompiledRuleSet.wellFormed_empty :
    (CompiledRuleSet.empty : CompiledRuleSet cel).WellFormed where
  idsDistinct := List.nodup_nil
  compiles _ member := absurd member List.not_mem_nil
  length_le := Nat.zero_le _

/-- Each result of compiling rules is what its own definition compiles to. -/
theorem compileRule_definition
    {catalog : Catalog F}
    {rules : List (Rule F)}
    {compiled : List (CompiledRule cel)}
    (results : List.Forall₂ (fun rule result =>
      compileRule cel rule catalog = .ok result) rules compiled) :
    ∀ result ∈ compiled,
      compileRule cel result.definition catalog = .ok result := by
  induction results with
  | nil => exact fun _ member => absurd member List.not_mem_nil
  | cons success _ inductionHypothesis =>
      refine List.forall_mem_cons.mpr ⟨?_, inductionHypothesis⟩
      rw [(compiles_of_compileRule success).1]
      exact success

/-- The rules of a document keep their ids, and each result compiles. -/
theorem compiles_of_forall₂
    {catalog : Catalog F}
    {rules : List (Rule F)}
    {compiled : List (CompiledRule cel)}
    (results : List.Forall₂ (fun rule result =>
      compileRule cel rule catalog = .ok result) rules compiled) :
    compiled.map CompiledRule.id = rules.map Rule.id ∧
      ∀ result ∈ compiled, result.Compiles := by
  refine ⟨?_, fun result member =>
    ⟨catalog, compileRule_definition results result member⟩⟩
  induction results with
  | nil => rfl
  | cons success _ inductionHypothesis =>
      rw [List.map_cons, List.map_cons, inductionHypothesis,
        CompiledRule.id, (compiles_of_compileRule success).1]

/-- Rules with one id compile to the results with that id. -/
theorem forall₂_filter_id
    {catalog : Catalog F}
    {rules : List (Rule F)}
    {compiled : List (CompiledRule cel)}
    (results : List.Forall₂ (fun rule result =>
      compileRule cel rule catalog = .ok result) rules compiled)
    (id : String) :
    List.Forall₂ (fun rule result => compileRule cel rule catalog = .ok result)
      (rules.filter (·.id == id)) (compiled.filter (·.id == id)) := by
  induction results with
  | nil => exact .nil
  | @cons rule result rules compiled success _ inductionHypothesis =>
      have sameId : result.id = rule.id :=
        congrArg Rule.id (compiles_of_compileRule success).1
      rw [List.filter_cons, List.filter_cons, sameId]
      split
      · exact .cons success inductionHypothesis
      · exact inductionHypothesis

/-- The rule set cut down to the rule with an id. -/
def CompiledRuleSet.only
    (set : CompiledRuleSet cel)
    (id : String) : CompiledRuleSet cel :=
  { set with rules := set.rules.filter (·.id == id) }

/-- A compiled rule set: a result of `compileRuleset`. -/
structure LoadedRuleSet (cel : Cel F) where
  compiled : CompiledRuleSet cel
  /-- Some document, catalog, model and version compile to the rule set. -/
  loaded : ∃ thread rules catalog vehicleModel activeVersion,
    compileRuleset cel thread rules catalog vehicleModel activeVersion =
      .ok compiled

namespace LoadedRuleSet

/-- Every result of compilation is well formed. -/
theorem wellFormed (set : LoadedRuleSet cel) : set.compiled.WellFormed := by
  obtain ⟨thread, rules, catalog, vehicleModel, activeVersion, success⟩ :=
    set.loaded
  obtain ⟨-, -, fits, -, distinct, results⟩ :=
    (compileRuleset_eq_ok_iff ..).mp success
  obtain ⟨sameIds, compiles⟩ := compiles_of_forall₂ results
  refine ⟨sameIds ▸ distinct, compiles, ?_⟩
  rw [← results.length_eq]
  exact fits

/-- Cutting a result of compilation down to one rule gives the result of
compiling the document cut down to that rule. -/
def only (set : LoadedRuleSet cel) (id : String) : LoadedRuleSet cel where
  compiled := set.compiled.only id
  loaded := by
    obtain ⟨thread, rules, catalog, vehicleModel, activeVersion, success⟩ :=
      set.loaded
    obtain ⟨started, clean, fits, header, distinct, results⟩ :=
      (compileRuleset_eq_ok_iff ..).mp success
    refine ⟨thread, { rules with rules := rules.rules.filter (·.id == id) },
      catalog, vehicleModel, activeVersion,
      (compileRuleset_eq_ok_iff ..).mpr
        ⟨started, clean, ?_, header, ?_, forall₂_filter_id results id⟩⟩
    · exact (List.length_filter_le _ _).trans fits
    · exact distinct.sublist (List.filter_sublist.map _)

end LoadedRuleSet

end Loaded

end Rules
end TelemetryEdge
