import TelemetryEdge.Rules.History

/-!
# Trace semantics of on-change and periodic rules

The report of a sample and of a tick, rule by rule, as a function of the history
of the run: which values were received, which records were emitted and which
rule sets were applied.
-/

namespace TelemetryEdge
namespace Rules

open Protocol Saturating

namespace Engine

section Semantics

variable [F64 F] {cel : Cel F}

/-- Whether a value is logged after another one: numbers when they differ by
more than the deadband, other values when they differ. -/
def departs (deadband : F) (last value : SignalValue F) : Bool :=
  match last.asNum, value.asNum with
  | some last, some new => F64.lt deadband (F64.abs (F64.sub new last))
  | _, _ => !last.eq value

/-- The value of the condition of a rule on the values of signals; a rule
without a condition passes. -/
def verdict
    (rule : CompiledRule cel)
    (values : String → Option (SignalValue F)) : Except EvalError Bool :=
  match rule.condition with
  | none => .ok true
  | some condition => condition.evaluate values

/-- The report of a rule whose value is to be logged, if its condition
allows. -/
def logged
    (vin model : String)
    (version : UInt64)
    (rule : CompiledRule cel)
    (values : String → Option (SignalValue F))
    (tsUs : UInt64)
    (value : SignalValue F) : EvalReport F :=
  match verdict rule values with
  | .ok true =>
      .ofRecord {
        tsUs
        vin
        model
        ruleId := rule.id
        rulesetVersion := version
        signal := rule.definition.signal
        value
        unit := rule.unit }
  | .ok false => 0
  | .error error => .ofError rule.id error

/-- What an active rule reports for a sample after a history: on-change rules
of the signal log the value when it departs from their last record, or when they
have none. -/
def sampleOutcome
    (vin model : String)
    (past : List (Input cel × EvalReport F))
    (now : UInt64)
    (sample : Sample F)
    (rule : CompiledRule cel) : EvalReport F :=
  if rule.definition.mode = .onChange ∧
      rule.definition.signal = sample.name ∧
      (reference rule.id past).all
        (departs (rule.definition.deadband.getD F64.zero) · sample.value) then
    logged vin model (activeSet past).version rule
      (lastValue ((.onSample now sample, 0) :: past))
      sample.timestampUs sample.value
  else 0

/-- Oldest value that a periodic rule logs. -/
def maxAge (rule : Rule F) : UInt64 :=
  rule.maxAgeMs.getD (saturatingMul (rule.intervalMs.getD 0) 3)

/-- What an active rule with a timer reports for a tick after a history: due
periodic rules log the last value of their signal, unless there is none or it is
too old. -/
def tickOutcome
    (vin model : String)
    (past : List (Input cel × EvalReport F))
    (now : UInt64)
    (nextDueMs : Option UInt64)
    (rule : CompiledRule cel) : EvalReport F :=
  if rule.definition.mode = .periodic ∧ nextDueMs.any (· ≤ now) then
    match lastSample rule.definition.signal past with
    | none => 0
    | some (sample, received) =>
        if (maxAge rule.definition).toNat < now.toNat - received.toNat then
          .ofStale rule.id
        else
          logged vin model (activeSet past).version rule (lastValue past)
            sample.timestampUs sample.value
  else 0

/-- The comparison of the engine is the documented one. -/
theorem changed_eq
    (deadband : F)
    (lastLogged : Option (SignalValue F))
    (value : SignalValue F) :
    changed deadband lastLogged value =
      lastLogged.all (departs deadband · value) := by
  cases lastLogged with
  | none => rfl
  | some last => cases last <;> cases value <;> rfl

omit [F64 F] in
/-- An emission attempt in a state that reflects a history logs as
documented. -/
theorem emit_snd_eq_logged
    {vin model : String}
    {version : UInt64}
    (engine : Engine cel)
    (sameVin : engine.vin = vin)
    (sameModel : engine.model = model)
    (sameVersion : engine.rules.version = version)
    {values : String → Option (SignalValue F)}
    (sameValues : ∀ name, (engine.latest.lookup name).map (·.value) =
      values name)
    (rule : CompiledRule cel)
    (ruleState : RuleState F)
    (tsUs : UInt64)
    (value : SignalValue F) :
    (engine.emit rule ruleState tsUs value).2 =
      logged vin model version rule values tsUs value := by
  have sameVerdict : conditionVerdict rule engine.latest =
      verdict rule values := by
    unfold conditionVerdict verdict
    cases rule.condition with
    | none => rfl
    | some condition => simp only [funext sameValues]
  unfold emit logged
  rw [sameVerdict]
  cases verdict rule values with
  | error error => rfl
  | ok pass =>
      cases pass with
      | false => rfl
      | true =>
          simp only [record, sameVin, sameModel, sameVersion]

/-- The sample step of a rule in a state that reflects a history. -/
theorem Reflects.sampleStep_snd
    {vin model : String}
    {past : List (Input cel × EvalReport F)}
    {engine : Engine cel}
    (reflects : Reflects vin model past engine)
    (now : UInt64)
    (sample : Sample F)
    {rule : CompiledRule cel}
    {ruleState : RuleState F}
    (member : rule ∈ engine.rules.rules)
    (viewed : engine.view rule.id = some (rule, ruleState)) :
    ((engine.receive now sample).sampleStep sample rule ruleState).2 =
      sampleOutcome vin model past now sample rule := by
  have values : ∀ name,
      ((engine.receive now sample).latest.lookup name).map (·.value) =
        lastValue ((.onSample now sample, 0) :: past) name := by
    intro name
    rw [receive, KeyedMap.lookup_insert_eq_ite, lastValue, lastSample,
      reflects.latest name]
    by_cases same : name = sample.name
    · simp [same]
    · simp [same, Ne.symm same, storedAs, Function.comp_def]
  have stored : ruleState.lastLogged = reference rule.id past :=
    reflects.lastLogged rule.id (rule, ruleState) viewed
  have behaves := (reflects.valid.wellFormed.compiles rule member).behaviour_eq
  unfold sampleStep sampleOutcome
  rw [behaves, definedBehaviour]
  cases mode : rule.definition.mode with
  | periodic => simp
  | onChange =>
      simp only [changed_eq, stored, true_and]
      split
      · exact emit_snd_eq_logged (engine.receive now sample) reflects.vin
          reflects.model (congrArg CompiledRuleSet.version reflects.rules)
          values ..
      · rfl

/-- The tick step of a rule in a state that reflects a history. -/
theorem Reflects.tickStep_snd
    {vin model : String}
    {past : List (Input cel × EvalReport F)}
    {engine : Engine cel}
    (reflects : Reflects vin model past engine)
    (now : UInt64)
    {rule : CompiledRule cel}
    (member : rule ∈ engine.rules.rules)
    (ruleState : RuleState F) :
    (engine.tickStep now rule ruleState).2 =
      tickOutcome vin model past now ruleState.nextDueMs rule := by
  have values : ∀ name, (engine.latest.lookup name).map (·.value) =
      lastValue past name := by
    intro name
    rw [reflects.latest name, lastValue, Option.map_map]
    rfl
  have behaves := (reflects.valid.wellFormed.compiles rule member).behaviour_eq
  unfold tickStep tickOutcome
  rw [behaves, definedBehaviour]
  cases mode : rule.definition.mode with
  | onChange => simp
  | periodic =>
      simp only [true_and]
      cases timer : ruleState.nextDueMs with
      | none => simp
      | some due =>
          by_cases isDue : due ≤ now
          · have kept : (some due).filter (· ≤ now) = some due := by
              simp [isDue]
            have elapsed : ∀ received : UInt64,
                (maxAge rule.definition < saturatingSub now received ↔
                  (maxAge rule.definition).toNat <
                    now.toNat - received.toNat) := by
              intro received
              rw [UInt64.lt_iff_toNat_lt, toNat_saturatingSub]
            simp only [kept, Option.any_some, isDue, decide_true, if_true]
            rw [reflects.latest]
            cases lastSample rule.definition.signal past with
            | none => rfl
            | some received =>
                have oldest : rule.definition.maxAgeMs.getD
                    (saturatingMul (rule.definition.intervalMs.getD 0) 3) =
                      maxAge rule.definition := rfl
                simp only [Option.map_some, storedAs, oldest, elapsed]
                split
                · rfl
                · exact emit_snd_eq_logged engine reflects.vin reflects.model
                    (congrArg CompiledRuleSet.version reflects.rules) values ..
          · have dropped : (some due).filter (· ≤ now) = none := by
              simpa using UInt64.not_le.mp isDue
            simp [dropped, isDue]

/-- The part of the report of a sample that carries the id of an active
rule. -/
theorem Reflects.only_onSample
    {vin model : String}
    {past : List (Input cel × EvalReport F)}
    {engine : Engine cel}
    (reflects : Reflects vin model past engine)
    (now : UInt64)
    (sample : Sample F)
    {rule : CompiledRule cel}
    (member : rule ∈ engine.rules.rules) :
    (engine.onSample now sample).2.only rule.id =
      sampleOutcome vin model past now sample rule := by
  obtain ⟨ruleState, -, viewed⟩ := reflects.valid.exists_state
      (reflects.valid.wellFormed.withId_of_mem member)
  have event : (Input.onSample now sample : Input cel).isEvent = true := rfl
  have reported := reflects.valid.only_step event rule.id
  rw [viewed, Option.elim_some] at reported
  exact reported.trans (reflects.sampleStep_snd now sample member viewed)

/-- A record of a sample carries the value of the sample. -/
theorem sampleOutcome_records
    (vin model : String)
    (past : List (Input cel × EvalReport F))
    (now : UInt64)
    (sample : Sample F)
    (rule : CompiledRule cel) :
    (sampleOutcome vin model past now sample rule).records = [] ∨
      ∃ record, (sampleOutcome vin model past now sample rule).records =
        [record] ∧ record.value = sample.value := by
  unfold sampleOutcome
  split
  · unfold logged
    cases verdict rule (lastValue ((.onSample now sample, 0) :: past)) with
    | error error => exact .inl rfl
    | ok pass =>
        cases pass with
        | false => exact .inl rfl
        | true => exact .inr ⟨_, rfl, rfl⟩
  · exact .inl rfl

/-- The report of every sample in every run: in rule set order, what the
documented semantics says of each active rule.  A rule without a record keeps
its reference value, and a condition on a signal that was never received is
false. -/
theorem onSample_semantics
    (vin model : String)
    (inputs : List (Input cel))
    (now : UInt64)
    (sample : Sample F) :
    let engine := (machine cel).final (Engine.new vin model) inputs
    let past := (machine cel).history (Engine.new vin model) inputs
    let report := (engine.onSample now sample).2
    let next := (.onSample now sample, report) :: past
    report = ((activeSet past).rules.map
        (sampleOutcome vin model past now sample)).sum ∧
      (∀ rule ∈ (activeSet past).rules,
        reference rule.id next =
          if (sampleOutcome vin model past now sample rule).records = [] then
            reference rule.id past
          else some sample.value) ∧
      ∀ rule ∈ (activeSet past).rules, ∀ condition ∈ rule.condition,
        ∀ name ∈ condition.signals, lastValue next name = none →
          verdict rule (lastValue next) = .ok false := by
  intro engine past report next
  have reflects := reflects_history vin model inputs
  have sameRules : engine.rules = activeSet past := reflects.rules
  refine ⟨?_, fun rule member => ?_,
    fun rule _ condition conditioned name named missing => ?_⟩
  · have stored := reflects.valid.receive now sample
    change (engine.onSample now sample).2 = _
    rw [onSample_eq_visitRules reflects.valid.indexed, stored.visitRules_snd,
      ← sameRules]
    congr 1
    apply List.map_congr_left
    intro rule member
    obtain ⟨ruleState, found, viewed⟩ := reflects.valid.exists_state
      (reflects.valid.wellFormed.withId_of_mem member)
    have owned : (engine.receive now sample).state.lookup rule.id =
        some ruleState := found
    rw [KeyedLoop.contribution, owned]
    exact reflects.sampleStep_snd now sample member viewed
  · rw [← sameRules] at member
    have since : recordsSince rule.id next =
        (sampleOutcome vin model past now sample rule).records.reverse ++
          recordsSince rule.id past := by
      rw [← reflects.only_onSample now sample member]
      rfl
    rw [reference, since]
    rcases sampleOutcome_records vin model past now sample rule with
      silent | ⟨record, single, value⟩
    · rw [silent, if_pos rfl]
      rfl
    · rw [single, if_neg (List.cons_ne_nil _ _)]
      simp [value]
  · rw [verdict, Option.mem_def.mp conditioned]
    exact Condition.evaluate_eq_false_of_missing named missing

/-- The report of every tick in every run: in rule set order, what the
documented semantics says of each active rule and its due time. -/
theorem tick_semantics
    (vin model : String)
    (inputs : List (Input cel))
    (now : UInt64) :
    let engine := (machine cel).final (Engine.new vin model) inputs
    let past := (machine cel).history (Engine.new vin model) inputs
    (engine.tick now).2 =
      ((activeSet past).rules.map fun rule =>
        tickOutcome vin model past now
          ((engine.state.lookup rule.id).bind (·.nextDueMs)) rule).sum := by
  intro engine past
  have reflects := reflects_history vin model inputs
  have sameRules : engine.rules = activeSet past := reflects.rules
  rw [tick_eq_visitRules, reflects.valid.visitRules_snd, ← sameRules]
  congr 1
  apply List.map_congr_left
  intro rule member
  obtain ⟨ruleState, found, -⟩ := reflects.valid.exists_state
      (reflects.valid.wellFormed.withId_of_mem member)
  rw [KeyedLoop.contribution, found]
  exact reflects.tickStep_snd now member ruleState

end Semantics

end Engine

end Rules
end TelemetryEdge
