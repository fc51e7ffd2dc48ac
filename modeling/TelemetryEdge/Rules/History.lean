import TelemetryEdge.Rules.View

/-!
# Engine states as functions of their history

The history of a run lists its inputs with their reports, newest first.  What
the engine stores is read off the history: the active rule set is the last one
applied, the latest value of a signal is that of the last sample received for
it, and the last logged value of a rule is that of its last record since it
became new or modified.
-/

namespace TelemetryEdge
namespace Rules

open Protocol

namespace Engine

section Definitions

variable [F64 F] {cel : Cel F}

/-- The active rule set: the last one applied. -/
def activeSet : List (Input cel × EvalReport F) → CompiledRuleSet cel
  | [] => .empty
  | (.applyRuleset _ set, _) :: _ => set.compiled
  | _ :: earlier => activeSet earlier

/-- The last sample received for a signal, with the time it was received. -/
def lastSample
    (name : String) :
    List (Input cel × EvalReport F) → Option (Sample F × UInt64)
  | [] => none
  | (.onSample now sample, _) :: earlier =>
      if sample.name = name then some (sample, now)
      else lastSample name earlier
  | _ :: earlier => lastSample name earlier

/-- The last received value of a signal. -/
def lastValue
    (past : List (Input cel × EvalReport F))
    (name : String) : Option (SignalValue F) :=
  (lastSample name past).map fun received => received.1.value

/-- The records of a rule id, newest first, since the last swap that made its
rule new or modified. -/
def recordsSince
    (id : String) : List (Input cel × EvalReport F) → List (LogRecord F)
  | [] => []
  | (.applyRuleset _ set, _) :: earlier =>
      if (set.compiled.withId id).any (activeSet earlier).keeps then
        recordsSince id earlier
      else []
  | (_, report) :: earlier =>
      (report.only id).records.reverse ++ recordsSince id earlier

/-- The value that the next one is compared with. -/
def reference
    (id : String)
    (past : List (Input cel × EvalReport F)) : Option (SignalValue F) :=
  (recordsSince id past).head?.map (·.value)

/-- The stored form of a received sample. -/
def storedAs (received : Sample F × UInt64) : Latest F where
  value := received.1.value
  timestampUs := received.1.timestampUs
  receivedMs := received.2

/-- The engine state that a history leads to. -/
structure Reflects
    (vin model : String)
    (past : List (Input cel × EvalReport F))
    (engine : Engine cel) : Prop where
  valid : engine.Valid
  vin : engine.vin = vin
  model : engine.model = model
  rules : engine.rules = activeSet past
  latest : ∀ name,
    engine.latest.lookup name = (lastSample name past).map storedAs
  lastLogged : ∀ id own, engine.view id = some own →
    own.2.lastLogged = reference id past

end Definitions

variable {cel : Cel F}

/-- An emission attempt stores the value of the record it emits. -/
theorem emit_lastLogged
    (engine : Engine cel)
    (rule : CompiledRule cel)
    (ruleState : RuleState F)
    (tsUs : UInt64)
    (value : SignalValue F) :
    (engine.emit rule ruleState tsUs value).1.lastLogged =
      ((engine.emit rule ruleState tsUs value).2.records.getLast?.map
        (·.value)).or ruleState.lastLogged := by
  unfold emit
  cases conditionVerdict rule engine.latest with
  | error error => rfl
  | ok pass => cases pass <;> rfl

variable [F64 F]

/-- The step of a rule stores the value of the record it emits. -/
theorem ruleStep_lastLogged
    (input : Input cel)
    (engine : Engine cel)
    (rule : CompiledRule cel)
    (ruleState : RuleState F) :
    (input.ruleStep engine rule ruleState).1.lastLogged =
      ((input.ruleStep engine rule ruleState).2.records.getLast?.map
        (·.value)).or ruleState.lastLogged := by
  cases input with
  | applyRuleset now set => rfl
  | onSample now sample =>
      simp only [Input.ruleStep, sampleStep]
      split
      · rfl
      · split
        · exact emit_lastLogged ..
        · rfl
  | tick now =>
      simp only [Input.ruleStep, tickStep]
      split
      · rfl
      · split
        · rfl
        · split
          · rfl
          · split
            · rfl
            · exact emit_lastLogged ..

/-- A new engine reflects the empty history. -/
theorem reflects_new (vin model : String) :
    Reflects vin model [] (Engine.new vin model : Engine cel) where
  valid := valid_new vin model
  vin := rfl
  model := rfl
  rules := rfl
  latest _ := rfl
  lastLogged id own viewed := by cases viewed

/-- A sample or a tick keeps the engine reflecting the history. -/
theorem Reflects.event
    {vin model : String}
    {past : List (Input cel × EvalReport F)}
    {engine : Engine cel}
    (reflects : Reflects vin model past engine)
    {input : Input cel}
    (event : input.isEvent = true) :
    Reflects vin model
      ((input, ((machine cel).step engine input).2) :: past)
      ((machine cel).step engine input).1 := by
  have valid := reflects.valid
  have frame : ((machine cel).step engine input).1.rules = engine.rules ∧
      ((machine cel).step engine input).1.vin = engine.vin ∧
      ((machine cel).step engine input).1.model = engine.model ∧
      ((machine cel).step engine input).1.latest =
        (input.prepare engine).latest := by
    rw [valid.step_eq event]
    cases input <;> exact ⟨rfl, rfl, rfl, rfl⟩
  obtain ⟨sameRules, sameVin, sameModel, nextLatest⟩ := frame
  refine ⟨valid.step input, sameVin.trans reflects.vin,
    sameModel.trans reflects.model, ?_, ?_, ?_⟩
  · rw [sameRules, reflects.rules]
    cases input with
    | onSample now sample => rfl
    | tick now => rfl
    | applyRuleset now set => cases event
  · intro name
    rw [nextLatest]
    cases input with
    | onSample now sample =>
        simp only [Input.prepare, receive, KeyedMap.lookup_insert_eq_ite,
          lastSample]
        by_cases same : sample.name = name
        · simp [same, storedAs]
        · simp [same, Ne.symm same, reflects.latest name]
    | tick now => exact reflects.latest name
    | applyRuleset now set => cases event
  · intro id own viewed
    rw [valid.view_step event] at viewed
    obtain ⟨before, viewedBefore, rfl⟩ := Option.map_eq_some_iff.mp viewed
    have reported := valid.only_step event id
    rw [viewedBefore, Option.elim_some] at reported
    have sinceEvent : recordsSince id
        ((input, ((machine cel).step engine input).2) :: past) =
          (((machine cel).step engine input).2.only id).records.reverse ++
            recordsSince id past := by
      cases input with
      | onSample now sample => rfl
      | tick now => rfl
      | applyRuleset now set => cases event
    rw [ruleStep_lastLogged, reflects.lastLogged id before viewedBefore,
      reference, reference, sinceEvent, reported, List.head?_append,
      List.head?_reverse, Option.map_or]

/-- A swap keeps the engine reflecting the history. -/
theorem Reflects.applyRuleset
    {vin model : String}
    {past : List (Input cel × EvalReport F)}
    {engine : Engine cel}
    (reflects : Reflects vin model past engine)
    (now : UInt64)
    (set : LoadedRuleSet cel) :
    Reflects vin model ((.applyRuleset now set, 0) :: past)
      (engine.applyRuleset now set.compiled) where
  valid := reflects.valid.applyRuleset now set.wellFormed
  vin := reflects.vin
  model := reflects.model
  rules := rfl
  latest name := reflects.latest name
  lastLogged id own viewed := by
    rw [reflects.valid.view_applyRuleset now set.wellFormed] at viewed
    obtain ⟨rule, found, rfl⟩ := Option.map_eq_some_iff.mp viewed
    obtain ⟨-, rfl⟩ := (set.wellFormed.withId_eq_some_iff id rule).mp found
    rw [reference, recordsSince, found, ← reflects.rules]
    simp only [Option.any_some, CompiledRuleSet.keeps, installed, view]
    rcases (engine.rules.withId rule.id).eq_none_or_eq_some with
      absent | ⟨old, active⟩
    · simp [absent, freshState]
    · obtain ⟨ruleState, stored, oldView⟩ := reflects.valid.exists_state active
      simp only [active, stored, Option.bind_some, Option.map_some]
      split
      · exact reflects.lastLogged rule.id (old, ruleState) oldView
      · rfl

/-- Every reachable engine reflects its history. -/
theorem reflects_history
    (vin model : String)
    (inputs : List (Input cel)) :
    Reflects vin model
      ((machine cel).history (Engine.new vin model) inputs)
      ((machine cel).final (Engine.new vin model) inputs) := by
  refine Machine.final_history_invariant (reflects_new vin model) ?_ inputs
  intro past engine input reflects
  cases input with
  | onSample now sample => exact reflects.event rfl
  | tick now => exact reflects.event rfl
  | applyRuleset now set => exact reflects.applyRuleset now set

end Engine

end Rules
end TelemetryEdge
