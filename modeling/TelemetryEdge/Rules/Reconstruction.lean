import TelemetryEdge.Rules.History
import TelemetryEdge.Rules.Provenance

/-!
# What the records of an on-change rule tell

After every run without a swap, the last record of an on-change rule without
condition is within the deadband of the last sample of its signal, if there has
been one.
-/

namespace TelemetryEdge
namespace Rules

open Protocol

/-- Whether a value is no further than a deadband from a logged one; values that
are not numbers have to be the same. -/
def Within [F64 F] (deadband : F) : SignalValue F → SignalValue F → Prop
  | .num logged, .num value =>
      F64.lt deadband (F64.abs (F64.sub value logged)) = false
  | logged, value => logged = value

/-- The records of a rule id in reports, in order. -/
def recordsOf (id : String) (reports : List (EvalReport F)) :
    List (LogRecord F) :=
  (reports.flatMap (·.records)).filter (·.ruleId == id)

/-- The records of one more report come last. -/
theorem recordsOf_concat
    (id : String)
    (reports : List (EvalReport F))
    (report : EvalReport F) :
    recordsOf id (reports ++ [report]) =
      recordsOf id reports ++ (report.only id).records := by
  rw [recordsOf, List.flatMap_append, List.filter_append, recordsOf,
    List.flatMap_singleton, EvalReport.only]

namespace Engine

variable [F64 F] {cel : Cel F}

/-- A value that has not changed is within the deadband of the logged one. -/
theorem changed_eq_false_iff
    (deadband : F)
    (logged value : SignalValue F) :
    changed deadband (some logged) value = false ↔
      Within deadband logged value := by
  cases logged with
  | num last =>
      cases value with
      | num new => exact Iff.rfl
      | bool flag => simp [changed, Within, SignalValue.eq]
      | enum label => simp [changed, Within, SignalValue.eq]
  | bool last => cases value <;> simp [changed, Within, SignalValue.eq]
  | enum last => cases value <;> simp [changed, Within, SignalValue.eq]

/-- An on-change rule without condition logs every value that has changed. -/
theorem sampleStep_unconditional
    (engine : Engine cel)
    (sample : Sample F)
    {rule : CompiledRule cel}
    {deadband : F}
    (behaviour : rule.behaviour = .onChange deadband)
    (unconditional : rule.condition = none)
    (ruleState : RuleState F) :
    engine.sampleStep sample rule ruleState =
      if rule.definition.signal = sample.name ∧
          changed deadband ruleState.lastLogged sample.value then
        ({ ruleState with lastLogged := some sample.value },
          .ofRecord (engine.record rule sample.timestampUs sample.value))
      else (ruleState, 0) := by
  have passes : conditionVerdict rule engine.latest = .ok true := by
    rw [conditionVerdict, unconditional]
  simp only [sampleStep, behaviour, emit, passes]

/-- The state of a rule that has been followed since it became active: its
reference value is that of its last record, and the last sample of its signal is
within the deadband of it. -/
structure Tells
    (rule : CompiledRule cel)
    (deadband : F)
    (samples : List (Sample F))
    (records : List (LogRecord F))
    (ruleState : RuleState F) : Prop where
  logged : ruleState.lastLogged = records.getLast?.map (·.value)
  within : ∀ sample,
    (samples.filter (·.name = rule.definition.signal)).getLast? =
        some sample →
      ∃ value, ruleState.lastLogged = some value ∧
        Within deadband value sample.value

namespace Tells

variable
  {rule : CompiledRule cel}
  {deadband : F}
  {samples : List (Sample F)}
  {records : List (LogRecord F)}
  {ruleState : RuleState F}

/-- A rule that has become active tells nothing yet. -/
theorem initial
    (rule : CompiledRule cel)
    (deadband : F)
    (timer : Option UInt64) :
    Tells rule deadband [] [] ⟨none, timer⟩ where
  logged := rfl
  within sample last := by cases last

/-- The sample step of the rule keeps its records telling. -/
theorem sampleStep
    (tells : Tells rule deadband samples records ruleState)
    (behaviour : rule.behaviour = .onChange deadband)
    (unconditional : rule.condition = none)
    (settled : ∀ value : F,
      F64.lt deadband (F64.abs (F64.sub value value)) = false)
    (engine : Engine cel)
    (sample : Sample F) :
    Tells rule deadband (samples ++ [sample])
      (records ++ (engine.sampleStep sample rule ruleState).2.records)
      (engine.sampleStep sample rule ruleState).1 := by
  rw [sampleStep_unconditional engine sample behaviour unconditional]
  by_cases named : sample.name = rule.definition.signal
  · have kept : (samples ++ [sample]).filter
        (·.name = rule.definition.signal) =
          samples.filter (·.name = rule.definition.signal) ++ [sample] := by
      simp [List.filter_append, named]
    by_cases moved : changed deadband ruleState.lastLogged sample.value = true
    · rw [if_pos ⟨named.symm, moved⟩]
      refine ⟨?_, fun last isLast => ?_⟩
      · simp [EvalReport.ofRecord, record]
      · rw [kept, List.getLast?_concat] at isLast
        obtain rfl := Option.some.inj isLast
        refine ⟨sample.value, rfl, ?_⟩
        cases sample.value with
        | num value => exact settled value
        | bool flag => rfl
        | enum label => rfl
    · rw [if_neg fun both => moved both.2]
      refine ⟨?_, fun last isLast => ?_⟩
      · simpa using tells.logged
      · rw [kept, List.getLast?_concat] at isLast
        obtain rfl := Option.some.inj isLast
        have unmoved := eq_false_of_ne_true moved
        cases logged : ruleState.lastLogged with
        | none =>
            rw [logged] at unmoved
            cases unmoved
        | some value =>
            rw [logged] at unmoved
            exact ⟨value, rfl, (changed_eq_false_iff ..).mp unmoved⟩
  · have skipped : (samples ++ [sample]).filter
        (·.name = rule.definition.signal) =
          samples.filter (·.name = rule.definition.signal) := by
      simp [List.filter_append, named]
    rw [if_neg fun both => named both.1.symm]
    refine ⟨?_, ?_⟩
    · simpa using tells.logged
    · rw [skipped]
      exact tells.within

end Tells

/-- In every run without a swap, the records of an on-change rule without
condition tell the values of its signal to within the deadband. -/
theorem tells_final
    {engine : Engine cel}
    (valid : engine.Valid)
    {rule : CompiledRule cel}
    {deadband : F}
    (behaviour : rule.behaviour = .onChange deadband)
    (unconditional : rule.condition = none)
    (settled : ∀ value : F,
      F64.lt deadband (F64.abs (F64.sub value value)) = false)
    {timer : Option UInt64}
    (fresh : engine.view rule.id = some (rule, ⟨none, timer⟩))
    {inputs : List (Input cel)}
    (noSwap : ∀ input ∈ inputs, ¬ input.Swaps) :
    ∃ ruleState,
      ((machine cel).final engine inputs).view rule.id =
        some (rule, ruleState) ∧
      Tells rule deadband (inputs.filterMap Input.sample?)
        (recordsOf rule.id ((machine cel).outputs engine inputs))
        ruleState := by
  induction inputs using List.reverseRecOn with
  | nil => exact ⟨_, fresh, .initial rule deadband timer⟩
  | append_singleton inputs input inductionHypothesis =>
      obtain ⟨ruleState, viewed, tells⟩ := inductionHypothesis fun input member =>
        noSwap input (List.mem_append_left _ member)
      have reached : ((machine cel).final engine inputs).Valid :=
        Machine.final_invariant (fun _ input valid => valid.step input) inputs
          valid
      have event : input.isEvent = true := by
        cases input with
        | applyRuleset now set =>
            exact absurd ⟨now, set, rfl⟩ (noSwap _ (by simp))
        | _ => rfl
      have view := reached.view_step event rule.id
      have only := reached.only_step event rule.id
      rw [viewed] at view only
      refine ⟨_, by rw [Machine.final_append]; exact view, ?_⟩
      rw [Machine.outputs_append, List.filterMap_append]
      simp only [Machine.outputs_cons, Machine.outputs_nil]
      rw [recordsOf_concat, only]
      cases input with
      | onSample now sample =>
          exact tells.sampleStep behaviour unconditional settled _ sample
      | tick now =>
          have noSample : [(Input.tick now : Input cel)].filterMap
              Input.sample? = [] := rfl
          simp only [Option.elim_some, Input.ruleStep, tickStep, behaviour,
            noSample, EvalReport.zero_records, List.append_nil]
          exact tells
      | applyRuleset now set => cases event

end Engine

end Rules
end TelemetryEdge
