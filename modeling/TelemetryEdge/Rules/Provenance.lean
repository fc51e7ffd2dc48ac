import TelemetryEdge.Rules.Invariant

/-!
# Where records come from

A record logs a sample that the engine has been given, for an active rule of the
signal of the sample: at once, or later at a tick.  This holds whatever the
rules are, also where they have not been compiled.
-/

namespace TelemetryEdge
namespace KeyedLoop

variable [DecidableEq κ] [AddMonoid ω]

/-- What holds of the output of every body, and of outputs put together, holds
of the output of a loop. -/
theorem foldl_snd_induction
    (key : α → κ)
    (body : α → β → β × ω)
    {good : ω → Prop}
    (added : ∀ left right, good left → good right → good (left + right))
    {items : List α}
    (bodies : ∀ item ∈ items, ∀ entry, good (body item entry).2)
    {state : KeyedMap κ β × ω}
    (start : good state.2) :
    good (items.foldl (visit key body) state).2 := by
  induction items generalizing state with
  | nil => exact start
  | cons item items inductionHypothesis =>
      rw [List.forall_mem_cons] at bodies
      rw [List.foldl_cons]
      apply inductionHypothesis bodies.2
      unfold visit
      split
      · exact start
      · next entry _ => exact added _ _ start (bodies.1 entry)

end KeyedLoop

namespace Rules

open Protocol

namespace Engine

section Sources

variable {cel : Cel F}

/-- A record logs one of some samples, for an active rule of its signal. -/
def Sourced
    (engine : Engine cel)
    (samples : List (Sample F))
    (record : LogRecord F) : Prop :=
  ∃ rule ∈ engine.rules.rules, ∃ sample ∈ samples,
    rule.definition.signal = sample.name ∧
      record = engine.record rule sample.timestampUs sample.value

/-- The latest values are those of some samples. -/
def Stores (engine : Engine cel) (samples : List (Sample F)) : Prop :=
  ∀ name latest, engine.latest.lookup name = some latest →
    ∃ sample ∈ samples, sample.name = name ∧
      latest.value = sample.value ∧ latest.timestampUs = sample.timestampUs

/-- All records of a report log one of some samples. -/
def AllSourced
    (engine : Engine cel)
    (samples : List (Sample F))
    (report : EvalReport F) : Prop :=
  ∀ record ∈ report.records, engine.Sourced samples record

theorem Sourced.mono
    {engine : Engine cel}
    {samples more : List (Sample F)}
    {record : LogRecord F}
    (sourced : engine.Sourced samples record)
    (included : samples ⊆ more) :
    engine.Sourced more record := by
  obtain ⟨rule, active, sample, member, same, logged⟩ := sourced
  exact ⟨rule, active, sample, included member, same, logged⟩

theorem allSourced_zero
    (engine : Engine cel)
    (samples : List (Sample F)) :
    engine.AllSourced samples 0 :=
  fun _ member => absurd member List.not_mem_nil

/-- An emission attempt for a sample logs it, if anything. -/
theorem allSourced_emit
    {engine : Engine cel}
    {samples : List (Sample F)}
    {rule : CompiledRule cel}
    (active : rule ∈ engine.rules.rules)
    {sample : Sample F}
    (member : sample ∈ samples)
    (same : rule.definition.signal = sample.name)
    (ruleState : RuleState F) :
    engine.AllSourced samples
      (engine.emit rule ruleState sample.timestampUs sample.value).2 := by
  unfold emit
  split
  · intro record logged
    rw [EvalReport.ofRecord, List.mem_singleton] at logged
    exact ⟨rule, active, sample, member, same, logged⟩
  · exact allSourced_zero engine samples
  · exact fun _ logged => absurd logged List.not_mem_nil

/-- A loop logs what the steps of its rules log. -/
theorem allSourced_visitRules
    {engine : Engine cel}
    {samples : List (Sample F)}
    {step : CompiledRule cel → RuleState F → RuleState F × EvalReport F}
    (steps : ∀ rule ∈ engine.rules.rules, ∀ ruleState,
      engine.AllSourced samples (step rule ruleState).2) :
    engine.AllSourced samples (engine.visitRules step).2 := by
  apply KeyedLoop.foldl_snd_induction CompiledRule.id step _ steps
  · exact allSourced_zero engine samples
  · intro left right ofLeft ofRight record member
    rw [EvalReport.add_records, List.mem_append] at member
    exact member.elim (ofLeft record) (ofRight record)

/-- A tick logs samples that have been stored. -/
theorem allSourced_tick
    {engine : Engine cel}
    {samples : List (Sample F)}
    (stores : engine.Stores samples)
    (now : UInt64) :
    engine.AllSourced samples (engine.tick now).2 := by
  rw [tick_eq_visitRules]
  apply allSourced_visitRules
  intro rule active ruleState
  unfold tickStep
  split
  · exact allSourced_zero engine samples
  · split
    · exact allSourced_zero engine samples
    · simp only
      split
      · exact allSourced_zero engine samples
      · next latest found =>
          split
          · exact fun _ logged => absurd logged List.not_mem_nil
          · obtain ⟨sample, member, same, value, timestampUs⟩ :=
              stores _ latest found
            rw [value, timestampUs]
            exact allSourced_emit active member same.symm _

variable [F64 F]

/-- A sample logs nothing but itself. -/
theorem allSourced_onSample
    {engine : Engine cel}
    (indexed : engine.onChangeBySignal = indexRules engine.rules.rules)
    (now : UInt64)
    (sample : Sample F) :
    engine.AllSourced [sample] (engine.onSample now sample).2 := by
  rw [onSample_eq_visitRules indexed]
  refine @allSourced_visitRules _ _ (engine.receive now sample) _ _ ?_
  intro rule active ruleState
  unfold sampleStep
  split
  · exact allSourced_zero _ _
  · split
    · next departs =>
        exact allSourced_emit active List.mem_cons_self departs.1 _
    · exact allSourced_zero _ _

/-- The calls leave alone what a record takes from the engine. -/
structure SameSource (engine next : Engine cel) : Prop where
  vin : next.vin = engine.vin
  model : next.model = engine.model
  rules : next.rules = engine.rules
  indexed : next.onChangeBySignal = engine.onChangeBySignal

omit [F64 F] in
theorem Sourced.of_sameSource
    {engine next : Engine cel}
    {samples : List (Sample F)}
    {record : LogRecord F}
    (same : engine.SameSource next)
    (sourced : next.Sourced samples record) :
    engine.Sourced samples record := by
  obtain ⟨rule, active, sample, member, signal, rfl⟩ := sourced
  refine ⟨rule, same.rules ▸ active, sample, member, signal, ?_⟩
  simp only [Engine.record, same.vin, same.model, same.rules]

omit [F64 F] in
theorem sameSource_tick (engine : Engine cel) (now : UInt64) :
    engine.SameSource (engine.tick now).1 :=
  ⟨rfl, rfl, rfl, rfl⟩

theorem sameSource_onSample
    (engine : Engine cel)
    (now : UInt64)
    (sample : Sample F) :
    engine.SameSource (engine.onSample now sample).1 := by
  dsimp only [onSample]
  split <;> exact ⟨rfl, rfl, rfl, rfl⟩

theorem latest_onSample
    (engine : Engine cel)
    (now : UInt64)
    (sample : Sample F) :
    (engine.onSample now sample).1.latest =
      engine.latest.insert sample.name
        ⟨sample.value, sample.timestampUs, now⟩ := by
  dsimp only [onSample]
  split <;> rfl

omit [F64 F] in
theorem Stores.mono
    {engine : Engine cel}
    {samples more : List (Sample F)}
    (stores : engine.Stores samples)
    (included : samples ⊆ more) :
    engine.Stores more := by
  intro name latest found
  obtain ⟨sample, member, rest⟩ := stores name latest found
  exact ⟨sample, included member, rest⟩

/-- A sample that has been received is stored. -/
theorem Stores.onSample
    {engine : Engine cel}
    {samples : List (Sample F)}
    (stores : engine.Stores samples)
    (now : UInt64)
    (sample : Sample F) :
    (engine.onSample now sample).1.Stores (samples ++ [sample]) := by
  intro name latest found
  rw [latest_onSample, KeyedMap.lookup_insert_eq_ite] at found
  split at found
  · next same =>
      obtain rfl := Option.some.inj found
      exact ⟨sample, by simp, same.symm, rfl, rfl⟩
  · exact stores.mono (List.subset_append_left _ _) name latest found

/-- The sample that a call brings in. -/
def Input.sample? : Input cel → Option (Sample F)
  | .onSample _ sample => some sample
  | _ => none

omit [F64 F] in
theorem SameSource.refl (engine : Engine cel) : engine.SameSource engine :=
  ⟨rfl, rfl, rfl, rfl⟩

omit [F64 F] in
theorem SameSource.trans
    {first second third : Engine cel}
    (early : first.SameSource second)
    (late : second.SameSource third) :
    first.SameSource third where
  vin := late.vin.trans early.vin
  model := late.model.trans early.model
  rules := late.rules.trans early.rules
  indexed := late.indexed.trans early.indexed

/-- Whether an input swaps in a rule set. -/
def Input.Swaps (input : Input cel) : Prop :=
  ∃ now set, input = .applyRuleset now set

/-- Every input but a swap leaves alone what a record takes from the engine. -/
theorem sameSource_step
    (engine : Engine cel)
    {input : Input cel}
    (noSwap : ¬ input.Swaps) :
    engine.SameSource ((machine cel).step engine input).1 := by
  cases input with
  | onSample now sample => exact engine.sameSource_onSample now sample
  | tick now => exact engine.sameSource_tick now
  | applyRuleset now set => exact absurd ⟨now, set, rfl⟩ noSwap

/-- Without a swap, a run leaves alone what a record takes from the engine. -/
theorem sameSource_final
    {inputs : List (Input cel)}
    (noSwap : ∀ input ∈ inputs, ¬ input.Swaps)
    (engine : Engine cel) :
    engine.SameSource ((machine cel).final engine inputs) :=
  Machine.final_invariant_of_admitted
    (fun state _ same kept => same.trans (state.sameSource_step kept)) noSwap
    (.refl engine)

/-- Without a swap, every record of a run logs a sample that the engine was
given before. -/
theorem sourced_of_outputs
    {inputs : List (Input cel)}
    (noSwap : ∀ input ∈ inputs, ¬ input.Swaps)
    {engine : Engine cel}
    (indexed : engine.onChangeBySignal = indexRules engine.rules.rules)
    {samples : List (Sample F)}
    (stores : engine.Stores samples) :
    ∀ record ∈ ((machine cel).outputs engine inputs).flatMap (·.records),
      engine.Sourced (samples ++ inputs.filterMap Input.sample?) record := by
  induction inputs generalizing engine samples with
  | nil => simp
  | cons input inputs inductionHypothesis =>
      rw [List.forall_mem_cons] at noSwap
      intro record member
      rw [Machine.outputs_cons, List.flatMap_cons, List.mem_append] at member
      cases input with
      | applyRuleset now set =>
          exact absurd ⟨now, set, rfl⟩ noSwap.1
      | tick now =>
          rcases member with reported | later
          · exact (allSourced_tick stores now record reported).mono
              (List.subset_append_left _ _)
          · have same := engine.sameSource_tick now
            have kept : (engine.tick now).1.Stores samples := stores
            exact (inductionHypothesis noSwap.2
              (by rw [same.indexed, same.rules]; exact indexed)
              kept record later).of_sameSource same
      | onSample now sample =>
          have given : Input.sample? (.onSample now sample : Input cel) =
            some sample := rfl
          rw [List.filterMap_cons_some given, ← List.singleton_append,
            ← List.append_assoc]
          rcases member with reported | later
          · apply (allSourced_onSample indexed now sample record reported).mono
            intro other single
            rw [List.mem_singleton.mp single]
            simp
          · have same := engine.sameSource_onSample now sample
            exact (inductionHypothesis noSwap.2
              (by rw [same.indexed, same.rules]; exact indexed)
              (stores.onSample now sample) record later).of_sameSource same

end Sources

end Engine

end Rules
end TelemetryEdge
