import TelemetryEdge.Rules.Provenance
import TelemetryEdge.Rules.View

/-!
# How much one call of the engine reports

A rule contributes one entry at most to the report of a call: a record, an error
of its condition or a skip.  Every entry carries the id of an active rule.
-/

namespace TelemetryEdge
namespace KeyedLoop

variable [DecidableEq κ] [AddMonoid ω]

/-- A loop whose visits add one to a measure of the output at most adds no more
than there are items. -/
theorem measure_foldl_snd_le
    (key : α → κ)
    (body : α → β → β × ω)
    {measure : ω → Nat}
    (additive : ∀ left right, measure (left + right) =
      measure left + measure right)
    (single : ∀ item entry, measure (body item entry).2 ≤ 1)
    (items : List α)
    (state : KeyedMap κ β × ω) :
    measure (items.foldl (visit key body) state).2 ≤
      measure state.2 + items.length := by
  induction items generalizing state with
  | nil => exact le_rfl
  | cons item items inductionHypothesis =>
      have visited : measure (visit key body state item).2 ≤
          measure state.2 + 1 := by
        unfold visit
        split
        · exact Nat.le_succ _
        · next entry _ =>
            rw [additive]
            exact Nat.add_le_add_left (single item entry) _
      rw [List.foldl_cons, List.length_cons]
      exact (inductionHypothesis _).trans (by omega)

end KeyedLoop

namespace Rules

open Protocol

/-- The number of entries of a report. -/
def EvalReport.size (report : EvalReport F) : Nat :=
  report.records.length + report.evalErrors.length + report.staleSkips.length

theorem EvalReport.size_add (left right : EvalReport F) :
    (left + right).size = left.size + right.size := by
  simp only [size, add_records, add_evalErrors, add_staleSkips,
    List.length_append]
  omega

namespace Engine

variable {cel : Cel F}

theorem size_emit_le
    (engine : Engine cel)
    (rule : CompiledRule cel)
    (ruleState : RuleState F)
    (tsUs : UInt64)
    (value : SignalValue F) :
    (engine.emit rule ruleState tsUs value).2.size ≤ 1 := by
  unfold emit
  split
  · exact le_rfl
  · exact Nat.zero_le 1
  · exact le_rfl

theorem size_tickStep_le
    (engine : Engine cel)
    (now : UInt64)
    (rule : CompiledRule cel)
    (ruleState : RuleState F) :
    (engine.tickStep now rule ruleState).2.size ≤ 1 := by
  unfold tickStep
  split
  · exact Nat.zero_le 1
  · split
    · exact Nat.zero_le 1
    · simp only
      split
      · exact Nat.zero_le 1
      · split
        · exact le_rfl
        · exact size_emit_le ..

/-- A loop of rules that add one entry each at most. -/
theorem size_visitRules_le
    (engine : Engine cel)
    {step : CompiledRule cel → RuleState F → RuleState F × EvalReport F}
    (single : ∀ rule ruleState, (step rule ruleState).2.size ≤ 1) :
    (engine.visitRules step).2.size ≤ engine.rules.rules.length := by
  have bound := KeyedLoop.measure_foldl_snd_le CompiledRule.id step
    EvalReport.size_add single engine.rules.rules (engine.state, 0)
  rwa [show EvalReport.size (0 : EvalReport F) = 0 from rfl,
    Nat.zero_add] at bound

theorem size_tick_le
    (engine : Engine cel)
    (now : UInt64) :
    (engine.tick now).2.size ≤ engine.rules.rules.length := by
  rw [tick_eq_visitRules]
  exact engine.size_visitRules_le (engine.size_tickStep_le now)

variable [F64 F]

theorem size_sampleStep_le
    (engine : Engine cel)
    (sample : Sample F)
    (rule : CompiledRule cel)
    (ruleState : RuleState F) :
    (engine.sampleStep sample rule ruleState).2.size ≤ 1 := by
  unfold sampleStep
  split
  · exact Nat.zero_le 1
  · split
    · exact size_emit_le ..
    · exact Nat.zero_le 1

theorem size_onSample_le
    {engine : Engine cel}
    (indexed : engine.onChangeBySignal = indexRules engine.rules.rules)
    (now : UInt64)
    (sample : Sample F) :
    (engine.onSample now sample).2.size ≤ engine.rules.rules.length := by
  rw [onSample_eq_visitRules indexed]
  exact size_visitRules_le _ (size_sampleStep_le _ sample)

end Engine

/-- The ids that the entries of a report carry. -/
def EvalReport.ids (report : EvalReport F) : List String :=
  report.records.map (·.ruleId) ++ report.evalErrors.map (·.1) ++
    report.staleSkips

/-- All entries of a report carry one of some ids. -/
def EvalReport.IdsIn (ids : List String) (report : EvalReport F) : Prop :=
  ∀ id ∈ report.ids, id ∈ ids

theorem EvalReport.mem_ids_add_iff
    (left right : EvalReport F)
    (id : String) :
    id ∈ (left + right).ids ↔ id ∈ left.ids ∨ id ∈ right.ids := by
  simp only [ids, add_records, add_evalErrors, add_staleSkips, List.map_append,
    List.mem_append]
  tauto

/-- The entries of a report of one rule carry its id. -/
theorem EvalReport.IsOf.eq_of_mem_ids
    {report : EvalReport F}
    {own id : String}
    (isOf : report.IsOf own)
    (member : id ∈ report.ids) :
    id = own := by
  by_contra different
  have nothing := isOf id
  rw [if_neg (Ne.symm different)] at nothing
  have emptied : (report.only id).records = [] ∧
      (report.only id).evalErrors = [] ∧ (report.only id).staleSkips = [] := by
    rw [nothing]
    exact ⟨rfl, rfl, rfl⟩
  simp only [only, List.filter_eq_nil_iff, beq_iff_eq] at emptied
  simp only [ids, List.mem_append, List.mem_map] at member
  rcases member with (⟨record, inRecords, same⟩ | ⟨error, inErrors, same⟩) |
    inSkips
  · exact emptied.1 record inRecords same
  · exact emptied.2.1 error inErrors same
  · exact emptied.2.2 id inSkips rfl

namespace Engine

variable {cel : Cel F}

/-- The entries of a loop carry the ids of its rules. -/
theorem idsIn_visitRules
    (engine : Engine cel)
    {step : CompiledRule cel → RuleState F → RuleState F × EvalReport F}
    (own : ∀ rule ruleState, (step rule ruleState).2.IsOf rule.id) :
    (engine.visitRules step).2.IdsIn
      (engine.rules.rules.map CompiledRule.id) := by
  apply KeyedLoop.foldl_snd_induction CompiledRule.id step
  · intro left right ofLeft ofRight id member
    exact ((EvalReport.mem_ids_add_iff ..).mp member).elim (ofLeft id)
      (ofRight id)
  · intro rule active ruleState id member
    rw [(own rule ruleState).eq_of_mem_ids member]
    exact List.mem_map_of_mem active
  · exact fun id member => absurd member List.not_mem_nil

variable [F64 F]

/-- Without a swap, every entry of every report carries the id of an active
rule. -/
theorem idsIn_of_outputs
    {inputs : List (Input cel)}
    (noSwap : ∀ input ∈ inputs, ¬ input.Swaps)
    {engine : Engine cel}
    (indexed : engine.onChangeBySignal = indexRules engine.rules.rules) :
    ∀ report ∈ (machine cel).outputs engine inputs,
      report.IdsIn (engine.rules.rules.map CompiledRule.id) := by
  refine Machine.forall_outputs (machine cel) engine.SameSource
    (¬ ·.Swaps) _ ?_ noSwap (.refl engine)
  intro state input same kept
  refine ⟨same.trans (state.sameSource_step kept), ?_⟩
  rw [← same.rules]
  have stateIndexed : state.onChangeBySignal =
      indexRules state.rules.rules := by
    rw [same.indexed, same.rules, indexed]
  cases input with
  | tick now =>
      change (state.tick now).2.IdsIn _
      rw [tick_eq_visitRules]
      exact state.idsIn_visitRules (state.tickStep_isOf now)
  | onSample now sample =>
      change (state.onSample now sample).2.IdsIn _
      rw [onSample_eq_visitRules stateIndexed]
      exact (state.receive now sample).idsIn_visitRules
        (sampleStep_isOf _ sample)
  | applyRuleset now set => exact absurd ⟨now, set, rfl⟩ kept

end Engine

end Rules
end TelemetryEdge
