import Mathlib.Tactic.ByContra
import TelemetryEdge.Foundation.Transition

/-!
# Progress of a transition relation

When every step lowers a measure, as long as an invariant holds, a run has no
more steps than the measure of its start, and it can be continued until no step
is left.
-/

namespace TelemetryEdge
namespace Run

variable {step step' : σ → ι → σ → Prop} {start middle state : σ}

/-- A run continues another one. -/
theorem append
    {first second : List ι}
    (run : Run step start first middle)
    (continued : Run step middle second state) :
    Run step start (first ++ second) state := by
  induction continued with
  | start => rwa [List.append_nil]
  | extend _ stepped inductionHypothesis =>
      rw [← List.append_assoc]
      exact inductionHypothesis.extend stepped

/-- A run of some steps of a relation is a run of the relation. -/
theorem mono
    {events : List ι}
    (included : ∀ state event next,
      step state event next → step' state event next)
    (run : Run step start events state) :
    Run step' start events state := by
  induction run with
  | start => exact .start
  | extend _ stepped inductionHypothesis =>
      exact inductionHypothesis.extend (included _ _ _ stepped)

section Measure

variable {holds : σ → Prop} {weight : σ → Nat}

/-- Every step lowers the measure by one at least. -/
theorem weight_add_length_le
    (kept : ∀ state event next,
      holds state → step state event next → holds next)
    (lowered : ∀ state event next,
      holds state → step state event next → weight next < weight state)
    (initially : holds start)
    {events : List ι}
    (run : Run step start events state) :
    weight state + events.length ≤ weight start := by
  induction run with
  | start => exact Nat.le_refl _
  | extend run stepped inductionHypothesis =>
      have less := lowered _ _ _ (run.invariant initially kept) stepped
      rw [List.length_append, List.length_singleton]
      omega

/-- A run can be continued until no step is left. -/
theorem exists_stuck
    (kept : ∀ state event next,
      holds state → step state event next → holds next)
    (lowered : ∀ state event next,
      holds state → step state event next → weight next < weight state)
    (initially : holds start)
    {events : List ι}
    (run : Run step start events state) :
    ∃ more final, Run step start (events ++ more) final ∧
      Stuck step final := by
  induction rank : weight state using Nat.strongRecOn generalizing
    state events with
  | ind rank inductionHypothesis =>
      subst rank
      by_cases stuck : Stuck step state
      · exact ⟨[], state, by rwa [List.append_nil], stuck⟩
      · obtain ⟨event, next, stepped⟩ : ∃ event next,
            step state event next := by
          by_contra none
          exact stuck fun event next stepped => none ⟨event, next, stepped⟩
        have less := lowered _ _ _ (run.invariant initially kept) stepped
        obtain ⟨more, final, continued, terminal⟩ :=
          inductionHypothesis _ less (run.extend stepped) rfl
        refine ⟨event :: more, final, ?_, terminal⟩
        rwa [List.append_assoc, List.singleton_append] at continued

end Measure

end Run
end TelemetryEdge
