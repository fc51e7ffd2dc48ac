import Mathlib.Logic.Basic

/-!
# Runs of a transition relation

A system of several parties takes steps in any order, and every step is labelled
by an event.  A run records the events in order.  What relates the events of a
run to the state it has reached is proved by extending the run at its end.
-/

namespace TelemetryEdge

/-- Runs of a labelled transition relation from a state. -/
inductive Run (step : σ → ι → σ → Prop) (start : σ) : List ι → σ → Prop
  | start : Run step start [] start
  | extend
      {events : List ι}
      {state next : σ}
      {event : ι}
      (run : Run step start events state)
      (stepped : step state event next) :
      Run step start (events ++ [event]) next

/-- No party can take a step. -/
def Stuck (step : σ → ι → σ → Prop) (state : σ) : Prop :=
  ∀ event next, ¬ step state event next

namespace Run

variable {step : σ → ι → σ → Prop} {start : σ}

/-- A relation between events and state that every step extends holds at the end
of every run. -/
theorem relation
    (related : List ι → σ → Prop)
    (initially : related [] start)
    (extended : ∀ events state event next,
      Run step start events state → related events state →
        step state event next → related (events ++ [event]) next)
    {events : List ι}
    {state : σ}
    (run : Run step start events state) :
    related events state := by
  induction run with
  | start => exact initially
  | extend run stepped inductionHypothesis =>
      exact extended _ _ _ _ run inductionHypothesis stepped

/-- A property that every step keeps holds in every state reached. -/
theorem invariant
    {holds : σ → Prop}
    (initially : holds start)
    (kept : ∀ state event next,
      holds state → step state event next → holds next)
    {events : List ι}
    {state : σ}
    (run : Run step start events state) :
    holds state :=
  run.relation (fun _ => holds) initially
    fun _ state event next _ => kept state event next

/-- What a step says of its event, from any state, holds of every event. -/
theorem forall_events
    {good : ι → Prop}
    (labelled : ∀ state event next, step state event next → good event)
    {events : List ι}
    {state : σ}
    (run : Run step start events state) :
    ∀ event ∈ events, good event := by
  induction run with
  | start => exact fun _ member => absurd member List.not_mem_nil
  | extend run stepped inductionHypothesis =>
      rw [List.forall_mem_append, List.forall_mem_singleton]
      exact ⟨inductionHypothesis, labelled _ _ _ stepped⟩

end Run
end TelemetryEdge
