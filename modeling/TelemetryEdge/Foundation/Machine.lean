import Mathlib.Data.List.Induction

/-!
# Deterministic machines with outputs

A machine reads one input at a time, changes its state and emits one output.
This module collects the induction rules used for whole runs: an invariant rule
for the final state, a rule relating the final state to the history of the run,
and a simulation rule for two machines where some inputs of the first have no
counterpart in the second.
-/

namespace TelemetryEdge

/-- A deterministic machine over states `σ`, inputs `ι` and outputs `ο`. -/
structure Machine (σ ι ο : Type*) where
  /-- One step: the next state and the output emitted on the way. -/
  step : σ → ι → σ × ο

namespace Machine

/-- State reached by reading a list of inputs in order. -/
def final (machine : Machine σ ι ο) : σ → List ι → σ
  | state, [] => state
  | state, input :: inputs =>
      machine.final (machine.step state input).1 inputs

/-- Outputs emitted while reading a list of inputs, one for each input. -/
def outputs (machine : Machine σ ι ο) : σ → List ι → List ο
  | _, [] => []
  | state, input :: inputs =>
      (machine.step state input).2 ::
        machine.outputs (machine.step state input).1 inputs

/-- The inputs of a run, each with the output it produced. -/
def trace (machine : Machine σ ι ο) (state : σ) (inputs : List ι) :
    List (ι × ο) :=
  inputs.zip (machine.outputs state inputs)

@[simp] theorem final_nil
    (machine : Machine σ ι ο)
    (state : σ) :
    machine.final state [] = state := rfl

@[simp] theorem final_cons
    (machine : Machine σ ι ο)
    (state : σ)
    (input : ι)
    (inputs : List ι) :
    machine.final state (input :: inputs) =
      machine.final (machine.step state input).1 inputs := rfl

@[simp] theorem outputs_nil
    (machine : Machine σ ι ο)
    (state : σ) :
    machine.outputs state [] = [] := rfl

@[simp] theorem outputs_cons
    (machine : Machine σ ι ο)
    (state : σ)
    (input : ι)
    (inputs : List ι) :
    machine.outputs state (input :: inputs) =
      (machine.step state input).2 ::
        machine.outputs (machine.step state input).1 inputs := rfl

@[simp] theorem trace_nil
    (machine : Machine σ ι ο)
    (state : σ) :
    machine.trace state [] = [] := rfl

@[simp] theorem trace_cons
    (machine : Machine σ ι ο)
    (state : σ)
    (input : ι)
    (inputs : List ι) :
    machine.trace state (input :: inputs) =
      (input, (machine.step state input).2) ::
        machine.trace (machine.step state input).1 inputs := rfl

/-- A run over a concatenation continues from the middle state. -/
theorem final_append
    (machine : Machine σ ι ο)
    (state : σ)
    (first second : List ι) :
    machine.final state (first ++ second) =
      machine.final (machine.final state first) second := by
  induction first generalizing state with
  | nil => rfl
  | cons input inputs inductionHypothesis =>
      simp only [List.cons_append, final_cons, inductionHypothesis]

/-- The trace of a concatenation is the concatenation of the traces. -/
theorem trace_append
    (machine : Machine σ ι ο)
    (state : σ)
    (first second : List ι) :
    machine.trace state (first ++ second) =
      machine.trace state first ++
        machine.trace (machine.final state first) second := by
  induction first generalizing state with
  | nil => rfl
  | cons input inputs inductionHypothesis =>
      simp only [List.cons_append, trace_cons, final_cons,
        inductionHypothesis]

/-- The outputs of a concatenation are those of its parts, in order. -/
theorem outputs_append
    (machine : Machine σ ι ο)
    (state : σ)
    (first second : List ι) :
    machine.outputs state (first ++ second) =
      machine.outputs state first ++
        machine.outputs (machine.final state first) second := by
  induction first generalizing state with
  | nil => rfl
  | cons input inputs inductionHypothesis =>
      simp only [List.cons_append, outputs_cons, final_cons,
        inductionHypothesis]

/-- A property preserved by every step holds in every reachable state. -/
theorem final_invariant
    {machine : Machine σ ι ο}
    {invariant : σ → Prop}
    (preserved : ∀ state input,
      invariant state → invariant (machine.step state input).1)
    (inputs : List ι)
    {state : σ}
    (holds : invariant state) :
    invariant (machine.final state inputs) := by
  induction inputs generalizing state with
  | nil => exact holds
  | cons input inputs inductionHypothesis =>
      exact inductionHypothesis (preserved state input holds)

/-- A property preserved by the steps that read admitted inputs holds after every
run that reads only such inputs. -/
theorem final_invariant_of_admitted
    {machine : Machine σ ι ο}
    {invariant : σ → Prop}
    {admitted : ι → Prop}
    (preserved : ∀ state input, invariant state → admitted input →
      invariant (machine.step state input).1)
    {inputs : List ι}
    (inputsAdmitted : ∀ input ∈ inputs, admitted input)
    {state : σ}
    (holds : invariant state) :
    invariant (machine.final state inputs) := by
  induction inputs generalizing state with
  | nil => exact holds
  | cons input inputs inductionHypothesis =>
      rw [List.forall_mem_cons] at inputsAdmitted
      exact inductionHypothesis inputsAdmitted.2
        (preserved state input holds inputsAdmitted.1)

/-- What holds of every output of a step that keeps an invariant holds of all
outputs of a run.  Only inputs that satisfy `admitted` have to be considered. -/
theorem forall_outputs
    (machine : Machine σ ι ο)
    (invariant : σ → Prop)
    (admitted : ι → Prop)
    (good : ο → Prop)
    (step : ∀ state input, invariant state → admitted input →
      invariant (machine.step state input).1 ∧
        good (machine.step state input).2)
    {inputs : List ι}
    (inputsAdmitted : ∀ input ∈ inputs, admitted input)
    {state : σ}
    (holds : invariant state) :
    ∀ output ∈ machine.outputs state inputs, good output := by
  induction inputs generalizing state with
  | nil => simp
  | cons input inputs inductionHypothesis =>
      rw [List.forall_mem_cons] at inputsAdmitted
      obtain ⟨next, goodHead⟩ := step state input holds inputsAdmitted.1
      rw [outputs_cons, List.forall_mem_cons]
      exact ⟨goodHead, inductionHypothesis inputsAdmitted.2 next⟩

/-- Two machines that read the same inputs in lockstep emit outputs that look
alike. -/
theorem map_outputs_eq_of_lockstep
    {first : Machine σ ι ο}
    {second : Machine τ ι ο'}
    (related : σ → τ → Prop)
    (admitted : ι → Prop)
    {look : ο → ω}
    {lookSecond : ο' → ω}
    (step : ∀ state other input,
      related state other → admitted input →
        related (first.step state input).1 (second.step other input).1 ∧
          look (first.step state input).2 =
            lookSecond (second.step other input).2)
    {inputs : List ι}
    (inputsAdmitted : ∀ input ∈ inputs, admitted input)
    {state : σ}
    {other : τ}
    (start : related state other) :
    (first.outputs state inputs).map look =
      (second.outputs other inputs).map lookSecond := by
  induction inputs generalizing state other with
  | nil => rfl
  | cons input inputs inductionHypothesis =>
      rw [List.forall_mem_cons] at inputsAdmitted
      obtain ⟨next, alike⟩ := step state other input start inputsAdmitted.1
      rw [outputs_cons, outputs_cons, List.map_cons, List.map_cons, alike,
        inductionHypothesis inputsAdmitted.2 next]

/-- The steps of a run with their outputs, newest first. -/
def history (machine : Machine σ ι ο) (state : σ) (inputs : List ι) :
    List (ι × ο) :=
  (machine.trace state inputs).reverse

@[simp] theorem history_nil
    (machine : Machine σ ι ο)
    (state : σ) :
    machine.history state [] = [] := rfl

/-- The last step of a run is the newest entry of its history. -/
theorem history_concat
    (machine : Machine σ ι ο)
    (state : σ)
    (inputs : List ι)
    (input : ι) :
    machine.history state (inputs ++ [input]) =
      (input, (machine.step (machine.final state inputs) input).2) ::
        machine.history state inputs := by
  simp only [history, trace_append, trace_cons, trace_nil,
    List.reverse_append, List.reverse_singleton, List.singleton_append]

/-- A relation between history and state that every step extends holds at the
end of every run. -/
theorem final_history_invariant
    {machine : Machine σ ι ο}
    {start : σ}
    {relation : List (ι × ο) → σ → Prop}
    (initially : relation [] start)
    (extended : ∀ past state input,
      relation past state →
        relation ((input, (machine.step state input).2) :: past)
          (machine.step state input).1)
    (inputs : List ι) :
    relation (machine.history start inputs) (machine.final start inputs) := by
  induction inputs using List.reverseRecOn with
  | nil => exact initially
  | append_singleton inputs input inductionHypothesis =>
      rw [history_concat, final_append]
      exact extended _ _ input inductionHypothesis

/-! ## Simulation with erased inputs -/

/-- What an observer sees of the outputs of a run, in order. -/
def observed
    (machine : Machine σ ι ο)
    (observe : ο → Option ω)
    (state : σ)
    (inputs : List ι) : List ω :=
  (machine.outputs state inputs).filterMap observe

@[simp] theorem observed_nil
    (machine : Machine σ ι ο)
    (observe : ο → Option ω)
    (state : σ) :
    machine.observed observe state [] = [] := rfl

@[simp] theorem observed_cons
    (machine : Machine σ ι ο)
    (observe : ο → Option ω)
    (state : σ)
    (input : ι)
    (inputs : List ι) :
    machine.observed observe state (input :: inputs) =
      (observe (machine.step state input).2).toList ++
        machine.observed observe (machine.step state input).1 inputs := by
  simp only [observed, outputs_cons, List.filterMap_cons]
  cases observe (machine.step state input).2 <;> rfl

/-- Related states stay related when inputs kept by `translate` are read on both
sides and inputs dropped by it on the first side only. -/
theorem final_related_of_simulation
    {first : Machine σ ι ο}
    {second : Machine τ κ ο'}
    {translate : ι → Option κ}
    (related : σ → τ → Prop)
    (kept : ∀ state other input counterpart,
      related state other → translate input = some counterpart →
        related (first.step state input).1 (second.step other counterpart).1)
    (dropped : ∀ state other input,
      related state other → translate input = none →
        related (first.step state input).1 other)
    (inputs : List ι)
    {state : σ}
    {other : τ}
    (start : related state other) :
    related (first.final state inputs)
      (second.final other (inputs.filterMap translate)) := by
  induction inputs generalizing state other with
  | nil => exact start
  | cons input inputs inductionHypothesis =>
      cases translated : translate input with
      | none =>
          rw [List.filterMap_cons_none translated]
          exact inductionHypothesis (dropped state other input start translated)
      | some counterpart =>
          rw [List.filterMap_cons_some translated]
          exact inductionHypothesis
            (kept state other input counterpart start translated)

/-- Two machines look the same to an observer when related states stay related,
an input kept by `translate` is answered alike on both sides, and an input
dropped by `translate` is silent and leaves the relation alone.  Only inputs
that satisfy `admitted` have to be considered. -/
theorem observed_eq_of_simulation
    {first : Machine σ ι ο}
    {second : Machine τ κ ο'}
    {observeFirst : ο → Option ω}
    {observeSecond : ο' → Option ω}
    {translate : ι → Option κ}
    (related : σ → τ → Prop)
    (admitted : ι → Prop)
    (kept : ∀ state other input counterpart,
      related state other → admitted input →
      translate input = some counterpart →
        related (first.step state input).1
            (second.step other counterpart).1 ∧
          observeFirst (first.step state input).2 =
            observeSecond (second.step other counterpart).2)
    (dropped : ∀ state other input,
      related state other → admitted input →
      translate input = none →
        related (first.step state input).1 other ∧
          observeFirst (first.step state input).2 = none)
    (inputs : List ι)
    (inputsAdmitted : ∀ input ∈ inputs, admitted input)
    {state : σ}
    {other : τ}
    (start : related state other) :
    first.observed observeFirst state inputs =
      second.observed observeSecond other (inputs.filterMap translate) := by
  induction inputs generalizing state other with
  | nil => rfl
  | cons input inputs inductionHypothesis =>
      have admittedHead := inputsAdmitted input List.mem_cons_self
      have admittedTail : ∀ later ∈ inputs, admitted later :=
        fun later member => inputsAdmitted later (List.mem_cons_of_mem _ member)
      cases translated : translate input with
      | none =>
          obtain ⟨next, silent⟩ :=
            dropped state other input start admittedHead translated
          rw [List.filterMap_cons_none translated, observed_cons, silent,
            Option.toList_none, List.nil_append]
          exact inductionHypothesis admittedTail next
      | some counterpart =>
          obtain ⟨next, alike⟩ :=
            kept state other input counterpart start admittedHead translated
          rw [List.filterMap_cons_some translated, observed_cons,
            observed_cons, alike, inductionHypothesis admittedTail next]

end Machine
end TelemetryEdge
