import Mathlib.Tactic.TypeStar

/-!
# Stateful computations that can fail

A computation reads and changes a state and ends with a value or with an error.
The state it has reached is kept in both cases, so what a failed computation
leaves behind is the start of the next one.  Specifications are triples with
one condition for each way of ending, and every rule below treats both.
-/

namespace TelemetryEdge

/-- A computation over states `σ` that ends with a value of type `α` or an
error of type `ε`, and leaves a state either way. -/
def Attempt (ε σ α : Type) := σ → Except ε α × σ

namespace Attempt

instance : Monad (Attempt ε σ) where
  pure value := fun state => (.ok value, state)
  bind attempt next := fun state =>
    match attempt state with
    | (.ok value, reached) => next value reached
    | (.error error, reached) => (.error error, reached)

/-- The state, read without changing it. -/
def read : Attempt ε σ σ := fun state => (.ok state, state)

/-- Change the state by a function. -/
def modify (change : σ → σ) : Attempt ε σ Unit :=
  fun state => (.ok (), change state)

/-- Run a computation only if a condition holds. -/
def runIf (condition : Prop) [Decidable condition]
    (attempt : Attempt ε σ Unit) : Attempt ε σ Unit :=
  if condition then attempt else pure ()

/-- Run a body for `count`, `count - 1`, …, `1`. -/
def countdown (body : Nat → Attempt ε σ Unit) : Nat → Attempt ε σ Unit
  | 0 => pure ()
  | count + 1 => do
      body (count + 1)
      countdown body count

theorem bind_apply
    (first : Attempt ε σ β)
    (next : β → Attempt ε σ α)
    (state : σ) :
    (first >>= next) state =
      match first state with
      | (.ok value, reached) => next value reached
      | (.error error, reached) => (.error error, reached) := rfl

/-- From a state where `before` holds the computation ends with a value and a
state related by `after`, or with an error in a state related by `failed`. -/
def Ensures
    (before : σ → Prop)
    (attempt : Attempt ε σ α)
    (after : α → σ → Prop)
    (failed : ε → σ → Prop) : Prop :=
  ∀ state, before state →
    match attempt state with
    | (.ok value, reached) => after value reached
    | (.error error, reached) => failed error reached

namespace Ensures

variable {before before' : σ → Prop}
variable {after after' : α → σ → Prop}
variable {failed failed' : ε → σ → Prop}
variable {attempt : Attempt ε σ α}

/-- What a triple says of a computation that ended with an error. -/
theorem of_error
    (ensures : Ensures before attempt after failed)
    {state reached : σ}
    {error : ε}
    (holds : before state)
    (ended : attempt state = (.error error, reached)) :
    failed error reached := by
  have result := ensures state holds
  rw [ended] at result
  exact result

/-- A triple without a failure condition gives a value. -/
theorem exists_ok
    (ensures : Ensures before attempt after fun _ _ => False)
    {state : σ}
    (holds : before state) :
    ∃ value reached,
      attempt state = (.ok value, reached) ∧ after value reached := by
  have result := ensures state holds
  rcases ended : attempt state with ⟨error | value, reached⟩
  · rw [ended] at result
    exact result.elim
  · rw [ended] at result
    exact ⟨value, reached, rfl, result⟩

/-- Rule of consequence for the two ways of ending. -/
theorem mono
    (ensures : Ensures before attempt after failed)
    (weaker : ∀ value state, after value state → after' value state)
    (weakerFailed : ∀ error state, failed error state → failed' error state) :
    Ensures before attempt after' failed' := by
  intro state holds
  have result := ensures state holds
  rcases ended : attempt state with ⟨error | value, reached⟩
  · rw [ended] at result
    exact weakerFailed error reached result
  · rw [ended] at result
    exact weaker value reached result

/-- Rule of consequence for the initial state. -/
theorem strengthen
    (ensures : Ensures before attempt after failed)
    (stronger : ∀ state, before' state → before state) :
    Ensures before' attempt after failed :=
  fun state holds => ensures state (stronger state holds)

/-- Rule for reasoning from one initial state. -/
theorem from_state
    (ensures : Ensures before attempt after failed)
    {state : σ}
    (holds : before state) :
    Ensures (state = ·) attempt after failed := by
  rintro _ rfl
  exact ensures _ holds

/-- Rule for reasoning from each initial state on its own. -/
theorem of_each
    (ensures : ∀ state, before state →
      Ensures (state = ·) attempt after failed) :
    Ensures before attempt after failed :=
  fun state holds => ensures state holds state rfl

theorem pure
    {value : α}
    (holds : ∀ state, before state → after value state) :
    Ensures before (Pure.pure value : Attempt ε σ α) after failed :=
  holds

theorem modify
    {after : Unit → σ → Prop}
    {change : σ → σ}
    (holds : ∀ state, before state → after () (change state)) :
    Ensures before (Attempt.modify change) after failed :=
  holds

/-- Rule of sequence: both parts may fail. -/
theorem bind
    {middle : β → σ → Prop}
    {first : Attempt ε σ β}
    {next : β → Attempt ε σ α}
    (ensuresFirst : Ensures before first middle failed)
    (ensuresNext : ∀ value, Ensures (middle value) (next value) after failed) :
    Ensures before (first >>= next) after failed := by
  intro state holds
  have result := ensuresFirst state holds
  rw [bind_apply]
  rcases ended : first state with ⟨error | value, reached⟩
  · rw [ended] at result
    exact result
  · rw [ended] at result
    exact ensuresNext value reached result

/-- Rule of sequence that goes on from each state the first part can reach. -/
theorem andThen
    {middle : β → σ → Prop}
    {stopped : ε → σ → Prop}
    {first : Attempt ε σ β}
    {next : β → Attempt ε σ α}
    (ensuresFirst : Ensures before first middle stopped)
    (stops : ∀ error state, stopped error state → failed error state)
    (ensuresNext : ∀ value state, middle value state →
      Ensures (state = ·) (next value) after failed) :
    Ensures before (first >>= next) after failed :=
  bind (ensuresFirst.mono (fun _ _ => id) stops) fun value =>
    of_each (ensuresNext value)

/-- Rule for reading the state. -/
theorem bind_read
    {next : σ → Attempt ε σ α}
    {state : σ}
    (ensures : Ensures (state = ·) (next state) after failed) :
    Ensures (state = ·) (Attempt.read >>= next) after failed := by
  rintro _ rfl
  exact ensures _ rfl

/-- Rule for a guarded computation. -/
theorem runIf
    {after : Unit → σ → Prop}
    {condition : Prop}
    [Decidable condition]
    {attempt : Attempt ε σ Unit}
    (ensures : condition → Ensures before attempt after failed)
    (skipped : ¬ condition → ∀ state, before state → after () state) :
    Ensures before (Attempt.runIf condition attempt) after failed := by
  unfold Attempt.runIf
  split
  · next holds => exact ensures holds
  · next fails => exact Ensures.pure (skipped fails)

/-- Rule for a loop that counts down: the invariant speaks of the number of
rounds left. -/
theorem countdown
    {invariant : Nat → σ → Prop}
    {body : Nat → Attempt ε σ Unit}
    (count : Nat)
    (round : ∀ left, left < count →
      Ensures (invariant (left + 1)) (body (left + 1))
        (fun _ => invariant left) failed) :
    Ensures (invariant count) (Attempt.countdown body count)
      (fun _ => invariant 0) failed := by
  induction count with
  | zero => exact Ensures.pure fun _ holds => holds
  | succ count inductionHypothesis =>
      exact Ensures.bind (round count (Nat.lt_succ_self count)) fun _ =>
        inductionHypothesis fun left bounded =>
          round left (Nat.lt_succ_of_lt bounded)

/-- Rule for a loop over a list: the invariant speaks of what has been
accumulated from the items so far. -/
theorem forM
    {invariant : β → σ → Prop}
    {accumulate : β → ι → β}
    {body : ι → Attempt ε σ Unit}
    (items : List ι)
    (round : ∀ accumulated, ∀ item ∈ items,
      Ensures (invariant accumulated) (body item)
        (fun _ => invariant (accumulate accumulated item)) failed)
    (start : β) :
    Ensures (invariant start) (items.forM body)
      (fun _ => invariant (items.foldl accumulate start)) failed := by
  induction items generalizing start with
  | nil => exact Ensures.pure fun _ holds => holds
  | cons item items inductionHypothesis =>
      exact Ensures.bind (round start item List.mem_cons_self) fun _ =>
        inductionHypothesis
          (fun accumulated other member =>
            round accumulated other (List.mem_cons_of_mem item member))
          (accumulate start item)

/-- Rule for a loop over a list that keeps an invariant. -/
theorem forM_invariant
    {invariant : σ → Prop}
    {body : ι → Attempt ε σ Unit}
    (items : List ι)
    (round : ∀ item ∈ items,
      Ensures invariant (body item) (fun _ => invariant) failed) :
    Ensures invariant (items.forM body) (fun _ => invariant) failed := by
  induction items with
  | nil => exact Ensures.pure fun _ holds => holds
  | cons item items inductionHypothesis =>
      rw [List.forall_mem_cons] at round
      exact Ensures.bind round.1 fun _ => inductionHypothesis round.2

end Ensures

end Attempt
end TelemetryEdge
