import Mathlib.Data.List.Forall2
import Mathlib.Tactic.TypeStar

/-!
# Loops that register items one by one

A loop reads a list of items into a state and stops at the first item that it
rejects.  One rule follows what the state holds through the loop, and one says
which lists are accepted when an item is rejected for being bad by itself or for
clashing with what was registered before it.  A loop that turns every item into
an output relates them one by one.
-/

namespace TelemetryEdge
namespace Registration

variable {ε σ α : Type*} {step : σ → α → Except ε σ}

/-- A relation between the items read and the state that every accepted item
extends holds at the end of an accepted list. -/
theorem foldlM_reads
    (holds : List α → σ → Prop)
    (extended : ∀ read state item next,
      holds read state → step state item = .ok next →
        holds (read ++ [item]) next)
    {items : List α}
    {state result : σ}
    (accepted : items.foldlM step state = .ok result)
    (read : List α)
    (start : holds read state) :
    holds (read ++ items) result := by
  induction items generalizing state read with
  | nil =>
      obtain rfl := Except.ok.inj accepted
      rwa [List.append_nil]
  | cons item items inductionHypothesis =>
      rw [List.foldlM_cons] at accepted
      cases stepped : step state item with
      | error error =>
          rw [stepped] at accepted
          cases accepted
      | ok next =>
          rw [stepped] at accepted
          rw [List.append_cons]
          exact inductionHypothesis accepted (read ++ [item])
            (extended read state item next start stepped)

/-- A list is accepted when every item is good and fresh at the start and no two
items clash. -/
theorem foldlM_isOk_iff
    {good : α → Prop}
    {fresh : σ → α → Prop}
    {clash : α → α → Prop}
    (accepts : ∀ state item,
      (∃ next, step state item = .ok next) ↔ good item ∧ fresh state item)
    (registers : ∀ state item next, step state item = .ok next →
      ∀ other, fresh next other ↔ fresh state other ∧ ¬ clash item other)
    (items : List α)
    (state : σ) :
    (∃ result, items.foldlM step state = .ok result) ↔
      (∀ item ∈ items, good item ∧ fresh state item) ∧
        items.Pairwise fun earlier later => ¬ clash earlier later := by
  induction items generalizing state with
  | nil =>
      have accepted : [].foldlM step state = .ok state := rfl
      simp [accepted]
  | cons item items inductionHypothesis =>
      rw [List.forall_mem_cons, List.pairwise_cons, ← accepts, List.foldlM_cons]
      cases stepped : step state item with
      | error error =>
          constructor
          · rintro ⟨result, ⟨⟩⟩
          · rintro ⟨⟨⟨next, ⟨⟩⟩, -⟩, -⟩
      | ok next =>
          have rest := inductionHypothesis next
          simp only [registers state item next stepped, ← and_assoc,
            forall_and] at rest
          have continued : (∃ result,
              (Except.ok next >>= fun reached => items.foldlM step reached) =
                .ok result) ↔
              ∃ result, items.foldlM step next = .ok result := Iff.rfl
          rw [continued, rest]
          simp only [Except.ok.injEq, exists_eq', true_and, forall_and]
          tauto

/-- A loop that stops at the first error succeeds when every turn does. -/
theorem mapM_eq_ok_iff
    {β : Type*}
    {f : α → Except ε β}
    {inputs : List α}
    {outputs : List β} :
    inputs.mapM f = .ok outputs ↔
      List.Forall₂ (fun input output => f input = .ok output) inputs
        outputs := by
  induction inputs generalizing outputs with
  | nil =>
      rw [List.mapM_nil, List.forall₂_nil_left_iff]
      simp [Pure.pure, Except.pure, eq_comm]
  | cons input inputs inductionHypothesis =>
      rw [List.mapM_cons, List.forall₂_cons_left_iff]
      cases first : f input with
      | error error => simp [Bind.bind, Except.bind]
      | ok output =>
          cases later : inputs.mapM f with
          | error error =>
              rw [later] at inductionHypothesis
              simp only [reduceCtorEq, false_iff] at inductionHypothesis
              simp [Bind.bind, Except.bind, inductionHypothesis]
          | ok rest =>
              rw [later] at inductionHypothesis
              simp only [Except.ok.injEq] at inductionHypothesis
              simp [Bind.bind, Except.bind, Pure.pure, Except.pure,
                ← inductionHypothesis, eq_comm]

/-- Every output of a loop belongs to an input. -/
theorem exists_of_mem_right
    {β : Type*}
    {related : α → β → Prop}
    {inputs : List α}
    {outputs : List β}
    (pairs : List.Forall₂ related inputs outputs)
    {output : β}
    (member : output ∈ outputs) :
    ∃ input ∈ inputs, related input output := by
  induction pairs with
  | nil => cases member
  | cons own _ inductionHypothesis =>
      rcases List.mem_cons.mp member with rfl | later
      · exact ⟨_, List.mem_cons_self, own⟩
      · obtain ⟨input, found, other⟩ := inductionHypothesis later
        exact ⟨input, List.mem_cons_of_mem _ found, other⟩

/-- Where every item has an output, a list has outputs. -/
theorem exists_outputs
    {β : Type*}
    {related : α → β → Prop}
    {inputs : List α}
    (outputs : ∀ input ∈ inputs, ∃ output, related input output) :
    ∃ outputs, List.Forall₂ related inputs outputs := by
  induction inputs with
  | nil => exact ⟨[], .nil⟩
  | cons input inputs inductionHypothesis =>
      rw [List.forall_mem_cons] at outputs
      obtain ⟨output, own⟩ := outputs.1
      obtain ⟨rest, others⟩ := inductionHypothesis outputs.2
      exact ⟨output :: rest, .cons own others⟩

end Registration
end TelemetryEdge
