import Mathlib.Data.Set.Insert
import Mathlib.Logic.Relation

/-!
# Traversals with an explicit stack

The nodes of a tree, each with its depth, and the nodes that a stack of subtrees
still has to visit.  Popping a node and pushing its children takes that node off
the set of pending nodes, and no other.
-/

namespace TelemetryEdge
namespace Traversal

variable {α : Type*} {children : α → List α}

/-- A step from a node to one of its children, one level deeper. -/
def Child (children : α → List α) (parent child : α × Nat) : Prop :=
  child.1 ∈ children parent.1 ∧ child.2 = parent.2 + 1

/-- The nodes of a tree, with their depths, when the root has a given depth. -/
def nodes (children : α → List α) (root : α × Nat) : Set (α × Nat) :=
  {entry | Relation.ReflTransGen (Child children) root entry}

/-- The nodes of the trees on a stack. -/
def pending (children : α → List α) (stack : List (α × Nat)) : Set (α × Nat) :=
  {entry | ∃ root ∈ stack, entry ∈ nodes children root}

@[simp] theorem pending_nil : pending children [] = ∅ := by
  ext entry
  simp [pending]

@[simp] theorem pending_singleton (root : α × Nat) :
    pending children [root] = nodes children root := by
  ext entry
  simp [pending]

/-- The stack is a set of trees: only membership counts. -/
theorem pending_append (first second : List (α × Nat)) :
    pending children (first ++ second) =
      pending children first ∪ pending children second := by
  ext entry
  simp only [pending, List.mem_append, Set.mem_ofPred_eq, Set.mem_union, or_and_right,
    exists_or]

@[simp] theorem pending_reverse (stack : List (α × Nat)) :
    pending children stack.reverse = pending children stack := by
  ext entry
  simp only [pending, List.mem_reverse]

/-- The nodes of a tree are its root and the nodes of the subtrees below it. -/
theorem nodes_eq (node : α) (depth : Nat) :
    nodes children (node, depth) =
      insert (node, depth)
        (pending children ((children node).map fun child => (child, depth + 1))) := by
  ext entry
  rw [nodes, Set.mem_ofPred_eq, Relation.ReflTransGen.cases_head_iff,
    Set.mem_insert_iff, eq_comm]
  apply or_congr Iff.rfl
  constructor
  · rintro ⟨⟨child, childDepth⟩, ⟨member, rfl⟩, below⟩
    exact ⟨(child, depth + 1), List.mem_map_of_mem member, below⟩
  · rintro ⟨root, member, below⟩
    obtain ⟨child, inChildren, rfl⟩ := List.mem_map.mp member
    exact ⟨(child, depth + 1), ⟨inChildren, rfl⟩, below⟩

/-- Replacing the top of a stack by its children leaves all other nodes
pending. -/
theorem pending_pop (node : α) (depth : Nat) (stack : List (α × Nat)) :
    pending children ((node, depth) :: stack) =
      insert (node, depth)
        (pending children
          (((children node).map fun child => (child, depth + 1)).reverse ++
            stack)) := by
  rw [← List.singleton_append, pending_append, pending_append, pending_singleton,
    pending_reverse, nodes_eq, Set.insert_union]

end Traversal
end TelemetryEdge
