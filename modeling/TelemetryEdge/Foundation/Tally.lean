import Mathlib.Algebra.BigOperators.Group.List.Basic
import Mathlib.Algebra.Order.BigOperators.Group.Finset
import TelemetryEdge.Foundation.KeyedLoop

/-!
# Counters by key

A tally counts how often every key has occurred.  Keys that never occurred have
no entry, the order of the occurrences does not matter, and the counts of all
keys add up to the number of occurrences.
-/

namespace TelemetryEdge
namespace KeyedMap

variable [DecidableEq κ]

/-- The number of occurrences of every key in a list. -/
def tallied (keys : List κ) : KeyedMap κ Nat := keys.foldl tally ∅

@[simp] theorem tallied_nil : tallied ([] : List κ) = ∅ := rfl

/-- Counting goes on where it has stopped. -/
theorem foldl_tally_tallied (keys more : List κ) :
    more.foldl tally (tallied keys) = tallied (keys ++ more) :=
  (List.foldl_append ..).symm

theorem tally_tallied (keys : List κ) (key : κ) :
    (tallied keys).tally key = tallied (keys ++ [key]) :=
  foldl_tally_tallied keys [key]

/-- Counting the keys of items. -/
theorem foldl_tally_map
    (key : α → κ)
    (map : KeyedMap κ Nat)
    (items : List α) :
    items.foldl (fun counts item => counts.tally (key item)) map =
      (items.map key).foldl tally map :=
  List.foldl_map.symm

theorem lookup_tally
    (map : KeyedMap κ Nat)
    (key other : κ) :
    (map.tally key).lookup other =
      if other = key then some ((map.lookup key).getD 0 + 1)
      else map.lookup other :=
  lookup_insert_eq_ite map key other _

/-- The entry of a key is the number of its occurrences, and a key that never
occurred has none. -/
theorem lookup_tallied (keys : List κ) (wanted : κ) :
    (tallied keys).lookup wanted =
      if wanted ∈ keys then some (keys.count wanted) else none := by
  induction keys using List.reverseRecOn with
  | nil => simp [tallied]
  | append_singleton keys key inductionHypothesis =>
      rw [← tally_tallied, lookup_tally]
      by_cases same : wanted = key
      · subst same
        have last : wanted ∈ keys ++ [wanted] :=
          List.mem_append_right keys (List.mem_singleton_self wanted)
        rw [if_pos rfl, inductionHypothesis, if_pos last, List.count_append,
          List.count_singleton_self]
        by_cases earlier : wanted ∈ keys
        · rw [if_pos earlier, Option.getD_some]
        · rw [if_neg earlier, List.count_eq_zero_of_not_mem earlier,
            Option.getD_none]
      · rw [if_neg same, inductionHypothesis]
        simp [same, Ne.symm same]

/-- The sum of all counts. -/
def total (map : KeyedMap κ Nat) : Nat :=
  ∑ key ∈ map.keys, (map.lookup key).getD 0

theorem keys_tallied (keys : List κ) :
    (tallied keys).keys = keys.toFinset := by
  ext key
  rw [Finmap.mem_keys, ← Finmap.lookup_isSome, lookup_tallied,
    List.mem_toFinset]
  split <;> simp [*]

/-- The counts add up to the number of occurrences. -/
theorem total_tallied (keys : List κ) :
    (tallied keys).total = keys.length := by
  rw [total, keys_tallied, ← List.sum_toFinset_count_eq_length keys]
  apply Finset.sum_congr rfl
  intro key member
  rw [lookup_tallied, if_pos (List.mem_toFinset.mp member), Option.getD_some]

end KeyedMap
end TelemetryEdge
