import Mathlib.Algebra.BigOperators.Group.List.Basic
import Mathlib.Data.Finmap

/-!
# Loops over items that own one entry of a finite map

A loop visits a list of items.  Each item owns the entry of a finite map stored
under its key: the body reads and replaces that entry and appends to a shared
output.  When the keys of the items are distinct the visits cannot disturb one
another, so the result of the loop is described item by item from the map
before the loop.
-/

namespace TelemetryEdge

/-- A finite map with values of one type. -/
abbrev KeyedMap (κ β : Type*) := Finmap fun _ : κ => β

namespace KeyedMap

variable [DecidableEq κ]

/-- Writing back the entry that is already stored changes nothing. -/
theorem insert_eq_self
    {map : KeyedMap κ β}
    {key : κ}
    {value : β}
    (stored : map.lookup key = some value) :
    map.insert key value = map := by
  apply Finmap.ext_lookup
  intro other
  by_cases same : other = key
  · subst same
    rw [Finmap.lookup_insert, stored]
  · rw [Finmap.lookup_insert_of_ne _ same]

theorem lookup_insert_eq_ite
    (map : KeyedMap κ β)
    (key other : κ)
    (value : β) :
    (map.insert key value).lookup other =
      if other = key then some value else map.lookup other := by
  split
  · next same => rw [same, Finmap.lookup_insert]
  · next different => rw [Finmap.lookup_insert_of_ne _ different]

theorem lookup_erase_eq_ite
    (map : KeyedMap κ β)
    (key other : κ) :
    (map.erase key).lookup other =
      if other = key then none else map.lookup other := by
  split
  · next same => rw [same, Finmap.lookup_erase]
  · next different => exact Finmap.lookup_erase_ne different

/-- Count one more occurrence of a key. -/
def tally (map : KeyedMap κ Nat) (key : κ) : KeyedMap κ Nat :=
  map.insert key ((map.lookup key).getD 0 + 1)

/-- A key that no item has is not found. -/
theorem find?_eq_none_of_notMem
    (key : α → κ)
    {items : List α}
    {wanted : κ}
    (absent : wanted ∉ items.map key) :
    items.find? (key · == wanted) = none := by
  rw [List.find?_eq_none]
  intro item member found
  rw [beq_iff_eq] at found
  exact absent (found ▸ List.mem_map_of_mem member)

/-- A map filled from items with distinct keys holds each item under its
key. -/
theorem lookup_foldl_insert
    (key : α → κ)
    {items : List α}
    (distinct : (items.map key).Nodup)
    (map : KeyedMap κ α)
    (wanted : κ) :
    (items.foldl (fun map item => map.insert (key item) item) map).lookup
        wanted =
      (items.find? (key · == wanted)).or (map.lookup wanted) := by
  induction items generalizing map with
  | nil => rfl
  | cons item items inductionHypothesis =>
      rw [List.map_cons, List.nodup_cons] at distinct
      rw [List.foldl_cons, inductionHypothesis distinct.2, List.find?_cons,
        lookup_insert_eq_ite]
      by_cases same : key item = wanted
      · have absent := find?_eq_none_of_notMem key (same ▸ distinct.1)
        simp [same, absent]
      · have unmatched : (key item == wanted) = false := beq_false_of_ne same
        simp [unmatched, Ne.symm same]

end KeyedMap

namespace KeyedLoop

variable [DecidableEq κ] [AddMonoid ω]

/-- Visit one item: run the body on the entry it owns, if there is one. -/
def visit
    (key : α → κ)
    (body : α → β → β × ω)
    (state : KeyedMap κ β × ω)
    (item : α) : KeyedMap κ β × ω :=
  match state.1.lookup (key item) with
  | none => state
  | some entry =>
      (state.1.insert (key item) (body item entry).1,
        state.2 + (body item entry).2)

/-- What one item contributes to the output, judged from the map before the
loop. -/
def contribution
    (key : α → κ)
    (body : α → β → β × ω)
    (map : KeyedMap κ β)
    (item : α) : ω :=
  match map.lookup (key item) with
  | none => 0
  | some entry => (body item entry).2

/-- A visit leaves every entry alone that the item does not own. -/
theorem lookup_visit_of_ne
    (key : α → κ)
    (body : α → β → β × ω)
    (state : KeyedMap κ β × ω)
    {item : α}
    {other : κ}
    (different : other ≠ key item) :
    (visit key body state item).1.lookup other = state.1.lookup other := by
  unfold visit
  split
  · rfl
  · exact Finmap.lookup_insert_of_ne _ different

/-- A visit runs the body on the entry that the item owns. -/
theorem lookup_visit_self
    (key : α → κ)
    (body : α → β → β × ω)
    (state : KeyedMap κ β × ω)
    (item : α) :
    (visit key body state item).1.lookup (key item) =
      (state.1.lookup (key item)).map fun entry => (body item entry).1 := by
  unfold visit
  split
  · next missing => rw [missing, Option.map_none]
  · next entry present =>
      rw [present, Option.map_some, Finmap.lookup_insert]

/-- A visit appends the contribution of the item. -/
theorem visit_snd
    (key : α → κ)
    (body : α → β → β × ω)
    (state : KeyedMap κ β × ω)
    (item : α) :
    (visit key body state item).2 =
      state.2 + contribution key body state.1 item := by
  unfold visit contribution
  split <;> simp

/-- The loop leaves every entry alone that no visited item owns. -/
theorem lookup_foldl_of_notMem
    (key : α → κ)
    (body : α → β → β × ω)
    (items : List α)
    (state : KeyedMap κ β × ω)
    {other : κ}
    (unowned : other ∉ items.map key) :
    (items.foldl (visit key body) state).1.lookup other =
      state.1.lookup other := by
  induction items generalizing state with
  | nil => rfl
  | cons item items inductionHypothesis =>
      rw [List.map_cons, List.mem_cons, not_or] at unowned
      rw [List.foldl_cons, inductionHypothesis _ unowned.2,
        lookup_visit_of_ne key body state unowned.1]

/-- A visit neither adds nor removes an entry. -/
theorem lookup_visit_isSome
    (key : α → κ)
    (body : α → β → β × ω)
    (state : KeyedMap κ β × ω)
    (item : α)
    (other : κ) :
    ((visit key body state item).1.lookup other).isSome =
      (state.1.lookup other).isSome := by
  by_cases same : other = key item
  · rw [same, lookup_visit_self, Option.isSome_map]
  · rw [lookup_visit_of_ne key body state same]

/-- With distinct keys, the loop runs the body of an item once on the entry
that the item owned before the loop. -/
theorem lookup_foldl_of_mem
    (key : α → κ)
    (body : α → β → β × ω)
    {items : List α}
    (distinct : (items.map key).Nodup)
    (state : KeyedMap κ β × ω)
    {item : α}
    (member : item ∈ items) :
    (items.foldl (visit key body) state).1.lookup (key item) =
      (state.1.lookup (key item)).map fun entry => (body item entry).1 := by
  induction items generalizing state with
  | nil => cases member
  | cons head items inductionHypothesis =>
      rw [List.map_cons, List.nodup_cons] at distinct
      rw [List.foldl_cons]
      rcases List.mem_cons.mp member with rfl | inTail
      · rw [lookup_foldl_of_notMem key body items _ distinct.1,
          lookup_visit_self]
      · have different : key item ≠ key head := by
          intro same
          exact distinct.1 (same ▸ List.mem_map_of_mem inTail)
        rw [inductionHypothesis distinct.2 _ inTail,
          lookup_visit_of_ne key body state different]

/-- With distinct keys, the loop appends the contributions of the items in
order, each judged from the map before the loop. -/
theorem foldl_snd
    (key : α → κ)
    (body : α → β → β × ω)
    {items : List α}
    (distinct : (items.map key).Nodup)
    (state : KeyedMap κ β × ω) :
    (items.foldl (visit key body) state).2 =
      state.2 + (items.map (contribution key body state.1)).sum := by
  induction items generalizing state with
  | nil => simp
  | cons head items inductionHypothesis =>
      rw [List.map_cons, List.nodup_cons] at distinct
      have unchanged : items.map
            (contribution key body (visit key body state head).1) =
          items.map (contribution key body state.1) := by
        apply List.map_congr_left
        intro item inTail
        have different : key item ≠ key head := by
          intro same
          exact distinct.1 (same ▸ List.mem_map_of_mem inTail)
        unfold contribution
        rw [lookup_visit_of_ne key body state different]
      rw [List.foldl_cons, inductionHypothesis distinct.2, unchanged,
        visit_snd, List.map_cons, List.sum_cons, add_assoc]

/-- A visit whose body leaves the entry alone and appends nothing changes
nothing. -/
theorem visit_eq_self
    {key : α → κ}
    {body : α → β → β × ω}
    {state : KeyedMap κ β × ω}
    {item : α}
    (idle : ∀ entry, state.1.lookup (key item) = some entry →
      body item entry = (entry, 0)) :
    visit key body state item = state := by
  unfold visit
  split
  · rfl
  · next entry stored =>
      rw [idle entry stored]
      exact Prod.ext (KeyedMap.insert_eq_self stored) (add_zero _)

/-- A loop over idle items changes nothing. -/
theorem foldl_eq_self
    {key : α → κ}
    {body : α → β → β × ω}
    {items : List α}
    {state : KeyedMap κ β × ω}
    (idle : ∀ item ∈ items, ∀ entry,
      state.1.lookup (key item) = some entry → body item entry = (entry, 0)) :
    items.foldl (visit key body) state = state := by
  induction items with
  | nil => rfl
  | cons item items inductionHypothesis =>
      rw [List.forall_mem_cons] at idle
      rw [List.foldl_cons, visit_eq_self idle.1, inductionHypothesis idle.2]

/-- Idle items can be left out of a loop. -/
theorem foldl_filter
    (key : α → κ)
    (body : α → β → β × ω)
    {keep : α → Bool}
    (items : List α)
    (idle : ∀ item ∈ items, keep item = false →
      ∀ entry, body item entry = (entry, 0))
    (state : KeyedMap κ β × ω) :
    (items.filter keep).foldl (visit key body) state =
      items.foldl (visit key body) state := by
  induction items generalizing state with
  | nil => rfl
  | cons item items inductionHypothesis =>
      rw [List.forall_mem_cons] at idle
      cases kept : keep item with
      | true =>
          rw [List.filter_cons_of_pos kept, List.foldl_cons, List.foldl_cons,
            inductionHypothesis idle.2]
      | false =>
          rw [List.filter_cons_of_neg (by simp [kept]), List.foldl_cons,
            visit_eq_self fun entry _ => idle.1 kept entry,
            inductionHypothesis idle.2]

omit [DecidableEq κ] [AddMonoid ω] in
/-- A loop whose checks pass as long as an invariant holds does what the loop
without checks does. -/
theorem foldlM_eq_some
    {checked : σ → α → Option σ}
    {step : σ → α → σ}
    (invariant : σ → Prop)
    {items : List α}
    (passes : ∀ state, invariant state → ∀ item ∈ items,
      checked state item = some (step state item) ∧
        invariant (step state item))
    {state : σ}
    (holds : invariant state) :
    items.foldlM checked state = some (items.foldl step state) := by
  induction items generalizing state with
  | nil => rfl
  | cons item items inductionHypothesis =>
      obtain ⟨success, kept⟩ := passes state holds item List.mem_cons_self
      rw [List.foldlM_cons, success, List.foldl_cons]
      apply inductionHypothesis _ kept
      exact fun next nextHolds later member =>
        passes next nextHolds later (List.mem_cons_of_mem _ member)

/-- A loop whose checks look at the entry of their item only, and pass for the
entries before the loop, does what the loop without checks does. -/
theorem foldlM_eq_some_of_entries
    {key : α → κ}
    {body : α → β → β × ω}
    {checked : KeyedMap κ β × ω → α → Option (KeyedMap κ β × ω)}
    {items : List α}
    (distinct : (items.map key).Nodup)
    {state : KeyedMap κ β × ω}
    (passes : ∀ item ∈ items, ∀ current : KeyedMap κ β × ω,
      current.1.lookup (key item) = state.1.lookup (key item) →
        checked current item = some (visit key body current item)) :
    items.foldlM checked state = some (items.foldl (visit key body) state) := by
  induction items generalizing state with
  | nil => rfl
  | cons item items inductionHypothesis =>
      rw [List.map_cons, List.nodup_cons] at distinct
      rw [List.foldlM_cons, passes item List.mem_cons_self state rfl,
        List.foldl_cons]
      apply inductionHypothesis distinct.2
      intro later member current same
      apply passes later (List.mem_cons_of_mem _ member)
      have different : key later ≠ key item := by
        intro equal
        exact distinct.1 (equal ▸ List.mem_map_of_mem member)
      rw [same, lookup_visit_of_ne key body state different]

end KeyedLoop
end TelemetryEdge
