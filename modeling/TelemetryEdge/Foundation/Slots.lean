import Mathlib.Data.List.Basic
import Mathlib.Data.Nat.Init
import Mathlib.Data.Option.Basic
import Mathlib.Logic.Function.Basic

/-!
# Numbered slots and their cascade

Slots numbered from zero hold at most one value each.  A cascade moves every
value below a bound one slot up, from the highest slot to the lowest, so each
move goes to a slot that has just become vacant; only the topmost slot can lose
the value it held.  The values in slot order stay the same under every single
move to a vacant slot, which is what is left of a cascade that stops halfway.
-/

namespace TelemetryEdge

/-- Numbered slots, each vacant or holding a value. -/
abbrev Slots (α : Type*) := Nat → Option α

namespace Slots

/-- Change every value. -/
def map (change : α → β) (slots : Slots α) : Slots β :=
  fun index => (slots index).map change

/-- Replace what one slot holds. -/
def put (slots : Slots α) (index : Nat) (value : Option α) : Slots α :=
  fun other => if other = index then value else slots other

/-- Move the value of a slot, if it has one, to the slot above. -/
def raise (slots : Slots α) (index : Nat) : Slots α :=
  fun other =>
    if other = index + 1 then (slots index).or (slots (index + 1))
    else if other = index then none
    else slots other

/-- Raise the slots below a bound, from the highest to the lowest. -/
def cascade : Nat → Slots α → Slots α
  | 0, slots => slots
  | count + 1, slots => cascade count (slots.raise count)

/-- The values of the slots below a bound, from the lowest to the highest. -/
def listed (bound : Nat) (slots : Slots α) : List α :=
  (List.range bound).filterMap slots

@[simp] theorem put_self
    (slots : Slots α)
    (index : Nat)
    (value : Option α) :
    slots.put index value index = value :=
  if_pos rfl

@[simp] theorem put_of_ne
    (slots : Slots α)
    {index other : Nat}
    (value : Option α)
    (different : other ≠ index) :
    slots.put index value other = slots other :=
  if_neg different

theorem put_put
    (slots : Slots α)
    (index : Nat)
    (value value' : Option α) :
    (slots.put index value).put index value' = slots.put index value' := by
  funext other
  unfold put
  split <;> rfl

theorem put_eq_self
    {slots : Slots α}
    {index : Nat}
    {value : Option α}
    (held : slots index = value) :
    slots.put index value = slots := by
  funext other
  rw [put]
  split
  · next same => rw [same, held]
  · rfl

@[simp] theorem map_apply
    (change : α → β)
    (slots : Slots α)
    (index : Nat) :
    slots.map change index = (slots index).map change := rfl

/-- Where every value stands after a cascade. -/
theorem cascade_succ_apply (count : Nat) (slots : Slots α) (index : Nat) :
    cascade (count + 1) slots index =
      if index = 0 then none
      else if index ≤ count then slots (index - 1)
      else if index = count + 1 then (slots count).or (slots (count + 1))
      else slots index := by
  induction count generalizing slots with
  | zero =>
      rw [cascade, cascade, raise]
      grind
  | succ count inductionHypothesis =>
      rw [cascade, inductionHypothesis]
      simp only [raise]
      grind

/-- Changing what one value becomes changes the one slot that holds it. -/
theorem map_update_put
    [DecidableEq α]
    {slots : Slots α}
    {index : Nat}
    {value : α}
    (change : α → β)
    (result : β)
    (apart : ∀ other, other ≠ index → slots other ≠ some value) :
    (slots.put index (some value)).map (Function.update change value result) =
      (slots.map change).put index (some result) := by
  funext other
  by_cases same : other = index
  · subst same
    simp
  · rw [map_apply, put_of_ne _ _ same, put_of_ne _ _ same, map_apply]
    cases held : slots other with
    | none => rfl
    | some holding =>
        have different : holding ≠ value := fun equal =>
          apart other same (held.trans (congrArg some equal))
        simp [different]

theorem map_raise (change : α → β) (slots : Slots α) (index : Nat) :
    (slots.raise index).map change = (slots.map change).raise index := by
  funext other
  simp only [map, raise]
  split
  · cases slots index <;> rfl
  · split <;> rfl

theorem map_cascade (change : α → β) (count : Nat) (slots : Slots α) :
    (cascade count slots).map change = cascade count (slots.map change) := by
  induction count generalizing slots with
  | zero => rfl
  | succ count inductionHypothesis =>
      rw [cascade, cascade, inductionHypothesis, map_raise]

/-- No value is held twice. -/
def Distinct (slots : Slots α) : Prop :=
  ∀ left right value, slots left = some value → slots right = some value →
    left = right

/-- A raise brings in no values. -/
theorem exists_of_raise
    {slots : Slots α}
    {index other : Nat}
    {value : α}
    (held : slots.raise index other = some value) :
    ∃ source, slots source = some value := by
  unfold raise at held
  split at held
  · rcases Option.or_eq_some_iff.mp held with below | ⟨-, above⟩
    · exact ⟨index, below⟩
    · exact ⟨index + 1, above⟩
  · split at held
    · contradiction
    · exact ⟨other, held⟩

/-- A cascade brings in no values. -/
theorem exists_of_cascade
    {slots : Slots α}
    {count other : Nat}
    {value : α}
    (held : cascade count slots other = some value) :
    ∃ source, slots source = some value := by
  induction count generalizing slots with
  | zero => exact ⟨other, held⟩
  | succ count inductionHypothesis =>
      obtain ⟨middle, raised⟩ := inductionHypothesis held
      exact exists_of_raise raised

theorem Distinct.raise
    {slots : Slots α}
    (distinct : slots.Distinct)
    (index : Nat) :
    (slots.raise index).Distinct := by
  intro left right value heldLeft heldRight
  have same := distinct
  unfold Distinct at same
  unfold Slots.raise at heldLeft heldRight
  grind [Option.or_eq_some_iff]

theorem Distinct.cascade
    {slots : Slots α}
    (distinct : slots.Distinct)
    (count : Nat) :
    (cascade count slots).Distinct := by
  induction count generalizing slots with
  | zero => exact distinct
  | succ count inductionHypothesis =>
      exact inductionHypothesis (distinct.raise count)

theorem Distinct.put
    {slots : Slots α}
    {value : α}
    (distinct : slots.Distinct)
    (index : Nat)
    (absent : ∀ other, slots other ≠ some value) :
    (slots.put index (some value)).Distinct := by
  intro left right held heldLeft heldRight
  have same := distinct left right held
  have absentLeft := absent left
  have absentRight := absent right
  unfold Slots.put at heldLeft heldRight
  grind

/-- What a rearrangement leaves: the values that it keeps, none of them twice if
none was held twice. -/
structure Rearranges (before after : Slots α) : Prop where
  distinct : before.Distinct → after.Distinct
  source : ∀ index value, after index = some value →
    ∃ other, before other = some value

namespace Rearranges

theorem refl (slots : Slots α) : Rearranges slots slots :=
  ⟨id, fun index _ held => ⟨index, held⟩⟩

theorem trans
    {first second third : Slots α}
    (early : Rearranges first second)
    (late : Rearranges second third) :
    Rearranges first third where
  distinct := late.distinct ∘ early.distinct
  source index value held := by
    obtain ⟨other, middle⟩ := late.source index value held
    exact early.source other value middle

theorem raise (slots : Slots α) (index : Nat) :
    Rearranges slots (slots.raise index) :=
  ⟨fun distinct => distinct.raise index, fun _ _ => exists_of_raise⟩

theorem put_none (slots : Slots α) (index : Nat) :
    Rearranges slots (slots.put index none) where
  distinct distinct left right value heldLeft heldRight := by
    unfold Slots.put at heldLeft heldRight
    split at heldLeft
    · contradiction
    · split at heldRight
      · contradiction
      · exact distinct left right value heldLeft heldRight
  source other value held := by
    unfold Slots.put at held
    split at held
    · contradiction
    · exact ⟨other, held⟩

end Rearranges

/-! ## Values in slot order -/

theorem listed_succ (bound : Nat) (slots : Slots α) :
    listed (bound + 1) slots = listed bound slots ++ (slots bound).toList := by
  rw [listed, listed, List.range_succ, List.filterMap_append]
  cases held : slots bound <;> simp [held]

theorem listed_succ_eq_cons (bound : Nat) (slots : Slots α) :
    listed (bound + 1) slots =
      (slots 0).toList ++ listed bound fun index => slots (index + 1) := by
  rw [listed, listed, List.range_succ_eq_map, List.filterMap_cons,
    List.filterMap_map]
  cases slots 0 <;> rfl

/-- A value put into the vacant lowest slot comes first. -/
theorem listed_put_zero
    {slots : Slots α}
    {bound : Nat}
    (vacant : slots 0 = none)
    (value : α) :
    listed (bound + 1) (slots.put 0 (some value)) =
      value :: listed (bound + 1) slots := by
  rw [listed_succ_eq_cons, listed_succ_eq_cons, vacant]
  rfl

theorem listed_congr
    {bound : Nat}
    {slots slots' : Slots α}
    (same : ∀ index < bound, slots index = slots' index) :
    listed bound slots = listed bound slots' :=
  List.filterMap_congr fun index member => same index (List.mem_range.mp member)

theorem listed_map (change : α → β) (bound : Nat) (slots : Slots α) :
    listed bound (slots.map change) = (listed bound slots).map change := by
  rw [listed, listed, List.map_filterMap]
  rfl

/-- A list put into slots is listed up to the bound. -/
theorem listed_getElem? (bound : Nat) (values : List α) :
    listed bound (fun index => values[index]?) = values.take bound := by
  induction bound with
  | zero => rfl
  | succ bound inductionHypothesis =>
      rw [listed_succ, inductionHypothesis, List.take_add_one]

/-- A value raised to a vacant slot keeps its place in the order. -/
theorem listed_raise
    {slots : Slots α}
    {index bound : Nat}
    (vacant : slots (index + 1) = none)
    (below : index + 1 < bound) :
    listed bound (slots.raise index) = listed bound slots := by
  induction bound, below using Nat.le_induction with
  | base =>
      have lower : listed index (slots.raise index) = listed index slots :=
        listed_congr fun other otherBelow => by
          rw [raise, if_neg (by omega), if_neg (by omega)]
      simp only [listed_succ, lower, raise, vacant, Option.or_none]
      simp
  | succ bound above inductionHypothesis =>
      rw [listed_succ, listed_succ, inductionHypothesis, raise,
        if_neg (by omega), if_neg (by omega)]

/-- Emptying the topmost occupied slot drops the last value. -/
theorem listed_put_none
    {slots : Slots α}
    {index : Nat}
    (occupied : (slots index).isSome) :
    listed (index + 1) (slots.put index none) =
      (listed (index + 1) slots).dropLast := by
  obtain ⟨value, holds⟩ := Option.isSome_iff_exists.mp occupied
  have lower : listed index (slots.put index none) = listed index slots :=
    listed_congr fun other otherBelow => by
      rw [put, if_neg (by omega)]
  simp [listed_succ, lower, put, holds]

/-- A value raised over the topmost slot replaces the value there. -/
theorem raise_eq_raise_put
    {slots : Slots α}
    {index : Nat}
    (occupied : (slots index).isSome) :
    slots.raise index = (slots.put (index + 1) none).raise index := by
  obtain ⟨value, holds⟩ := Option.isSome_iff_exists.mp occupied
  funext other
  simp only [raise, put, holds]
  grind

/-- A vacant slot has nothing to raise. -/
theorem raise_eq_self
    {slots : Slots α}
    {index : Nat}
    (nothing : slots index = none) :
    slots.raise index = slots := by
  funext other
  simp only [raise, nothing, Option.none_or]
  grind

/-- A value raised leaves its slot vacant. -/
theorem raise_self (slots : Slots α) (index : Nat) :
    slots.raise index index = none := by
  rw [raise, if_neg (by omega), if_pos rfl]

/-- A cascade into a vacant slot keeps the order. -/
theorem listed_cascade_of_vacant
    {slots : Slots α}
    {count bound : Nat}
    (vacant : slots count = none)
    (below : count < bound) :
    listed bound (cascade count slots) = listed bound slots := by
  induction count generalizing slots with
  | zero => rfl
  | succ count inductionHypothesis =>
      rw [cascade, inductionHypothesis (raise_self slots count) (by omega),
        listed_raise vacant below]

/-- Raising to the topmost slot loses the value there if both slots are
occupied, and nothing else. -/
theorem listed_raise_top (slots : Slots α) (index : Nat) :
    listed (index + 2) (slots.raise index) =
      if (slots index).isSome ∧ (slots (index + 1)).isSome then
        (listed (index + 2) slots).dropLast
      else listed (index + 2) slots := by
  split
  · next occupied =>
      rw [raise_eq_raise_put occupied.1,
        listed_raise (if_pos rfl) (by omega), listed_put_none occupied.2]
  · next free =>
      by_cases vacant : slots (index + 1) = none
      · rw [listed_raise vacant (by omega)]
      · have nothing : slots index = none := by
          rw [← Option.not_isSome_iff_eq_none]
          exact fun occupied =>
            free ⟨occupied, Option.isSome_iff_ne_none.mpr vacant⟩
        rw [raise_eq_self nothing]

/-- A whole cascade loses the value of the topmost slot if the slot below it is
occupied too, and nothing else. -/
theorem listed_cascade (count : Nat) (slots : Slots α) :
    listed (count + 2) (cascade (count + 1) slots) =
      if (slots count).isSome ∧ (slots (count + 1)).isSome then
        (listed (count + 2) slots).dropLast
      else listed (count + 2) slots := by
  rw [cascade, listed_cascade_of_vacant (raise_self slots count) (by omega),
    listed_raise_top]

/-- The first values of a list, up to a bound. -/
def ofList (bound : Nat) (values : List α) : Slots α :=
  fun index => if index < bound then values[index]? else none

/-- The lowest slot holds the head of the list. -/
theorem put_ofList
    {bound : Nat}
    (positive : 0 < bound)
    (values : List α)
    (head head' : α) :
    (ofList bound (head :: values)).put 0 (some head') =
      ofList bound (head' :: values) := by
  funext index
  cases index with
  | zero => rw [put_self, ofList, if_pos positive, List.getElem?_cons_zero]
  | succ index => exact put_of_ne _ _ (Nat.succ_ne_zero index)

/-- A cascade makes room for one more value at the head of the list. -/
theorem cascade_ofList
    {bound : Nat}
    (positive : 0 < bound)
    (values : List α)
    (value : α) :
    (cascade (bound - 1) (ofList bound values)).put 0 (some value) =
      ofList bound (value :: values) := by
  obtain ⟨rounds, rfl⟩ := Nat.exists_eq_succ_of_ne_zero (Nat.ne_of_gt positive)
  funext index
  cases index with
  | zero => simp [ofList]
  | succ index =>
      rw [put_of_ne _ _ (Nat.succ_ne_zero index)]
      cases rounds with
      | zero => simp [ofList, cascade]
      | succ rounds =>
          rw [Nat.succ_eq_add_one, Nat.add_sub_cancel, cascade_succ_apply]
          simp only [ofList, List.getElem?_cons_succ]
          -- Only the topmost value is replaced, if there is one below it.
          grind

/-- The slots below the bound list the values they have been given. -/
theorem listed_ofList (bound : Nat) (values : List α) :
    listed bound (ofList bound values) = values.take bound := by
  rw [← listed_getElem?]
  exact listed_congr fun index below => if_pos below

end Slots
end TelemetryEdge
