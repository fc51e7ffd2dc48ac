import Mathlib.Algebra.Order.Ring.Nat

/-!
# Timers that keep a cadence and skip missed slots

A timer has a due time and an interval.  When it is served late by less than the
interval, the next due time is one interval after the last one; otherwise it is
one interval after the time of service.  The servings of such a timer never come
in bursts, and they do not drift while the timer is served in time.
-/

namespace TelemetryEdge

/-- A slot of a timer that was served. -/
structure Serving (τ : Type*) where
  /-- Time at which the slot was due. -/
  due : τ
  /-- Time at which it was served. -/
  servedAt : τ
  deriving DecidableEq

namespace Serving

/-- Read both times in another way. -/
def map (read : τ → υ) (serving : Serving τ) : Serving υ where
  due := read serving.due
  servedAt := read serving.servedAt

@[simp] theorem map_due
    (read : τ → υ)
    (serving : Serving τ) :
    (serving.map read).due = read serving.due := rfl

@[simp] theorem map_servedAt
    (read : τ → υ)
    (serving : Serving τ) :
    (serving.map read).servedAt = read serving.servedAt := rfl

section Following

variable [AddCommMonoid τ] [LinearOrder τ]

/-- Time of the slot after a served one. -/
def following (interval : τ) (serving : Serving τ) : τ :=
  if serving.servedAt < serving.due + interval then serving.due + interval
  else serving.servedAt + interval

variable
  [IsOrderedCancelAddMonoid τ]
  {interval : τ}
  {serving : Serving τ}

/-- The next slot is at least one interval after the served one. -/
theorem due_add_le_following (reached : serving.due ≤ serving.servedAt) :
    serving.due + interval ≤ serving.following interval := by
  unfold following
  split
  · exact le_rfl
  · exact add_le_add_left reached interval

/-- The next slot is after the time of service. -/
theorem servedAt_lt_following (positive : 0 < interval) :
    serving.servedAt < serving.following interval := by
  unfold following
  split
  · next inTime => exact inTime
  · exact lt_add_of_pos_right serving.servedAt positive

end Following

end Serving

section Definition

variable [AddCommMonoid τ] [LinearOrder τ]

/-- Servings of a timer in order, from the time of the first slot: no slot is
served before it is due. -/
inductive Cadence (interval : τ) : τ → List (Serving τ) → Prop
  | nil (due : τ) : Cadence interval due []
  | cons
      {serving : Serving τ}
      {servings : List (Serving τ)}
      (reached : serving.due ≤ serving.servedAt)
      (rest : Cadence interval (serving.following interval) servings) :
      Cadence interval serving.due (serving :: servings)

end Definition

namespace Cadence

variable
  [AddCommMonoid τ] [LinearOrder τ] [IsOrderedCancelAddMonoid τ]
  {interval due : τ}
  {servings : List (Serving τ)}

omit [IsOrderedCancelAddMonoid τ] in
/-- No slot is served before it is due. -/
theorem due_le_servedAt
    (cadence : Cadence interval due servings) :
    ∀ serving ∈ servings, serving.due ≤ serving.servedAt := by
  induction cadence with
  | nil due => simp
  | cons reached rest inductionHypothesis =>
      rw [List.forall_mem_cons]
      exact ⟨reached, inductionHypothesis⟩

/-- A slot lies as many intervals after the first one as there are slots
before it, or later. -/
theorem add_nsmul_le_due
    (cadence : Cadence interval due servings)
    (index : Nat)
    (bound : index < servings.length) :
    due + index • interval ≤ servings[index].due := by
  induction cadence generalizing index with
  | nil due => cases bound
  | @cons serving servings reached rest inductionHypothesis =>
      cases index with
      | zero => rw [zero_nsmul, add_zero, List.getElem_cons_zero]
      | succ index =>
          have tail : index < servings.length := Nat.lt_of_succ_lt_succ bound
          rw [List.getElem_cons_succ]
          calc serving.due + (index + 1) • interval
              = serving.due + interval + index • interval := by
                rw [succ_nsmul', add_assoc]
            _ ≤ serving.following interval + index • interval :=
                add_le_add_left (Serving.due_add_le_following reached) _
            _ ≤ servings[index].due := inductionHypothesis index tail

/-- The slots between two servings separate them by one interval each. -/
theorem servedAt_add_nsmul_lt
    (cadence : Cadence interval due servings)
    (positive : 0 < interval)
    {earlier later : Nat}
    (ordered : earlier < later)
    (bound : later < servings.length) :
    servings[earlier].servedAt + (later - earlier - 1) • interval <
      servings[later].servedAt := by
  induction cadence generalizing earlier later with
  | nil due => cases bound
  | @cons serving servings reached rest inductionHypothesis =>
      obtain ⟨later, rfl⟩ := Nat.exists_eq_add_one_of_ne_zero
        (Nat.ne_zero_of_lt ordered)
      have tail : later < servings.length := Nat.lt_of_succ_lt_succ bound
      simp only [List.getElem_cons_succ]
      cases earlier with
      | zero =>
          rw [List.getElem_cons_zero, Nat.sub_zero, Nat.add_sub_cancel]
          calc serving.servedAt + later • interval
              < serving.following interval + later • interval :=
                add_lt_add_left (Serving.servedAt_lt_following positive) _
            _ ≤ servings[later].due := rest.add_nsmul_le_due later tail
            _ ≤ servings[later].servedAt :=
                rest.due_le_servedAt _ (List.getElem_mem tail)
      | succ earlier =>
          rw [List.getElem_cons_succ, Nat.add_sub_add_right]
          exact inductionHypothesis (Nat.lt_of_succ_lt_succ ordered) tail

omit [IsOrderedCancelAddMonoid τ] in
/-- Slots that are all served within an interval lie one interval apart. -/
theorem dues_eq
    (cadence : Cadence interval due servings)
    (inTime : ∀ serving ∈ servings,
      serving.servedAt < serving.due + interval) :
    servings.map (·.due) =
      (List.range servings.length).map fun index => due + index • interval := by
  induction cadence with
  | nil due => rfl
  | @cons serving servings reached rest inductionHypothesis =>
      rw [List.forall_mem_cons] at inTime
      have steady : serving.following interval = serving.due + interval :=
        if_pos inTime.1
      rw [List.map_cons, inductionHypothesis inTime.2, List.length_cons,
        List.range_succ_eq_map, List.map_cons, List.map_map, zero_nsmul,
        add_zero, steady]
      congr 1
      apply List.map_congr_left
      intro index _
      rw [Function.comp_apply, Nat.succ_eq_add_one, succ_nsmul', add_assoc]

end Cadence
end TelemetryEdge
