import TelemetryEdge.Rules.Deadline
import TelemetryEdge.Rules.Swap

/-!
# The timer of the engine task

The engine task ticks the engine, sleeps until the next deadline and ticks
again.  Its sleep never has zero length right after a tick.
-/

namespace TelemetryEdge
namespace Telemetryd

open Protocol Rules Saturating

variable {cel : Cel F}

/-- How long to sleep when no periodic rule is scheduled, in milliseconds. -/
def idleSleepMs : UInt64 := 60000

/-- How long the task sleeps after a tick, in milliseconds. -/
def sleepFor (engine : Engine cel) (now : UInt64) : UInt64 :=
  match engine.nextDeadlineMs with
  | none => idleSleepMs
  | some due => saturatingSub due now

/-- The task sleeps for some time unless the next deadline has been reached. -/
theorem sleepFor_pos
    {engine : Engine cel}
    {now : UInt64}
    (early : ∀ deadline, engine.nextDeadlineMs = some deadline →
      now < deadline) :
    0 < sleepFor engine now := by
  unfold sleepFor
  cases next : engine.nextDeadlineMs with
  | none =>
      have idle : 0 < idleSleepMs := by decide
      exact idle
  | some due =>
      have later := early due next
      rw [UInt64.lt_iff_toNat_lt] at later ⊢
      simp only [toNat_saturatingSub, UInt64.toNat_zero]
      omega

variable [F64 F]

/-- The next deadline is exact in every reachable engine: a tick before it does
nothing, a tick at or after it moves every reached timer and leaves a later
deadline, and after any tick a second one does nothing and the task sleeps. -/
theorem tick_nextDeadlineMs
    (vin model : String)
    (inputs : List (Engine.Input cel))
    {now : UInt64}
    (room : now < u64Max) :
    let engine := (Engine.machine cel).final (Engine.new vin model) inputs
    let after := (engine.tick now).1
    ((∀ deadline, engine.nextDeadlineMs = some deadline → now < deadline) →
        engine.tick now = (engine, 0)) ∧
      (∀ deadline, engine.nextDeadlineMs = some deadline → deadline ≤ now →
        (∀ id due, engine.timer id = some due → due ≤ now →
          ∃ next, after.timer id = some next ∧ now < next) ∧
        ∃ next, after.nextDeadlineMs = some next ∧ now < next) ∧
      after.tick now = (after, 0) ∧
      0 < sleepFor after now := by
  intro engine after
  have valid := Engine.valid_final vin model inputs
  refine ⟨fun early => ?_, fun deadline found reached => ⟨?_, ?_⟩, ?_, ?_⟩
  · refine Engine.tick_eq_self fun id due timed =>
      UInt64.not_le.mp fun reached => ?_
    obtain ⟨deadline, found, deadlineReached⟩ :=
      (Engine.nextDeadlineMs_le_iff engine now).mpr ⟨id, due, timed, reached⟩
    exact absurd deadlineReached (UInt64.not_le.mpr (early deadline found))
  · intro id due timed dueReached
    obtain ⟨next, timedAfter, later⟩ := valid.timer_tick room timed
    rw [if_pos dueReached] at later
    exact ⟨next, timedAfter, later⟩
  · obtain ⟨id, due, timed, -⟩ :=
      (Engine.nextDeadlineMs_le_iff engine now).mp ⟨deadline, found, reached⟩
    obtain ⟨moved, timedAfter, -⟩ := valid.timer_tick room timed
    obtain ⟨next, nextFound⟩ := Option.isSome_iff_exists.mp
      ((Engine.nextDeadlineMs_isSome_iff after).mpr ⟨id, moved, timedAfter⟩)
    exact ⟨next, nextFound, valid.lt_nextDeadlineMs_tick room nextFound⟩
  · exact Engine.tick_eq_self fun id due timed => valid.lt_timer_tick room timed
  · exact sleepFor_pos fun deadline found =>
      valid.lt_nextDeadlineMs_tick room found

/-- A rule that logs the speed every tenth of a second. -/
def heartbeatRule : Rule Binary64 where
  id := "heartbeat"
  signal := "vehicle_speed"
  mode := .periodic
  intervalMs := some 100
  maxAgeMs := none
  deadband := none
  condition := none

/-- The rule set of the rule. -/
def heartbeatRules : LoadedRuleSet identifierCel where
  compiled :=
    ⟨1, "*", [⟨heartbeatRule, none, some "km/h", .periodic 100 300⟩]⟩
  loaded := ⟨.ok (), ⟨1, "*", [heartbeatRule]⟩, speedCatalog "km/h", "R1S",
    none, by rfl⟩

/-- A due heartbeat is served once, and the next one is due later. -/
theorem heartbeat_nextDeadlineMs :
    let engine := (Engine.machine identifierCel).final (Engine.new "VIN" "R1S")
      [.applyRuleset 0 heartbeatRules, .onSample 90 speedSample]
    engine.nextDeadlineMs = some 100 ∧
      (∃ next, (engine.tick 150).1.nextDeadlineMs = some next ∧ 150 < next) ∧
      (engine.tick 150).1.tick 150 = ((engine.tick 150).1, 0) := by
  obtain ⟨-, served, again, -⟩ := tick_nextDeadlineMs "VIN" "R1S"
    [.applyRuleset 0 heartbeatRules, .onSample 90 speedSample]
    (by decide : (150 : UInt64) < u64Max)
  exact ⟨rfl, (served 100 rfl (by decide)).2, again⟩

end Telemetryd
end TelemetryEdge
