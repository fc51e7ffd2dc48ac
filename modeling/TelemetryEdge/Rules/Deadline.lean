import TelemetryEdge.Rules.View

/-!
# The next deadline

The next deadline of a reachable engine is the earliest timer of an active
rule.  A tick before it does nothing, and a tick at or after it moves every
timer past the clock.
-/

namespace TelemetryEdge
namespace Rules

open Protocol Saturating

namespace Engine

variable {cel : Cel F}

/-- The timer of a rule id. -/
def timer (engine : Engine cel) (id : String) : Option UInt64 :=
  (engine.state.lookup id).bind (·.nextDueMs)

/-- The timers of an engine are those that its next deadline looks at. -/
theorem some_mem_timers_iff
    (engine : Engine cel)
    (due : UInt64) :
    some due ∈ engine.state.entries.map (fun entry => entry.2.nextDueMs) ↔
      ∃ id, engine.timer id = some due := by
  simp only [Multiset.mem_map, Sigma.exists, ← Finmap.mem_lookup_iff, timer,
    Option.bind_eq_some_iff, Option.mem_def]

/-- The next deadline has been reached when some timer has. -/
theorem nextDeadlineMs_le_iff
    (engine : Engine cel)
    (now : UInt64) :
    (∃ deadline, engine.nextDeadlineMs = some deadline ∧ deadline ≤ now) ↔
      ∃ id due, engine.timer id = some due ∧ due ≤ now := by
  simp only [nextDeadlineMs, earliest_le_iff, some_mem_timers_iff]
  exact ⟨fun ⟨due, ⟨id, timed⟩, reached⟩ => ⟨id, due, timed, reached⟩,
    fun ⟨id, due, timed, reached⟩ => ⟨due, ⟨id, timed⟩, reached⟩⟩

/-- There is a next deadline when there is a timer. -/
theorem nextDeadlineMs_isSome_iff (engine : Engine cel) :
    engine.nextDeadlineMs.isSome ↔ ∃ id due, engine.timer id = some due := by
  simp only [nextDeadlineMs, earliest_isSome_iff, some_mem_timers_iff]
  exact exists_comm

/-- A tick does nothing for a rule whose timer has not been reached. -/
theorem tickStep_eq_self
    (engine : Engine cel)
    {now : UInt64}
    (rule : CompiledRule cel)
    {ruleState : RuleState F}
    (early : ∀ due, ruleState.nextDueMs = some due → now < due) :
    engine.tickStep now rule ruleState = (ruleState, 0) := by
  have idle : ruleState.nextDueMs.filter (· ≤ now) = none := by
    rw [Option.filter_eq_none_iff]
    intro due timed
    simpa using early due timed
  unfold tickStep
  split
  · rfl
  · rw [idle]

/-- A tick before every timer does nothing. -/
theorem tick_eq_self
    {engine : Engine cel}
    {now : UInt64}
    (early : ∀ id due, engine.timer id = some due → now < due) :
    engine.tick now = (engine, 0) := by
  have idle : engine.rules.rules.foldl
      (KeyedLoop.visit CompiledRule.id (engine.tickStep now))
      (engine.state, 0) = (engine.state, 0) := by
    refine KeyedLoop.foldl_eq_self fun rule _ ruleState stored => ?_
    refine engine.tickStep_eq_self rule fun due timed => ?_
    refine early rule.id due ?_
    simp only [timer, stored, Option.bind_some, timed]
  rw [tick_eq_visitRules, visitRules, idle]

/-- A tick moves the timer of a periodic rule when it has been reached. -/
theorem tickStep_nextDueMs
    (engine : Engine cel)
    (now : UInt64)
    {rule : CompiledRule cel}
    {intervalMs maxAgeMs : UInt64}
    (periodic : rule.behaviour = .periodic intervalMs maxAgeMs)
    (ruleState : RuleState F) :
    (engine.tickStep now rule ruleState).1.nextDueMs =
      ruleState.nextDueMs.map fun due =>
        if due ≤ now then rescheduled due intervalMs now else due := by
  unfold tickStep
  rw [periodic]
  cases timed : ruleState.nextDueMs with
  | none => simp [timed]
  | some due =>
      by_cases reached : due ≤ now
      · have kept : (some due).filter (· ≤ now) = some due := by
          simp [reached]
        simp only [kept, Option.map_some, if_pos reached]
        split
        · rfl
        · split
          · rfl
          · rw [emit_nextDueMs]
      · have dropped : (some due).filter (· ≤ now) = none := by
          simpa using UInt64.not_le.mp reached
        simp only [dropped, Option.map_some, if_neg reached, timed]

/-- The time of a served slot lies after the clock. -/
theorem lt_rescheduled
    {due intervalMs now : UInt64}
    (room : now < u64Max)
    (long : minIntervalMs ≤ intervalMs) :
    now < rescheduled due intervalMs now := by
  unfold rescheduled
  simp only
  split
  · next later => exact later
  · refine lt_saturatingAdd room ?_
    have positive : (0 : UInt64) < minIntervalMs := by decide
    exact UInt64.lt_of_lt_of_le positive long

variable [F64 F]

/-- The timer of a periodic rule after a tick. -/
theorem Valid.timer_tick_eq
    {engine : Engine cel}
    (valid : engine.Valid)
    (now : UInt64)
    {id : String}
    {rule : CompiledRule cel}
    (found : engine.rules.withId id = some rule)
    {intervalMs maxAgeMs : UInt64}
    (periodic : rule.behaviour = .periodic intervalMs maxAgeMs) :
    (engine.tick now).1.timer id =
      (engine.timer id).map fun due =>
        if due ≤ now then rescheduled due intervalMs now else due := by
  rw [timer, timer, tick_eq_visitRules, valid.lookup_state_visitRules, found,
    Option.bind_some]
  cases engine.state.lookup id with
  | none => rfl
  | some ruleState =>
      rw [Option.map_some, Option.bind_some, Option.bind_some,
        tickStep_nextDueMs engine now periodic]

/-- The timer of an id after a tick: a reached one is moved past the clock, and
no other changes. -/
theorem Valid.timer_tick
    {engine : Engine cel}
    (valid : engine.Valid)
    {now : UInt64}
    (room : now < u64Max)
    {id : String}
    {due : UInt64}
    (timed : engine.timer id = some due) :
    ∃ next, (engine.tick now).1.timer id = some next ∧
      if due ≤ now then now < next else next = due := by
  obtain ⟨ruleState, stored, scheduled⟩ := Option.bind_eq_some_iff.mp timed
  have keys := valid.stateKeys id
  rw [stored] at keys
  obtain ⟨rule, found⟩ := Option.isSome_iff_exists.mp (keys.mp rfl)
  obtain ⟨member, rfl⟩ := (valid.wellFormed.withId_eq_some_iff id rule).mp found
  have compiles := valid.wellFormed.compiles rule member
  have mode : rule.definition.mode = .periodic :=
    (valid.timers rule member ruleState stored).mp (by rw [scheduled]; rfl)
  have periodic := compiles.behaviour_eq
  rw [definedBehaviour, mode] at periodic
  refine ⟨_, by rw [valid.timer_tick_eq now found periodic, timed,
    Option.map_some], ?_⟩
  split
  · exact lt_rescheduled room (compiles.minInterval_le periodic)
  · rfl

/-- A tick starts no timer. -/
theorem Valid.timer_of_timer_tick
    {engine : Engine cel}
    (valid : engine.Valid)
    {now : UInt64}
    {id : String}
    {next : UInt64}
    (timed : (engine.tick now).1.timer id = some next) :
    ∃ due, engine.timer id = some due := by
  obtain ⟨after, storedAfter, scheduledAfter⟩ :=
    Option.bind_eq_some_iff.mp timed
  rw [tick_eq_visitRules, valid.lookup_state_visitRules] at storedAfter
  obtain ⟨rule, -, step⟩ := Option.bind_eq_some_iff.mp storedAfter
  obtain ⟨ruleState, stored, rfl⟩ := Option.map_eq_some_iff.mp step
  have present := tickStep_nextDueMs_isSome engine now rule ruleState
  rw [scheduledAfter] at present
  obtain ⟨due, scheduled⟩ := Option.isSome_iff_exists.mp present.symm
  exact ⟨due, by rw [timer, stored, Option.bind_some, scheduled]⟩

/-- After a tick every timer lies after the clock. -/
theorem Valid.lt_timer_tick
    {engine : Engine cel}
    (valid : engine.Valid)
    {now : UInt64}
    (room : now < u64Max)
    {id : String}
    {next : UInt64}
    (timed : (engine.tick now).1.timer id = some next) :
    now < next := by
  obtain ⟨due, timedBefore⟩ := valid.timer_of_timer_tick timed
  obtain ⟨moved, timedAfter, later⟩ := valid.timer_tick room timedBefore
  rw [timed] at timedAfter
  obtain rfl := Option.some.inj timedAfter
  split at later
  · exact later
  · next early => exact later ▸ UInt64.not_le.mp early

/-- After a tick the next deadline lies after the clock. -/
theorem Valid.lt_nextDeadlineMs_tick
    {engine : Engine cel}
    (valid : engine.Valid)
    {now : UInt64}
    (room : now < u64Max)
    {deadline : UInt64}
    (next : (engine.tick now).1.nextDeadlineMs = some deadline) :
    now < deadline := by
  refine UInt64.not_le.mp fun reached => ?_
  obtain ⟨id, due, timed, dueReached⟩ :=
    (nextDeadlineMs_le_iff _ now).mp ⟨deadline, next, reached⟩
  exact absurd dueReached (UInt64.not_le.mpr (valid.lt_timer_tick room timed))

end Engine

end Rules
end TelemetryEdge
