import TelemetryEdge.Rules.Cadence

/-!
# Schedules do not depend on the data

What an engine keeps about time is a schedule: the active rules with their
timers.  Ticks and swaps advance the schedule by themselves, and samples leave
it alone, so two engines that see the same ticks and swaps serve the same slots,
whatever samples each of them sees.
-/

namespace TelemetryEdge

namespace Rules

open Protocol Saturating

/-- The active rules under their ids, each with its timer. -/
def Schedule (cel : Cel F) : Type :=
  String → Option (CompiledRule cel × Option UInt64)

namespace Schedule

/-- The inputs that a schedule reads. -/
inductive Input [F64 F] (cel : Cel F)
  | tick (now : UInt64)
  | applyRuleset (now : UInt64) (set : LoadedRuleSet cel)

variable {cel : Cel F}

/-- Timer of a rule after a tick. -/
def afterTick
    (now : UInt64)
    (rule : CompiledRule cel)
    (timer : Option UInt64) : Option UInt64 :=
  match rule.behaviour with
  | .onChange _ => timer
  | .periodic intervalMs _ =>
      timer.map fun due =>
        if due ≤ now then Engine.rescheduled due intervalMs now else due

/-- The slot that a tick serves for a rule. -/
def served
    (now : UInt64)
    (rule : CompiledRule cel)
    (timer : Option UInt64) : List (Serving UInt64) :=
  match rule.behaviour with
  | .onChange _ => []
  | .periodic _ _ => ((timer.filter (· ≤ now)).map fun due => ⟨due, now⟩).toList

variable [F64 F]

/-- Timer of a rule after a swap, from the entry of its id before. -/
def afterSwap
    (now : UInt64)
    (before : Option (CompiledRule cel × Option UInt64))
    (rule : CompiledRule cel) : Option UInt64 :=
  match before with
  | some (old, timer) =>
      if old.definition.eq rule.definition then timer
      else (Engine.freshState now rule).nextDueMs
  | none => (Engine.freshState now rule).nextDueMs

/-- Schedules as a machine that emits the slots it serves for each id. -/
def machine (cel : Cel F) :
    Machine (Schedule cel) (Input cel) (String → List (Serving UInt64)) where
  step schedule
    | .tick now =>
        (fun id => (schedule id).map fun own =>
            (own.1, afterTick now own.1 own.2),
          fun id => (schedule id).elim [] fun own => served now own.1 own.2)
    | .applyRuleset now set =>
        (fun id => (set.compiled.withId id).map fun rule =>
            (rule, afterSwap now (schedule id) rule),
          fun _ => [])

end Schedule

namespace Engine

variable {cel : Cel F}

/-- The schedule of an engine. -/
def schedule (engine : Engine cel) : Schedule cel := fun id =>
  (engine.view id).map fun own => (own.1, own.2.nextDueMs)

/-- What a schedule reads of an input: samples are hidden from it. -/
def Input.scheduled [F64 F] : Input cel → Option (Schedule.Input cel)
  | .onSample _ _ => none
  | .tick now => some (.tick now)
  | .applyRuleset now set => some (.applyRuleset now set)

/-- A tick moves the timer of a rule as a schedule does. -/
theorem tickStep_afterTick
    (engine : Engine cel)
    (now : UInt64)
    (rule : CompiledRule cel)
    (ruleState : RuleState F) :
    (engine.tickStep now rule ruleState).1.nextDueMs =
      Schedule.afterTick now rule ruleState.nextDueMs := by
  cases behaviour : rule.behaviour with
  | onChange deadband =>
      rw [tickStep, Schedule.afterTick, behaviour]
  | periodic intervalMs maxAgeMs =>
      rw [tickStep_nextDueMs engine now behaviour, Schedule.afterTick, behaviour]

variable [F64 F]

section Steps

variable
  {engine : Engine cel}
  (valid : engine.Valid)

include valid

/-- The timers of a valid engine are those of its schedule. -/
theorem Valid.nextDueMs_eq_schedule (id : String) :
    (engine.state.lookup id).map RuleState.nextDueMs =
      (engine.schedule id).map Prod.snd := by
  have keys := valid.stateKeys id
  rw [schedule, view]
  cases found : engine.rules.withId id with
  | none =>
      cases stored : engine.state.lookup id with
      | none => rfl
      | some ruleState =>
          rw [found, stored] at keys
          exact absurd (keys.mp rfl) Bool.false_ne_true
  | some rule => cases engine.state.lookup id <;> rfl

/-- Samples leave the schedule alone. -/
theorem Valid.schedule_onSample
    (now : UInt64)
    (sample : Sample F) :
    (Engine.onSample engine now sample).1.schedule = engine.schedule := by
  have event : (Input.onSample now sample : Input cel).isEvent = true := rfl
  funext id
  have stepped := valid.view_step event id
  change (Engine.onSample engine now sample).1.view id = _ at stepped
  rw [schedule, schedule, stepped, Option.map_map]
  apply Option.map_congr
  rintro ⟨rule, ruleState⟩ -
  exact Prod.ext rfl (sampleStep_nextDueMs _ sample rule ruleState)

/-- A tick advances the schedule by itself. -/
theorem Valid.schedule_tick (now : UInt64) :
    (engine.tick now).1.schedule =
      ((Schedule.machine cel).step engine.schedule (.tick now)).1 := by
  have event : (Input.tick now : Input cel).isEvent = true := rfl
  funext id
  have stepped := valid.view_step event id
  change (engine.tick now).1.view id = _ at stepped
  rw [schedule, stepped, Option.map_map]
  simp only [Schedule.machine, schedule, Option.map_map]
  apply Option.map_congr
  rintro ⟨rule, ruleState⟩ -
  exact Prod.ext rfl (tickStep_afterTick engine now rule ruleState)

/-- A swap advances the schedule by itself. -/
theorem Valid.schedule_applyRuleset
    (now : UInt64)
    (set : LoadedRuleSet cel) :
    (engine.applyRuleset now set.compiled).schedule =
      ((Schedule.machine cel).step engine.schedule
        (.applyRuleset now set)).1 := by
  funext id
  rw [schedule, valid.view_applyRuleset now set.wellFormed, Option.map_map]
  simp only [Schedule.machine]
  apply Option.map_congr
  intro rule _
  simp only [Function.comp_apply, Prod.mk.injEq, true_and, schedule, installed,
    Schedule.afterSwap]
  cases engine.view id with
  | none => rfl
  | some own =>
      simp only [Option.map_some]
      split <;> rfl

/-- A tick serves the slots that the schedule has reached. -/
theorem Valid.servedByTick_eq_schedule
    (now : UInt64)
    (id : String) :
    engine.servedByTick now id =
      ((Schedule.machine cel).step engine.schedule (.tick now)).2 id := by
  simp only [Schedule.machine, schedule]
  cases found : engine.rules.withId id with
  | none =>
      have absent : id ∉ engine.rules.rules.map CompiledRule.id := by
        intro member
        obtain ⟨rule, active, rfl⟩ := List.mem_map.mp member
        rw [valid.wellFormed.withId_of_mem active] at found
        cases found
      rw [servedByTick, foldl_tickRuleNoting_of_notMem engine now absent, view,
        found]
      rfl
  | some rule =>
      obtain ⟨ruleState, stored, viewed⟩ := valid.exists_state found
      obtain ⟨member, rfl⟩ :=
        (valid.wellFormed.withId_eq_some_iff id rule).mp found
      rw [servedByTick, foldl_tickRuleNoting_of_mem engine now
        valid.wellFormed.idsDistinct member, List.nil_append, viewed,
        Option.map_some, Option.elim_some, reachedDue, Schedule.served, stored]
      cases rule.behaviour <;> rfl

end Steps

/-- An engine that keeps a schedule. -/
structure Follows (engine : Engine cel) (schedule : Schedule cel) : Prop where
  valid : engine.Valid
  schedule : engine.schedule = schedule

/-- A new engine keeps the empty schedule. -/
theorem follows_new (vin model : String) :
    (Engine.new vin model : Engine cel).Follows fun _ => none where
  valid := valid_new vin model
  schedule := rfl

/-- Samples leave the kept schedule alone. -/
theorem Follows.step_of_hidden
    {engine : Engine cel}
    {schedule : Schedule cel}
    (follows : engine.Follows schedule)
    {input : Input cel}
    (hidden : input.scheduled = none) :
    ((Engine.machine cel).step engine input).1.Follows schedule := by
  refine ⟨follows.valid.step input, ?_⟩
  cases input with
  | onSample now sample =>
      exact (follows.valid.schedule_onSample now sample).trans follows.schedule
  | tick now => cases hidden
  | applyRuleset now set => cases hidden

/-- Ticks and swaps advance the kept schedule. -/
theorem Follows.step_of_scheduled
    {engine : Engine cel}
    {schedule : Schedule cel}
    (follows : engine.Follows schedule)
    {input : Input cel}
    {timed : Schedule.Input cel}
    (read : input.scheduled = some timed) :
    ((Engine.machine cel).step engine input).1.Follows
      ((Schedule.machine cel).step schedule timed).1 := by
  refine ⟨follows.valid.step input, ?_⟩
  rw [← follows.schedule]
  cases input with
  | onSample now sample => cases read
  | tick now =>
      obtain rfl := Option.some.inj read
      exact follows.valid.schedule_tick now
  | applyRuleset now set =>
      obtain rfl := Option.some.inj read
      exact follows.valid.schedule_applyRuleset now set

/-- After every run an engine keeps the schedule that the ticks and swaps alone
lead to. -/
theorem Follows.final
    {engine : Engine cel}
    {schedule : Schedule cel}
    (follows : engine.Follows schedule)
    (inputs : List (Input cel)) :
    ((Engine.machine cel).final engine inputs).Follows
      ((Schedule.machine cel).final schedule
        (inputs.filterMap Input.scheduled)) := by
  apply Machine.final_related_of_simulation Follows
  · intro engine schedule input timed follows read
    exact follows.step_of_scheduled read
  · intro engine schedule input follows hidden
    exact follows.step_of_hidden hidden
  · exact follows

/-- The slots that a run serves are those that the ticks and swaps alone make
its schedule serve. -/
theorem Follows.servings_eq
    {engine : Engine cel}
    {schedule : Schedule cel}
    (follows : engine.Follows schedule)
    (inputs : List (Input cel))
    (id : String) :
    servings id engine inputs =
      ((Schedule.machine cel).outputs schedule
        (inputs.filterMap Input.scheduled)).flatMap (· id) := by
  induction inputs generalizing engine schedule with
  | nil => rfl
  | cons input inputs inductionHypothesis =>
      cases read : input.scheduled with
      | none =>
          have next := inductionHypothesis (follows.step_of_hidden read)
          rw [List.filterMap_cons_none read, servings, next]
          cases input with
          | onSample now sample => rfl
          | tick now => cases read
          | applyRuleset now set => cases read
      | some timed =>
          have next := inductionHypothesis (follows.step_of_scheduled read)
          rw [List.filterMap_cons_some read, servings, next,
            Machine.outputs_cons, List.flatMap_cons, ← follows.schedule]
          apply congrArg (· ++ _)
          cases input with
          | onSample now sample => cases read
          | tick now =>
              obtain rfl := Option.some.inj read
              exact follows.valid.servedByTick_eq_schedule now id
          | applyRuleset now set =>
              obtain rfl := Option.some.inj read
              rfl

omit [F64 F] in
/-- The timer of an id is that of its state, if it has one. -/
theorem timer_eq_join
    (engine : Engine cel)
    (id : String) :
    engine.timer id =
      ((engine.state.lookup id).map RuleState.nextDueMs).join := by
  rw [timer]
  cases engine.state.lookup id with
  | none => rfl
  | some ruleState => rfl

omit [F64 F] in
/-- Engines with the same timers have the same next deadline. -/
theorem nextDeadlineMs_congr
    {engine other : Engine cel}
    (same : ∀ id, engine.timer id = other.timer id) :
    engine.nextDeadlineMs = other.nextDeadlineMs := by
  have reached : ∀ now,
      (∃ deadline, engine.nextDeadlineMs = some deadline ∧ deadline ≤ now) ↔
        ∃ deadline, other.nextDeadlineMs = some deadline ∧ deadline ≤ now := by
    intro now
    simp only [nextDeadlineMs_le_iff, same]
  cases first : engine.nextDeadlineMs with
  | none =>
      cases second : other.nextDeadlineMs with
      | none => rfl
      | some deadline =>
          obtain ⟨earlier, found, -⟩ :=
            (reached deadline).mpr ⟨deadline, second, UInt64.le_refl deadline⟩
          rw [first] at found
          cases found
  | some deadline =>
      obtain ⟨earlier, found, notLater⟩ :=
        (reached deadline).mp ⟨deadline, first, UInt64.le_refl deadline⟩
      obtain ⟨later, foundLater, notEarlier⟩ :=
        (reached earlier).mpr ⟨earlier, found, UInt64.le_refl earlier⟩
      rw [first] at foundLater
      obtain rfl := Option.some.inj foundLater
      rw [found, UInt64.le_antisymm notLater notEarlier]

/-- Engines on the same schedule. -/
structure InStep (engine other : Engine cel) : Prop where
  /-- Every rule is due at the same time. -/
  nextDueMs : ∀ id,
    (engine.state.lookup id).map RuleState.nextDueMs =
      (other.state.lookup id).map RuleState.nextDueMs
  /-- The next deadline is the same. -/
  nextDeadlineMs : engine.nextDeadlineMs = other.nextDeadlineMs

/-- Engines that keep one schedule are in step. -/
theorem Follows.inStep
    {engine other : Engine cel}
    {schedule : Schedule cel}
    (follows : engine.Follows schedule)
    (otherFollows : other.Follows schedule) :
    engine.InStep other := by
  have nextDueMs : ∀ id,
      (engine.state.lookup id).map RuleState.nextDueMs =
        (other.state.lookup id).map RuleState.nextDueMs := by
    intro id
    rw [follows.valid.nextDueMs_eq_schedule, follows.schedule,
      otherFollows.valid.nextDueMs_eq_schedule, otherFollows.schedule]
  refine ⟨nextDueMs, nextDeadlineMs_congr fun id => ?_⟩
  rw [timer_eq_join, timer_eq_join, nextDueMs]

/-- Two engines that read the same ticks and swaps, and whatever samples between
them, are in step and have served the same slots for every rule. -/
theorem inStep_of_sameSchedule
    (vin model otherVin otherModel : String)
    {inputs otherInputs : List (Input cel)}
    (same : inputs.filterMap Input.scheduled =
      otherInputs.filterMap Input.scheduled) :
    InStep ((Engine.machine cel).final (Engine.new vin model) inputs)
        ((Engine.machine cel).final (Engine.new otherVin otherModel)
          otherInputs) ∧
      ∀ id, servings id (Engine.new vin model : Engine cel) inputs =
        servings id (Engine.new otherVin otherModel) otherInputs := by
  have follows := (follows_new vin model).final inputs
  have otherFollows := (follows_new otherVin otherModel).final otherInputs
  rw [same] at follows
  refine ⟨follows.inStep otherFollows, fun id => ?_⟩
  rw [(follows_new vin model).servings_eq, same,
    (follows_new otherVin otherModel).servings_eq]

/-- The ticks and swaps of a stretch, without its sample and with later samples
in between. -/
theorem secondStretch_inStep :
    InStep
      ((Engine.machine identifierCel).final (Engine.new "VIN" "R1S")
        (.applyRuleset 100 (secondRules 1) :: secondStretch))
      ((Engine.machine identifierCel).final (Engine.new "OTHER" "R1T")
        [.onSample 7 speedSample, .applyRuleset 100 (secondRules 1),
          .tick 500, .tick 1150, .applyRuleset 1200 (secondRules 2), .tick 4800,
          .onSample 4800 speedSample, .tick 4800, .tick 5900,
          .onSample 5901 speedSample]) := by
  refine (inStep_of_sameSchedule "VIN" "R1S" "OTHER" "R1T" ?_).1
  rfl

end Engine

end Rules
end TelemetryEdge
