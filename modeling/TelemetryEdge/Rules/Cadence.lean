import TelemetryEdge.Foundation.Cadence
import TelemetryEdge.Rules.Deadline
import TelemetryEdge.Rules.Swap

/-!
# Periodic rules keep their cadence

The loop of a tick is run with a note of every slot that it serves for one rule.
From the swap that makes a periodic rule new or modified, and as long as later
swaps keep the rule, the noted slots are the servings of one timer that keeps a
cadence, whatever samples, ticks and swaps lie between them.
-/

namespace TelemetryEdge
namespace Rules

open Protocol Saturating

namespace Engine

variable {cel : Cel F}

/-- The due time that the loop of a tick finds reached at a rule. -/
def reachedDue
    (now : UInt64)
    (states : KeyedMap String (RuleState F))
    (rule : CompiledRule cel) : Option UInt64 :=
  match rule.behaviour with
  | .onChange _ => none
  | .periodic _ _ =>
      match states.lookup rule.id with
      | none => none
      | some ruleState => ruleState.nextDueMs.filter (· ≤ now)

/-- `tickRule`, with a note of the slots served for one id. -/
def tickRuleNoting
    (engine : Engine cel)
    (now : UInt64)
    (id : String)
    (state : (KeyedMap String (RuleState F) × EvalReport F) ×
      List (Serving UInt64))
    (rule : CompiledRule cel) :
    (KeyedMap String (RuleState F) × EvalReport F) ×
      List (Serving UInt64) :=
  let served :=
    if rule.id = id then
      ((reachedDue now state.1.1 rule).map fun due => ⟨due, now⟩).toList
    else []
  (engine.tickRule now state.1 rule, state.2 ++ served)

/-- The slots that a tick serves for an id, one for each evaluation of a rule
with the id. -/
def servedByTick
    (engine : Engine cel)
    (now : UInt64)
    (id : String) : List (Serving UInt64) :=
  (engine.rules.rules.foldl (engine.tickRuleNoting now id)
    ((engine.state, 0), [])).2

/-- The loop notes nothing while it visits other rules. -/
theorem foldl_tickRuleNoting_of_notMem
    (engine : Engine cel)
    (now : UInt64)
    {id : String}
    {rules : List (CompiledRule cel)}
    (absent : id ∉ rules.map CompiledRule.id)
    (state : (KeyedMap String (RuleState F) × EvalReport F) ×
      List (Serving UInt64)) :
    (rules.foldl (engine.tickRuleNoting now id) state).2 = state.2 := by
  induction rules generalizing state with
  | nil => rfl
  | cons rule rules inductionHypothesis =>
      rw [List.map_cons, List.mem_cons, not_or] at absent
      rw [List.foldl_cons, inductionHypothesis absent.2, tickRuleNoting]
      simp only [if_neg (Ne.symm absent.1), List.append_nil]

/-- The loop notes the slot of a rule as it finds its timer before the loop. -/
theorem foldl_tickRuleNoting_of_mem
    (engine : Engine cel)
    (now : UInt64)
    {rules : List (CompiledRule cel)}
    (distinct : (rules.map CompiledRule.id).Nodup)
    {rule : CompiledRule cel}
    (member : rule ∈ rules)
    (state : (KeyedMap String (RuleState F) × EvalReport F) ×
      List (Serving UInt64)) :
    (rules.foldl (engine.tickRuleNoting now rule.id) state).2 =
      state.2 ++
        ((reachedDue now state.1.1 rule).map fun due => ⟨due, now⟩).toList := by
  induction rules generalizing state with
  | nil => cases member
  | cons head rules inductionHypothesis =>
      rw [List.map_cons, List.nodup_cons] at distinct
      rw [List.foldl_cons]
      rcases List.mem_cons.mp member with rfl | inTail
      · rw [foldl_tickRuleNoting_of_notMem engine now distinct.1,
          tickRuleNoting]
        simp only [if_true]
      · have different : rule.id ≠ head.id := by
          intro same
          exact distinct.1 (same ▸ List.mem_map_of_mem inTail)
        have untouched : (engine.tickRule now state.1 head).1.lookup rule.id =
            state.1.1.lookup rule.id := by
          rw [tickRule_eq_visit]
          exact KeyedLoop.lookup_visit_of_ne _ _ _ different
        rw [inductionHypothesis distinct.2 inTail, tickRuleNoting]
        simp only [if_neg (Ne.symm different), List.append_nil, reachedDue,
          untouched]

variable [F64 F]

/-- A tick serves the slot of a periodic rule once if it is reached. -/
theorem Valid.servedByTick_eq
    {engine : Engine cel}
    (valid : engine.Valid)
    (now : UInt64)
    {id : String}
    {rule : CompiledRule cel}
    (found : engine.rules.withId id = some rule)
    {intervalMs maxAgeMs : UInt64}
    (periodic : rule.behaviour = .periodic intervalMs maxAgeMs) :
    engine.servedByTick now id =
      (((engine.timer id).filter (· ≤ now)).map
        fun due => ⟨due, now⟩).toList := by
  obtain ⟨member, rfl⟩ := (valid.wellFormed.withId_eq_some_iff id rule).mp found
  rw [servedByTick, foldl_tickRuleNoting_of_mem engine now
    valid.wellFormed.idsDistinct member, List.nil_append, reachedDue, periodic,
    timer]
  cases engine.state.lookup rule.id <;> rfl

/-- A sample leaves all timers alone. -/
theorem Valid.timer_onSample
    {engine : Engine cel}
    (valid : engine.Valid)
    (now : UInt64)
    (sample : Sample F)
    (id : String) :
    (Engine.onSample engine now sample).1.timer id = engine.timer id := by
  have keys := valid.stateKeys id
  rw [timer, timer, onSample_eq_visitRules valid.indexed,
    (valid.receive now sample).lookup_state_visitRules]
  change ((engine.rules.withId id).bind fun rule =>
    (engine.state.lookup id).map _).bind _ = _
  cases stored : engine.state.lookup id with
  | none => cases engine.rules.withId id <;> rfl
  | some ruleState =>
      rw [stored] at keys
      obtain ⟨rule, found⟩ := Option.isSome_iff_exists.mp (keys.mp rfl)
      rw [found, Option.bind_some, Option.map_some, Option.bind_some,
        Option.bind_some, sampleStep_nextDueMs]

section Swaps

variable
  {engine : Engine cel}
  (valid : engine.Valid)
  (now : UInt64)
  (set : LoadedRuleSet cel)
  {id : String}
  {rule : CompiledRule cel}
  (found : set.compiled.withId id = some rule)

include valid found

/-- A swap leaves the timer of a rule alone that it keeps. -/
theorem Valid.timer_applyRuleset_of_keeps
    (kept : engine.rules.keeps rule = true) :
    (engine.applyRuleset now set.compiled).timer id = engine.timer id := by
  obtain ⟨-, rfl⟩ :=
    (set.wellFormed.withId_eq_some_iff id rule).mp found
  obtain ⟨old, active, -⟩ :=
    (engine.rules.keeps_eq_true_iff rule).mp kept
  obtain ⟨ruleState, stored, -⟩ := valid.exists_state active
  rw [timer, timer, lookup_state_applyRuleset valid.wellFormed now
    set.wellFormed, found, Option.map_some, if_pos kept, stored]
  rfl

/-- A swap starts the timer of a periodic rule that it makes new or modified. -/
theorem Valid.timer_applyRuleset_of_not_keeps
    (modified : engine.rules.keeps rule = false)
    {intervalMs maxAgeMs : UInt64}
    (periodic : rule.behaviour = .periodic intervalMs maxAgeMs) :
    (engine.applyRuleset now set.compiled).timer id =
      some (saturatingAdd now intervalMs) := by
  rw [timer, lookup_state_applyRuleset valid.wellFormed now set.wellFormed,
    found, Option.map_some, modified, freshState, periodic]
  rfl

/-- A swap that keeps a periodic rule keeps its behaviour. -/
theorem Valid.periodic_of_keeps
    (kept : engine.rules.keeps rule = true)
    {old : CompiledRule cel}
    (active : engine.rules.withId id = some old)
    {intervalMs maxAgeMs : UInt64}
    (periodic : old.behaviour = .periodic intervalMs maxAgeMs) :
    rule.behaviour = .periodic intervalMs maxAgeMs := by
  obtain ⟨member, rfl⟩ :=
    (set.wellFormed.withId_eq_some_iff id rule).mp found
  obtain ⟨oldMember, -⟩ :=
    (valid.wellFormed.withId_eq_some_iff rule.id old).mp active
  obtain ⟨other, activeOther, same⟩ :=
    (engine.rules.keeps_eq_true_iff rule).mp kept
  obtain rfl := Option.some.inj (active.symm.trans activeOther)
  have behaves := ((set.wellFormed.compiles rule member).alike
    (valid.wellFormed.compiles old oldMember) same).behaviour
  rw [periodic] at behaves
  cases behaviour : rule.behaviour with
  | onChange deadband =>
      rw [behaviour] at behaves
      cases behaves
  | periodic otherInterval otherMaxAge =>
      rw [behaviour] at behaves
      obtain ⟨rfl, rfl⟩ := behaves
      rfl

end Swaps

/-! ## Runs -/

/-- The slots that an input makes the engine serve for an id. -/
def Input.serves
    (input : Input cel)
    (id : String)
    (engine : Engine cel) : List (Serving UInt64) :=
  match input with
  | .tick now => engine.servedByTick now id
  | _ => []

/-- Clock reading of an input. -/
def Input.now : Input cel → UInt64
  | .onSample now _ => now
  | .tick now => now
  | .applyRuleset now _ => now

/-- Whether every swap of a run keeps the rule with an id as it is in the set
before. -/
def KeptThrough
    (id : String) : CompiledRuleSet cel → List (Input cel) → Prop
  | _, [] => True
  | active, .applyRuleset _ set :: inputs =>
      (set.compiled.withId id).any active.keeps ∧
        KeptThrough id set.compiled inputs
  | active, _ :: inputs => KeptThrough id active inputs

/-- The slots that a run serves for an id, in order. -/
def servings
    (id : String) : Engine cel → List (Input cel) → List (Serving UInt64)
  | _, [] => []
  | engine, input :: inputs =>
      input.serves id engine ++
        servings id ((machine cel).step engine input).1 inputs

/-- An engine with a periodic rule whose timer is set to a time, which the timer
shows as the largest number when it does not fit. -/
structure Timed
    (engine : Engine cel)
    (id : String)
    (intervalMs : UInt64)
    (due : Nat) : Prop where
  valid : engine.Valid
  rule : ∃ rule maxAgeMs, engine.rules.withId id = some rule ∧
    rule.behaviour = .periodic intervalMs maxAgeMs
  timer : ∃ shown, engine.timer id = some shown ∧
    shown.toNat = min due (2 ^ 64 - 1)

/-- The rules of the engine after an input are kept through the rest of a
run. -/
theorem KeptThrough.tail
    {id : String}
    {engine : Engine cel}
    {input : Input cel}
    {inputs : List (Input cel)}
    (kept : KeptThrough id engine.rules (input :: inputs)) :
    KeptThrough id ((machine cel).step engine input).1.rules inputs := by
  cases input with
  | onSample now sample =>
      have sameRules :
          (Engine.onSample engine now sample).1.rules = engine.rules := by
        unfold Engine.onSample
        simp only
        split <;> rfl
      rw [← sameRules] at kept
      exact kept
  | tick now => exact kept
  | applyRuleset now set => exact kept.2

section Steps

variable
  {engine : Engine cel}
  {id : String}
  {intervalMs : UInt64}
  {due : Nat}
  (timed : engine.Timed id intervalMs due)

include timed

/-- A sample leaves the timer alone. -/
theorem Timed.onSample
    (now : UInt64)
    (sample : Sample F) :
    (Engine.onSample engine now sample).1.Timed id intervalMs due where
  valid := timed.valid.onSample now sample
  rule := by
    rw [onSample_eq_visitRules timed.valid.indexed]
    exact timed.rule
  timer := by
    rw [timed.valid.timer_onSample]
    exact timed.timer

/-- A swap that keeps the rule leaves the timer alone. -/
theorem Timed.applyRuleset
    (now : UInt64)
    (set : LoadedRuleSet cel)
    (kept : (set.compiled.withId id).any engine.rules.keeps = true) :
    (engine.applyRuleset now set.compiled).Timed id intervalMs due := by
  obtain ⟨old, maxAgeMs, active, periodic⟩ := timed.rule
  obtain ⟨rule, found, keeps⟩ := (Option.any_eq_true ..).mp kept
  refine ⟨timed.valid.applyRuleset now set.wellFormed,
    ⟨rule, maxAgeMs, found, ?_⟩, ?_⟩
  · exact timed.valid.periodic_of_keeps set found keeps active periodic
  · rw [timed.valid.timer_applyRuleset_of_keeps now set found keeps]
    exact timed.timer

/-- A tick before the timer serves nothing. -/
theorem Timed.tick_of_lt
    {now : UInt64}
    (early : now.toNat < due)
    (room : now < u64Max) :
    engine.servedByTick now id = [] ∧
      (engine.tick now).1.Timed id intervalMs due := by
  obtain ⟨rule, maxAgeMs, found, periodic⟩ := timed.rule
  obtain ⟨shown, scheduled, shownAs⟩ := timed.timer
  have notReached : ¬ shown ≤ now := by
    rw [UInt64.lt_iff_toNat_lt, toNat_u64Max] at room
    rw [UInt64.le_iff_toNat_le, shownAs]
    omega
  refine ⟨?_, timed.valid.tick now, ⟨rule, maxAgeMs, found, periodic⟩,
    shown, ?_, shownAs⟩
  · rw [timed.valid.servedByTick_eq now found periodic, scheduled,
      Option.filter_some_neg (by simpa using notReached)]
    rfl
  · rw [timed.valid.timer_tick_eq now found periodic, scheduled,
      Option.map_some, if_neg notReached]

/-- A tick at or after the timer serves its slot and moves it to the next. -/
theorem Timed.tick_of_le
    {now : UInt64}
    (reached : due ≤ now.toNat)
    (room : now < u64Max) :
    ∃ slot, slot.toNat = due ∧
      engine.servedByTick now id = [⟨slot, now⟩] ∧
      (engine.tick now).1.Timed id intervalMs
        ((⟨due, now.toNat⟩ : Serving Nat).following intervalMs.toNat) := by
  obtain ⟨rule, maxAgeMs, found, periodic⟩ := timed.rule
  obtain ⟨shown, scheduled, shownAs⟩ := timed.timer
  rw [UInt64.lt_iff_toNat_lt, toNat_u64Max] at room
  have shownExactly : shown.toNat = due := by omega
  have shownReached : shown ≤ now := by
    rw [UInt64.le_iff_toNat_le, shownExactly]
    exact reached
  refine ⟨shown, shownExactly, ?_, timed.valid.tick now,
    ⟨rule, maxAgeMs, found, periodic⟩,
    rescheduled shown intervalMs now, ?_, ?_⟩
  · rw [timed.valid.servedByTick_eq now found periodic, scheduled,
      Option.filter_some_pos (by simpa using shownReached)]
    rfl
  · rw [timed.valid.timer_tick_eq now found periodic, scheduled,
      Option.map_some, if_pos shownReached]
  · unfold rescheduled Serving.following
    simp only [UInt64.lt_iff_toNat_lt, toNat_saturatingAdd, shownExactly]
    split
    · next later =>
        rw [toNat_saturatingAdd, shownExactly, if_pos (by omega)]
    · next missed =>
        rw [toNat_saturatingAdd, if_neg (by omega)]

end Steps

/-- The slots served along a run keep a cadence. -/
theorem Timed.cadence
    {id : String}
    {intervalMs : UInt64}
    {inputs : List (Input cel)}
    (clock : ∀ input ∈ inputs, input.now < u64Max)
    {engine : Engine cel}
    (kept : KeptThrough id engine.rules inputs)
    {due : Nat}
    (timed : engine.Timed id intervalMs due) :
    Cadence intervalMs.toNat due
      ((servings id engine inputs).map (Serving.map UInt64.toNat)) := by
  induction inputs generalizing engine due with
  | nil => exact .nil due
  | cons input inputs inductionHypothesis =>
      rw [List.forall_mem_cons] at clock
      have continues := fun next => @inductionHypothesis clock.2 _ kept.tail next
      rw [servings, List.map_append]
      cases input with
      | onSample now sample => exact continues _ (timed.onSample now sample)
      | applyRuleset now set =>
          exact continues _ (timed.applyRuleset now set kept.1)
      | tick now =>
          by_cases reached : due ≤ now.toNat
          · obtain ⟨slot, rfl, served, next⟩ :=
              timed.tick_of_le reached clock.1
            rw [Input.serves, served]
            exact .cons reached (continues _ next)
          · obtain ⟨served, next⟩ :=
              timed.tick_of_lt (Nat.lt_of_not_le reached) clock.1
            rw [Input.serves, served]
            exact continues _ next

/-- What is promised of the slots that a periodic rule has served since its timer
was started. -/
structure Steady
    (start intervalMs : UInt64)
    (served : List (Serving UInt64)) : Prop where
  /-- Every served slot takes an interval since the start. -/
  noBurst : ∀ (index : Nat) (bound : index < served.length),
    (index + 1) * intervalMs.toNat ≤
      served[index].servedAt.toNat - start.toNat
  /-- Two servings are further apart than the intervals of the slots served
  between them. -/
  spaced : ∀ (earlier later : Nat) (ordered : earlier < later)
    (bound : later < served.length),
    (later - earlier - 1) * intervalMs.toNat <
      served[later].servedAt.toNat - served[earlier].servedAt.toNat
  /-- Slots that are all served within an interval are those of the steady
  cadence. -/
  noDrift :
    (∀ serving ∈ served,
      serving.servedAt.toNat - serving.due.toNat < intervalMs.toNat) →
    served.map (fun serving => serving.due.toNat) =
      (List.range served.length).map fun index =>
        start.toNat + (index + 1) * intervalMs.toNat

/-- A cadence from one interval after the start is steady. -/
theorem steady_of_cadence
    {start intervalMs : UInt64}
    (positive : 0 < intervalMs.toNat)
    {served : List (Serving UInt64)}
    (cadence : Cadence intervalMs.toNat (start.toNat + intervalMs.toNat)
      (served.map (Serving.map UInt64.toNat))) :
    Steady start intervalMs served where
  noBurst index bound := by
    have mapped : index < (served.map (Serving.map UInt64.toNat)).length := by
      rwa [List.length_map]
    have slot := cadence.add_nsmul_le_due index mapped
    have inTime := cadence.due_le_servedAt _ (List.getElem_mem mapped)
    rw [List.getElem_map, Serving.map_due, nsmul_eq_mul, Nat.cast_id] at slot
    rw [List.getElem_map, Serving.map_due, Serving.map_servedAt] at inTime
    rw [Nat.succ_mul]
    omega
  spaced earlier later ordered bound := by
    have mapped : later < (served.map (Serving.map UInt64.toNat)).length := by
      rwa [List.length_map]
    have apart := cadence.servedAt_add_nsmul_lt positive ordered mapped
    rw [List.getElem_map, List.getElem_map, Serving.map_servedAt,
      Serving.map_servedAt, nsmul_eq_mul, Nat.cast_id] at apart
    omega
  noDrift inTime := by
    have steady := cadence.dues_eq (by
      intro serving member
      obtain ⟨original, inServed, rfl⟩ := List.mem_map.mp member
      have late := inTime original inServed
      rw [Serving.map_due, Serving.map_servedAt]
      omega)
    rw [List.map_map, List.length_map] at steady
    rw [show (fun serving : Serving UInt64 => serving.due.toNat) =
      (·.due) ∘ Serving.map UInt64.toNat from rfl, steady]
    apply List.map_congr_left
    intro index _
    rw [nsmul_eq_mul, Nat.cast_id, Nat.succ_mul]
    omega

/-- A tick evaluates no rule twice. -/
theorem Valid.length_servedByTick_le
    {engine : Engine cel}
    (valid : engine.Valid)
    (now : UInt64)
    (id : String) :
    (engine.servedByTick now id).length ≤ 1 := by
  unfold servedByTick
  by_cases present : id ∈ engine.rules.rules.map CompiledRule.id
  · obtain ⟨rule, member, rfl⟩ := List.mem_map.mp present
    rw [foldl_tickRuleNoting_of_mem engine now valid.wellFormed.idsDistinct
      member, List.nil_append]
    exact Option.length_toList_le
  · rw [foldl_tickRuleNoting_of_notMem engine now present]
    exact Nat.zero_le 1

/-- A periodic rule that a swap makes new or modified, and that later swaps keep,
neither bursts nor drifts, whatever ticks, samples and swaps follow. -/
theorem steady_servings
    (vin model : String)
    (before : List (Input cel))
    (start : UInt64)
    (set : LoadedRuleSet cel)
    {engine : Engine cel}
    (reached : engine =
      (machine cel).final (Engine.new vin model) before)
    {id : String}
    {rule : CompiledRule cel}
    (found : set.compiled.withId id = some rule)
    {intervalMs maxAgeMs : UInt64}
    (periodic : rule.behaviour = .periodic intervalMs maxAgeMs)
    (modified : engine.rules.keeps rule = false)
    {stretch : List (Input cel)}
    (clock : ∀ input ∈ stretch, input.now < u64Max)
    (kept : KeptThrough id set.compiled stretch) :
    Steady start intervalMs
        (servings id (engine.applyRuleset start set.compiled) stretch) ∧
      ∀ past now future, stretch = past ++ .tick now :: future →
        (((machine cel).final (engine.applyRuleset start set.compiled)
          past).servedByTick now id).length ≤ 1 := by
  subst reached
  have valid := valid_final vin model before
  have swapped := valid.applyRuleset start set.wellFormed
  obtain ⟨member, -⟩ := (set.wellFormed.withId_eq_some_iff id rule).mp found
  have long := (set.wellFormed.compiles rule member).minInterval_le periodic
  have positive : 0 < intervalMs.toNat := by
    rw [UInt64.le_iff_toNat_le] at long
    exact Nat.lt_of_lt_of_le (by decide) long
  have timed : (((machine cel).final (Engine.new vin model)
      before).applyRuleset start set.compiled).Timed id intervalMs
      (start.toNat + intervalMs.toNat) :=
    ⟨swapped, ⟨rule, maxAgeMs, found, periodic⟩,
      saturatingAdd start intervalMs,
      valid.timer_applyRuleset_of_not_keeps start set found modified periodic,
      toNat_saturatingAdd start intervalMs⟩
  refine ⟨steady_of_cadence positive (timed.cadence clock kept), ?_⟩
  intro past now future _
  exact (Machine.final_invariant (fun _ input valid => valid.step input) past
    swapped).length_servedByTick_le now id

end Engine

/-- A rule that logs the speed once a second. -/
def secondRule : Rule Binary64 :=
  { speedRule with
    id := "speed_1hz"
    mode := .periodic
    intervalMs := some 1000 }

/-- The rule set of the rule. -/
def secondRules (version : UInt64) : LoadedRuleSet identifierCel where
  compiled :=
    ⟨version, "*", [⟨secondRule, none, some "km/h", .periodic 1000 3000⟩]⟩
  loaded := ⟨.ok (), ⟨version, "*", [secondRule]⟩, speedCatalog "km/h", "R1S",
    none, by rfl⟩

/-- A run with an early tick, a late one, and a swap that keeps the rule. -/
def secondStretch : List (Engine.Input identifierCel) :=
  [.tick 500, .onSample 600 speedSample, .tick 1150,
    .applyRuleset 1200 (secondRules 2), .tick 4800, .tick 4800, .tick 5900]

/-- The run serves three slots and skips two. -/
theorem secondStretch_steady :
    let engine : Engine identifierCel :=
      (Engine.new "VIN" "R1S").applyRuleset 100 (secondRules 1).compiled
    Engine.servings "speed_1hz" engine secondStretch =
        [⟨1100, 1150⟩, ⟨2100, 4800⟩, ⟨5800, 5900⟩] ∧
      Engine.Steady 100 1000
        (Engine.servings "speed_1hz" engine secondStretch) := by
  have clock : ∀ input ∈ secondStretch, input.now < u64Max := by
    simp only [secondStretch, List.forall_mem_cons]
    decide
  have kept : Engine.KeptThrough "speed_1hz" (secondRules 1).compiled
      secondStretch := ⟨rfl, trivial⟩
  exact ⟨rfl, (Engine.steady_servings "VIN" "R1S" [] 100 (secondRules 1) rfl
    rfl rfl rfl clock kept).1⟩

end Rules
end TelemetryEdge
