import TelemetryEdge.Rules.Engine

/-!
# Representation invariant of the engine

Each loop of the engine is a loop over rules that own one entry of the state
map, so it is described by what it does for one rule.  The index of on-change
rules makes no difference: looking rules up in it visits the rules that a scan
of the whole rule set would visit.
-/

namespace TelemetryEdge
namespace Rules

open Protocol Saturating

/-- Whether a rule is an on-change rule of a signal. -/
def CompiledRule.listensTo
    {cel : Cel F}
    (rule : CompiledRule cel)
    (name : String) : Bool :=
  match rule.behaviour with
  | .onChange _ => rule.definition.signal == name
  | .periodic _ _ => false

namespace Engine

variable {cel : Cel F}

/-- The value of the condition of a rule. -/
def conditionVerdict
    (rule : CompiledRule cel)
    (latest : KeyedMap String (Latest F)) : Except EvalError Bool :=
  match rule.condition with
  | none => .ok true
  | some condition =>
      condition.evaluate fun name => (latest.lookup name).map (·.value)

/-- A passed condition leads to a record, a failed one to an error, and a false
one to nothing. -/
theorem conditionPasses_eq
    (rule : CompiledRule cel)
    (latest : KeyedMap String (Latest F))
    (report : EvalReport F) :
    conditionPasses rule latest report =
      match conditionVerdict rule latest with
      | .ok pass => (pass, report)
      | .error error => (false, report + .ofError rule.id error) := by
  unfold conditionPasses conditionVerdict
  cases rule.condition <;> rfl

/-- What an emission attempt does to the state of a rule, and its report: the
condition decides. -/
def emit
    (engine : Engine cel)
    (rule : CompiledRule cel)
    (ruleState : RuleState F)
    (tsUs : UInt64)
    (value : SignalValue F) : RuleState F × EvalReport F :=
  match conditionVerdict rule engine.latest with
  | .ok true =>
      ({ ruleState with lastLogged := some value },
        .ofRecord (engine.record rule tsUs value))
  | .ok false => (ruleState, 0)
  | .error error => (ruleState, .ofError rule.id error)

/-- Due time after a slot has been served. -/
def rescheduled (due intervalMs now : UInt64) : UInt64 :=
  let next := saturatingAdd due intervalMs
  if now < next then next else saturatingAdd now intervalMs

/-- Step of one rule for a tick. -/
def tickStep
    (engine : Engine cel)
    (now : UInt64)
    (rule : CompiledRule cel)
    (ruleState : RuleState F) : RuleState F × EvalReport F :=
  match rule.behaviour with
  | .onChange _ => (ruleState, 0)
  | .periodic intervalMs maxAgeMs =>
      match ruleState.nextDueMs.filter (· ≤ now) with
      | none => (ruleState, 0)
      | some due =>
          let ruleState := { ruleState with
            nextDueMs := some (rescheduled due intervalMs now) }
          match engine.latest.lookup rule.definition.signal with
          | none => (ruleState, 0)
          | some latest =>
              if maxAgeMs < saturatingSub now latest.receivedMs then
                (ruleState, .ofStale rule.id)
              else
                engine.emit rule ruleState latest.timestampUs latest.value

/-- The engine with a sample stored as the latest of its signal. -/
def receive
    (engine : Engine cel)
    (now : UInt64)
    (sample : Sample F) : Engine cel :=
  { engine with
    latest := engine.latest.insert sample.name
      ⟨sample.value, sample.timestampUs, now⟩ }

/-- The tick loop visits every rule. -/
theorem tickRule_eq_visit
    (engine : Engine cel)
    (now : UInt64)
    (state : KeyedMap String (RuleState F) × EvalReport F)
    (rule : CompiledRule cel) :
    engine.tickRule now state rule =
      KeyedLoop.visit CompiledRule.id (engine.tickStep now) state rule := by
  obtain ⟨states, report⟩ := state
  unfold tickRule KeyedLoop.visit tickStep
  cases behaviour : rule.behaviour with
  | onChange deadband =>
      cases stored : states.lookup rule.id with
      | none => simp
      | some ruleState => simp [KeyedMap.insert_eq_self stored]
  | periodic intervalMs maxAgeMs =>
      cases stored : states.lookup rule.id with
      | none => simp [stored]
      | some ruleState =>
          have kept := KeyedMap.insert_eq_self stored
          cases due : ruleState.nextDueMs.filter (· ≤ now) with
          | none => simp [stored, due, kept]
          | some slot =>
              simp only [stored, due, rescheduled]
              cases engine.latest.lookup rule.definition.signal with
              | none => simp
              | some latest =>
                  simp only
                  split
                  · rfl
                  · simp only [conditionPasses_eq, emit]
                    cases conditionVerdict rule engine.latest with
                    | error error => simp
                    | ok pass => cases pass <;> simp

variable [F64 F]

/-- Step of one rule for a sample that has been stored. -/
def sampleStep
    (engine : Engine cel)
    (sample : Sample F)
    (rule : CompiledRule cel)
    (ruleState : RuleState F) : RuleState F × EvalReport F :=
  match rule.behaviour with
  | .periodic _ _ => (ruleState, 0)
  | .onChange deadband =>
      if rule.definition.signal = sample.name ∧
          changed deadband ruleState.lastLogged sample.value then
        engine.emit rule ruleState sample.timestampUs sample.value
      else (ruleState, 0)

/-- The sample loop visits a rule that listens to the sample. -/
theorem sampleRule_eq_visit
    (engine : Engine cel)
    (sample : Sample F)
    (state : KeyedMap String (RuleState F) × EvalReport F)
    {rule : CompiledRule cel}
    (listens : rule.listensTo sample.name = true) :
    engine.sampleRule sample state rule =
      KeyedLoop.visit CompiledRule.id (engine.sampleStep sample) state rule := by
  obtain ⟨states, report⟩ := state
  unfold CompiledRule.listensTo at listens
  unfold sampleRule KeyedLoop.visit sampleStep
  cases behaviour : rule.behaviour with
  | periodic intervalMs maxAgeMs =>
      rw [behaviour] at listens
      cases listens
  | onChange deadband =>
      simp only [behaviour, beq_iff_eq] at listens
      cases stored : states.lookup rule.id with
      | none => simp [stored]
      | some ruleState =>
          have kept := KeyedMap.insert_eq_self stored
          simp only [stored, listens, true_and]
          split
          · simp only [conditionPasses_eq, emit]
            cases conditionVerdict rule engine.latest with
            | error error => simp [kept]
            | ok pass => cases pass <;> simp [kept]
          · simp [kept]

section Index

omit [F64 F]

/-- Entering rules appends the indices of the rules that listen to a signal. -/
theorem lookup_foldl_indexRule
    (entries : List (CompiledRule cel × Nat))
    (index : KeyedMap String (List Nat))
    (name : String) :
    ((entries.foldl indexRule index).lookup name).getD [] =
      (index.lookup name).getD [] ++
        (entries.filter fun entry => entry.1.listensTo name).map Prod.snd := by
  induction entries generalizing index with
  | nil => simp
  | cons entry entries inductionHypothesis =>
      rw [List.foldl_cons, inductionHypothesis, List.filter_cons]
      unfold indexRule CompiledRule.listensTo
      cases entry.1.behaviour with
      | periodic intervalMs maxAgeMs => simp
      | onChange deadband =>
          simp only [KeyedMap.lookup_insert_eq_ite, beq_iff_eq]
          by_cases same : name = entry.1.definition.signal
          · subst same
            simp
          · simp [same, Ne.symm same]

/-- Looking up the indices of a signal finds the rules that a scan for
listeners finds. -/
theorem filterMap_lookup_indexRules
    (rules : List (CompiledRule cel))
    (name : String) :
    (((indexRules rules).lookup name).getD []).filterMap (rules[·]?) =
      rules.filter (·.listensTo name) := by
  have found : ∀ entry ∈ rules.zipIdx, rules[entry.2]? = some entry.1 :=
    fun entry member => List.mem_zipIdx_iff_getElem?.mp member
  have scan : rules.filter (·.listensTo name) =
      (rules.zipIdx.filter fun entry => entry.1.listensTo name).map
        Prod.fst := by
    conv_lhs => rw [← List.zipIdx_map_fst 0 rules, List.filter_map]
    rfl
  rw [indexRules, lookup_foldl_indexRule, Finmap.lookup_empty,
    Option.getD_none, List.nil_append, List.filterMap_map, scan,
    ← List.filterMap_eq_map]
  apply List.filterMap_congr
  intro entry member
  exact found entry (List.mem_of_mem_filter member)

end Index

/-- Run a step for every rule, in rule set order, on the state that the rule
owns. -/
def visitRules
    (engine : Engine cel)
    (step : CompiledRule cel → RuleState F → RuleState F × EvalReport F) :
    Engine cel × EvalReport F :=
  let result := engine.rules.rules.foldl
    (KeyedLoop.visit CompiledRule.id step) (engine.state, 0)
  ({ engine with state := result.1 }, result.2)

omit [F64 F] in
/-- A tick runs the tick step of every rule. -/
theorem tick_eq_visitRules
    (engine : Engine cel)
    (now : UInt64) :
    engine.tick now = engine.visitRules (engine.tickStep now) := by
  have visits : engine.tickRule now =
      KeyedLoop.visit CompiledRule.id (engine.tickStep now) := by
    funext state rule
    exact tickRule_eq_visit engine now state rule
  rw [tick, visits]
  rfl

/-- A rule that does not listen to a sample is left alone by it. -/
theorem sampleStep_of_not_listensTo
    (engine : Engine cel)
    (sample : Sample F)
    {rule : CompiledRule cel}
    (ignores : rule.listensTo sample.name = false)
    (ruleState : RuleState F) :
    engine.sampleStep sample rule ruleState = (ruleState, 0) := by
  unfold CompiledRule.listensTo at ignores
  unfold sampleStep
  cases behaviour : rule.behaviour with
  | periodic intervalMs maxAgeMs => rfl
  | onChange deadband =>
      rw [behaviour] at ignores
      simp only [beq_eq_false_iff_ne] at ignores
      simp only [ignores, false_and, if_false]

/-- With a faithful index, a sample is stored and runs the sample step of every
rule. -/
theorem onSample_eq_visitRules
    {engine : Engine cel}
    (indexed : engine.onChangeBySignal = indexRules engine.rules.rules)
    (now : UInt64)
    (sample : Sample F) :
    engine.onSample now sample =
      (engine.receive now sample).visitRules
        ((engine.receive now sample).sampleStep sample) := by
  have scanned := filterMap_lookup_indexRules engine.rules.rules sample.name
  rw [← indexed] at scanned
  have visits : (engine.rules.rules.filter (·.listensTo sample.name)).foldl
        ((engine.receive now sample).sampleRule sample) (engine.state, 0) =
      engine.rules.rules.foldl
        (KeyedLoop.visit CompiledRule.id
          ((engine.receive now sample).sampleStep sample))
        (engine.state, 0) := by
    rw [← KeyedLoop.foldl_filter CompiledRule.id _ engine.rules.rules
      fun rule _ ignores => sampleStep_of_not_listensTo _ sample ignores]
    apply List.foldl_ext
    intro state rule member
    exact sampleRule_eq_visit _ sample state (List.mem_filter.mp member).2
  have sameRules : (engine.receive now sample).rules = engine.rules := rfl
  have sameState : (engine.receive now sample).state = engine.state := rfl
  rw [visitRules, sameRules, sameState, ← visits, ← scanned]
  unfold onSample
  cases found : engine.onChangeBySignal.lookup sample.name with
  | none => simp [found, receive]
  | some indices => simp [found, receive]

/-- Installing rules with distinct ids gives each its kept state or a fresh
one. -/
theorem lookup_foldl_installRule
    (oldDefs : KeyedMap String (CompiledRule cel))
    (now : UInt64)
    {rules : List (CompiledRule cel)}
    (distinct : (rules.map CompiledRule.id).Nodup)
    (old state : KeyedMap String (RuleState F))
    (id : String) :
    (rules.foldl (installRule oldDefs now) (old, state)).2.lookup id =
      ((rules.find? (·.id == id)).map fun rule =>
        (if unchanged oldDefs rule then old.lookup id else none).getD
          (freshState now rule)).or (state.lookup id) := by
  induction rules generalizing old state with
  | nil => rfl
  | cons rule rules inductionHypothesis =>
      rw [List.map_cons, List.nodup_cons] at distinct
      have installed : installRule oldDefs now (old, state) rule =
          (if unchanged oldDefs rule then old.erase rule.id else old,
            state.insert rule.id
              ((if unchanged oldDefs rule then old.lookup rule.id
                else none).getD (freshState now rule))) := rfl
      rw [List.foldl_cons, List.find?_cons, installed,
        inductionHypothesis distinct.2, KeyedMap.lookup_insert_eq_ite]
      by_cases same : rule.id = id
      · have absent := KeyedMap.find?_eq_none_of_notMem CompiledRule.id
          (same ▸ distinct.1)
        subst same
        simp [absent]
      · have untouched : (if unchanged oldDefs rule then old.erase rule.id
              else old).lookup id = old.lookup id := by
          split
          · exact Finmap.lookup_erase_ne (Ne.symm same)
          · rfl
        have unmatched : (rule.id == id) = false := beq_false_of_ne same
        simp only [unmatched, Ne.symm same, untouched, if_false]

/-- State of the rules after a swap: unchanged rules keep theirs. -/
theorem lookup_state_applyRuleset
    {engine : Engine cel}
    (oldWellFormed : engine.rules.WellFormed)
    (now : UInt64)
    {new : CompiledRuleSet cel}
    (newWellFormed : new.WellFormed)
    (id : String) :
    (engine.applyRuleset now new).state.lookup id =
      (new.withId id).map fun rule =>
        (if engine.rules.keeps rule then engine.state.lookup id
          else none).getD (freshState now rule) := by
  have sameDefs : ∀ rule, unchanged (engine.rules.rules.foldl
      (fun defs rule => defs.insert rule.id rule) ∅) rule =
        engine.rules.keeps rule := by
    intro rule
    rw [unchanged, KeyedMap.lookup_foldl_insert CompiledRule.id
      oldWellFormed.idsDistinct, Finmap.lookup_empty, Option.or_none]
    rfl
  unfold applyRuleset
  simp only
  rw [lookup_foldl_installRule _ now newWellFormed.idsDistinct,
    Finmap.lookup_empty, Option.or_none]
  simp only [sameDefs]
  rfl

/-! ## The invariant -/

/-- What holds of every reachable engine. -/
structure Valid (engine : Engine cel) : Prop where
  /-- The active rule set is the empty one or a result of compilation. -/
  wellFormed : engine.rules.WellFormed
  /-- Exactly the active rules have a state. -/
  stateKeys : ∀ id,
    (engine.state.lookup id).isSome ↔ (engine.rules.withId id).isSome
  /-- Exactly the periodic rules have a timer. -/
  timers : ∀ rule ∈ engine.rules.rules, ∀ ruleState,
    engine.state.lookup rule.id = some ruleState →
      (ruleState.nextDueMs.isSome ↔ rule.definition.mode = .periodic)
  /-- The index is that of the active rules. -/
  indexed : engine.onChangeBySignal = indexRules engine.rules.rules

/-- A new engine is valid. -/
theorem valid_new (vin model : String) :
    (Engine.new vin model : Engine cel).Valid where
  wellFormed := CompiledRuleSet.wellFormed_empty
  stateKeys id := by simp [Engine.new, CompiledRuleSet.withId,
    CompiledRuleSet.empty]
  timers _ member := absurd member List.not_mem_nil
  indexed := rfl

/-- A loop runs the step of a rule once, on the state before the loop. -/
theorem Valid.lookup_state_visitRules
    {engine : Engine cel}
    (valid : engine.Valid)
    (step : CompiledRule cel → RuleState F → RuleState F × EvalReport F)
    (id : String) :
    (engine.visitRules step).1.state.lookup id =
      (engine.rules.withId id).bind fun rule =>
        (engine.state.lookup id).map fun ruleState =>
          (step rule ruleState).1 := by
  cases found : engine.rules.withId id with
  | none =>
      have unowned : id ∉ engine.rules.rules.map CompiledRule.id := by
        intro member
        obtain ⟨rule, inSet, rfl⟩ := List.mem_map.mp member
        have present := valid.wellFormed.withId_of_mem inSet
        rw [found] at present
        cases present
      have stateless : engine.state.lookup id = none := by
        have keys := valid.stateKeys id
        rw [found] at keys
        simpa using keys
      exact (KeyedLoop.lookup_foldl_of_notMem CompiledRule.id step _ _
        unowned).trans stateless
  | some rule =>
      obtain ⟨member, rfl⟩ :=
        (valid.wellFormed.withId_eq_some_iff id rule).mp found
      exact KeyedLoop.lookup_foldl_of_mem CompiledRule.id step
        valid.wellFormed.idsDistinct _ member

/-- A loop whose step neither starts nor stops a timer keeps an engine
valid. -/
theorem Valid.visitRules
    {engine : Engine cel}
    (valid : engine.Valid)
    {step : CompiledRule cel → RuleState F → RuleState F × EvalReport F}
    (keepsTimer : ∀ rule ruleState,
      (step rule ruleState).1.nextDueMs.isSome = ruleState.nextDueMs.isSome) :
    (engine.visitRules step).1.Valid where
  wellFormed := valid.wellFormed
  stateKeys id := by
    rw [valid.lookup_state_visitRules]
    have keys := valid.stateKeys id
    change _ ↔ (engine.rules.withId id).isSome = true
    cases found : engine.rules.withId id with
    | none => simp
    | some rule =>
        rw [found] at keys
        simpa using keys
  timers rule member ruleState stored := by
    rw [valid.lookup_state_visitRules,
      valid.wellFormed.withId_of_mem member, Option.bind_some] at stored
    obtain ⟨before, storedBefore, rfl⟩ := Option.map_eq_some_iff.mp stored
    rw [keepsTimer]
    exact valid.timers rule member before storedBefore
  indexed := valid.indexed

omit [F64 F] in
/-- An emission attempt leaves the timer alone. -/
theorem emit_nextDueMs
    (engine : Engine cel)
    (rule : CompiledRule cel)
    (ruleState : RuleState F)
    (tsUs : UInt64)
    (value : SignalValue F) :
    (engine.emit rule ruleState tsUs value).1.nextDueMs =
      ruleState.nextDueMs := by
  unfold emit
  split <;> rfl

/-- A sample leaves all timers alone. -/
theorem sampleStep_nextDueMs
    (engine : Engine cel)
    (sample : Sample F)
    (rule : CompiledRule cel)
    (ruleState : RuleState F) :
    (engine.sampleStep sample rule ruleState).1.nextDueMs =
      ruleState.nextDueMs := by
  unfold sampleStep
  split
  · rfl
  · split
    · exact emit_nextDueMs ..
    · rfl

omit [F64 F] in
/-- A tick neither starts nor stops a timer. -/
theorem tickStep_nextDueMs_isSome
    (engine : Engine cel)
    (now : UInt64)
    (rule : CompiledRule cel)
    (ruleState : RuleState F) :
    (engine.tickStep now rule ruleState).1.nextDueMs.isSome =
      ruleState.nextDueMs.isSome := by
  unfold tickStep
  split
  · rfl
  · split
    · rfl
    · next due found =>
        have scheduled : ruleState.nextDueMs = some due :=
          (Option.filter_eq_some_iff.mp found).1
        rw [scheduled]
        simp only
        split
        · rfl
        · split
          · rfl
          · rw [emit_nextDueMs]
            rfl

/-- A stored sample keeps an engine valid. -/
theorem Valid.receive
    {engine : Engine cel}
    (valid : engine.Valid)
    (now : UInt64)
    (sample : Sample F) :
    (engine.receive now sample).Valid :=
  ⟨valid.wellFormed, valid.stateKeys, valid.timers, valid.indexed⟩

/-- Samples keep an engine valid. -/
theorem Valid.onSample
    {engine : Engine cel}
    (valid : engine.Valid)
    (now : UInt64)
    (sample : Sample F) :
    (engine.onSample now sample).1.Valid := by
  rw [onSample_eq_visitRules valid.indexed]
  exact (valid.receive now sample).visitRules fun rule ruleState => by
    rw [sampleStep_nextDueMs]

/-- Ticks keep an engine valid. -/
theorem Valid.tick
    {engine : Engine cel}
    (valid : engine.Valid)
    (now : UInt64) :
    (engine.tick now).1.Valid := by
  rw [tick_eq_visitRules]
  exact valid.visitRules (tickStep_nextDueMs_isSome engine now)

/-- A fresh state has a timer exactly for a periodic rule. -/
theorem freshState_nextDueMs_isSome
    (now : UInt64)
    {rule : CompiledRule cel}
    (compiles : rule.Compiles) :
    (freshState now rule).nextDueMs.isSome ↔
      rule.definition.mode = .periodic := by
  unfold freshState
  rw [compiles.behaviour_eq, definedBehaviour]
  cases rule.definition.mode <;> simp

/-- Swapping in a well-formed rule set keeps an engine valid. -/
theorem Valid.applyRuleset
    {engine : Engine cel}
    (valid : engine.Valid)
    (now : UInt64)
    {new : CompiledRuleSet cel}
    (wellFormed : new.WellFormed) :
    (engine.applyRuleset now new).Valid where
  wellFormed := wellFormed
  stateKeys id := by
    rw [lookup_state_applyRuleset valid.wellFormed now wellFormed,
      Option.isSome_map]
    rfl
  timers rule member ruleState stored := by
    rw [lookup_state_applyRuleset valid.wellFormed now wellFormed,
      wellFormed.withId_of_mem member, Option.map_some,
      Option.some.injEq] at stored
    subst stored
    have fresh :=
      freshState_nextDueMs_isSome now (wellFormed.compiles rule member)
    split
    · next kept =>
        obtain ⟨old, found, same⟩ :=
          (engine.rules.keeps_eq_true_iff rule).mp kept
        obtain ⟨oldMember, sameId⟩ :=
          (valid.wellFormed.withId_eq_some_iff rule.id old).mp found
        cases stored : engine.state.lookup rule.id with
        | none => exact fresh
        | some before =>
            rw [← sameId] at stored
            have sameMode := ((Rule.eq_iff ..).mp same).2.2.1
            rw [Option.getD_some, ← sameMode]
            exact valid.timers old oldMember before stored
    · exact fresh
  indexed := rfl

/-- Every input keeps an engine valid. -/
theorem Valid.step
    {engine : Engine cel}
    (valid : engine.Valid)
    (input : Input cel) :
    ((machine cel).step engine input).1.Valid := by
  cases input with
  | onSample now sample => exact valid.onSample now sample
  | tick now => exact valid.tick now
  | applyRuleset now set => exact valid.applyRuleset now set.wellFormed

/-- Every reachable engine is valid. -/
theorem valid_final
    (vin model : String)
    (inputs : List (Input cel)) :
    ((machine cel).final (Engine.new vin model) inputs).Valid :=
  Machine.final_invariant (fun _ input valid => valid.step input) inputs
    (valid_new vin model)

end Engine

end Rules
end TelemetryEdge
