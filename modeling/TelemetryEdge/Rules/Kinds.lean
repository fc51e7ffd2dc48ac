import TelemetryEdge.Protocol.Kinds
import TelemetryEdge.Protocol.OlderCatalog
import TelemetryEdge.Rules.Acceptance
import TelemetryEdge.Rules.Representation
import TelemetryEdge.Rules.Swap

/-!
# Values keep their kind in the engine

When samples are decoded with a catalog and rule sets are compiled against it,
every value that the engine stores is one that the signal of its name declares.
A sample loop that fails on a comparison of values of different kinds, or on a
deadband between values that are not numbers, never fails.
-/

namespace TelemetryEdge
namespace Rules

open Protocol Saturating

namespace Engine

variable {cel : Cel F}

/-- Whether the last logged value of a rule may be compared with a new one:
both have one kind, which is numeric when the rule declares a deadband. -/
def comparable
    (rule : CompiledRule cel)
    (lastLogged : Option (SignalValue F))
    (value : SignalValue F) : Bool :=
  match lastLogged with
  | none => true
  | some last => last.kind == value.kind &&
      (rule.definition.deadband.isNone || value.kind == .num)

variable [F64 F]

/-- `sampleRule`, failing on a comparison of values that do not go together. -/
def sampleRuleKinded
    (engine : Engine cel)
    (sample : Sample F)
    (state : KeyedMap String (RuleState F) × EvalReport F)
    (rule : CompiledRule cel) :
    Option (KeyedMap String (RuleState F) × EvalReport F) :=
  match rule.behaviour, state.1.lookup rule.id with
  | .onChange _, some ruleState =>
      if comparable rule ruleState.lastLogged sample.value then
        some (engine.sampleRule sample state rule)
      else none
  | _, _ => some (engine.sampleRule sample state rule)

/-- `onSample`, failing on a comparison of values that do not go together. -/
def onSampleKinded
    (engine : Engine cel)
    (now : UInt64)
    (sample : Sample F) : Option (Engine cel × EvalReport F) :=
  let engine := engine.receive now sample
  match engine.onChangeBySignal.lookup sample.name with
  | none => some (engine, 0)
  | some indices =>
      let rules := indices.filterMap fun index => engine.rules.rules[index]?
      (rules.foldlM (engine.sampleRuleKinded sample) (engine.state, 0)).map
        fun result => ({ engine with state := result.1 }, result.2)

/-- Whether an input comes from a catalog: samples are decoded with it, and rule
sets are compiled against it. -/
def Input.Under (catalog : Catalog F) : Input cel → Prop
  | .onSample _ sample => ∃ buf packet,
      decodePacket buf catalog = .ok packet ∧ sample ∈ packet.samples
  | .tick _ => True
  | .applyRuleset _ set => ∃ thread rules vehicleModel activeVersion,
      compileRuleset cel thread rules catalog vehicleModel activeVersion =
        .ok set.compiled

/-- An engine whose values are declared by a catalog. -/
structure Kinded (catalog : Catalog F) (engine : Engine cel) : Prop where
  valid : engine.Valid
  /-- The active rules are compiled against the catalog. -/
  compiled : ∀ rule ∈ engine.rules.rules,
    compileRule cel rule.definition catalog = .ok rule
  /-- The latest value of a signal is one that the signal declares. -/
  latest : ∀ name latest, engine.latest.lookup name = some latest →
    catalog.Declares name latest.value
  /-- The last logged value of a rule is one that its signal declares. -/
  logged : ∀ id rule ruleState value,
    engine.view id = some (rule, ruleState) →
      ruleState.lastLogged = some value →
        catalog.Declares rule.definition.signal value

/-- A new engine holds no values. -/
theorem kinded_new
    (catalog : Catalog F)
    (vin model : String) :
    (Engine.new vin model : Engine cel).Kinded catalog where
  valid := valid_new vin model
  compiled _ member := absurd member List.not_mem_nil
  latest _ _ stored := by cases stored
  logged _ _ _ _ viewed := by cases viewed

omit [F64 F] in
/-- An emission attempt stores the value it emits, or nothing. -/
theorem emit_lastLogged_cases
    (engine : Engine cel)
    (rule : CompiledRule cel)
    (ruleState : RuleState F)
    (tsUs : UInt64)
    (value : SignalValue F) :
    (engine.emit rule ruleState tsUs value).1.lastLogged =
        ruleState.lastLogged ∨
      (engine.emit rule ruleState tsUs value).1.lastLogged = some value := by
  unfold emit
  split
  · exact .inr rfl
  · exact .inl rfl
  · exact .inl rfl

omit [F64 F] in
/-- A tick stores the latest value of the signal of a rule, or nothing. -/
theorem tickStep_lastLogged_cases
    (engine : Engine cel)
    (now : UInt64)
    (rule : CompiledRule cel)
    (ruleState : RuleState F) :
    (engine.tickStep now rule ruleState).1.lastLogged =
        ruleState.lastLogged ∨
      ∃ latest, engine.latest.lookup rule.definition.signal = some latest ∧
        (engine.tickStep now rule ruleState).1.lastLogged =
          some latest.value := by
  unfold tickStep
  split
  · exact .inl rfl
  · split
    · exact .inl rfl
    · simp only
      split
      · exact .inl rfl
      · next latest stored =>
          split
          · exact .inl rfl
          · rcases emit_lastLogged_cases engine rule _ latest.timestampUs
              latest.value with kept | emitted
            · exact .inl kept
            · exact .inr ⟨latest, stored, emitted⟩

/-- A sample stores its value for a rule on its signal, or nothing. -/
theorem sampleStep_lastLogged_cases
    (engine : Engine cel)
    (sample : Sample F)
    (rule : CompiledRule cel)
    (ruleState : RuleState F) :
    (engine.sampleStep sample rule ruleState).1.lastLogged =
        ruleState.lastLogged ∨
      rule.definition.signal = sample.name ∧
        (engine.sampleStep sample rule ruleState).1.lastLogged =
          some sample.value := by
  unfold sampleStep
  split
  · exact .inl rfl
  · split
    · next listens =>
        rcases emit_lastLogged_cases engine rule ruleState sample.timestampUs
          sample.value with kept | emitted
        · exact .inl kept
        · exact .inr ⟨listens.1, emitted⟩
    · exact .inl rfl

section Steps

variable {catalog : Catalog F} {engine : Engine cel}

/-- A sample with a declared value keeps all values declared. -/
theorem Kinded.onSample
    (kinded : engine.Kinded catalog)
    (now : UInt64)
    {sample : Sample F}
    (declared : catalog.Declares sample.name sample.value) :
    (engine.onSample now sample).1.Kinded catalog := by
  have stepped := onSample_eq_visitRules kinded.valid.indexed now sample
  refine ⟨kinded.valid.onSample now sample, ?_, ?_, ?_⟩
  · rw [stepped]
    exact kinded.compiled
  · intro name latest stored
    rw [stepped] at stored
    change (engine.latest.insert sample.name _).lookup name = _ at stored
    rw [KeyedMap.lookup_insert_eq_ite] at stored
    split at stored
    · next same =>
        obtain rfl := Option.some.inj stored
        exact same ▸ declared
    · exact kinded.latest name latest stored
  · intro id rule ruleState value viewed logged
    rw [stepped, (kinded.valid.receive now sample).view_visitRules] at viewed
    obtain ⟨⟨active, before⟩, viewedBefore, same⟩ :=
      Option.map_eq_some_iff.mp viewed
    obtain ⟨rfl, rfl⟩ := Prod.ext_iff.mp same
    rcases sampleStep_lastLogged_cases (engine.receive now sample) sample active
      before with kept | ⟨listens, emitted⟩
    · exact kinded.logged id active before value viewedBefore
        (kept ▸ logged)
    · obtain rfl := Option.some.inj (emitted.symm.trans logged)
      exact listens ▸ declared

/-- A tick keeps all values declared. -/
theorem Kinded.tick
    (kinded : engine.Kinded catalog)
    (now : UInt64) :
    (engine.tick now).1.Kinded catalog := by
  refine ⟨kinded.valid.tick now, ?_, ?_, ?_⟩
  · rw [tick_eq_visitRules]
    exact kinded.compiled
  · rw [tick_eq_visitRules]
    exact kinded.latest
  · intro id rule ruleState value viewed logged
    rw [tick_eq_visitRules, kinded.valid.view_visitRules] at viewed
    obtain ⟨⟨active, before⟩, viewedBefore, same⟩ :=
      Option.map_eq_some_iff.mp viewed
    obtain ⟨rfl, rfl⟩ := Prod.ext_iff.mp same
    rcases tickStep_lastLogged_cases engine now active before with
      kept | ⟨latest, stored, emitted⟩
    · exact kinded.logged id active before value viewedBefore
        (kept ▸ logged)
    · obtain rfl := Option.some.inj (emitted.symm.trans logged)
      exact kinded.latest _ latest stored

/-- A swap to a rule set compiled against the catalog keeps all values
declared: a kept value belongs to a rule on the same signal. -/
theorem Kinded.applyRuleset
    (kinded : engine.Kinded catalog)
    (now : UInt64)
    {new : CompiledRuleSet cel}
    (wellFormed : new.WellFormed)
    (compiled : ∀ rule ∈ new.rules,
      compileRule cel rule.definition catalog = .ok rule) :
    (engine.applyRuleset now new).Kinded catalog := by
  refine ⟨kinded.valid.applyRuleset now wellFormed, compiled, kinded.latest, ?_⟩
  intro id rule ruleState value viewed logged
  rw [kinded.valid.view_applyRuleset now wellFormed] at viewed
  obtain ⟨active, -, same⟩ := Option.map_eq_some_iff.mp viewed
  obtain ⟨rfl, rfl⟩ := Prod.ext_iff.mp same
  cases before : engine.view id with
  | none =>
      rw [before] at logged
      cases logged
  | some own =>
      obtain ⟨old, oldState⟩ := own
      rw [before, installed] at logged
      simp only at logged
      split at logged
      · next unchanged =>
          rw [← ((Rule.eq_iff ..).mp unchanged).2.1]
          exact kinded.logged id old oldState value before logged
      · cases logged

end Steps

/-- Every input that comes from the catalog keeps all values declared. -/
theorem Kinded.step
    {catalog : AcceptedCatalog F}
    {engine : Engine cel}
    (kinded : engine.Kinded catalog.toCatalog)
    {input : Input cel}
    (under : input.Under catalog.toCatalog) :
    ((machine cel).step engine input).1.Kinded catalog.toCatalog := by
  cases input with
  | onSample now sample =>
      obtain ⟨buf, packet, decoded, member⟩ := under
      exact kinded.onSample now (catalog.declares_of_decodePacket decoded member)
  | tick now => exact kinded.tick now
  | applyRuleset now set =>
      obtain ⟨thread, rules, vehicleModel, activeVersion, success⟩ := under
      obtain ⟨-, -, -, -, -, results⟩ :=
        (compileRuleset_eq_ok_iff ..).mp success
      exact kinded.applyRuleset now set.wellFormed
        (compileRule_definition results)

/-- Every run of inputs that come from the catalog keeps all values declared. -/
theorem kinded_final
    (catalog : AcceptedCatalog F)
    (vin model : String)
    {inputs : List (Input cel)}
    (under : ∀ input ∈ inputs, input.Under catalog.toCatalog) :
    ((machine cel).final (Engine.new vin model) inputs).Kinded
      catalog.toCatalog :=
  Machine.final_invariant_of_admitted (fun _ _ kinded under => kinded.step under)
    under (kinded_new catalog.toCatalog vin model)

/-- A rule that declares a deadband is on a numeric signal. -/
theorem kind_of_deadband
    {rule : Rule F}
    {signal : Signal F}
    {behaviour : Behaviour F}
    {deadband : F}
    (success : compileBehaviour rule signal = .ok behaviour)
    (declared : rule.deadband = some deadband) :
    signal.kind = .num := by
  have fields := ((compileBehaviour_eq_ok_iff ..).mp success).1
  unfold ValidFields at fields
  split at fields
  · exact (fields.2.2 deadband declared).2.2
  · rw [fields.1] at declared
    cases declared

/-- A last logged value may be compared with any declared value of the signal of
its rule. -/
theorem Kinded.comparable
    {catalog : Catalog F}
    {engine : Engine cel}
    (kinded : engine.Kinded catalog)
    {rule : CompiledRule cel}
    (member : rule ∈ engine.rules.rules)
    {ruleState : RuleState F}
    (stored : engine.state.lookup rule.id = some ruleState)
    {value : SignalValue F}
    (declared : catalog.Declares rule.definition.signal value) :
    comparable rule ruleState.lastLogged value = true := by
  unfold Engine.comparable
  cases logged : ruleState.lastLogged with
  | none => rfl
  | some last =>
      have viewed := kinded.valid.view_of_mem member stored
      obtain ⟨signal, named, lastDeclared⟩ :=
        kinded.logged rule.id rule ruleState last viewed logged
      obtain ⟨other, alsoNamed, valueDeclared⟩ := declared
      obtain rfl := Option.some.inj (named.symm.trans alsoNamed)
      simp only [lastDeclared.kind_eq, valueDeclared.kind_eq, beq_self_eq_true,
        Bool.true_and, Bool.or_eq_true, beq_iff_eq]
      cases deadband : rule.definition.deadband with
      | none => exact .inl rfl
      | some threshold =>
          obtain ⟨-, -, compiledSignal, found, -, checked, -⟩ :=
            (compileRule_eq_ok_iff ..).mp (kinded.compiled rule member)
          obtain rfl := Option.some.inj (named.symm.trans found)
          exact .inr (kind_of_deadband checked deadband)

/-- The comparison of a rule that listens to a declared sample does not fail. -/
theorem Kinded.sampleRuleKinded_eq
    {catalog : Catalog F}
    {engine : Engine cel}
    (kinded : engine.Kinded catalog)
    (now : UInt64)
    {sample : Sample F}
    (declared : catalog.Declares sample.name sample.value)
    {rule : CompiledRule cel}
    (active : rule ∈ engine.rules.rules)
    (onSignal : rule.definition.signal = sample.name)
    {state : KeyedMap String (RuleState F) × EvalReport F}
    (same : state.1.lookup rule.id = engine.state.lookup rule.id) :
    (engine.receive now sample).sampleRuleKinded sample state rule =
      some ((engine.receive now sample).sampleRule sample state rule) := by
  unfold sampleRuleKinded
  rw [same]
  split
  · next ruleState stored =>
      rw [if_pos (kinded.comparable active stored (onSignal ▸ declared))]
  · rfl

/-- No comparison of a sample loop fails. -/
theorem Kinded.onSampleKinded_eq
    {catalog : Catalog F}
    {engine : Engine cel}
    (kinded : engine.Kinded catalog)
    (now : UInt64)
    {sample : Sample F}
    (declared : catalog.Declares sample.name sample.value) :
    engine.onSampleKinded now sample = some (engine.onSample now sample) := by
  have sameIndex : (engine.receive now sample).onChangeBySignal =
      engine.onChangeBySignal := rfl
  have sameRules : (engine.receive now sample).rules = engine.rules := rfl
  have sameState : (engine.receive now sample).state = engine.state := rfl
  unfold onSampleKinded Engine.onSample
  simp only [sameIndex, sameRules, sameState]
  cases found : engine.onChangeBySignal.lookup sample.name with
  | none => rfl
  | some indices =>
      have scanned := filterMap_lookup_indexRules engine.rules.rules sample.name
      rw [← kinded.valid.indexed, found, Option.getD_some] at scanned
      have visits : ∀ rule ∈ indices.filterMap (engine.rules.rules[·]?), ∀ state,
          (engine.receive now sample).sampleRule sample state rule =
            KeyedLoop.visit CompiledRule.id
              ((engine.receive now sample).sampleStep sample) state rule := by
        intro rule member state
        rw [scanned] at member
        exact sampleRule_eq_visit _ sample state (List.mem_filter.mp member).2
      have checked : (indices.filterMap (engine.rules.rules[·]?)).foldlM
            ((engine.receive now sample).sampleRuleKinded sample)
            (engine.state, 0) =
          some ((indices.filterMap (engine.rules.rules[·]?)).foldl
            ((engine.receive now sample).sampleRule sample)
            (engine.state, 0)) := by
        rw [List.foldl_ext _ _ _ fun state rule member =>
          visits rule member state]
        apply KeyedLoop.foldlM_eq_some_of_entries
        · rw [scanned]
          exact kinded.valid.wellFormed.idsDistinct.sublist
            (List.filter_sublist.map _)
        · intro rule member state same
          rw [← visits rule member state]
          rw [scanned, List.mem_filter, listensTo_eq_true_iff] at member
          obtain ⟨active, -, onSignal⟩ := member
          exact kinded.sampleRuleKinded_eq now declared active onSignal same
      simp only
      rw [checked]
      rfl

/-- All values of an engine are declared by a catalog, and comparisons with
samples of the catalog go together. -/
structure KeepsKinds (catalog : Catalog F) (engine : Engine cel) : Prop where
  /-- The latest value of a signal is one that the signal declares. -/
  latest : ∀ name latest, engine.latest.lookup name = some latest →
    catalog.Declares name latest.value
  /-- The last logged value of a rule is one that its signal declares. -/
  logged : ∀ rule ∈ engine.rules.rules, ∀ ruleState value,
    engine.state.lookup rule.id = some ruleState →
      ruleState.lastLogged = some value →
        catalog.Declares rule.definition.signal value
  /-- No sample is compared with a value of another kind, nor across a declared
  deadband with a value that is not a number. -/
  onSampleKinded : ∀ now sample,
    (Input.onSample now sample : Input cel).Under catalog →
      engine.onSampleKinded now sample = some (engine.onSample now sample)

/-- Values keep the kind that the catalog declares, in every run whose samples
are decoded with the catalog and whose rule sets are compiled against it. -/
theorem keepsKinds_final
    (catalog : AcceptedCatalog F)
    (vin model : String)
    {inputs : List (Input cel)}
    (under : ∀ input ∈ inputs, input.Under catalog.toCatalog) :
    ((machine cel).final (Engine.new vin model) inputs).KeepsKinds
      catalog.toCatalog := by
  have kinded := kinded_final catalog vin model under
  refine ⟨kinded.latest, ?_, ?_⟩
  · intro rule member ruleState value stored logged
    have viewed := kinded.valid.view_of_mem member stored
    exact kinded.logged rule.id rule ruleState value viewed logged
  · rintro now sample ⟨buf, packet, decoded, member⟩
    exact kinded.onSampleKinded_eq now
      (catalog.declares_of_decodePacket decoded member)

end Engine

/-- A rule that logs every change of the door. -/
def doorRule : Rule Binary64 :=
  { speedRule with id := "door", signal := "door_open" }

/-- The rule set of the rule. -/
def doorRules : LoadedRuleSet identifierCel where
  compiled := ⟨1, "*", [⟨doorRule, none, none, .onChange F64.zero⟩]⟩
  loaded := ⟨.ok (), ⟨1, "*", [doorRule]⟩, doorCatalog.toCatalog, "R1S", none,
    by rfl⟩

/-- The run keeps the kind of the flag. -/
theorem doorRules_keepsKinds :
    ((Engine.machine identifierCel).final (Engine.new "VIN" "R1S")
      [.applyRuleset 0 doorRules,
        .onSample 5 ⟨1, "door_open", 9, .bool true⟩]).KeepsKinds
      doorCatalog.toCatalog := by
  apply Engine.keepsKinds_final
  intro input member
  rcases List.mem_cons.mp member with rfl | last
  · exact ⟨.ok (), ⟨1, "*", [doorRule]⟩, "R1S", none, rfl⟩
  · obtain rfl := List.mem_singleton.mp last
    exact ⟨flagsPacket, ⟨[⟨1, "door_open", 9, .bool true⟩], [], 1⟩, rfl,
      List.mem_cons_self⟩

end Rules
end TelemetryEdge
