import TelemetryEdge.Rules.Invariant

/-!
# The three tables of the engine

The rule list, the state map and the index of on-change rules are replaced or
carried over separately by a swap.  In every reachable engine they fit together,
so the branches with which the loops guard against a mismatch are never taken:
loops that fail in these branches always succeed.
-/

namespace TelemetryEdge
namespace Rules

open Protocol

namespace Engine

variable {cel : Cel F}

/-- `tickRule`, failing for a periodic rule without a state. -/
def tickRuleStrict
    (engine : Engine cel)
    (now : UInt64)
    (state : KeyedMap String (RuleState F) × EvalReport F)
    (rule : CompiledRule cel) :
    Option (KeyedMap String (RuleState F) × EvalReport F) :=
  match rule.behaviour, state.1.lookup rule.id with
  | .periodic _ _, none => none
  | _, _ => some (engine.tickRule now state rule)

/-- `tick`, failing for a periodic rule without a state. -/
def tickStrict
    (engine : Engine cel)
    (now : UInt64) : Option (Engine cel × EvalReport F) :=
  (engine.rules.rules.foldlM (engine.tickRuleStrict now) (engine.state, 0)).map
    fun result => ({ engine with state := result.1 }, result.2)

variable [F64 F]

/-- One indexed rule of `onSample`, failing for an index without a rule, a rule
that is periodic and a rule without a state. -/
def sampleRuleStrict
    (engine : Engine cel)
    (sample : Sample F)
    (state : KeyedMap String (RuleState F) × EvalReport F)
    (index : Nat) :
    Option (KeyedMap String (RuleState F) × EvalReport F) :=
  match engine.rules.rules[index]? with
  | none => none
  | some rule =>
      match rule.behaviour, state.1.lookup rule.id with
      | .onChange _, some _ => some (engine.sampleRule sample state rule)
      | _, _ => none

/-- `onSample`, failing in its guards. -/
def onSampleStrict
    (engine : Engine cel)
    (now : UInt64)
    (sample : Sample F) : Option (Engine cel × EvalReport F) :=
  let engine := engine.receive now sample
  match engine.onChangeBySignal.lookup sample.name with
  | none => some (engine, 0)
  | some indices =>
      (indices.foldlM (engine.sampleRuleStrict sample) (engine.state, 0)).map
        fun result => ({ engine with state := result.1 }, result.2)

section Index

omit [F64 F]

/-- A rule listens to a signal when it is an on-change rule on it. -/
theorem listensTo_eq_true_iff
    (rule : CompiledRule cel)
    (name : String) :
    rule.listensTo name = true ↔
      (∃ deadband, rule.behaviour = .onChange deadband) ∧
        rule.definition.signal = name := by
  unfold CompiledRule.listensTo
  cases rule.behaviour with
  | onChange deadband => simp
  | periodic intervalMs maxAgeMs => simp

/-- The positions of the rules that listen to a signal. -/
def listeners (rules : List (CompiledRule cel)) (name : String) : List Nat :=
  (rules.zipIdx.filter fun entry => entry.1.listensTo name).map Prod.snd

/-- The positions of listeners, one by one. -/
theorem mem_listeners_iff
    (rules : List (CompiledRule cel))
    (name : String)
    (index : Nat) :
    index ∈ listeners rules name ↔
      ∃ rule, rules[index]? = some rule ∧ rule.listensTo name = true := by
  simp only [listeners, List.mem_map, List.mem_filter, Prod.exists,
    exists_eq_right, List.mk_mem_zipIdx_iff_getElem?]

/-- The positions of listeners come in increasing order. -/
theorem pairwise_listeners
    (rules : List (CompiledRule cel))
    (name : String) :
    (listeners rules name).Pairwise (· < ·) := by
  have positions : rules.zipIdx.map Prod.snd = List.range' 0 rules.length :=
    List.zipIdx_map_snd 0 rules
  have increasing : (rules.zipIdx.map Prod.snd).Pairwise (· < ·) := by
    rw [positions]
    exact List.pairwise_lt_range'
  exact increasing.sublist (List.filter_sublist.map _)

/-- Entering a rule adds no empty entry. -/
theorem lookup_foldl_indexRule_ne_nil
    (entries : List (CompiledRule cel × Nat))
    (index : KeyedMap String (List Nat))
    (name : String)
    (filled : index.lookup name ≠ some []) :
    (entries.foldl indexRule index).lookup name ≠ some [] := by
  induction entries generalizing index with
  | nil => exact filled
  | cons entry entries inductionHypothesis =>
      rw [List.foldl_cons]
      apply inductionHypothesis _
      unfold indexRule
      cases entry.1.behaviour with
      | periodic intervalMs maxAgeMs => exact filled
      | onChange deadband =>
          rw [KeyedMap.lookup_insert_eq_ite]
          split
          · simp
          · exact filled

/-- The index holds the listeners of each signal that has some, and nothing
else. -/
theorem lookup_indexRules
    (rules : List (CompiledRule cel))
    (name : String) :
    (indexRules rules).lookup name =
      if listeners rules name = [] then none
      else some (listeners rules name) := by
  have content := lookup_foldl_indexRule rules.zipIdx ∅ name
  have filled := lookup_foldl_indexRule_ne_nil rules.zipIdx ∅ name (by simp)
  rw [Finmap.lookup_empty, Option.getD_none, List.nil_append] at content
  unfold indexRules listeners
  rw [← content]
  cases found : (rules.zipIdx.foldl indexRule ∅).lookup name with
  | none => simp
  | some indices =>
      rw [found, ne_eq, Option.some.injEq] at filled
      rw [Option.getD_some, if_neg filled]

end Index

/-- In a valid engine every rule has a state. -/
theorem Valid.lookup_state_isSome
    {engine : Engine cel}
    (valid : engine.Valid)
    {rule : CompiledRule cel}
    (member : rule ∈ engine.rules.rules) :
    (engine.state.lookup rule.id).isSome := by
  rw [valid.stateKeys, valid.wellFormed.withId_of_mem member]
  rfl

/-- A tick finds the state of every periodic rule. -/
theorem Valid.tickStrict_eq
    {engine : Engine cel}
    (valid : engine.Valid)
    (now : UInt64) :
    engine.tickStrict now = some (engine.tick now) := by
  have checked : engine.rules.rules.foldlM (engine.tickRuleStrict now)
        (engine.state, 0) =
      some (engine.rules.rules.foldl (engine.tickRule now)
        (engine.state, 0)) := by
    apply KeyedLoop.foldlM_eq_some fun state => ∀ id,
      (state.1.lookup id).isSome = (engine.state.lookup id).isSome
    · intro state sameKeys rule member
      constructor
      · have stateful := valid.lookup_state_isSome member
        rw [← sameKeys] at stateful
        obtain ⟨ruleState, stored⟩ := Option.isSome_iff_exists.mp stateful
        unfold tickRuleStrict
        rw [stored]
        cases rule.behaviour <;> rfl
      · intro id
        rw [tickRule_eq_visit, KeyedLoop.lookup_visit_isSome, sameKeys]
    · exact fun _ => rfl
  rw [tickStrict, checked]
  rfl

/-- An indexed on-change rule with a state passes the guards. -/
theorem sampleRuleStrict_eq_some
    (engine : Engine cel)
    {sample : Sample F}
    {state : KeyedMap String (RuleState F) × EvalReport F}
    {index : Nat}
    {rule : CompiledRule cel}
    (atIndex : engine.rules.rules[index]? = some rule)
    (listens : rule.listensTo sample.name = true)
    (stateful : (state.1.lookup rule.id).isSome) :
    engine.sampleRuleStrict sample state index =
      some (engine.sampleRule sample state rule) := by
  obtain ⟨⟨deadband, onChange⟩, -⟩ := (listensTo_eq_true_iff ..).mp listens
  obtain ⟨ruleState, stored⟩ := Option.isSome_iff_exists.mp stateful
  unfold sampleRuleStrict
  simp only [atIndex, onChange, stored]

/-- A sample finds an on-change rule with a state at every index. -/
theorem Valid.onSampleStrict_eq
    {engine : Engine cel}
    (valid : engine.Valid)
    (now : UInt64)
    (sample : Sample F) :
    engine.onSampleStrict now sample = some (engine.onSample now sample) := by
  have sameIndex : (engine.receive now sample).onChangeBySignal =
      engine.onChangeBySignal := rfl
  unfold onSampleStrict Engine.onSample
  simp only [sameIndex]
  cases found : engine.onChangeBySignal.lookup sample.name with
  | none => rfl
  | some indices =>
      have indexed : ∀ index ∈ indices, ∃ rule,
          engine.rules.rules[index]? = some rule ∧
            rule.listensTo sample.name = true := by
        rw [valid.indexed, lookup_indexRules] at found
        split at found
        · cases found
        · obtain rfl := Option.some.inj found
          exact fun index member => (mem_listeners_iff ..).mp member
      have checked : indices.foldlM
            ((engine.receive now sample).sampleRuleStrict sample)
            (engine.state, 0) =
          some ((indices.filterMap (engine.rules.rules[·]?)).foldl
            ((engine.receive now sample).sampleRule sample)
            (engine.state, 0)) := by
        rw [List.foldl_filterMap]
        apply KeyedLoop.foldlM_eq_some fun state => ∀ id,
          (state.1.lookup id).isSome = (engine.state.lookup id).isSome
        · intro state sameKeys index member
          obtain ⟨rule, atIndex, listens⟩ := indexed index member
          have stateful :=
            valid.lookup_state_isSome (List.mem_of_getElem? atIndex)
          rw [← sameKeys] at stateful
          refine ⟨(sampleRuleStrict_eq_some (engine.receive now sample) atIndex
            listens stateful).trans (by rw [atIndex]), fun id => ?_⟩
          simp only [atIndex]
          rw [sampleRule_eq_visit _ _ _ listens, KeyedLoop.lookup_visit_isSome,
            sameKeys]
        · exact fun _ => rfl
      have sameState : (engine.receive now sample).state = engine.state := rfl
      simp only [sameState]
      rw [checked]
      rfl

/-- How the tables of an engine fit together. -/
structure Represented (engine : Engine cel) : Prop where
  /-- Exactly the active rules have a state. -/
  keys : engine.state.keys = (engine.rules.rules.map CompiledRule.id).toFinset
  /-- There are not too many states. -/
  card_le : engine.state.keys.card ≤ maxRules
  /-- Every periodic rule has a timer. -/
  periodic : ∀ rule ∈ engine.rules.rules, ∀ intervalMs maxAgeMs,
    rule.behaviour = .periodic intervalMs maxAgeMs →
      ∃ ruleState due, engine.state.lookup rule.id = some ruleState ∧
        ruleState.nextDueMs = some due
  /-- No on-change rule has a timer. -/
  onChange : ∀ rule ∈ engine.rules.rules, ∀ deadband,
    rule.behaviour = .onChange deadband →
      ∃ ruleState, engine.state.lookup rule.id = some ruleState ∧
        ruleState.nextDueMs = none
  /-- The signals in the index are those of on-change rules. -/
  signals : ∀ name, (engine.onChangeBySignal.lookup name).isSome ↔
    ∃ rule ∈ engine.rules.rules,
      (∃ deadband, rule.behaviour = .onChange deadband) ∧
        rule.definition.signal = name
  /-- The index holds their positions in increasing order. -/
  positions : ∀ name indices,
    engine.onChangeBySignal.lookup name = some indices →
      indices.Pairwise (· < ·) ∧ ∀ index, index ∈ indices ↔
        ∃ rule, engine.rules.rules[index]? = some rule ∧
          (∃ deadband, rule.behaviour = .onChange deadband) ∧
            rule.definition.signal = name
  /-- The guards of the sample loop are never taken. -/
  onSampleStrict : ∀ now sample,
    engine.onSampleStrict now sample = some (engine.onSample now sample)
  /-- The guard of the tick loop is never taken. -/
  tickStrict : ∀ now, engine.tickStrict now = some (engine.tick now)

/-- The state map has exactly the ids of the active rules. -/
theorem Valid.state_keys
    {engine : Engine cel}
    (valid : engine.Valid) :
    engine.state.keys =
      (engine.rules.rules.map CompiledRule.id).toFinset := by
  ext id
  rw [Finmap.mem_keys, ← Finmap.lookup_isSome, valid.stateKeys,
    List.mem_toFinset, List.mem_map, Option.isSome_iff_exists]
  simp only [valid.wellFormed.withId_eq_some_iff]

/-- Exactly the periodic rules have a timer. -/
theorem Valid.nextDueMs_isSome_iff
    {engine : Engine cel}
    (valid : engine.Valid)
    {rule : CompiledRule cel}
    (member : rule ∈ engine.rules.rules)
    {ruleState : RuleState F}
    (stored : engine.state.lookup rule.id = some ruleState) :
    ruleState.nextDueMs.isSome ↔
      ∃ intervalMs maxAgeMs,
        rule.behaviour = .periodic intervalMs maxAgeMs := by
  rw [valid.timers rule member ruleState stored,
    (valid.wellFormed.compiles rule member).behaviour_eq, definedBehaviour]
  cases rule.definition.mode <;> simp

omit [F64 F] in
/-- A signal has listeners exactly if some rule listens to it. -/
theorem listeners_ne_nil_iff
    (rules : List (CompiledRule cel))
    (name : String) :
    listeners rules name ≠ [] ↔
      ∃ rule ∈ rules, rule.listensTo name = true := by
  constructor
  · intro filled
    obtain ⟨index, member⟩ := List.exists_mem_of_ne_nil _ filled
    obtain ⟨rule, atIndex, listens⟩ := (mem_listeners_iff ..).mp member
    exact ⟨rule, List.mem_of_getElem? atIndex, listens⟩
  · rintro ⟨rule, member, listens⟩
    obtain ⟨index, atIndex⟩ := List.mem_iff_getElem?.mp member
    apply List.ne_nil_of_mem
    exact (mem_listeners_iff ..).mpr ⟨rule, atIndex, listens⟩

/-- A valid engine is represented. -/
theorem Valid.represented
    {engine : Engine cel}
    (valid : engine.Valid) :
    engine.Represented := by
  refine ⟨valid.state_keys, ?_, ?_, ?_, ?_, ?_, valid.onSampleStrict_eq,
    valid.tickStrict_eq⟩
  · rw [valid.state_keys,
      List.toFinset_card_of_nodup valid.wellFormed.idsDistinct, List.length_map]
    exact valid.wellFormed.length_le
  · intro rule member intervalMs maxAgeMs periodic
    obtain ⟨ruleState, stored⟩ :=
      Option.isSome_iff_exists.mp (valid.lookup_state_isSome member)
    obtain ⟨due, timed⟩ := Option.isSome_iff_exists.mp
      ((valid.nextDueMs_isSome_iff member stored).mpr ⟨_, _, periodic⟩)
    exact ⟨ruleState, due, stored, timed⟩
  · intro rule member deadband onChange
    obtain ⟨ruleState, stored⟩ :=
      Option.isSome_iff_exists.mp (valid.lookup_state_isSome member)
    refine ⟨ruleState, stored, ?_⟩
    rw [← Option.not_isSome_iff_eq_none,
      valid.nextDueMs_isSome_iff member stored]
    rintro ⟨intervalMs, maxAgeMs, periodic⟩
    rw [onChange] at periodic
    cases periodic
  · intro name
    have listened := listeners_ne_nil_iff engine.rules.rules name
    simp only [listensTo_eq_true_iff] at listened
    rw [← listened, valid.indexed, lookup_indexRules]
    split
    · next empty => simp [empty]
    · next filled => simp [filled]
  · intro name indices found
    rw [valid.indexed, lookup_indexRules] at found
    split at found
    · cases found
    · obtain rfl := Option.some.inj found
      refine ⟨pairwise_listeners .., fun index => ?_⟩
      simp only [mem_listeners_iff, listensTo_eq_true_iff]

/-- The tables of every reachable engine fit together. -/
theorem represented_final
    (vin model : String)
    (inputs : List (Input cel)) :
    ((machine cel).final (Engine.new vin model) inputs).Represented :=
  (valid_final vin model inputs).represented

end Engine

end Rules
end TelemetryEdge
