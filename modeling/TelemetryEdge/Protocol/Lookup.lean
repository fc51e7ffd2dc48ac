import TelemetryEdge.Protocol.EnumCodec

/-!
# Lookups in accepted catalogs

In a catalog that has been accepted, both lookups find exactly the signals of
the catalog: by their id and by their name.  Every signal is what its own
definition validates to, so a signal is determined by its definition.
-/

namespace TelemetryEdge
namespace Protocol

/-- A validated signal carries the definition it was made from. -/
theorem Signal.definition_of_new [F64 F]
    {definition : SignalDef F}
    {signal : Signal F}
    (accepted : Signal.new definition = .ok signal) :
    signal.definition = definition := by
  obtain ⟨-, -, -, tables, -, rfl⟩ := (Signal.new_eq_ok_iff ..).mp accepted
  rfl

namespace Catalog

/-- The tables find exactly the signals read so far. -/
structure Tables.Consistent (tables : Tables F) : Prop where
  /-- Ids lead to the signals that carry them. -/
  byId : ∀ id index, tables.byId.lookup id = some index ↔
    ∃ signal, tables.signals[index]? = some signal ∧ signal.id = id
  /-- Names lead to the signals that carry them. -/
  byName : ∀ name index, tables.byName.lookup name = some index ↔
    ∃ signal, tables.signals[index]? = some signal ∧ signal.name = name
  /-- The names that have been seen are those of the signals. -/
  seenNames : ∀ name, name ∈ tables.seenNames ↔
    ∃ signal ∈ tables.signals, signal.name = name

/-- Empty tables are consistent. -/
theorem Tables.Consistent.empty :
    (⟨[], ∅, ∅, []⟩ : Tables F).Consistent where
  byId := by simp
  byName := by simp
  seenNames := by simp

/-- An index table stays consistent when a signal with a fresh key is appended. -/
theorem lookup_insert_append_iff [DecidableEq κ]
    {index : KeyedMap κ Nat}
    {signals : List α}
    {key : α → κ}
    (consistent : ∀ wanted position, index.lookup wanted = some position ↔
      ∃ signal, signals[position]? = some signal ∧ key signal = wanted)
    {signal : α}
    (fresh : index.lookup (key signal) = none)
    (wanted : κ)
    (position : Nat) :
    (index.insert (key signal) signals.length).lookup wanted = some position ↔
      ∃ found, (signals ++ [signal])[position]? = some found ∧
        key found = wanted := by
  rw [KeyedMap.lookup_insert_eq_ite]
  rcases Nat.lt_trichotomy position signals.length with early | rfl | late
  · rw [List.getElem?_append_left early, ← consistent]
    split
    · next same =>
        rw [same, fresh, Option.some.injEq]
        simp [Nat.ne_of_gt early]
    · rfl
  · have last : (signals ++ [signal])[signals.length]? = some signal := by simp
    rw [last]
    split
    · next same => simp [same]
    · next different =>
        simp [consistent, Ne.symm different]
  · have beyond : (signals ++ [signal])[position]? = none :=
      List.getElem?_eq_none (by rw [List.length_append]; exact late)
    rw [beyond]
    split
    · simp [Nat.ne_of_lt late]
    · simp [consistent, List.getElem?_eq_none late.le]

variable [F64 F]

/-- Adding a signal keeps the tables consistent. -/
theorem Tables.Consistent.addSignal
    {tables result : Tables F}
    (consistent : tables.Consistent)
    {definition : SignalDef F}
    (added : Catalog.addSignal tables definition = .ok result) :
    result.Consistent := by
  obtain ⟨freshId, unseen, signal, validated, rfl⟩ :=
    (addSignal_eq_ok_iff ..).mp added
  obtain rfl := Signal.definition_of_new validated
  have freshName : tables.byName.lookup signal.definition.name = none := by
    rw [Option.eq_none_iff_forall_ne_some]
    intro index found
    obtain ⟨other, atIndex, sameName⟩ := (consistent.byName ..).mp found
    exact unseen ((consistent.seenNames _).mpr
      ⟨other, List.mem_of_getElem? atIndex, sameName⟩)
  refine ⟨?_, ?_, ?_⟩
  · exact lookup_insert_append_iff consistent.byId freshId
  · exact lookup_insert_append_iff consistent.byName freshName
  · intro name
    rw [List.mem_cons, consistent.seenNames]
    simp only [List.mem_append, List.mem_singleton, or_and_right, exists_or,
      exists_eq_left, Signal.name]
    rw [or_comm, eq_comm]

/-- Adding signals keeps the tables consistent. -/
theorem Tables.Consistent.addSignals
    {tables result : Tables F}
    (consistent : tables.Consistent)
    {definitions : List (SignalDef F)}
    (added : Catalog.addSignals tables definitions = .ok result) :
    result.Consistent := by
  rw [addSignals_eq_foldlM] at added
  apply Registration.foldlM_reads (fun _ tables => tables.Consistent) _ added []
    consistent
  intro read state definition next consistent step
  exact consistent.addSignal step

/-- The signals added are those of the definitions, in order. -/
theorem definitions_of_addSignals
    {tables result : Tables F}
    {definitions : List (SignalDef F)}
    (added : Catalog.addSignals tables definitions = .ok result) :
    result.signals.map Signal.definition =
      tables.signals.map Signal.definition ++ definitions := by
  rw [addSignals_eq_foldlM] at added
  apply Registration.foldlM_reads
    (fun read state => state.signals.map Signal.definition =
      tables.signals.map Signal.definition ++ read) _ added []
    (List.append_nil _).symm
  intro read state definition next holds step
  obtain ⟨-, -, signal, validated, rfl⟩ := (addSignal_eq_ok_iff ..).mp step
  rw [List.map_append, List.map_singleton, holds,
    Signal.definition_of_new validated, List.append_assoc]

end Catalog

/-- A catalog that `Catalog.new` has accepted. -/
structure AcceptedCatalog (F : Type) [F64 F] extends Catalog F where
  /-- Some document validates to the catalog. -/
  accepted : ∃ spec, Catalog.new spec = .ok toCatalog

namespace AcceptedCatalog

variable [F64 F] (catalog : AcceptedCatalog F)

/-- The definitions of the signals, in document order. -/
def definitions : List (SignalDef F) :=
  catalog.signals.map Signal.definition

/-- Both index tables are consistent with the list of signals. -/
theorem exists_consistent : ∃ seenNames,
    (⟨catalog.signals, catalog.byIdIndex, catalog.byNameIndex,
      seenNames⟩ : Catalog.Tables F).Consistent := by
  obtain ⟨spec, accepted⟩ := catalog.accepted
  obtain ⟨-, tables, added, same⟩ := (Catalog.new_eq_ok_iff ..).mp accepted
  refine ⟨tables.seenNames, ?_⟩
  rw [same]
  exact Catalog.Tables.Consistent.empty.addSignals added

/-- An accepted catalog holds the definitions of its document. -/
theorem definitions_eq
    {spec : CatalogSpec F}
    (accepted : Catalog.new spec = .ok catalog.toCatalog) :
    catalog.definitions = spec.signals := by
  obtain ⟨-, tables, added, same⟩ := (Catalog.new_eq_ok_iff ..).mp accepted
  rw [definitions, same]
  exact Catalog.definitions_of_addSignals added

/-- The signals found by id are the signals of the catalog. -/
theorem byId_eq_some_iff
    (id : UInt16)
    (signal : Signal F) :
    catalog.byId id = some signal ↔
      signal ∈ catalog.signals ∧ signal.id = id := by
  obtain ⟨seenNames, consistent⟩ := catalog.exists_consistent
  rw [Catalog.byId, Option.bind_eq_some_iff, List.mem_iff_getElem?]
  constructor
  · rintro ⟨index, found, atIndex⟩
    obtain ⟨other, alsoAtIndex, sameId⟩ := (consistent.byId id index).mp found
    obtain rfl := Option.some.inj (atIndex.symm.trans alsoAtIndex)
    exact ⟨⟨index, atIndex⟩, sameId⟩
  · rintro ⟨⟨index, atIndex⟩, sameId⟩
    exact ⟨index, (consistent.byId id index).mpr ⟨signal, atIndex, sameId⟩,
      atIndex⟩

/-- The signals found by name are the signals of the catalog. -/
theorem byName_eq_some_iff
    (name : String)
    (signal : Signal F) :
    catalog.byName name = some signal ↔
      signal ∈ catalog.signals ∧ signal.name = name := by
  obtain ⟨seenNames, consistent⟩ := catalog.exists_consistent
  rw [Catalog.byName, Option.bind_eq_some_iff, List.mem_iff_getElem?]
  constructor
  · rintro ⟨index, found, atIndex⟩
    obtain ⟨other, alsoAtIndex, sameName⟩ :=
      (consistent.byName name index).mp found
    obtain rfl := Option.some.inj (atIndex.symm.trans alsoAtIndex)
    exact ⟨⟨index, atIndex⟩, sameName⟩
  · rintro ⟨⟨index, atIndex⟩, sameName⟩
    exact ⟨index, (consistent.byName name index).mpr ⟨signal, atIndex, sameName⟩,
      atIndex⟩

/-- Every signal of the catalog is what its definition validates to. -/
theorem new_definition
    {signal : Signal F}
    (member : signal ∈ catalog.signals) :
    Signal.new signal.definition = .ok signal := by
  obtain ⟨spec, accepted⟩ := catalog.accepted
  obtain ⟨definition, -, validated⟩ :=
    Catalog.exists_new_of_mem_signals accepted member
  rw [Signal.definition_of_new validated]
  exact validated

end AcceptedCatalog

end Protocol
end TelemetryEdge
