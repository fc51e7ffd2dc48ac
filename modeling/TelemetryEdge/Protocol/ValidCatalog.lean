import TelemetryEdge.Foundation.Registration
import TelemetryEdge.Protocol.Lookup

/-!
# Which catalogs are accepted

What a valid catalog document is, said without reference to the validation, and
that validation accepts exactly the valid ones and gives back their document and
their signals.
-/

namespace TelemetryEdge
namespace Protocol

/-- A lower-case letter followed by at most sixty-three lower-case letters,
digits and underscores. -/
def ValidName (name : String) : Prop :=
  ∃ first rest, name.toList = first :: rest ∧ first.isLower ∧
    rest.length ≤ 63 ∧ ∀ c ∈ rest, c.isLower ∨ c.isDigit ∨ c = '_'

/-- Labels for integers in the range of an integer type. -/
structure ValidEnum (ty : SignalType) (map : BTreeMap) : Prop where
  keys : ∃ range, ty.intRange = some range ∧ ∀ entry ∈ map.entries,
    ∃ raw, Text.parseI128 entry.1 = some raw ∧ range.1 ≤ raw ∧ raw ≤ range.2
  notEmpty : map.entries ≠ []
  labelsNotEmpty : ∀ entry ∈ map.entries, entry.2 ≠ ""
  labelsDistinct : (map.entries.map Prod.snd).Nodup

/-- A signal that a catalog may declare. -/
structure ValidSignal [F64 F] (definition : SignalDef F) : Prop where
  name : ValidName definition.name
  endian : 1 < definition.ty.size → definition.endian ≠ none
  scaleFinite : F64.isFinite definition.scale = true
  scaleNotZero : F64.eq definition.scale F64.zero = false
  offsetFinite : F64.isFinite definition.offset = true
  enumMap : ∀ map, definition.enumMap = some map →
    ValidEnum definition.ty map

/-- A catalog document that a vehicle may have. -/
structure ValidCatalog [F64 F] (spec : CatalogSpec F) : Prop where
  model : Text.isBlank spec.model = false
  idsDistinct : (spec.signals.map SignalDef.id).Nodup
  namesDistinct : (spec.signals.map SignalDef.name).Nodup
  signals : ∀ definition ∈ spec.signals, ValidSignal definition

/-- The byte length that is checked is the number of characters. -/
theorem isValidSignalName_eq_true_iff (name : String) :
    isValidSignalName name = true ↔ ValidName name := by
  have sameChar : ∀ c : Char, Text.isIdentChar c = true ↔
      c.isLower ∨ c.isDigit ∨ c = '_' := by
    intro c
    rw [Text.isIdentChar, Bool.or_eq_true, Bool.or_eq_true, beq_iff_eq, or_assoc]
  unfold isValidSignalName ValidName
  cases chars : name.toList with
  | nil => simp
  | cons first rest =>
      simp only [Bool.and_eq_true, decide_eq_true_eq, List.all_eq_true,
        sameChar, and_assoc]
      have bytes : first.isLower →
          (∀ c ∈ rest, c.isLower ∨ c.isDigit ∨ c = '_') →
          name.utf8ByteSize = rest.length + 1 := by
        intro lower ident
        have allIdent : ∀ c ∈ name.toList, Text.isIdentChar c = true := by
          rw [chars, List.forall_mem_cons]
          exact ⟨(sameChar first).mpr (.inl lower),
            fun c member => (sameChar c).mpr (ident c member)⟩
        rw [Text.utf8ByteSize_of_isIdentChar allIdent, ← String.length_toList,
          chars, List.length_cons]
      constructor
      · rintro ⟨lower, short, ident⟩
        rw [bytes lower ident] at short
        exact ⟨first, rest, rfl, lower, Nat.le_of_succ_le_succ short, ident⟩
      · rintro ⟨_, _, same, lower, short, ident⟩
        obtain ⟨rfl, rfl⟩ := List.cons.inj same
        rw [bytes lower ident]
        exact ⟨lower, Nat.succ_le_succ short, ident⟩

/-- The entries of an enum map are accepted when their keys are integers in
range and their labels are new, distinct and not empty. -/
theorem addEnumEntries_isOk_iff
    (signal : String)
    (ty : SignalType)
    (range : Int × Int)
    (tables : Signal.EnumTables)
    (entries : List (String × String)) :
    (∃ next, Signal.addEnumEntries signal ty range tables entries =
        .ok next) ↔
      (∀ entry ∈ entries,
        ((∃ raw, Text.parseI128 entry.1 = some raw ∧ range.1 ≤ raw ∧
          raw ≤ range.2) ∧ entry.2 ≠ "") ∧
        tables.byLabel.lookup entry.2 = none) ∧
      (entries.map Prod.snd).Nodup := by
  rw [List.Nodup, List.pairwise_map, Signal.addEnumEntries_eq_foldlM]
  apply Registration.foldlM_isOk_iff
  · intro tables entry
    simp only [Signal.addEnumEntry_eq_ok_iff]
    constructor
    · rintro ⟨next, raw, parsed, inRange, named, fresh, -⟩
      exact ⟨⟨⟨raw, parsed, inRange⟩, named⟩, fresh⟩
    · rintro ⟨⟨⟨raw, parsed, inRange⟩, named⟩, fresh⟩
      exact ⟨_, raw, parsed, inRange, named, fresh, rfl⟩
  · intro tables entry next accepted other
    obtain ⟨raw, -, -, -, -, rfl⟩ :=
      (Signal.addEnumEntry_eq_ok_iff ..).mp accepted
    rw [KeyedMap.lookup_insert_eq_ite]
    by_cases same : other.2 = entry.2
    · simp [same]
    · simp [same, Ne.symm same]

/-- An enum map is accepted when it is valid. -/
theorem enumTables_isOk_iff
    (signal : String)
    (ty : SignalType)
    (enumMap : Option BTreeMap) :
    (∃ tables, Signal.enumTables signal ty enumMap = .ok tables) ↔
      ∀ map, enumMap = some map → ValidEnum ty map := by
  cases enumMap with
  | none => simp [Signal.enumTables]
  | some map =>
      simp only [Signal.enumTables, Option.some.injEq, forall_eq']
      cases ranged : ty.intRange with
      | none =>
          simp only [reduceCtorEq, exists_false, false_iff]
          rintro ⟨⟨range, found, -⟩, -, -, -⟩
          rw [ranged] at found
          cases found
      | some range =>
          by_cases empty : map.entries = []
          · simp only [if_pos empty, reduceCtorEq, exists_false, false_iff]
            exact fun valid => valid.notEmpty empty
          · simp only [if_neg empty, addEnumEntries_isOk_iff,
              Finmap.lookup_empty, and_true, forall_and]
            constructor
            · rintro ⟨⟨keys, labels⟩, distinct⟩
              exact ⟨⟨range, ranged, keys⟩, empty, labels, distinct⟩
            · rintro ⟨⟨other, found, keys⟩, -, labels, distinct⟩
              obtain rfl := Option.some.inj (ranged.symm.trans found)
              exact ⟨⟨keys, labels⟩, distinct⟩

section Accepted

variable [F64 F]

/-- A signal is accepted when it is valid. -/
theorem Signal.new_isOk_iff (definition : SignalDef F) :
    (∃ signal, Signal.new definition = .ok signal) ↔
      ValidSignal definition := by
  simp only [Signal.new_eq_ok_iff]
  constructor
  · rintro ⟨signal, name, endian, ⟨scaleFinite, scaleNotZero, offsetFinite⟩,
      tables, built, -⟩
    exact {
      name := (isValidSignalName_eq_true_iff _).mp name
      endian := fun long missing => endian ⟨long, missing⟩
      scaleFinite
      scaleNotZero
      offsetFinite
      enumMap := (enumTables_isOk_iff definition.name ..).mp ⟨tables, built⟩ }
  · intro valid
    obtain ⟨tables, built⟩ :=
      (enumTables_isOk_iff definition.name ..).mpr valid.enumMap
    have name := (isValidSignalName_eq_true_iff _).mpr valid.name
    have endian : ¬ (1 < definition.ty.size ∧ definition.endian = none) :=
      fun missing => valid.endian missing.1 missing.2
    exact ⟨_, name, endian,
      ⟨valid.scaleFinite, valid.scaleNotZero, valid.offsetFinite⟩, tables, built,
      rfl⟩

namespace Catalog

/-- A signal is added when it is valid and neither its id nor its name has been
read before. -/
theorem addSignal_isOk_iff
    (tables : Tables F)
    (definition : SignalDef F) :
    (∃ next, addSignal tables definition = .ok next) ↔
      ValidSignal definition ∧
        tables.byId.lookup definition.id = none ∧
          definition.name ∉ tables.seenNames := by
  simp only [addSignal_eq_ok_iff, ← Signal.new_isOk_iff]
  constructor
  · rintro ⟨next, freshId, freshName, signal, valid, -⟩
    exact ⟨⟨signal, valid⟩, freshId, freshName⟩
  · rintro ⟨⟨signal, valid⟩, freshId, freshName⟩
    exact ⟨_, freshId, freshName, signal, valid, rfl⟩

/-- An added signal takes its id and its name. -/
theorem fresh_of_addSignal
    {tables next : Tables F}
    {definition : SignalDef F}
    (added : addSignal tables definition = .ok next)
    (other : SignalDef F) :
    (next.byId.lookup other.id = none ∧ other.name ∉ next.seenNames) ↔
      (tables.byId.lookup other.id = none ∧ other.name ∉ tables.seenNames) ∧
        ¬ (definition.id = other.id ∨ definition.name = other.name) := by
  obtain ⟨-, -, signal, -, rfl⟩ := (addSignal_eq_ok_iff ..).mp added
  rw [KeyedMap.lookup_insert_eq_ite, List.mem_cons]
  by_cases sameId : other.id = definition.id
  · simp [sameId]
  · by_cases sameName : other.name = definition.name
    · simp [sameName]
    · simp [sameId, sameName, Ne.symm sameId, Ne.symm sameName]

/-- Signals are added when they are valid and their ids and names are
distinct. -/
theorem addSignals_isOk_iff (definitions : List (SignalDef F)) :
    (∃ tables, addSignals ⟨[], ∅, ∅, []⟩ definitions = .ok tables) ↔
      (∀ definition ∈ definitions, ValidSignal definition) ∧
        (definitions.map SignalDef.id).Nodup ∧
        (definitions.map SignalDef.name).Nodup := by
  rw [addSignals_eq_foldlM, Registration.foldlM_isOk_iff
    addSignal_isOk_iff fun tables definition next added =>
      fresh_of_addSignal added]
  simp only [Finmap.lookup_empty, List.not_mem_nil, not_false_eq_true, and_true,
    not_or, List.pairwise_and_iff, List.Nodup, List.pairwise_map, ne_eq]

/-- A document is accepted when it is valid. -/
theorem new_isOk_iff (spec : CatalogSpec F) :
    (∃ catalog, Catalog.new spec = .ok catalog) ↔ ValidCatalog spec := by
  simp only [Catalog.new_eq_ok_iff]
  constructor
  · rintro ⟨catalog, named, tables, built, -⟩
    obtain ⟨signals, ids, names⟩ :=
      (addSignals_isOk_iff spec.signals).mp ⟨tables, built⟩
    exact ⟨named, ids, names, signals⟩
  · intro valid
    obtain ⟨tables, built⟩ := (addSignals_isOk_iff spec.signals).mpr
      ⟨valid.signals, valid.idsDistinct, valid.namesDistinct⟩
    exact ⟨_, valid.model, tables, built, rfl⟩

/-- The document of an accepted catalog is the one it was made from. -/
theorem toSpec_of_new
    {spec : CatalogSpec F}
    {catalog : Catalog F}
    (accepted : Catalog.new spec = .ok catalog) :
    catalog.toSpec = spec := by
  obtain ⟨-, tables, built, rfl⟩ := (Catalog.new_eq_ok_iff ..).mp accepted
  rw [toSpec, definitions_of_addSignals built]
  rfl

/-- What an accepted catalog says about its document. -/
structure Faithful (spec : CatalogSpec F) (catalog : Catalog F) : Prop where
  /-- The catalog gives its document back. -/
  toSpec : catalog.toSpec = spec
  /-- The document it gives back is accepted again, as the same catalog. -/
  again : Catalog.new catalog.toSpec = .ok catalog
  /-- No two signals have one id. -/
  idsDistinct : (catalog.signals.map Signal.id).Nodup
  /-- No two signals have one name. -/
  namesDistinct : (catalog.signals.map Signal.name).Nodup
  /-- The lookup by id finds the signal with the id. -/
  byId : ∀ id signal, catalog.byId id = some signal ↔
    signal ∈ catalog.signals ∧ signal.id = id
  /-- The lookup by name finds the signal with the name. -/
  byName : ∀ name signal, catalog.byName name = some signal ↔
    signal ∈ catalog.signals ∧ signal.name = name
  /-- Both lookups find the same signal for the id and the name of a signal. -/
  agree : ∀ signal ∈ catalog.signals,
    catalog.byId signal.id = some signal ∧
      catalog.byName signal.name = some signal

/-- A document is accepted exactly when it is valid, and the accepted catalog is
faithful to it. -/
theorem new_exact (spec : CatalogSpec F) :
    ((∃ catalog, Catalog.new spec = .ok catalog) ↔ ValidCatalog spec) ∧
      ∀ catalog, Catalog.new spec = .ok catalog → Faithful spec catalog := by
  refine ⟨new_isOk_iff spec, fun catalog accepted => ?_⟩
  have valid := (new_isOk_iff spec).mp ⟨catalog, accepted⟩
  have same := toSpec_of_new accepted
  have definitions : catalog.signals.map Signal.definition = spec.signals :=
    congrArg CatalogSpec.signals same
  have byId := AcceptedCatalog.byId_eq_some_iff ⟨catalog, spec, accepted⟩
  have byName := AcceptedCatalog.byName_eq_some_iff ⟨catalog, spec, accepted⟩
  refine ⟨same, ?_, ?_, ?_, byId, byName, ?_⟩
  · rw [same]
    exact accepted
  · have ids := valid.idsDistinct
    rwa [← definitions, List.map_map] at ids
  · have names := valid.namesDistinct
    rwa [← definitions, List.map_map] at names
  · intro signal member
    exact ⟨(byId _ signal).mpr ⟨member, rfl⟩,
      (byName _ signal).mpr ⟨member, rfl⟩⟩

end Catalog

end Accepted

end Protocol
end TelemetryEdge
