import Mathlib.Data.String.Basic
import TelemetryEdge.Foundation.Float64
import TelemetryEdge.Foundation.KeyedLoop
import TelemetryEdge.Foundation.Text

/-!
# Signal catalogs

A catalog lists the signals of one vehicle model.  `Catalog.new` validates a
catalog document and builds the lookup tables: by id and by name for signals,
by raw value and by label for the enum of a signal.
-/

namespace TelemetryEdge
namespace Protocol

/-- Wire type of the raw payload of a signal. -/
inductive SignalType
  | bool | u8 | i8 | u16 | i16 | u32 | i32 | u64 | i64 | f32 | f64
  deriving DecidableEq

namespace SignalType

/-- Payload size in bytes. -/
def size : SignalType → Nat
  | .bool | .u8 | .i8 => 1
  | .u16 | .i16 => 2
  | .u32 | .i32 | .f32 => 4
  | .u64 | .i64 | .f64 => 8

/-- Whether the type is a floating-point type. -/
def isFloat : SignalType → Bool
  | .f32 | .f64 => true
  | _ => false

/-- Inclusive raw range of the integer types. -/
def intRange : SignalType → Option (Int × Int)
  | .u8 => some (0, 2 ^ 8 - 1)
  | .i8 => some (-(2 ^ 7), 2 ^ 7 - 1)
  | .u16 => some (0, 2 ^ 16 - 1)
  | .i16 => some (-(2 ^ 15), 2 ^ 15 - 1)
  | .u32 => some (0, 2 ^ 32 - 1)
  | .i32 => some (-(2 ^ 31), 2 ^ 31 - 1)
  | .u64 => some (0, 2 ^ 64 - 1)
  | .i64 => some (-(2 ^ 63), 2 ^ 63 - 1)
  | .bool | .f32 | .f64 => none

/-- The `Debug` text of the type. -/
def debug : SignalType → String
  | .bool => "Bool"
  | .u8 => "U8"
  | .i8 => "I8"
  | .u16 => "U16"
  | .i16 => "I16"
  | .u32 => "U32"
  | .i32 => "I32"
  | .u64 => "U64"
  | .i64 => "I64"
  | .f32 => "F32"
  | .f64 => "F64"

end SignalType

/-- Byte order of a multi-byte payload. -/
inductive Endian
  | big | little
  deriving DecidableEq

/-- Kind of physical value a signal decodes to. -/
inductive ValueKind
  | bool | num | enum
  deriving DecidableEq

/-- A `BTreeMap<String, String>`: entries in strictly increasing key order. -/
structure BTreeMap where
  /-- The entries, in the order of iteration. -/
  entries : List (String × String)
  /-- Keys increase strictly, so no key occurs twice. -/
  sorted : entries.Pairwise fun left right => left.1 < right.1
  deriving DecidableEq

/-- One signal definition of a catalog document. -/
structure SignalDef (F : Type) where
  id : UInt16
  name : String
  ty : SignalType
  endian : Option Endian
  scale : F
  offset : F
  unit : Option String
  enumMap : Option BTreeMap
  deriving DecidableEq

/-- A catalog document. -/
structure CatalogSpec (F : Type) where
  model : String
  catalogVersion : UInt32
  signals : List (SignalDef F)
  deriving DecidableEq

/-- Why a catalog document is rejected. -/
inductive CatalogError
  | emptyModel
  | duplicateId (id : UInt16)
  | duplicateName (name : String)
  | invalidName (name : String)
  | missingEndian (name : String)
  | invalidScaleOffset (name : String)
  | invalidEnum (signal reason : String)
  deriving DecidableEq

/-- Whether a name matches `^[a-z][a-z0-9_]{0,63}$`. -/
def isValidSignalName (name : String) : Bool :=
  match name.toList with
  | [] => false
  | first :: rest =>
      first.isLower && decide (name.utf8ByteSize ≤ 64) &&
        rest.all Text.isIdentChar

/-- A validated signal with its enum lookup tables. -/
structure Signal (F : Type) where
  definition : SignalDef F
  enumByRaw : KeyedMap Int String
  enumByLabel : KeyedMap String Int

namespace Signal

/-- The enum lookup tables while they are being filled. -/
structure EnumTables where
  byRaw : KeyedMap Int String
  byLabel : KeyedMap String Int

/-- Check one entry of an enum map and add it to the tables. -/
def addEnumEntry
    (signal : String)
    (ty : SignalType)
    (range : Int × Int)
    (tables : EnumTables)
    (entry : String × String) : Except CatalogError EnumTables :=
  let invalid (reason : String) : Except CatalogError EnumTables :=
    .error (.invalidEnum signal reason)
  match Text.parseI128 entry.1 with
  | none => invalid s!"key '{entry.1}' is not an integer"
  | some raw =>
      if raw < range.1 ∨ raw > range.2 then
        invalid s!"key {raw} is out of range for {ty.debug}"
      else if entry.2 = "" then
        invalid s!"key {raw} has an empty label"
      else if (tables.byLabel.lookup entry.2).isSome then
        invalid s!"duplicate label '{entry.2}'"
      else
        .ok {
          byRaw := tables.byRaw.insert raw entry.2
          byLabel := tables.byLabel.insert entry.2 raw }

/-- Fill the tables from the entries of an enum map, in key order. -/
def addEnumEntries
    (signal : String)
    (ty : SignalType)
    (range : Int × Int) :
    EnumTables → List (String × String) → Except CatalogError EnumTables
  | tables, [] => .ok tables
  | tables, entry :: entries =>
      match addEnumEntry signal ty range tables entry with
      | .error error => .error error
      | .ok next => addEnumEntries signal ty range next entries

/-- The loop over the entries stops at the first that is rejected. -/
theorem addEnumEntries_eq_foldlM
    (signal : String)
    (ty : SignalType)
    (range : Int × Int)
    (tables : EnumTables)
    (entries : List (String × String)) :
    addEnumEntries signal ty range tables entries =
      entries.foldlM (addEnumEntry signal ty range) tables := by
  induction entries generalizing tables with
  | nil => rfl
  | cons entry entries inductionHypothesis =>
      rw [addEnumEntries, List.foldlM_cons]
      cases addEnumEntry signal ty range tables entry with
      | error error => rfl
      | ok next => exact inductionHypothesis next

/-- Check an enum map and build its lookup tables. -/
def enumTables
    (signal : String)
    (ty : SignalType) :
    Option BTreeMap → Except CatalogError EnumTables
  | none => .ok ⟨∅, ∅⟩
  | some map =>
      match ty.intRange with
      | none =>
          .error (.invalidEnum signal
            s!"enum requires an integer type, got {ty.debug}")
      | some range =>
          if map.entries = [] then
            .error (.invalidEnum signal "enum map is empty")
          else
            addEnumEntries signal ty range ⟨∅, ∅⟩ map.entries

/-- Validate a signal definition. -/
def new [F64 F] (definition : SignalDef F) : Except CatalogError (Signal F) :=
  if !isValidSignalName definition.name then
    .error (.invalidName definition.name)
  else if 1 < definition.ty.size ∧ definition.endian = none then
    .error (.missingEndian definition.name)
  else if !F64.isFinite definition.scale ||
      F64.eq definition.scale F64.zero ||
      !F64.isFinite definition.offset then
    .error (.invalidScaleOffset definition.name)
  else
    match enumTables definition.name definition.ty definition.enumMap with
    | .error error => .error error
    | .ok tables =>
        .ok {
          definition
          enumByRaw := tables.byRaw
          enumByLabel := tables.byLabel }

/-- An accepted definition has passed the checks, and the signal carries it and
the tables of its enum map. -/
theorem new_eq_ok_iff [F64 F]
    (definition : SignalDef F)
    (signal : Signal F) :
    new definition = .ok signal ↔
      isValidSignalName definition.name = true ∧
        ¬ (1 < definition.ty.size ∧ definition.endian = none) ∧
        (F64.isFinite definition.scale = true ∧
          F64.eq definition.scale F64.zero = false ∧
          F64.isFinite definition.offset = true) ∧
        ∃ tables,
          enumTables definition.name definition.ty definition.enumMap =
              .ok tables ∧
            signal = ⟨definition, tables.byRaw, tables.byLabel⟩ := by
  unfold new
  split_ifs with badName noEndian badNumber
  · rw [Bool.not_eq_true'] at badName
    simp [badName]
  · simp [noEndian]
  · simp only [false_iff]
    rintro ⟨-, -, ⟨scaleFinite, scaleNotZero, offsetFinite⟩, -⟩
    simp [scaleFinite, scaleNotZero, offsetFinite] at badNumber
  · simp only [Bool.or_eq_true, Bool.not_eq_true', not_or, Bool.not_eq_true,
      Bool.not_eq_false] at badName badNumber
    cases enumTables definition.name definition.ty definition.enumMap with
    | error error => simp
    | ok tables => simp [badName, noEndian, badNumber, eq_comm]

/-- Wire id. -/
def id (signal : Signal F) : UInt16 := signal.definition.id

/-- Catalog name. -/
def name (signal : Signal F) : String := signal.definition.name

/-- Wire type. -/
def ty (signal : Signal F) : SignalType := signal.definition.ty

/-- Physical unit, for signals that have one. -/
def unit (signal : Signal F) : Option String := signal.definition.unit

/-- Byte order; single-byte types have none and report big-endian. -/
def endian (signal : Signal F) : Endian :=
  signal.definition.endian.getD .big

/-- Kind of physical value the signal decodes to. -/
def kind (signal : Signal F) : ValueKind :=
  if signal.definition.ty = .bool then .bool
  else if signal.definition.enumMap.isSome then .enum
  else .num

/-- Label of a raw enum value. -/
def enumLabel (signal : Signal F) (raw : Int) : Option String :=
  signal.enumByRaw.lookup raw

/-- Raw value of an enum label. -/
def enumRaw (signal : Signal F) (label : String) : Option Int :=
  signal.enumByLabel.lookup label

end Signal

/-- A signal catalog with lookups by id and name. -/
structure Catalog (F : Type) where
  model : String
  catalogVersion : UInt32
  signals : List (Signal F)
  byIdIndex : KeyedMap UInt16 Nat
  byNameIndex : KeyedMap String Nat

namespace Catalog

/-- The signals and index tables read so far. -/
structure Tables (F : Type) where
  signals : List (Signal F)
  byId : KeyedMap UInt16 Nat
  byName : KeyedMap String Nat
  seenNames : List String

/-- Add one signal definition: the three tables are filled before the signal
itself is validated. -/
def addSignal [F64 F]
    (tables : Tables F)
    (definition : SignalDef F) : Except CatalogError (Tables F) :=
  let index := tables.signals.length
  if (tables.byId.lookup definition.id).isSome then
    .error (.duplicateId definition.id)
  else if definition.name ∈ tables.seenNames then
    .error (.duplicateName definition.name)
  else
    match Signal.new definition with
    | .error error => .error error
    | .ok signal =>
        .ok {
          signals := tables.signals ++ [signal]
          byId := tables.byId.insert definition.id index
          byName := tables.byName.insert definition.name index
          seenNames := definition.name :: tables.seenNames }

/-- An added signal has a fresh id and a fresh name and is valid. -/
theorem addSignal_eq_ok_iff [F64 F]
    (tables next : Tables F)
    (definition : SignalDef F) :
    addSignal tables definition = .ok next ↔
      tables.byId.lookup definition.id = none ∧
        definition.name ∉ tables.seenNames ∧
        ∃ signal, Signal.new definition = .ok signal ∧
          next = {
            signals := tables.signals ++ [signal]
            byId := tables.byId.insert definition.id tables.signals.length
            byName := tables.byName.insert definition.name tables.signals.length
            seenNames := definition.name :: tables.seenNames } := by
  unfold addSignal
  split_ifs with repeatedId repeatedName
  · simp [Option.ne_none_iff_isSome.mpr repeatedId]
  · simp [repeatedName]
  · have freshId : tables.byId.lookup definition.id = none := by
      rwa [Bool.not_eq_true, Option.isSome_eq_false_iff,
        Option.isNone_iff_eq_none] at repeatedId
    cases Signal.new definition with
    | error error => simp
    | ok signal => simp [freshId, repeatedName, eq_comm]

/-- Add signal definitions in document order, stopping at the first error. -/
def addSignals [F64 F] :
    Tables F → List (SignalDef F) → Except CatalogError (Tables F)
  | tables, [] => .ok tables
  | tables, definition :: definitions =>
      match addSignal tables definition with
      | .error error => .error error
      | .ok next => addSignals next definitions

/-- The loop over the definitions stops at the first that is rejected. -/
theorem addSignals_eq_foldlM [F64 F]
    (tables : Tables F)
    (definitions : List (SignalDef F)) :
    addSignals tables definitions = definitions.foldlM addSignal tables := by
  induction definitions generalizing tables with
  | nil => rfl
  | cons definition definitions inductionHypothesis =>
      rw [addSignals, List.foldlM_cons]
      cases addSignal tables definition with
      | error error => rfl
      | ok next => exact inductionHypothesis next

/-- Validate a catalog document. -/
def new [F64 F] (spec : CatalogSpec F) : Except CatalogError (Catalog F) :=
  if Text.isBlank spec.model then .error .emptyModel
  else
    match addSignals ⟨[], ∅, ∅, []⟩ spec.signals with
    | .error error => .error error
    | .ok tables =>
        .ok {
          model := spec.model
          catalogVersion := spec.catalogVersion
          signals := tables.signals
          byIdIndex := tables.byId
          byNameIndex := tables.byName }

/-- An accepted document has a model, and the catalog holds the signals and the
tables read from it. -/
theorem new_eq_ok_iff [F64 F]
    (spec : CatalogSpec F)
    (catalog : Catalog F) :
    new spec = .ok catalog ↔
      Text.isBlank spec.model = false ∧
        ∃ tables, addSignals ⟨[], ∅, ∅, []⟩ spec.signals = .ok tables ∧
          catalog = {
            model := spec.model
            catalogVersion := spec.catalogVersion
            signals := tables.signals
            byIdIndex := tables.byId
            byNameIndex := tables.byName } := by
  unfold new
  split_ifs with blank
  · simp [blank]
  · cases addSignals ⟨[], ∅, ∅, []⟩ spec.signals with
    | error error => simp
    | ok tables => simp [blank, eq_comm]

/-- The signal with a wire id. -/
def byId (catalog : Catalog F) (id : UInt16) : Option (Signal F) :=
  (catalog.byIdIndex.lookup id).bind fun index => catalog.signals[index]?

/-- The signal with a name. -/
def byName (catalog : Catalog F) (name : String) : Option (Signal F) :=
  (catalog.byNameIndex.lookup name).bind fun index => catalog.signals[index]?

/-- Rebuild the catalog document. -/
def toSpec (catalog : Catalog F) : CatalogSpec F where
  model := catalog.model
  catalogVersion := catalog.catalogVersion
  signals := catalog.signals.map Signal.definition

end Catalog
end Protocol
end TelemetryEdge
