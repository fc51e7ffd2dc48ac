import TelemetryEdge.Foundation.Binary64
import TelemetryEdge.Foundation.Registration
import TelemetryEdge.Protocol.IntegerPayload

/-!
# Bool and enum values on the wire

The enum tables of an accepted signal are described entry by entry of its enum
map.  The description shows when the two tables are inverse to each other:
exactly when no two keys of the map are spellings of one integer, which
`Signal.new` does not check.
-/

namespace TelemetryEdge
namespace Protocol

namespace Signal

/-- The checks that an accepted entry has passed, and its effect. -/
theorem addEnumEntry_eq_ok_iff
    (signal : String)
    (ty : SignalType)
    (range : Int × Int)
    (tables next : EnumTables)
    (entry : String × String) :
    addEnumEntry signal ty range tables entry = .ok next ↔
      ∃ raw, Text.parseI128 entry.1 = some raw ∧
        (range.1 ≤ raw ∧ raw ≤ range.2) ∧ entry.2 ≠ "" ∧
        tables.byLabel.lookup entry.2 = none ∧
        next = ⟨tables.byRaw.insert raw entry.2,
          tables.byLabel.insert entry.2 raw⟩ := by
  unfold addEnumEntry
  cases Text.parseI128 entry.1 with
  | none => simp
  | some raw =>
      simp only [Option.some.injEq, exists_eq_left', Option.isSome_iff_ne_none]
      split_ifs with outside blank known
      · simp only [false_iff]
        rintro ⟨inside, -⟩
        omega
      · simp [blank]
      · simp [known]
      · have inside : range.1 ≤ raw ∧ raw ≤ range.2 := by omega
        simp only [Except.ok.injEq, inside, and_self, true_and, ne_eq, blank,
          not_false_eq_true, not_not.mp known, eq_comm]

namespace EnumTables

/-- What the tables hold after some entries of an enum map have been read. -/
structure HoldsEntries
    (tables : EnumTables)
    (range : Int × Int)
    (entries : List (String × String)) : Prop where
  /-- Every key is an integer in range. -/
  keyInRange : ∀ entry ∈ entries, ∃ raw,
    Text.parseI128 entry.1 = some raw ∧ range.1 ≤ raw ∧ raw ≤ range.2
  /-- No label occurs twice. -/
  labelsDistinct : (entries.map Prod.snd).Nodup
  /-- The table by label is the enum map with its keys parsed. -/
  byLabel_iff : ∀ label raw,
    tables.byLabel.lookup label = some raw ↔
      ∃ entry ∈ entries, entry.2 = label ∧ Text.parseI128 entry.1 = some raw
  /-- A label found by raw value has that raw value. -/
  byRaw_sound : ∀ raw label,
    tables.byRaw.lookup raw = some label →
      tables.byLabel.lookup label = some raw
  /-- Some label is found for the raw value of every label. -/
  byRaw_total : ∀ label raw,
    tables.byLabel.lookup label = some raw →
      ∃ found, tables.byRaw.lookup raw = some found

/-- Empty tables hold no entries. -/
theorem HoldsEntries.empty (range : Int × Int) :
    HoldsEntries ⟨∅, ∅⟩ range [] where
  keyInRange := by simp
  labelsDistinct := List.nodup_nil
  byLabel_iff := by simp
  byRaw_sound := by simp
  byRaw_total := by simp

/-- A label that is not in the tables is the label of no entry they hold. -/
theorem HoldsEntries.label_ne_of_fresh
    {tables : EnumTables}
    {range : Int × Int}
    {entries : List (String × String)}
    (holds : HoldsEntries tables range entries)
    {label : String}
    (fresh : tables.byLabel.lookup label = none)
    {earlier : String × String}
    (member : earlier ∈ entries) :
    earlier.2 ≠ label := by
  intro same
  obtain ⟨value, parsedEarlier, -⟩ := holds.keyInRange earlier member
  have stored := (holds.byLabel_iff label value).mpr
    ⟨earlier, member, same, parsedEarlier⟩
  rw [fresh] at stored
  cases stored

/-- The table by raw value stays sound and total when a fresh label joins both
tables. -/
theorem HoldsEntries.byRaw_insert
    {tables : EnumTables}
    {range : Int × Int}
    {entries : List (String × String)}
    (holds : HoldsEntries tables range entries)
    {label : String}
    (fresh : tables.byLabel.lookup label = none)
    (raw : Int) :
    (∀ value found, (tables.byRaw.insert raw label).lookup value = some found →
      (tables.byLabel.insert label raw).lookup found = some value) ∧
    ∀ other value, (tables.byLabel.insert label raw).lookup other = some value →
      ∃ found, (tables.byRaw.insert raw label).lookup value = some found := by
  simp only [KeyedMap.lookup_insert_eq_ite]
  constructor
  · intro value found foundAt
    split at foundAt
    · next same => rw [if_pos (Option.some.inj foundAt).symm, same]
    · have stored := holds.byRaw_sound value found foundAt
      have different : found ≠ label := by
        rintro rfl
        rw [fresh] at stored
        cases stored
      rw [if_neg different, stored]
  · intro other value stored
    by_cases same : value = raw
    · exact ⟨label, if_pos same⟩
    · simp only [if_neg same]
      split at stored
      · exact absurd (Option.some.inj stored).symm same
      · exact holds.byRaw_total other value stored

/-- An accepted entry joins the entries that the tables hold. -/
theorem HoldsEntries.addEnumEntry
    {signal : String}
    {ty : SignalType}
    {range : Int × Int}
    {tables next : EnumTables}
    {entries : List (String × String)}
    {entry : String × String}
    (holds : HoldsEntries tables range entries)
    (accepted : Signal.addEnumEntry signal ty range tables entry = .ok next) :
    HoldsEntries next range (entries ++ [entry]) := by
  obtain ⟨raw, parsed, inRange, -, fresh, rfl⟩ :=
    (addEnumEntry_eq_ok_iff ..).mp accepted
  obtain ⟨sound, total⟩ := holds.byRaw_insert fresh raw
  refine ⟨?_, ?_, ?_, sound, total⟩
  · simp only [List.forall_mem_append, List.forall_mem_singleton]
    exact ⟨holds.keyInRange, raw, parsed, inRange⟩
  · rw [List.map_append, List.map_singleton, List.nodup_append]
    refine ⟨holds.labelsDistinct, List.nodup_singleton _, ?_⟩
    intro label member other last
    obtain ⟨earlier, inEntries, rfl⟩ := List.mem_map.mp member
    rw [List.mem_singleton.mp last]
    exact holds.label_ne_of_fresh fresh inEntries
  · intro label value
    simp only [KeyedMap.lookup_insert_eq_ite, List.mem_append,
      List.mem_singleton, or_and_right, exists_or, exists_eq_left]
    rw [← holds.byLabel_iff label value, parsed]
    by_cases same : label = entry.2
    · subst same
      simp [fresh]
    · simp [same, Ne.symm same]

/-- Reading entries extends the entries that the tables hold. -/
theorem HoldsEntries.addEnumEntries
    {signal : String}
    {ty : SignalType}
    {range : Int × Int}
    {tables next : EnumTables}
    {entries more : List (String × String)}
    (holds : HoldsEntries tables range entries)
    (accepted : Signal.addEnumEntries signal ty range tables more = .ok next) :
    HoldsEntries next range (entries ++ more) := by
  rw [addEnumEntries_eq_foldlM] at accepted
  apply Registration.foldlM_reads
    (fun read tables => HoldsEntries tables range read) _ accepted entries holds
  intro read tables entry next holds step
  exact holds.addEnumEntry step

/-- A label has at most one entry. -/
theorem HoldsEntries.entry_unique
    {tables : EnumTables}
    {range : Int × Int}
    {entries : List (String × String)}
    (holds : HoldsEntries tables range entries)
    {first second : String × String}
    (firstMember : first ∈ entries)
    (secondMember : second ∈ entries)
    (sameLabel : first.2 = second.2) :
    first = second :=
  List.inj_on_of_nodup_map holds.labelsDistinct firstMember secondMember
    sameLabel

/-- The tables are inverse to each other when every label is found under its
raw value, and exactly when no two keys are spellings of one integer. -/
theorem HoldsEntries.distinct_iff
    {tables : EnumTables}
    {range : Int × Int}
    {entries : List (String × String)}
    (holds : HoldsEntries tables range entries) :
    (entries.map fun entry => Text.parseI128 entry.1).Nodup ↔
      ∀ label raw, tables.byLabel.lookup label = some raw →
        tables.byRaw.lookup raw = some label := by
  constructor
  · intro distinct label raw stored
    obtain ⟨found, foundAt⟩ := holds.byRaw_total label raw stored
    obtain ⟨entry, member, rfl, parsed⟩ :=
      (holds.byLabel_iff label raw).mp stored
    obtain ⟨other, otherMember, rfl, otherParsed⟩ :=
      (holds.byLabel_iff found raw).mp (holds.byRaw_sound raw found foundAt)
    have same : entry = other :=
      List.inj_on_of_nodup_map distinct member otherMember
        (parsed.trans otherParsed.symm)
    rw [foundAt, same]
  · intro inverse
    refine List.Nodup.map_on ?_ (List.Nodup.of_map _ holds.labelsDistinct)
    intro first firstMember second secondMember sameKey
    obtain ⟨raw, parsed, -⟩ := holds.keyInRange first firstMember
    have firstFound := inverse first.2 raw
      ((holds.byLabel_iff first.2 raw).mpr ⟨first, firstMember, rfl, parsed⟩)
    have secondFound := inverse second.2 raw
      ((holds.byLabel_iff second.2 raw).mpr
        ⟨second, secondMember, rfl, sameKey ▸ parsed⟩)
    rw [firstFound] at secondFound
    exact holds.entry_unique firstMember secondMember
      (Option.some.inj secondFound)

end EnumTables

section Accepted

variable [F64 F]

/-- An accepted signal keeps its definition and the tables of its enum map. -/
theorem enumTables_of_new
    {definition : SignalDef F}
    {signal : Signal F}
    (accepted : Signal.new definition = .ok signal) :
    enumTables signal.definition.name signal.definition.ty
      signal.definition.enumMap =
      .ok ⟨signal.enumByRaw, signal.enumByLabel⟩ := by
  obtain ⟨-, -, -, tables, built, rfl⟩ :=
    (Signal.new_eq_ok_iff ..).mp accepted
  exact built

/-- An accepted enum map is on an integer type, and its tables hold its
entries. -/
theorem holdsEntries_of_new
    {definition : SignalDef F}
    {signal : Signal F}
    (accepted : Signal.new definition = .ok signal)
    {map : BTreeMap}
    (mapped : signal.definition.enumMap = some map) :
    ∃ range, signal.ty.intRange = some range ∧
      EnumTables.HoldsEntries ⟨signal.enumByRaw, signal.enumByLabel⟩ range
        map.entries := by
  have built := enumTables_of_new accepted
  simp only [mapped, enumTables] at built
  split at built
  · cases built
  · next range ranged =>
      split_ifs at built
      refine ⟨range, ranged, ?_⟩
      have held := (EnumTables.HoldsEntries.empty range).addEnumEntries built
      rwa [List.nil_append] at held

end Accepted

end Signal

namespace Catalog

variable [F64 F]

/-- Every signal that is added has been validated. -/
theorem exists_new_of_mem_addSignals
    {tables result : Tables F}
    {definitions : List (SignalDef F)}
    (added : addSignals tables definitions = .ok result)
    {signal : Signal F}
    (member : signal ∈ result.signals) :
    signal ∈ tables.signals ∨
      ∃ definition ∈ definitions, Signal.new definition = .ok signal := by
  rw [addSignals_eq_foldlM] at added
  refine Registration.foldlM_reads
    (fun read state => ∀ signal ∈ state.signals, signal ∈ tables.signals ∨
      ∃ definition ∈ read, Signal.new definition = .ok signal)
    ?_ added [] (fun _ earlier => .inl earlier) signal member
  intro read state definition next holds step other otherMember
  obtain ⟨-, -, added, valid, rfl⟩ := (addSignal_eq_ok_iff ..).mp step
  cases List.mem_append.mp otherMember with
  | inl earlier =>
      cases holds other earlier with
      | inl old => exact .inl old
      | inr new =>
          obtain ⟨known, inRead, validKnown⟩ := new
          exact .inr ⟨known, List.mem_append_left _ inRead, validKnown⟩
  | inr last =>
      rw [List.mem_singleton.mp last]
      exact .inr ⟨definition, List.mem_append_right _ List.mem_cons_self, valid⟩

/-- The signals of an accepted catalog come from its document. -/
theorem exists_new_of_mem_signals
    {spec : CatalogSpec F}
    {catalog : Catalog F}
    (accepted : Catalog.new spec = .ok catalog)
    {signal : Signal F}
    (member : signal ∈ catalog.signals) :
    ∃ definition ∈ spec.signals, Signal.new definition = .ok signal := by
  obtain ⟨-, tables, added, rfl⟩ := (Catalog.new_eq_ok_iff ..).mp accepted
  cases exists_new_of_mem_addSignals added member with
  | inl absent => cases absent
  | inr present => exact present

end Catalog

section Codec

variable [F64 F]

/-- Whether a raw integer stands for a bool or enum value of a signal. -/
def Signal.DecodesRaw
    (signal : Signal F)
    (raw : Int)
    (value : SignalValue F) : Prop :=
  match signal.kind, value with
  | .bool, .bool flag => raw = if flag then 1 else 0
  | .enum, .enum label => signal.enumLabel raw = some label
  | _, _ => False

/-- A bool or enum value is decoded from the raw integer it stands for. -/
theorem decodeValue_eq_ok_iff
    {signal : Signal F}
    (discrete : signal.kind ≠ .num)
    (payload : List UInt8)
    (value : SignalValue F) :
    decodeValue signal payload = .ok value ↔
      payload.length = signal.ty.size ∧ ∃ raw,
        readRaw signal.ty signal.endian payload = some (.int raw : Raw F) ∧
          signal.DecodesRaw raw value := by
  unfold decodeValue Signal.DecodesRaw
  by_cases sized : payload.length = signal.ty.size
  · cases read : readRaw (F := F) signal.ty signal.endian payload with
    | none => simp [sized, read]
    | some raw =>
        cases raw with
        | float number =>
            cases kinded : signal.kind with
            | num => exact absurd kinded discrete
            | bool => simp [sized, read]
            | enum => simp [sized, read]
        | int raw =>
            simp only [sized, read, ne_eq, not_true_eq_false, if_false,
              true_and, Option.some.injEq, Raw.int.injEq, exists_eq_left']
            cases kinded : signal.kind with
            | num => exact absurd kinded discrete
            | bool =>
                by_cases isZero : raw = 0
                · subst isZero
                  cases value with
                  | bool flag => cases flag <;> simp
                  | num _ => simp
                  | enum _ => simp
                · by_cases isOne : raw = 1
                  · subst isOne
                    cases value with
                    | bool flag => cases flag <;> simp
                    | num _ => simp
                    | enum _ => simp
                  · cases value with
                    | bool flag => cases flag <;> simp [isZero, isOne]
                    | num _ => simp [isZero, isOne]
                    | enum _ => simp [isZero, isOne]
            | enum =>
                cases found : signal.enumLabel raw with
                | none => cases value <;> simp [found]
                | some label => cases value <;> simp [found]
  · simp [sized]

/-- A value is encoded through its raw value. -/
theorem encodeValue_eq_ok_iff
    (signal : Signal F)
    (value : SignalValue F)
    (payload : List UInt8) :
    encodeValue signal value = .ok payload ↔
      ∃ raw, rawOfValue signal value = .ok raw ∧
        writeRaw signal.ty signal.endian raw = some payload := by
  unfold encodeValue
  cases rawOfValue signal value with
  | error error => simp
  | ok raw =>
      simp only [Except.ok.injEq, exists_eq_left']
      split
      · next written writes => simp [writes]
      · next fails => simp [fails]

/-- The bool and enum values of a signal. -/
def Signal.HasValue
    (signal : Signal F)
    (value : SignalValue F) : Prop :=
  match signal.kind, value with
  | .bool, .bool _ => True
  | .enum, .enum label =>
      ∃ map, signal.definition.enumMap = some map ∧
        ∃ entry ∈ map.entries, entry.2 = label
  | _, _ => False

/-- The bool or enum values of a signal survive the wire in both directions. -/
structure Signal.SurvivesWire (signal : Signal F) : Prop where
  /-- The values that can be encoded are those of the signal. -/
  encodable : ∀ value,
    (∃ payload, encodeValue signal value = .ok payload) ↔
      signal.HasValue value
  /-- An encoded value decodes to itself. -/
  decodes_encoded : ∀ value payload,
    encodeValue signal value = .ok payload →
      decodeValue signal payload = .ok value
  /-- A decoded payload is encoded as itself. -/
  encodes_decoded : ∀ payload value,
    decodeValue signal payload = .ok value →
      encodeValue signal value = .ok payload
  /-- The tables from codes to labels and from labels to codes are inverse to
  each other. -/
  tablesInverse : ∀ raw label,
    signal.enumLabel raw = some label ↔ signal.enumRaw label = some raw

/-- No two keys of the enum map are spellings of one integer. -/
def Signal.KeysDistinct (signal : Signal F) : Prop :=
  ∀ map, signal.definition.enumMap = some map →
    (map.entries.map fun entry => Text.parseI128 entry.1).Nodup

/-- A bool or enum value and a raw integer that stand for each other survive
the wire when the integer fits the wire type. -/
theorem decodeValue_of_encodeValue
    {signal : Signal F}
    (discrete : signal.kind ≠ .num)
    {layout : Nat × Bool}
    (integer : signal.ty.intLayout = some layout)
    {value : SignalValue F}
    {raw : Int}
    (encodes : rawOfValue signal value = .ok (.int raw))
    {payload : List UInt8}
    (encoded : encodeValue signal value = .ok payload)
    (result : SignalValue F) :
    decodeValue signal payload = .ok result ↔
      signal.DecodesRaw raw result := by
  obtain ⟨found, encodesFound, written⟩ :=
    (encodeValue_eq_ok_iff signal value payload).mp encoded
  obtain rfl := Except.ok.inj (encodes.symm.trans encodesFound)
  obtain ⟨sized, read⟩ := readRaw_of_writeRaw integer written
  rw [decodeValue_eq_ok_iff discrete]
  simp only [sized, read, Option.some.injEq, Raw.int.injEq, exists_eq_left',
    true_and]

/-- A decoded payload is the encoding of every value that stands for the same
raw integer. -/
theorem encodeValue_of_decodeValue
    {signal : Signal F}
    (discrete : signal.kind ≠ .num)
    {layout : Nat × Bool}
    (integer : signal.ty.intLayout = some layout)
    (encodes : ∀ raw value, signal.DecodesRaw raw value →
      rawOfValue signal value = .ok (.int raw))
    {payload : List UInt8}
    {value : SignalValue F}
    (decoded : decodeValue signal payload = .ok value) :
    encodeValue signal value = .ok payload := by
  obtain ⟨-, raw, read, stands⟩ :=
    (decodeValue_eq_ok_iff discrete payload value).mp decoded
  exact (encodeValue_eq_ok_iff signal value payload).mpr
    ⟨.int raw, encodes raw value stands, writeRaw_of_readRaw integer read⟩

section Bool

variable
  {signal : Signal F}
  (kinded : signal.kind = .bool)

include kinded

omit [F64 F] in
/-- Signals with bool values are of the bool type. -/
theorem ty_of_kind_bool : signal.ty = .bool := by
  unfold Signal.kind at kinded
  split_ifs at kinded with typed
  exact typed

/-- The raw value of a flag is one or zero. -/
theorem rawOfValue_bool (flag : Bool) :
    rawOfValue signal (.bool flag) = .ok (.int (if flag then 1 else 0)) := by
  simp only [rawOfValue, kinded]

/-- Every flag has a payload. -/
theorem exists_encodeValue_bool (flag : Bool) :
    ∃ payload, encodeValue signal (.bool flag) = .ok payload := by
  refine ⟨toBytes signal.endian 1
    (Bytes.ofSigned 1 (if flag then 1 else 0)),
    (encodeValue_eq_ok_iff ..).mpr ⟨_, rawOfValue_bool kinded flag, ?_⟩⟩
  rw [ty_of_kind_bool kinded]
  refine (writeInt_eq_some_iff (F := F) ..).mpr ⟨?_, rfl⟩
  cases flag <;> decide

/-- Bool signals always survive the wire. -/
theorem survivesWire_of_kind_bool
    (unmapped : signal.enumByRaw = ∅ ∧ signal.enumByLabel = ∅) :
    signal.SurvivesWire := by
  have discrete : signal.kind ≠ .num := by
    rw [kinded]
    decide
  have integer : signal.ty.intLayout = some (1, false) := by
    rw [ty_of_kind_bool kinded]
    rfl
  refine ⟨?_, ?_, ?_, ?_⟩
  · intro value
    cases value with
    | bool flag =>
        simp [Signal.HasValue, kinded, exists_encodeValue_bool kinded flag]
    | num _ => simp [Signal.HasValue, kinded, encodeValue, rawOfValue]
    | enum _ => simp [Signal.HasValue, kinded, encodeValue, rawOfValue]
  · intro value payload encoded
    cases value with
    | bool flag =>
        rw [decodeValue_of_encodeValue discrete integer
          (rawOfValue_bool kinded flag) encoded]
        simp only [Signal.DecodesRaw, kinded]
    | num _ => simp [kinded, encodeValue, rawOfValue] at encoded
    | enum _ => simp [kinded, encodeValue, rawOfValue] at encoded
  · intro payload value
    refine encodeValue_of_decodeValue discrete integer ?_
    intro raw value stands
    cases value with
    | bool flag =>
        simp only [Signal.DecodesRaw, kinded] at stands
        rw [rawOfValue_bool kinded flag, stands]
    | num _ => simp [Signal.DecodesRaw, kinded] at stands
    | enum _ => simp [Signal.DecodesRaw, kinded] at stands
  · intro raw label
    simp [Signal.enumLabel, Signal.enumRaw, unmapped]

end Bool

section Enum

variable
  {signal : Signal F}
  {map : BTreeMap}
  {range : Int × Int}

/-- The raw value of an enum label. -/
theorem rawOfValue_enum
    (kinded : signal.kind = .enum)
    (label : String)
    (raw : Raw F) :
    rawOfValue signal (.enum label) = .ok raw ↔
      ∃ value, signal.enumRaw label = some value ∧ raw = .int value := by
  simp only [rawOfValue, kinded]
  cases signal.enumRaw label with
  | none => simp
  | some value => simp [eq_comm]

/-- Every label of an accepted enum map can be encoded, and nothing else. -/
theorem encodable_of_holdsEntries
    (kinded : signal.kind = .enum)
    (mapped : signal.definition.enumMap = some map)
    (ranged : signal.ty.intRange = some range)
    (holds : Signal.EnumTables.HoldsEntries
      ⟨signal.enumByRaw, signal.enumByLabel⟩ range map.entries)
    (value : SignalValue F) :
    (∃ payload, encodeValue signal value = .ok payload) ↔
      signal.HasValue value := by
  cases value with
  | bool _ => simp [Signal.HasValue, kinded, encodeValue, rawOfValue]
  | num _ => simp [Signal.HasValue, kinded, encodeValue, rawOfValue]
  | enum label =>
      simp only [Signal.HasValue, kinded, mapped, Option.some.injEq,
        exists_eq_left', encodeValue_eq_ok_iff, rawOfValue_enum kinded]
      constructor
      · rintro ⟨payload, raw, ⟨value, found, -⟩, -⟩
        obtain ⟨entry, member, labelled, -⟩ :=
          (holds.byLabel_iff label value).mp found
        exact ⟨entry, member, labelled⟩
      · rintro ⟨entry, member, labelled⟩
        obtain ⟨value, parsed, inRange⟩ := holds.keyInRange entry member
        obtain ⟨payload, written⟩ :=
          (writeRaw_isSome_of_intRange (F := F) ranged signal.endian
            value).mpr inRange
        exact ⟨payload, .int value,
          ⟨value, (holds.byLabel_iff label value).mpr
            ⟨entry, member, labelled, parsed⟩, rfl⟩, written⟩

/-- When every label survives the wire, the table by raw value finds it. -/
theorem enumLabel_of_decodes_encoded
    (kinded : signal.kind = .enum)
    (ranged : signal.ty.intRange = some range)
    (holds : Signal.EnumTables.HoldsEntries
      ⟨signal.enumByRaw, signal.enumByLabel⟩ range map.entries)
    (survives : ∀ value payload,
      encodeValue signal value = .ok payload →
        decodeValue signal payload = .ok value)
    (label : String)
    (raw : Int)
    (found : signal.enumRaw label = some raw) :
    signal.enumLabel raw = some label := by
  have discrete : signal.kind ≠ .num := by
    rw [kinded]
    decide
  obtain ⟨layout, integer⟩ := SignalType.intLayout_of_intRange ranged
  obtain ⟨entry, member, -, parsed⟩ := (holds.byLabel_iff label raw).mp found
  obtain ⟨value, parsedValue, inRange⟩ := holds.keyInRange entry member
  obtain rfl : raw = value := Option.some.inj (parsed.symm.trans parsedValue)
  have encodes := (rawOfValue_enum kinded label (.int raw : Raw F)).mpr
    ⟨raw, found, rfl⟩
  obtain ⟨payload, written⟩ :=
    (writeRaw_isSome_of_intRange (F := F) ranged signal.endian raw).mpr inRange
  have encoded : encodeValue signal (.enum label) = .ok payload :=
    (encodeValue_eq_ok_iff ..).mpr ⟨.int raw, encodes, written⟩
  have stands :=
    (decodeValue_of_encodeValue discrete integer encodes encoded _).mp
      (survives _ _ encoded)
  simpa only [Signal.DecodesRaw, kinded] using stands

/-- An accepted enum signal survives the wire when its keys are distinct. -/
theorem survivesWire_of_kind_enum
    (kinded : signal.kind = .enum)
    (mapped : signal.definition.enumMap = some map)
    (ranged : signal.ty.intRange = some range)
    (holds : Signal.EnumTables.HoldsEntries
      ⟨signal.enumByRaw, signal.enumByLabel⟩ range map.entries)
    (distinct :
      (map.entries.map fun entry => Text.parseI128 entry.1).Nodup) :
    signal.SurvivesWire := by
  have discrete : signal.kind ≠ .num := by
    rw [kinded]
    decide
  obtain ⟨layout, integer⟩ := SignalType.intLayout_of_intRange ranged
  have inverse : ∀ label raw, signal.enumRaw label = some raw →
      signal.enumLabel raw = some label := holds.distinct_iff.mp distinct
  refine ⟨encodable_of_holdsEntries kinded mapped ranged holds, ?_, ?_, ?_⟩
  · intro value payload encoded
    cases value with
    | bool _ => simp [kinded, encodeValue, rawOfValue] at encoded
    | num _ => simp [kinded, encodeValue, rawOfValue] at encoded
    | enum label =>
        obtain ⟨raw, encodes, -⟩ := (encodeValue_eq_ok_iff ..).mp encoded
        obtain ⟨code, found, rfl⟩ := (rawOfValue_enum kinded label raw).mp encodes
        rw [decodeValue_of_encodeValue discrete integer encodes encoded]
        simpa only [Signal.DecodesRaw, kinded] using inverse label code found
  · intro payload value
    refine encodeValue_of_decodeValue discrete integer ?_
    intro raw value stands
    cases value with
    | bool _ => simp [Signal.DecodesRaw, kinded] at stands
    | num _ => simp [Signal.DecodesRaw, kinded] at stands
    | enum label =>
        simp only [Signal.DecodesRaw, kinded] at stands
        exact (rawOfValue_enum kinded label _).mpr
          ⟨raw, holds.byRaw_sound raw label stands, rfl⟩
  · intro raw label
    exact ⟨holds.byRaw_sound raw label, inverse label raw⟩

end Enum

/-! ## Accepted catalogs -/

/-- A bool or enum signal of an accepted catalog survives the wire exactly when
no two keys of its enum map are spellings of one integer. -/
theorem survivesWire_iff_keysDistinct
    {spec : CatalogSpec F}
    {catalog : Catalog F}
    (accepted : Catalog.new spec = .ok catalog)
    {signal : Signal F}
    (member : signal ∈ catalog.signals)
    (discrete : signal.kind ≠ .num) :
    signal.SurvivesWire ↔ signal.KeysDistinct := by
  obtain ⟨definition, -, valid⟩ :=
    Catalog.exists_new_of_mem_signals accepted member
  cases kinded : signal.kind with
  | num => exact absurd kinded discrete
  | bool =>
      have typed : signal.ty.intRange = none := by
        unfold Signal.kind at kinded
        split_ifs at kinded with typed
        rw [Signal.ty, typed]
        rfl
      have unmapped : signal.definition.enumMap = none := by
        cases mapped : signal.definition.enumMap with
        | none => rfl
        | some map =>
            obtain ⟨range, ranged, -⟩ :=
              Signal.holdsEntries_of_new valid mapped
            rw [typed] at ranged
            cases ranged
      have built := Signal.enumTables_of_new valid
      rw [unmapped, Signal.enumTables, Except.ok.injEq,
        Signal.EnumTables.mk.injEq] at built
      refine iff_of_true
        (survivesWire_of_kind_bool kinded ⟨built.1.symm, built.2.symm⟩) ?_
      intro map mapped
      rw [unmapped] at mapped
      cases mapped
  | enum =>
      obtain ⟨map, mapped⟩ : ∃ map, signal.definition.enumMap = some map := by
        unfold Signal.kind at kinded
        split_ifs at kinded with _ mapped
        exact Option.isSome_iff_exists.mp mapped
      obtain ⟨range, ranged, holds⟩ := Signal.holdsEntries_of_new valid mapped
      have distinctIff : signal.KeysDistinct ↔
          (map.entries.map fun entry => Text.parseI128 entry.1).Nodup := by
        simp only [Signal.KeysDistinct, mapped, Option.some.injEq, forall_eq']
      rw [distinctIff]
      constructor
      · intro survives
        exact holds.distinct_iff.mpr
          (enumLabel_of_decodes_encoded kinded ranged holds
            survives.decodes_encoded)
      · exact survivesWire_of_kind_enum kinded mapped ranged holds

end Codec

/-- A one-byte enum signal. -/
def gear (map : BTreeMap) : SignalDef Binary64 where
  id := 300
  name := "gear"
  ty := .u8
  endian := none
  scale := ⟨0x3FF0000000000000⟩
  offset := ⟨0⟩
  unit := none
  enumMap := some map

/-- The validated signal with given tables. -/
def gearSignal
    (map : BTreeMap)
    (tables : Signal.EnumTables) : Signal Binary64 where
  definition := gear map
  enumByRaw := tables.byRaw
  enumByLabel := tables.byLabel

/-- The catalog that holds only the signal. -/
def gearCatalog
    (map : BTreeMap)
    (tables : Signal.EnumTables) : Catalog Binary64 where
  model := "R1S"
  catalogVersion := 1
  signals := [gearSignal map tables]
  byIdIndex := (∅ : KeyedMap UInt16 Nat).insert 300 0
  byNameIndex := (∅ : KeyedMap String Nat).insert "gear" 0

/-- Keys for the codes one and two. -/
def plainKeys : BTreeMap :=
  ⟨[("1", "P"), ("2", "D")], by decide⟩

/-- Tables of the codes one and two. -/
def plainTables : Signal.EnumTables where
  byRaw := ((∅ : KeyedMap Int String).insert 1 "P").insert 2 "D"
  byLabel := ((∅ : KeyedMap String Int).insert "P" 1).insert "D" 2

/-- Distinct codes survive the wire. -/
theorem gear_survivesWire :
    (gearSignal plainKeys plainTables).SurvivesWire := by
  have accepted : Catalog.new ⟨"R1S", 1, [gear plainKeys]⟩ =
      .ok (gearCatalog plainKeys plainTables) := by rfl
  refine (survivesWire_iff_keysDistinct accepted List.mem_cons_self
    (by decide)).mpr ?_
  intro map mapped
  obtain rfl := Option.some.inj mapped
  decide

/-- Two keys that are spellings of the code one. -/
def respelledKeys : BTreeMap :=
  ⟨[("01", "P"), ("1", "D")], by decide⟩

/-- Tables of two labels with the code one. -/
def respelledTables : Signal.EnumTables where
  byRaw := ((∅ : KeyedMap Int String).insert 1 "P").insert 1 "D"
  byLabel := ((∅ : KeyedMap String Int).insert "P" 1).insert "D" 1

/-- An accepted catalog in which one label comes back as another. -/
theorem respelledGear_not_survivesWire :
    Catalog.new ⟨"R1S", 1, [gear respelledKeys]⟩ =
        .ok (gearCatalog respelledKeys respelledTables) ∧
      gearSignal respelledKeys respelledTables ∈
        (gearCatalog respelledKeys respelledTables).signals ∧
      encodeValue (gearSignal respelledKeys respelledTables) (.enum "P") =
        .ok [1] ∧
      decodeValue (gearSignal respelledKeys respelledTables) [1] =
        .ok (.enum "D") ∧
      ¬(gearSignal respelledKeys respelledTables).SurvivesWire := by
  have encoded : encodeValue (gearSignal respelledKeys respelledTables)
      (.enum "P") = .ok [1] := by rfl
  have decoded : decodeValue (gearSignal respelledKeys respelledTables) [1] =
      .ok (.enum "D") := by rfl
  refine ⟨rfl, List.mem_cons_self, encoded, decoded, ?_⟩
  intro survives
  have kept := survives.decodes_encoded _ _ encoded
  rw [decoded] at kept
  revert kept
  simp

end Protocol
end TelemetryEdge
