import TelemetryEdge.Protocol.Lookup
import TelemetryEdge.Protocol.PacketDecode

/-!
# Decoded values have the declared kind

A decoded sample names a signal of the catalog, and its value is one that the
signal declares: of the kind of the signal, finite if it is a number, and one of
the labels of the signal if it is an enum label.
-/

namespace TelemetryEdge
namespace Protocol

/-- Kind of a value. -/
def SignalValue.kind : SignalValue F → ValueKind
  | .bool _ => .bool
  | .num _ => .num
  | .enum _ => .enum

section Kinds

variable [F64 F]

/-- Whether a value is one that a signal declares. -/
def Signal.Declares (signal : Signal F) : SignalValue F → Prop
  | .bool _ => signal.kind = .bool
  | .num number => signal.kind = .num ∧ F64.isFinite number = true
  | .enum label => signal.kind = .enum ∧
      ∃ map, signal.definition.enumMap = some map ∧
        label ∈ map.entries.map Prod.snd

/-- A declared value has the kind of its signal. -/
theorem Signal.Declares.kind_eq
    {signal : Signal F}
    {value : SignalValue F}
    (declared : signal.Declares value) :
    value.kind = signal.kind := by
  cases value with
  | bool flag => exact declared.symm
  | num number => exact declared.1.symm
  | enum label => exact declared.1.symm

/-- Whether a catalog has a signal with a name that declares a value. -/
def Catalog.Declares
    (catalog : Catalog F)
    (name : String)
    (value : SignalValue F) : Prop :=
  ∃ signal, catalog.byName name = some signal ∧ signal.Declares value

/-- A label found for a raw value is one of the labels of the signal. -/
theorem mem_labels_of_enumLabel
    {definition : SignalDef F}
    {signal : Signal F}
    (accepted : Signal.new definition = .ok signal)
    (kinded : signal.kind = .enum)
    {raw : Int}
    {label : String}
    (found : signal.enumLabel raw = some label) :
    ∃ map, signal.definition.enumMap = some map ∧
      label ∈ map.entries.map Prod.snd := by
  unfold Signal.kind at kinded
  split_ifs at kinded with notBool mapped
  obtain ⟨map, mapped⟩ := Option.isSome_iff_exists.mp mapped
  obtain ⟨range, -, holds⟩ := Signal.holdsEntries_of_new accepted mapped
  obtain ⟨entry, member, rfl, -⟩ :=
    (holds.byLabel_iff label raw).mp (holds.byRaw_sound raw label found)
  exact ⟨map, mapped, List.mem_map_of_mem member⟩

/-- A number that is decoded is finite. -/
theorem decodeValue_num
    {signal : Signal F}
    (kinded : signal.kind = .num)
    {payload : List UInt8}
    {value : SignalValue F}
    (decoded : decodeValue signal payload = .ok value) :
    ∃ number, value = .num number ∧ F64.isFinite number = true := by
  unfold decodeValue at decoded
  simp only [kinded] at decoded
  split_ifs at decoded
  split at decoded
  · cases decoded
  · split_ifs at decoded with finite
    exact ⟨_, (Except.ok.inj decoded).symm, finite⟩

/-- A decoded value is one that its signal declares. -/
theorem declares_of_decodeValue
    {definition : SignalDef F}
    {signal : Signal F}
    (accepted : Signal.new definition = .ok signal)
    {payload : List UInt8}
    {value : SignalValue F}
    (decoded : decodeValue signal payload = .ok value) :
    signal.Declares value := by
  cases kinded : signal.kind with
  | num =>
      obtain ⟨number, rfl, finite⟩ := decodeValue_num kinded decoded
      exact ⟨kinded, finite⟩
  | bool =>
      have discrete : signal.kind ≠ .num := by simp [kinded]
      obtain ⟨-, raw, -, stands⟩ :=
        (decodeValue_eq_ok_iff discrete payload value).mp decoded
      unfold Signal.DecodesRaw at stands
      rw [kinded] at stands
      cases value with
      | bool flag => exact kinded
      | num number => exact stands.elim
      | enum label => exact stands.elim
  | enum =>
      have discrete : signal.kind ≠ .num := by simp [kinded]
      obtain ⟨-, raw, -, stands⟩ :=
        (decodeValue_eq_ok_iff discrete payload value).mp decoded
      unfold Signal.DecodesRaw at stands
      rw [kinded] at stands
      cases value with
      | bool flag => exact stands.elim
      | num number => exact stands.elim
      | enum label =>
          exact ⟨kinded, mem_labels_of_enumLabel accepted kinded stands⟩

/-- The samples of a packet carry declared values of signals of the catalog. -/
theorem AcceptedCatalog.declares_of_decodePacket
    (catalog : AcceptedCatalog F)
    {buf : List UInt8}
    {packet : DecodedPacket F}
    (decoded : decodePacket buf catalog.toCatalog = .ok packet)
    {sample : Sample F}
    (member : sample ∈ packet.samples) :
    catalog.Declares sample.name sample.value := by
  rw [(accountsForFrames_of_decodePacket decoded).samples_eq,
    List.mem_filterMap] at member
  obtain ⟨frame, -, sampled⟩ := member
  unfold frameSample frameOutcome at sampled
  cases found : catalog.byId frame.signalId with
  | none => simp [found] at sampled
  | some signal =>
      cases valued : decodeValue signal frame.payload with
      | error kind => simp [found, valued] at sampled
      | ok value =>
          simp only [found, valued, Option.some.injEq] at sampled
          subst sampled
          have inCatalog := ((catalog.byId_eq_some_iff ..).mp found).1
          exact ⟨signal, (catalog.byName_eq_some_iff ..).mpr ⟨inCatalog, rfl⟩,
            declares_of_decodeValue (catalog.new_definition inCatalog) valued⟩

end Kinds

end Protocol
end TelemetryEdge
