import TelemetryEdge.Foundation.Registration
import TelemetryEdge.Protocol.PacketDecode
import TelemetryEdge.Protocol.ValidCatalog
import TelemetryEdge.Simulator.Vehicle

/-!
# The frames of a vehicle

For every accepted catalog the frames of a vehicle are frames of signals of the
catalog, with payloads of the right size, and there are at most six of them.
-/

namespace TelemetryEdge
namespace Simulator

open Protocol

section Frames

variable [F64 F]

/-- The signals that are simulated. -/
def knownSignals : List String :=
  ["vehicle_speed", "battery_soc", "motor_temp", "gear", "door_open",
    "cabin_temp"]

omit [F64 F] in
/-- The known signals are those that have a value. -/
theorem Vehicle.value_isSome_iff
    (vehicle : Vehicle F)
    (name : String) :
    (vehicle.value name).isSome = true ↔ name ∈ knownSignals := by
  unfold value knownSignals
  split_ifs <;> simp [*]

/-- The names in an accepted catalog are distinct. -/
theorem nodup_names (catalog : AcceptedCatalog F) :
    (catalog.signals.map Signal.name).Nodup := by
  obtain ⟨spec, accepted⟩ := catalog.accepted
  have names := ((Catalog.new_isOk_iff spec).mp ⟨_, accepted⟩).namesDistinct
  rwa [← catalog.definitions_eq accepted, AcceptedCatalog.definitions,
    List.map_map] at names

omit [F64 F] in
/-- The simulated signals are signals of the catalog. -/
theorem Vehicle.mem_simulated_iff
    (vehicle : Vehicle F)
    (catalog : Catalog F)
    (signal : Signal F)
    (value : SignalValue F) :
    (signal, value) ∈ vehicle.simulated catalog ↔
      signal ∈ catalog.signals ∧ vehicle.value signal.name = some value := by
  simp only [simulated, List.mem_filterMap, Option.map_eq_some_iff,
    Prod.mk.injEq]
  constructor
  · rintro ⟨found, member, given, has, rfl, rfl⟩
    exact ⟨member, has⟩
  · rintro ⟨member, has⟩
    exact ⟨signal, member, value, has, rfl, rfl⟩

omit [F64 F] in
/-- The names of the simulated signals are names of the catalog, in its
order. -/
theorem Vehicle.sublist_names_simulated
    (vehicle : Vehicle F)
    (catalog : Catalog F) :
    ((vehicle.simulated catalog).map (·.1.name)).Sublist
      (catalog.signals.map Signal.name) := by
  unfold simulated
  induction catalog.signals with
  | nil => exact .slnil
  | cons signal signals inductionHypothesis =>
      cases has : vehicle.value signal.name with
      | none =>
          rw [List.filterMap_cons_none (by rw [has]; rfl)]
          exact inductionHypothesis.cons _
      | some value =>
          rw [List.filterMap_cons_some (b := (signal, value)) (by rw [has]; rfl)]
          exact inductionHypothesis.cons_cons _

/-- At most six signals are simulated. -/
theorem Vehicle.length_simulated_le
    (vehicle : Vehicle F)
    (catalog : AcceptedCatalog F) :
    (vehicle.simulated catalog.toCatalog).length ≤ 6 := by
  have distinct := (nodup_names catalog).sublist
    (vehicle.sublist_names_simulated catalog.toCatalog)
  have known : (vehicle.simulated catalog.toCatalog).map (·.1.name) ⊆
      knownSignals := by
    intro name member
    obtain ⟨⟨signal, value⟩, simulated, rfl⟩ := List.mem_map.mp member
    have has := ((vehicle.mem_simulated_iff ..).mp simulated).2
    rw [← vehicle.value_isSome_iff, has]
    rfl
  have bounded := (distinct.subperm known).length_le
  rwa [List.length_map] at bounded

/-- What is written has the size of the type. -/
theorem length_of_writeRaw
    {ty : SignalType}
    {endian : Endian}
    {raw : Raw F}
    {payload : List UInt8}
    (written : writeRaw ty endian raw = some payload) :
    payload.length = ty.size := by
  have integer : ∀ {width signed},
      writeInt width signed endian raw = some payload →
        payload.length = width := by
    intro width signed written
    cases raw with
    | float value => cases written
    | int value =>
        obtain ⟨-, rfl⟩ := (writeInt_eq_some_iff ..).mp written
        exact length_toBytes ..
  cases ty with
  | f32 =>
      cases raw with
      | int value => cases written
      | float value =>
          simp only [writeRaw] at written
          split at written
          · cases written
          · obtain rfl := Option.some.inj written
            exact length_toBytes ..
  | f64 =>
      cases raw with
      | int value => cases written
      | float value =>
          obtain rfl := Option.some.inj written
          exact length_toBytes ..
  | _ => exact integer written

/-- An encoded frame carries the id of the signal and a payload of its size. -/
theorem of_encodeFrame
    {signal : Signal F}
    {timestampUs : UInt64}
    {value : SignalValue F}
    {frame : RawFrame}
    (encoded : encodeFrame signal timestampUs value = .ok frame) :
    frame.signalId = signal.id ∧ frame.timestampUs = timestampUs ∧
      encodeValue signal value = .ok frame.payload ∧
        frame.payload.length = signal.ty.size := by
  unfold encodeFrame at encoded
  cases written : encodeValue signal value with
  | error error =>
      rw [written] at encoded
      cases encoded
  | ok payload =>
      rw [written] at encoded
      obtain rfl := Except.ok.inj encoded
      obtain ⟨raw, -, wrote⟩ := (encodeValue_eq_ok_iff ..).mp written
      exact ⟨rfl, rfl, rfl, length_of_writeRaw wrote⟩

/-- Frames of signals of a catalog, with payloads of the size of the types. -/
def Sized (catalog : Catalog F) (frames : List RawFrame) : Prop :=
  ∀ frame ∈ frames, ∃ signal, catalog.byId frame.signalId = some signal ∧
    frame.payload.length = signal.ty.size

omit [F64 F] in
/-- Frames with payloads of the size of a type are short. -/
theorem packetLen_le
    {catalog : Catalog F}
    {frames : List RawFrame}
    (sized : Sized catalog frames) :
    packetLen frames ≤ packetHeaderLen + 19 * frames.length := by
  unfold packetLen
  induction frames with
  | nil => exact Nat.le_refl _
  | cons frame frames inductionHypothesis =>
      obtain ⟨first, later⟩ := List.forall_mem_cons.mp sized
      obtain ⟨signal, -, length⟩ := first
      have bounded : signal.ty.size ≤ 8 := by
        cases signal.ty <;> decide
      have others := inductionHypothesis later
      rw [List.map_cons, List.sum_cons, List.length_cons, frameHeaderLen]
      rw [frameHeaderLen] at others
      omega

/-- The frames of a vehicle belong to its signals, one by one. -/
theorem Vehicle.frames_eq_ok_iff
    (vehicle : Vehicle F)
    (catalog : Catalog F)
    (timestampUs : UInt64)
    (frames : List RawFrame) :
    vehicle.frames catalog timestampUs = .ok frames ↔
      List.Forall₂
        (fun entry frame =>
          encodeFrame entry.1 timestampUs entry.2 = .ok frame)
        (vehicle.simulated catalog) frames :=
  Registration.mapM_eq_ok_iff

/-- The frames of a vehicle are at most six, and fit the catalog. -/
theorem Vehicle.sized_of_frames
    {vehicle : Vehicle F}
    {catalog : AcceptedCatalog F}
    {timestampUs : UInt64}
    {frames : List RawFrame}
    (encoded : vehicle.frames catalog.toCatalog timestampUs = .ok frames) :
    Sized catalog.toCatalog frames ∧ frames.length ≤ 6 := by
  have pairs := (vehicle.frames_eq_ok_iff ..).mp encoded
  refine ⟨?_, pairs.length_eq ▸ vehicle.length_simulated_le catalog⟩
  intro frame member
  obtain ⟨⟨signal, value⟩, simulated, own⟩ :=
    Registration.exists_of_mem_right pairs member
  obtain ⟨sameId, -, -, size⟩ := of_encodeFrame own
  have inCatalog := ((vehicle.mem_simulated_iff ..).mp simulated).1
  exact ⟨signal, (catalog.byId_eq_some_iff ..).mpr ⟨inCatalog, sameId.symm⟩, size⟩

end Frames

end Simulator
end TelemetryEdge
