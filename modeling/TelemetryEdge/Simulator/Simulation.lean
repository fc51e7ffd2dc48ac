import TelemetryEdge.Foundation.Tally
import TelemetryEdge.Simulator.GarbageEffects

/-!
# The main loop of the simulator

Each turn of the loop moves the vehicle on, encodes its frames and sends a
packet.  The vehicle and the packets are drawn from one stream of random
numbers.
-/

namespace TelemetryEdge
namespace Simulator

open Protocol

/-- What is simulated. -/
inductive Scenario
  | drive
  | park
  | garbage
  deriving DecidableEq

/-- What the vehicle does in a scenario. -/
def Scenario.behaviour : Scenario → Behaviour
  | .park => .park
  | .drive | .garbage => .drive

/-- The debug name of a kind; a packet without one is valid. -/
def kindName : Option GarbageKind → String
  | none => "valid"
  | some .badMagic => "BadMagic"
  | some .badVersion => "BadVersion"
  | some .zeroFrames => "ZeroFrames"
  | some .truncated => "Truncated"
  | some .lengthMismatch => "LengthMismatch"
  | some .unknownSignal => "UnknownSignal"
  | some .oversize => "Oversize"
  | some .trailingBytes => "TrailingBytes"
  | some .randomBytes => "RandomBytes"

/-- How often each kind has been sent. -/
def garbageCounts (sent : List (Option GarbageKind × List UInt8)) :
    KeyedMap String Nat :=
  sent.foldl (fun counts entry => counts.tally (kindName entry.1)) ∅

/-- The state that the loop carries from turn to turn. -/
structure Simulation (F : Type) where
  vehicle : Vehicle F
  rng : Rng

namespace Simulation

section Turns

variable [F64 F]

/-- The packet of the frames of one turn, with its kind. -/
def packetOf
    (scenario : Scenario)
    (frames : List RawFrame)
    (catalog : Catalog F)
    (rng : Rng) :
    Option
      (Except (EncodeError F) (Option GarbageKind × List UInt8) × Rng) :=
  match scenario with
  | .garbage => packet frames catalog rng
  | .drive | .park => some ((encodePacket frames).map (none, ·), rng)

/-- Without malformed packets nothing is drawn for a packet. -/
theorem packetOf_of_ne_garbage
    {scenario : Scenario}
    (valid : scenario ≠ .garbage)
    (frames : List RawFrame)
    (catalog : Catalog F)
    (rng : Rng) :
    packetOf scenario frames catalog rng =
      some ((encodePacket frames).map (none, ·), rng) := by
  cases scenario with
  | garbage => exact absurd rfl valid
  | _ => rfl

/-- The state before the first turn. -/
def new (scenario : Scenario) (seed : UInt64) : Simulation F :=
  ⟨.new scenario.behaviour, .new seed⟩

/-- One turn, which may fail to encode the frames or the packet. -/
def turn [Elementary F]
    (scenario : Scenario)
    (catalog : Catalog F)
    (dtS : F)
    (simulation : Simulation F)
    (nowUs : UInt64) :
    Option
      (Except (EncodeError F) (Option GarbageKind × List UInt8) ×
        Simulation F) :=
  let (vehicle, rng) := simulation.vehicle.step dtS simulation.rng
  match vehicle.frames catalog nowUs with
  | .error error => some (.error error, ⟨vehicle, rng⟩)
  | .ok frames => do
      let (made, rng) ← packetOf scenario frames catalog rng
      some (made, ⟨vehicle, rng⟩)

/-- What is sent until a turn fails, for the readings of the clock at each
turn. -/
def run [Elementary F]
    (scenario : Scenario)
    (catalog : Catalog F)
    (dtS : F) :
    Simulation F → List UInt64 →
      Option (List (Option GarbageKind × List UInt8) × Simulation F)
  | simulation, [] => some ([], simulation)
  | simulation, nowUs :: later => do
      let (made, simulation) ← simulation.turn scenario catalog dtS nowUs
      match made with
      | .error _ => some ([], simulation)
      | .ok entry => do
          let (rest, simulation) ← simulation.run scenario catalog dtS later
          some (entry :: rest, simulation)

/-- The clock and the vehicle at each turn of a run, up to a turn that fails. -/
def turns [Elementary F]
    (scenario : Scenario)
    (catalog : Catalog F)
    (dtS : F) : Simulation F → List UInt64 → List (UInt64 × Vehicle F)
  | _, [] => []
  | simulation, nowUs :: later =>
      match simulation.turn scenario catalog dtS nowUs with
      | none => []
      | some (.error _, next) => [(nowUs, next.vehicle)]
      | some (.ok _, next) =>
          (nowUs, next.vehicle) :: next.turns scenario catalog dtS later

/-- What is sent in a turn comes from the frames of the vehicle in that turn. -/
def SentIn
    (catalog : Catalog F)
    (turn : UInt64 × Vehicle F)
    (entry : Option GarbageKind × List UInt8) : Prop :=
  ∃ frames, turn.2.frames catalog turn.1 = .ok frames ∧
    Sends catalog frames entry

/-- The clock and the vehicle at each turn, when the packets are not drawn. -/
def visited [Elementary F] (dtS : F) :
    Simulation F → List UInt64 → List (UInt64 × Vehicle F)
  | _, [] => []
  | simulation, nowUs :: later =>
      let (vehicle, rng) := simulation.vehicle.step dtS simulation.rng
      (nowUs, vehicle) :: visited dtS ⟨vehicle, rng⟩ later

/-- Without malformed packets the turns of a run are those of the vehicle alone,
up to a turn that fails. -/
theorem turns_prefix_visited [Elementary F]
    {scenario : Scenario}
    (valid : scenario ≠ .garbage)
    (catalog : Catalog F)
    (dtS : F)
    (simulation : Simulation F)
    (times : List UInt64) :
    simulation.turns scenario catalog dtS times <+:
      simulation.visited dtS times := by
  induction times generalizing simulation with
  | nil => exact List.prefix_refl _
  | cons nowUs later inductionHypothesis =>
      rw [turns, visited, turn]
      dsimp only
      generalize simulation.vehicle.step dtS simulation.rng = stepped
      cases stepped.1.frames catalog nowUs with
      | error error => exact List.prefix_append [_] _
      | ok frames =>
          simp only [packetOf_of_ne_garbage valid, Option.bind_eq_bind,
            Option.bind_some]
          cases encodePacket frames with
          | error error => exact List.prefix_append [_] _
          | ok bytes =>
              exact (List.prefix_cons_inj _).mpr (inductionHypothesis _)

/-- A turn does not panic, and what it sends comes from the frames of the
vehicle. -/
theorem exists_turn [Elementary F]
    (scenario : Scenario)
    (catalog : Catalog F)
    (dtS : F)
    (simulation : Simulation F)
    (nowUs : UInt64) :
    ∃ made next,
      simulation.turn scenario catalog dtS nowUs = some (made, next) ∧
        next.vehicle = (simulation.vehicle.step dtS simulation.rng).1 ∧
        ∀ entry, made = .ok entry →
          SentIn catalog (nowUs, next.vehicle) entry := by
  unfold turn
  dsimp only
  generalize simulation.vehicle.step dtS simulation.rng = stepped
  cases encoded : stepped.1.frames catalog nowUs with
  | error error =>
      exact ⟨_, _, rfl, rfl, fun entry impossible => by cases impossible⟩
  | ok frames =>
      cases scenario with
      | garbage =>
          obtain ⟨made, rng, built, sends⟩ :=
            exists_packet frames catalog stepped.2
          simp only [packetOf, built, Option.bind_eq_bind, Option.bind_some]
          exact ⟨_, _, rfl, rfl, fun entry done =>
            ⟨frames, encoded, sends entry done⟩⟩
      | _ =>
          refine ⟨_, _, rfl, rfl, fun entry done => ⟨frames, encoded, ?_⟩⟩
          cases packed : (encodePacket frames : Except (EncodeError F) _) with
          | error error =>
              rw [packed] at done
              cases done
          | ok bytes =>
              rw [packed] at done
              obtain rfl := Except.ok.inj done
              exact (encodePacket_eq_ok_iff frames bytes).mp packed

/-- No run panics.  What holds of the vehicle before and after every step holds
of the vehicle in every turn, and what is sent comes from it turn by turn. -/
theorem exists_run [Elementary F]
    (scenario : Scenario)
    (catalog : Catalog F)
    {dtS : F}
    {invariant : Vehicle F → Prop}
    (preserved : ∀ (vehicle : Vehicle F) rng, invariant vehicle →
      invariant (vehicle.step dtS rng).1)
    {simulation : Simulation F}
    (start : invariant simulation.vehicle)
    (times : List UInt64) :
    ∃ sent last,
      simulation.run scenario catalog dtS times = some (sent, last) ∧
        (∀ turn ∈ simulation.turns scenario catalog dtS times,
          invariant turn.2) ∧
        List.Forall₂ (SentIn catalog)
          ((simulation.turns scenario catalog dtS times).take sent.length)
          sent := by
  induction times generalizing simulation with
  | nil =>
      refine ⟨[], simulation, rfl, ?_, List.Forall₂.nil⟩
      intro turn none
      exact absurd none List.not_mem_nil
  | cons nowUs later inductionHypothesis =>
      obtain ⟨made, next, turned, stepped, sends⟩ :=
        simulation.exists_turn scenario catalog dtS nowUs
      have kept : invariant next.vehicle := stepped ▸ preserved _ _ start
      simp only [run, turns, turned, Option.bind_eq_bind, Option.bind_some]
      cases made with
      | error error =>
          exact ⟨[], next, rfl, List.forall_mem_singleton.mpr kept, .nil⟩
      | ok entry =>
          obtain ⟨rest, last, ran, others, own⟩ := inductionHypothesis kept
          simp only [ran, Option.bind_some]
          exact ⟨entry :: rest, last, rfl,
            List.forall_mem_cons.mpr ⟨kept, others⟩,
            .cons (sends entry rfl) own⟩

end Turns

end Simulation
end Simulator
end TelemetryEdge
