import TelemetryEdge.Foundation.Elementary
import TelemetryEdge.Protocol.Wire
import TelemetryEdge.Simulator.Rng

/-!
# The simulated vehicle

The state of the vehicle, which moves on by a fraction of a second at a time,
and its frames, for every reading of the arithmetic.
-/

namespace TelemetryEdge
namespace Simulator

open Protocol

/-- The gears in use. -/
inductive Gear
  | p
  | d
  deriving DecidableEq

/-- The label of a gear in a catalog. -/
def Gear.label : Gear → String
  | .p => "P"
  | .d => "D"

/-- What the vehicle does. -/
inductive Behaviour
  | drive
  | park
  deriving DecidableEq

/-- The physical state. -/
structure Vehicle (F : Type) where
  behaviour : Behaviour
  tS : F
  speedKmh : F
  socPct : F
  motorTempC : F
  cabinTempC : F
  gear : Gear
  doorOpen : Bool

namespace Vehicle

section Steps

variable [F64 F]

/-- A parked vehicle. -/
def new (behaviour : Behaviour) : Vehicle F where
  behaviour
  tS := F64.zero
  speedKmh := F64.zero
  socPct := F64.ofInt 80
  motorTempC := F64.ofInt 25
  cabinTempC := F64.ofInt 21
  gear := .p
  doorOpen := false

/-- A smooth ramp from zero to one. -/
def smoothstep (x : F) : F :=
  let x := F64.clamp x F64.zero (F64.ofInt 1)
  F64.mul (F64.mul x x) (F64.sub (F64.ofInt 3) (F64.mul (F64.ofInt 2) x))

/-- The position in the drive cycle of sixty seconds. -/
def phase [Elementary F] (vehicle : Vehicle F) : F :=
  Elementary.rem vehicle.tS (F64.ofInt 60)

/-- Ramp up from 5 s to 15 s, and down from 37 s to 47 s. -/
def envelope (phase : F) : F :=
  F64.min
    (smoothstep (F64.div (F64.sub phase (F64.ofInt 5)) (F64.ofInt 10)))
    (smoothstep (F64.div (F64.sub (F64.ofInt 47) phase) (F64.ofInt 10)))

/-- Gear and speed while driving. -/
def stepDrive [Elementary F] (vehicle : Vehicle F) (rng : Rng) :
    Vehicle F × Rng :=
  let phase := vehicle.phase
  let gear :=
    if F64.le (F64.ofInt 3) phase && F64.lt phase (F64.ofInt 52) then Gear.d
    else .p
  let envelope := envelope phase
  let target := F64.mul envelope
    (F64.add (F64.ofInt 110)
      (F64.mul (F64.ofInt 8)
        (Elementary.sin (F64.mul phase (F64.decimal 1 2)))))
  if F64.lt F64.zero envelope then
    let (noise, rng) := rng.noise (F64.decimal 3 10)
    ({ vehicle with
        gear, speedKmh := F64.max (F64.add target noise) F64.zero }, rng)
  else ({ vehicle with gear, speedKmh := F64.zero }, rng)

/-- Time passes, and the vehicle drives or stays parked. -/
def move [Elementary F] (vehicle : Vehicle F) (dtS : F) (rng : Rng) :
    Vehicle F × Rng :=
  let vehicle := { vehicle with tS := F64.add vehicle.tS dtS }
  match vehicle.behaviour with
  | .drive => vehicle.stepDrive rng
  | .park => ({ vehicle with gear := .p, speedKmh := F64.zero }, rng)

/-- Temperatures and charge follow. -/
def settle [Elementary F] (vehicle : Vehicle F) (dtS : F) (rng : Rng) :
    Vehicle F × Rng :=
  -- A first-order lag toward a target that depends on the speed.
  let targetTemp := F64.add (F64.ofInt 25)
    (F64.mul vehicle.speedKmh (F64.decimal 65 100))
  let motorTempC := F64.add vehicle.motorTempC
    (F64.mul (F64.sub targetTemp vehicle.motorTempC)
      (F64.min (F64.div dtS (F64.ofInt 8)) (F64.ofInt 1)))
  let socPct := F64.max
    (F64.sub vehicle.socPct
      (F64.mul dtS
        (F64.add (F64.decimal 2 10000)
          (F64.mul vehicle.speedKmh (F64.decimal 15 100000)))))
    (F64.ofInt 5)
  let (noise, rng) := rng.noise (F64.decimal 5 100)
  let cabinTempC := F64.add
    (F64.add (F64.ofInt 21)
      (F64.mul (F64.decimal 15 10)
        (Elementary.sin (F64.div vehicle.tS (F64.ofInt 40)))))
    noise
  ({ vehicle with motorTempC, socPct, cabinTempC }, rng)

/-- In gear P the door is toggled now and then; in gear D it is closed. -/
def useDoor (vehicle : Vehicle F) (dtS : F) (rng : Rng) : Vehicle F × Rng :=
  match vehicle.gear with
  | .p =>
      let togglesPerS : F :=
        if vehicle.behaviour = .park then F64.decimal 15 100
        else F64.decimal 1 10
      let (toggled, rng) := rng.chance (F64.mul togglesPerS dtS)
      ({ vehicle with doorOpen := vehicle.doorOpen ^^ toggled }, rng)
  | .d => ({ vehicle with doorOpen := false }, rng)

/-- Advance the simulation by `dtS` seconds. -/
def step [Elementary F] (vehicle : Vehicle F) (dtS : F) (rng : Rng) :
    Vehicle F × Rng :=
  let (moved, rng) := vehicle.move dtS rng
  let (settled, rng) := moved.settle dtS rng
  settled.useDoor dtS rng

/-- A step does not change what the vehicle does. -/
theorem behaviour_step [Elementary F]
    (vehicle : Vehicle F)
    (dtS : F)
    (rng : Rng) :
    (vehicle.step dtS rng).1.behaviour = vehicle.behaviour := by
  have moved : (vehicle.move dtS rng).1.behaviour = vehicle.behaviour := by
    unfold move stepDrive
    dsimp only
    split
    · split
      · rfl
      · rfl
    · rfl
  have settled (vehicle : Vehicle F) (rng : Rng) :
      (vehicle.settle dtS rng).1.behaviour = vehicle.behaviour := rfl
  have used (vehicle : Vehicle F) (rng : Rng) :
      (vehicle.useDoor dtS rng).1.behaviour = vehicle.behaviour := by
    unfold useDoor
    split
    · rfl
    · rfl
  rw [step]
  exact ((used _ _).trans (settled _ _)).trans moved

/-- The value of a signal, if it is simulated. -/
def value (vehicle : Vehicle F) (name : String) : Option (SignalValue F) :=
  if name = "vehicle_speed" then some (.num vehicle.speedKmh)
  else if name = "battery_soc" then some (.num vehicle.socPct)
  else if name = "motor_temp" then some (.num vehicle.motorTempC)
  else if name = "cabin_temp" then some (.num vehicle.cabinTempC)
  else if name = "gear" then some (.enum vehicle.gear.label)
  else if name = "door_open" then some (.bool vehicle.doorOpen)
  else none

/-- The simulated signals of a catalog, with their values. -/
def simulated (vehicle : Vehicle F) (catalog : Catalog F) :
    List (Signal F × SignalValue F) :=
  catalog.signals.filterMap fun signal =>
    (vehicle.value signal.name).map (signal, ·)

/-- The frames of the simulated signals of a catalog. -/
def frames
    (vehicle : Vehicle F)
    (catalog : Catalog F)
    (timestampUs : UInt64) : Except (EncodeError F) (List RawFrame) :=
  (vehicle.simulated catalog).mapM fun (signal, value) =>
    encodeFrame signal timestampUs value

end Steps

end Vehicle
end Simulator
end TelemetryEdge
