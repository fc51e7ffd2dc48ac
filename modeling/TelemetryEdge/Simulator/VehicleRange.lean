import Mathlib.Tactic.NormNum
import Mathlib.Tactic.Linarith
import TelemetryEdge.Simulator.Vehicle

/-!
# The range of the vehicle

In exact arithmetic, whatever the sine and the random numbers are, a vehicle
that moves forward in time stays in a range: it neither moves in gear P nor
drives with an open door, and its speed, its charge and its temperatures are
bounded.
-/

namespace TelemetryEdge
namespace Simulator

/-- A number drawn lies between zero and one. -/
theorem Rng.f64_exact_mem (rng : Rng) :
    0 ≤ (rng.f64 : ℚ × Rng).1 ∧ (rng.f64 : ℚ × Rng).1 < 1 := by
  have denominator : ((1 : UInt64) <<< 53).toNat = 2 ^ 53 := by decide
  have drawn : (rng.f64 : ℚ × Rng).1 = (rng.leadingBits : ℚ) / 2 ^ 53 := by
    have same : (rng.f64 : ℚ × Rng).1 =
        ((rng.leadingBits : Int) : ℚ) /
          ((((1 : UInt64) <<< 53).toNat : Int) : ℚ) := rfl
    rw [same, denominator]
    norm_num
  have less : (rng.leadingBits : ℚ) < 2 ^ 53 := by
    exact_mod_cast rng.leadingBits_lt
  rw [drawn, div_lt_one (by norm_num)]
  exact ⟨by positivity, less⟩

/-- Noise lies within its amplitude. -/
theorem Rng.noise_exact_mem
    (rng : Rng)
    {amp : ℚ}
    (nonneg : 0 ≤ amp) :
    -amp ≤ (rng.noise amp).1 ∧ (rng.noise amp).1 ≤ amp := by
  obtain ⟨low, high⟩ := rng.f64_exact_mem
  have drawn : (rng.noise amp).1 =
      ((rng.f64 : ℚ × Rng).1 * 2 - 1) * amp := rfl
  rw [drawn]
  constructor <;> nlinarith

namespace Vehicle

/-- The ramp stays between zero and one. -/
theorem smoothstep_exact_mem (x : ℚ) :
    0 ≤ smoothstep x ∧ smoothstep x ≤ 1 := by
  obtain ⟨low, high⟩ :=
    F64.clamp_exact_mem x (zero_le_one : (0 : ℚ) ≤ 1)
  have ramp : smoothstep x =
      F64.clamp x 0 1 * F64.clamp x 0 1 * (3 - 2 * F64.clamp x 0 1) := by
    simp [smoothstep]
  rw [ramp]
  generalize F64.clamp x 0 1 = clamped at low high
  constructor
  · have factor : 0 ≤ 3 - 2 * clamped := by linarith
    exact mul_nonneg (mul_nonneg low low) factor
  · nlinarith [mul_nonneg low low, mul_nonneg (sub_nonneg.mpr high)
      (sub_nonneg.mpr high)]

/-- The ramp starts at zero. -/
theorem smoothstep_exact_of_neg
    {x : ℚ}
    (negative : x < 0) :
    smoothstep x = 0 := by
  have clamped : F64.clamp x 0 1 = 0 := F64.clamp_exact_of_lt 1 negative
  simp [smoothstep, clamped]

/-- The envelope stays between zero and one. -/
theorem envelope_exact_mem (phase : ℚ) :
    0 ≤ envelope phase ∧ envelope phase ≤ 1 := by
  rw [envelope, F64.min_exact]
  exact ⟨le_inf (smoothstep_exact_mem _).1 (smoothstep_exact_mem _).1,
    inf_le_of_left_le (smoothstep_exact_mem _).2⟩

/-- Outside the time in gear D the envelope is zero. -/
theorem envelope_exact_of_parked
    {phase : ℚ}
    (parked : ¬ (3 ≤ phase ∧ phase < 52)) :
    envelope phase = 0 := by
  apply le_antisymm _ (envelope_exact_mem phase).1
  rw [envelope, F64.min_exact]
  simp only [F64.sub_exact, F64.div_exact, F64.ofInt_exact]
  by_cases early : phase < 3
  · apply inf_le_of_left_le
    apply le_of_eq
    apply smoothstep_exact_of_neg
    norm_num
    linarith
  · have late : 52 ≤ phase := not_lt.mp fun less =>
      parked ⟨not_lt.mp early, less⟩
    apply inf_le_of_right_le
    apply le_of_eq
    apply smoothstep_exact_of_neg
    norm_num
    linarith

/-- The states that a vehicle can be in, whatever its door does. -/
structure InRange (vehicle : Vehicle ℚ) : Prop where
  time : 0 ≤ vehicle.tS
  speed : 0 ≤ vehicle.speedKmh ∧ vehicle.speedKmh ≤ 1183 / 10
  charge : 5 ≤ vehicle.socPct ∧ vehicle.socPct ≤ 80
  motor : 25 ≤ vehicle.motorTempC ∧ vehicle.motorTempC ≤ 101895 / 1000
  cabin : 1945 / 100 ≤ vehicle.cabinTempC ∧ vehicle.cabinTempC ≤ 2255 / 100
  /-- In gear P the vehicle does not move. -/
  still : vehicle.gear = .p → vehicle.speedKmh = 0
  /-- A parked vehicle stays in gear P. -/
  parked : vehicle.behaviour = .park → vehicle.gear = .p

/-- The states that a vehicle can be in: in gear D its door is closed. -/
structure Realistic (vehicle : Vehicle ℚ) : Prop extends InRange vehicle where
  closed : vehicle.gear = .d → vehicle.doorOpen = false

theorem realistic_new (behaviour : Behaviour) :
    (new behaviour : Vehicle ℚ).Realistic := by
  constructor
  · constructor <;> simp [new] <;> norm_num
  · exact fun impossible => by cases impossible

section Steps

variable
  [elementary : Elementary ℚ]
  (bounded : elementary.SineBounded)

include bounded

/-- While driving, gear and speed stay in range and nothing else changes. -/
theorem stepDrive_exact
    (vehicle : Vehicle ℚ)
    (rng : Rng) :
    ∃ gear speedKmh next,
      vehicle.stepDrive rng = ({ vehicle with gear, speedKmh }, next) ∧
        (0 ≤ speedKmh ∧ speedKmh ≤ 1183 / 10) ∧
          (gear = .p → speedKmh = 0) := by
  obtain ⟨fromZero, toOne⟩ := envelope_exact_mem vehicle.phase
  obtain ⟨sineLow, sineHigh⟩ := bounded (vehicle.phase * (1 / 2))
  obtain ⟨noiseLow, noiseHigh⟩ :=
    rng.noise_exact_mem (by norm_num : (0 : ℚ) ≤ 3 / 10)
  have stepped : vehicle.stepDrive rng =
      if 0 < envelope vehicle.phase then
        ({ vehicle with
            gear := if 3 ≤ vehicle.phase ∧ vehicle.phase < 52 then .d else .p
            speedKmh := max (envelope vehicle.phase *
              (110 + 8 * elementary.sin (vehicle.phase * (1 / 2))) +
                (rng.noise (3 / 10 : ℚ)).1) 0 }, (rng.noise (3 / 10 : ℚ)).2)
      else
        ({ vehicle with
            gear := if 3 ≤ vehicle.phase ∧ vehicle.phase < 52 then .d else .p
            speedKmh := 0 }, rng) := by
    simp [stepDrive]
  rw [stepped]
  split
  · next positive =>
      refine ⟨_, _, _, rfl, ⟨le_max_right _ _, max_le ?_ (by norm_num)⟩, ?_⟩
      · nlinarith
      · intro inP
        by_cases inD : 3 ≤ vehicle.phase ∧ vehicle.phase < 52
        · rw [if_pos inD] at inP
          cases inP
        · exact absurd (envelope_exact_of_parked inD) positive.ne'
  · exact ⟨_, _, _, rfl, ⟨le_refl 0, by norm_num⟩, fun _ => rfl⟩

/-- The vehicle stays in range while time passes. -/
theorem InRange.move
    {vehicle : Vehicle ℚ}
    (inRange : vehicle.InRange)
    {dtS : ℚ}
    (forward : 0 ≤ dtS)
    (rng : Rng) :
    (vehicle.move dtS rng).1.InRange := by
  obtain ⟨behaviour, tS, before, socPct, motorTempC, cabinTempC, inGear,
    doorOpen⟩ := vehicle
  have later : 0 ≤ tS + dtS := add_nonneg inRange.time forward
  cases behaviour with
  | drive =>
      obtain ⟨gear, speedKmh, next, stepped, speed, still⟩ :=
        stepDrive_exact bounded ⟨.drive, tS + dtS, before, socPct, motorTempC,
          cabinTempC, inGear, doorOpen⟩ rng
      simp only [Vehicle.move, F64.add_exact, stepped]
      exact ⟨later, speed, inRange.charge, inRange.motor, inRange.cabin, still,
        fun impossible => by cases impossible⟩
  | park =>
      simp only [Vehicle.move, F64.add_exact, F64.zero_exact]
      exact ⟨later, ⟨le_refl 0, by norm_num⟩, inRange.charge, inRange.motor,
        inRange.cabin, fun _ => rfl, fun _ => rfl⟩

/-- Temperatures and charge stay in range. -/
theorem InRange.settle
    {vehicle : Vehicle ℚ}
    (inRange : vehicle.InRange)
    {dtS : ℚ}
    (forward : 0 ≤ dtS)
    (rng : Rng) :
    (vehicle.settle dtS rng).1.InRange := by
  obtain ⟨speedLow, speedHigh⟩ := inRange.speed
  obtain ⟨chargeLow, chargeHigh⟩ := inRange.charge
  obtain ⟨motorLow, motorHigh⟩ := inRange.motor
  obtain ⟨sineLow, sineHigh⟩ := bounded (vehicle.tS / 40)
  obtain ⟨noiseLow, noiseHigh⟩ :=
    rng.noise_exact_mem (by norm_num : (0 : ℚ) ≤ 5 / 100)
  have share : 0 ≤ min (dtS / 8) 1 ∧ min (dtS / 8) 1 ≤ 1 :=
    ⟨le_min (by positivity) zero_le_one, min_le_right _ _⟩
  have settled : (vehicle.settle dtS rng).1 = { vehicle with
      motorTempC := vehicle.motorTempC +
        (25 + vehicle.speedKmh * (65 / 100) - vehicle.motorTempC) *
          min (dtS / 8) 1
      socPct := max (vehicle.socPct -
        dtS * (2 / 10000 + vehicle.speedKmh * (15 / 100000))) 5
      cabinTempC := 21 + 15 / 10 * elementary.sin (vehicle.tS / 40) +
        (rng.noise (5 / 100 : ℚ)).1 } := by
    simp [Vehicle.settle]
  rw [settled]
  generalize min (dtS / 8) 1 = part at share
  exact {
    inRange with
    charge := by
      have used : 0 ≤ dtS * (2 / 10000 + vehicle.speedKmh * (15 / 100000)) := by
        positivity
      exact ⟨le_max_right _ _, max_le (by linarith) (by norm_num)⟩
    motor := by
      constructor <;> dsimp only <;> nlinarith
    cabin := by
      constructor <;> dsimp only <;> linarith }

omit bounded elementary in
/-- The door does not change anything else, and is closed in gear D. -/
theorem InRange.useDoor
    {vehicle : Vehicle ℚ}
    (inRange : vehicle.InRange)
    (dtS : ℚ)
    (rng : Rng) :
    (vehicle.useDoor dtS rng).1.Realistic := by
  unfold Vehicle.useDoor
  split
  · next inP =>
      exact { inRange with
        closed := fun inD => by
          rw [show _ = Gear.p from inP] at inD
          cases inD }
  · exact { inRange with closed := fun _ => rfl }

/-- Every step keeps the vehicle realistic. -/
theorem Realistic.step
    {vehicle : Vehicle ℚ}
    (realistic : vehicle.Realistic)
    {dtS : ℚ}
    (forward : 0 ≤ dtS)
    (rng : Rng) :
    (vehicle.step dtS rng).1.Realistic :=
  ((realistic.toInRange.move bounded forward rng).settle bounded forward
    _).useDoor dtS _

end Steps

end Vehicle

end Simulator
end TelemetryEdge
