import TelemetryEdge.Foundation.Binary64Sign
import TelemetryEdge.Simulator.Simulation

/-!
# The modes of the vehicle in double precision

Whatever the rounding, the sine, the remainder and the random numbers come to,
even if they are not numbers: the vehicle stands still in gear P, its door is
closed in gear D, and its speed and its charge never fall below their bounds.
-/

namespace TelemetryEdge
namespace Simulator

open Binary64

theorem sub_double (left right : Binary64) :
    F64.sub left right = add left (neg right) := rfl

/-- A number equals itself, and nothing else fails to. -/
theorem isNan_double (number : Binary64) :
    F64.isNan number = number.isNan := by
  have equal : F64.eq number number = !number.isNan := by
    have ranks : (number.rank == number.rank) = true := beq_self_eq_true _
    change (!number.isNan && !number.isNan && number.rank == number.rank) = _
    rw [ranks, Bool.and_true, Bool.and_self]
  rw [F64.isNan, equal, Bool.not_not]

/-- A number below another one is not above it. -/
theorem lt_asymm_double
    {left right : Binary64}
    (less : lt left right = true) :
    lt right left = false := by
  simp only [lt, Bool.and_eq_true, decide_eq_true_eq] at less
  rw [lt, decide_eq_false (by omega), Bool.and_false]

/-- A number that is not below another one and does not equal it is above it. -/
theorem lt_of_not_le
    {left right : Binary64}
    (leftNumber : left.isNan = false)
    (rightNumber : right.isNan = false)
    (notLe : F64.le left right = false) :
    lt right left = true := by
  have compared : (lt left right || eq left right) = false := notLe
  simp only [lt, eq, leftNumber, rightNumber, Bool.not_false, Bool.and_self,
    Bool.true_and, Bool.or_eq_false_iff, decide_eq_false_iff_not,
    beq_eq_false_iff_ne] at compared
  simp only [lt, leftNumber, rightNumber, Bool.not_false, Bool.and_self,
    Bool.true_and, decide_eq_true_eq]
  omega

/-- The least of two numbers of which one is zero is not above zero. -/
theorem lt_zero_min
    {left right : Binary64}
    (zero : left = ⟨0⟩ ∨ right = ⟨0⟩) :
    lt ⟨0⟩ (F64.min left right) = false := by
  have self : lt ⟨0⟩ ⟨0⟩ = false := by decide
  have zeroNumber : F64.isNan (⟨0⟩ : Binary64) = false := by decide
  unfold F64.min
  cases zero with
  | inl zero =>
      rw [zero, zeroNumber, if_neg Bool.false_ne_true]
      split
      · exact self
      · split
        · next less => exact lt_asymm_double less
        · exact self
  | inr zero =>
      rw [zero, zeroNumber]
      split
      · exact self
      · rw [if_neg Bool.false_ne_true]
        split
        · exact self
        · next notLess => exact Bool.eq_false_of_not_eq_true notLess

/-- A maximum with a number is a number that is not below it. -/
theorem max_double
    (left : Binary64)
    {right : Binary64}
    (rightNumber : right.isNan = false)
    (self : lt right right = false) :
    (F64.max left right).isNan = false ∧ lt (F64.max left right) right = false := by
  unfold F64.max
  rw [isNan_double, isNan_double, rightNumber]
  split
  · exact ⟨rightNumber, self⟩
  · next leftNumber =>
      rw [if_neg Bool.false_ne_true]
      split
      · exact ⟨rightNumber, self⟩
      · next notLess =>
          exact ⟨Bool.eq_false_of_not_eq_true leftNumber,
            Bool.eq_false_of_not_eq_true notLess⟩

namespace Vehicle

/-- The ramp is zero below its start. -/
theorem smoothstep_of_lt_zero
    {x : Binary64}
    (below : lt x ⟨0⟩ = true) :
    smoothstep x = ⟨0⟩ := by
  have clamped : F64.clamp x F64.zero (F64.ofInt 1) = F64.zero := if_pos below
  have start : F64.mul (F64.mul (F64.zero : Binary64) F64.zero)
      (F64.sub (F64.ofInt 3) (F64.mul (F64.ofInt 2) F64.zero)) = ⟨0⟩ := by
    decide +kernel
  rw [smoothstep, clamped]
  exact start

/-- Small integers are converted exactly. -/
theorem isInteger_small
    {integer : Nat}
    (small : integer < 64) :
    IsInteger (F64.ofInt (integer : Int)) integer := by
  apply isInteger_ofInt_of_fits (by omega)
  exact ⟨integer, 0, Nat.lt_trans small (by decide), by simp⟩

/-- Small integers that differ are ten units apart. -/
theorem apart_of_small
    {less more : Nat}
    (differ : less < more)
    (small : more < 64) :
    (F64.ofInt (less : Int) : Binary64).scaled + 10 ≤
      (F64.ofInt (more : Int) : Binary64).scaled := by
  have units : 10 ≤ unit := by
    have sixteen : 2 ^ 4 ≤ 2 ^ FloatFormat.double.unitExponent :=
      Nat.pow_le_pow_right Nat.two_pos (by decide)
    rw [two_pow_unitExponent] at sixteen
    omega
  rw [(isInteger_small (by omega)).scaled, (isInteger_small small).scaled]
  have grows : (less + 1) * unit ≤ more * unit :=
    Nat.mul_le_mul_right unit differ
  rw [Nat.succ_mul] at grows
  exact_mod_cast (by omega : less * unit + 10 ≤ more * unit)

/-- Outside the time in gear D the envelope is not above zero. -/
theorem envelope_of_parked
    {phase : Binary64}
    (parked : (F64.le (F64.ofInt 3) phase && F64.lt phase (F64.ofInt 52)) =
      false) :
    F64.lt F64.zero (envelope phase) = false := by
  have three : IsInteger (F64.ofInt 3) (3 : Nat) := isInteger_small (by decide)
  have five : IsInteger (F64.ofInt 5) (5 : Nat) := isInteger_small (by decide)
  have ten : IsInteger (F64.ofInt 10) (10 : Nat) := isInteger_small (by decide)
  have rest : IsInteger (F64.ofInt 47) (47 : Nat) := isInteger_small (by decide)
  have last : IsInteger (F64.ofInt 52) (52 : Nat) := isInteger_small (by decide)
  cases number : phase.isNan with
  | true =>
      have left : F64.sub phase (F64.ofInt 5) = nan := by
        rw [sub_double, add, number, Bool.true_or, if_pos rfl]
      have negNumber : (neg phase).isNan = true := by
        rw [isNan, magnitude_neg]
        exact number
      have right : F64.sub (F64.ofInt 47) phase = nan := by
        rw [sub_double, add, negNumber, Bool.or_true, if_pos rfl]
      have none : F64.lt F64.zero (F64.min
          (smoothstep (F64.div nan (F64.ofInt 10) : Binary64))
          (smoothstep (F64.div nan (F64.ofInt 10)))) = false := by
        decide +kernel
      rw [envelope, left, right]
      exact none
  | false =>
      rw [envelope]
      refine @lt_zero_min (smoothstep _) (smoothstep _) ?_
      by_cases late : F64.le (F64.ofInt 3) phase = true
      · rw [late, Bool.true_and] at parked
        exact .inr (smoothstep_of_lt_zero (lt_zero_div_sub_of_not_lt last.finite
          rest.finite ten number parked (apart_of_small (by decide) (by decide))))
      · have early := lt_of_not_le (isNan_of_isFinite three.finite) number
          (Bool.eq_false_of_not_eq_true late)
        exact .inl (smoothstep_of_lt_zero (lt_zero_div_sub_of_lt three.finite
          five.finite ten early (apart_of_small (by decide) (by decide))))

/-- What holds of every state of a vehicle in double precision. -/
structure Consistent (vehicle : Vehicle Binary64) : Prop where
  /-- In gear P the vehicle does not move. -/
  still : vehicle.gear = .p → vehicle.speedKmh = F64.zero
  /-- In gear D the door is closed. -/
  closed : vehicle.gear = .d → vehicle.doorOpen = false
  /-- A parked vehicle stays in gear P. -/
  parked : vehicle.behaviour = .park → vehicle.gear = .p
  speed : vehicle.speedKmh.isNan = false ∧
    lt vehicle.speedKmh F64.zero = false
  charge : vehicle.socPct.isNan = false ∧
    lt vehicle.socPct (F64.ofInt 5) = false

theorem consistent_new (behaviour : Behaviour) :
    (new behaviour : Vehicle Binary64).Consistent where
  still _ := rfl
  closed impossible := by cases impossible
  parked _ := rfl
  speed := by
    change (F64.zero : Binary64).isNan = false ∧ lt F64.zero F64.zero = false
    decide
  charge := by
    change (F64.ofInt 80 : Binary64).isNan = false ∧
      lt (F64.ofInt 80) (F64.ofInt 5) = false
    decide +kernel

variable [Elementary Binary64]

/-- While driving only gear and speed change, and in gear P the speed is zero. -/
theorem stepDrive_double (vehicle : Vehicle Binary64) (rng : Rng) :
    ∃ gear speedKmh next,
      vehicle.stepDrive rng = ({ vehicle with gear, speedKmh }, next) ∧
        (gear = .p → speedKmh = F64.zero) ∧
          speedKmh.isNan = false ∧ lt speedKmh F64.zero = false := by
  have zeroNumber : (F64.zero : Binary64).isNan = false := by decide
  have self : lt F64.zero F64.zero = false := by decide
  unfold stepDrive
  dsimp only
  split
  · next positive =>
      refine ⟨_, _, _, rfl, fun inP => ?_, max_double _ zeroNumber self⟩
      split at inP
      · cases inP
      · next outside =>
          rw [envelope_of_parked (Bool.eq_false_of_not_eq_true outside)]
            at positive
          cases positive
  · exact ⟨_, _, _, rfl, fun _ => rfl, zeroNumber, self⟩

/-- Every step leads to a consistent state. -/
theorem consistent_step
    (vehicle : Vehicle Binary64)
    (dtS : Binary64)
    (rng : Rng) :
    (vehicle.step dtS rng).1.Consistent := by
  have fiveNumber : (F64.ofInt 5 : Binary64).isNan = false := by decide +kernel
  have self : lt (F64.ofInt 5) (F64.ofInt 5) = false := by decide +kernel
  obtain ⟨gear, speedKmh, next, moved, still, parked, speed⟩ :
      ∃ gear speedKmh next,
        vehicle.move dtS rng =
            ({ vehicle with tS := F64.add vehicle.tS dtS, gear, speedKmh },
              next) ∧
          (gear = .p → speedKmh = F64.zero) ∧
          (vehicle.behaviour = .park → gear = .p) ∧
          speedKmh.isNan = false ∧ lt speedKmh F64.zero = false := by
    unfold move
    dsimp only
    split
    · next drives =>
        obtain ⟨gear, speedKmh, next, stepped, still, speed⟩ :=
          stepDrive_double { vehicle with tS := F64.add vehicle.tS dtS } rng
        refine ⟨gear, speedKmh, next, stepped, still, fun impossible => ?_, speed⟩
        rw [impossible] at drives
        cases drives
    · exact ⟨_, _, _, rfl, fun _ => rfl, fun _ => rfl, by decide, by decide⟩
  have charge := max_double (F64.sub vehicle.socPct
    (F64.mul dtS (F64.add (F64.decimal 2 10000)
      (F64.mul speedKmh (F64.decimal 15 100000))))) fiveNumber self
  unfold Vehicle.step
  rw [moved]
  unfold settle useDoor
  dsimp only
  cases gear with
  | p => exact ⟨still, fun impossible => (by cases impossible), parked, speed, charge⟩
  | d => exact ⟨still, fun _ => rfl, parked, speed, charge⟩

end Vehicle

/-- In double precision no run panics.  In every turn the vehicle does what the
scenario says and is consistent, and what is sent comes from its frames in that
turn. -/
theorem simulator_consistent
    [Elementary Binary64]
    (catalog : Protocol.Catalog Binary64)
    (scenario : Scenario)
    (seed : UInt64)
    (dtS : Binary64)
    (times : List UInt64) :
    ∃ sent last,
      (Simulation.new scenario seed).run scenario catalog dtS times =
          some (sent, last) ∧
        (∀ turn ∈ (Simulation.new scenario seed).turns scenario catalog dtS
            times,
          turn.2.behaviour = scenario.behaviour ∧ turn.2.Consistent) ∧
        List.Forall₂ (Simulation.SentIn catalog)
          (((Simulation.new scenario seed).turns scenario catalog dtS
            times).take sent.length) sent := by
  have preserved (vehicle : Vehicle Binary64) (rng : Rng)
      (kept : vehicle.behaviour = scenario.behaviour ∧ vehicle.Consistent) :
      (vehicle.step dtS rng).1.behaviour = scenario.behaviour ∧
        (vehicle.step dtS rng).1.Consistent :=
    ⟨(vehicle.behaviour_step dtS rng).trans kept.1,
      vehicle.consistent_step dtS rng⟩
  exact Simulation.exists_run scenario catalog preserved
    ⟨rfl, Vehicle.consistent_new scenario.behaviour⟩ times

end Simulator
end TelemetryEdge
