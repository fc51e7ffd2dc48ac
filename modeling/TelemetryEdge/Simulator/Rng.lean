import Mathlib.Dynamics.PeriodicPts.Lemmas
import TelemetryEdge.Foundation.Binary64Fraction
import TelemetryEdge.Foundation.XorShift

/-!
# The pseudo-random numbers of the simulator

A seed is scrambled into a word that is not zero, and every draw moves on to
another such word.  Scrambling and moving on never merge two words, so streams
either agree throughout or differ in every draw, and every stream comes back to
its start.
-/

namespace TelemetryEdge
namespace Simulator

/-- The scrambling of a seed. -/
def scramble (seed : UInt64) : UInt64 :=
  let z := seed + 0x9E3779B97F4A7C15
  let z := (z ^^^ (z >>> 30)) * 0xBF58476D1CE4E5B9
  let z := (z ^^^ (z >>> 27)) * 0x94D049BB133111EB
  z ^^^ (z >>> 31)

/-- The next state. -/
def advance (state : UInt64) : UInt64 :=
  let x := state ^^^ (state >>> 12)
  let x := x ^^^ (x <<< 25)
  x ^^^ (x >>> 27)

/-- What is drawn when a state has been reached. -/
def output (state : UInt64) : UInt64 := state * 0x2545F4914F6CDD1D

/-- What is recovered from the bits of a word is recovered from the word. -/
theorem injective_of_toBitVec
    {mix : UInt64 → UInt64}
    {mixBits : BitVec 64 → BitVec 64}
    (injective : Function.Injective mixBits)
    (bits : ∀ word, (mix word).toBitVec = mixBits word.toBitVec) :
    Function.Injective mix := by
  intro left right same
  apply UInt64.toBitVec_inj.mp
  apply injective
  rw [← bits, ← bits, same]

/-- Multiplication by a word that has an inverse can be taken back. -/
theorem mul_injective
    {factor : UInt64}
    (inverse : UInt64)
    (inverts : factor * inverse = 1) :
    Function.Injective (· * factor) := by
  have inverts : factor.toBitVec * inverse.toBitVec = 1#64 := by
    rw [← UInt64.toBitVec_mul, inverts]
    rfl
  exact injective_of_toBitVec (XorShift.mul_right_injective inverts)
    fun word => UInt64.toBitVec_mul

/-- Different seeds are scrambled into different words. -/
theorem scramble_injective : Function.Injective scramble := by
  have shift31 : Function.Injective fun z : UInt64 => z ^^^ (z >>> 31) :=
    injective_of_toBitVec
      (XorShift.xor_ushiftRight_injective (by decide : 0 < 31)) fun _ => rfl
  have shift27 : Function.Injective fun z : UInt64 => z ^^^ (z >>> 27) :=
    injective_of_toBitVec
      (XorShift.xor_ushiftRight_injective (by decide : 0 < 27)) fun _ => rfl
  have shift30 : Function.Injective fun z : UInt64 => z ^^^ (z >>> 30) :=
    injective_of_toBitVec
      (XorShift.xor_ushiftRight_injective (by decide : 0 < 30)) fun _ => rfl
  have second := mul_injective 0x319642B2D24D8EC3
    (by decide : (0x94D049BB133111EB : UInt64) * 0x319642B2D24D8EC3 = 1)
  have first := mul_injective 0x96DE1B173F119089
    (by decide : (0xBF58476D1CE4E5B9 : UInt64) * 0x96DE1B173F119089 = 1)
  have added : Function.Injective fun seed : UInt64 =>
      seed + 0x9E3779B97F4A7C15 :=
    fun left right same => (UInt64.add_left_inj _).mp same
  exact shift31.comp (second.comp (shift27.comp (first.comp
    (shift30.comp added))))

/-- Different states move on to different states. -/
theorem advance_injective : Function.Injective advance := by
  have shift12 : Function.Injective fun x : UInt64 => x ^^^ (x >>> 12) :=
    injective_of_toBitVec
      (XorShift.xor_ushiftRight_injective (by decide : 0 < 12)) fun _ => rfl
  have shift25 : Function.Injective fun x : UInt64 => x ^^^ (x <<< 25) :=
    injective_of_toBitVec
      (XorShift.xor_shiftLeft_injective (by decide : 0 < 25)) fun _ => rfl
  have shift27 : Function.Injective fun x : UInt64 => x ^^^ (x >>> 27) :=
    injective_of_toBitVec
      (XorShift.xor_ushiftRight_injective (by decide : 0 < 27)) fun _ => rfl
  exact shift27.comp (shift25.comp shift12)

/-- Different states are drawn as different words. -/
theorem output_injective : Function.Injective output :=
  mul_injective 0x59071D96D81ECD35 (by decide)

/-- A state that is not zero moves on to another one. -/
theorem advance_ne_zero
    {state : UInt64}
    (nonzero : state ≠ 0) :
    advance state ≠ 0 :=
  fun zero => nonzero (advance_injective zero)

/-- The seeded generator; zero would never move on. -/
structure Rng where
  state : UInt64
  nonzero : state ≠ 0

namespace Rng

/-- The generator of a seed. -/
def new (seed : UInt64) : Rng :=
  if zero : scramble seed = 0 then ⟨1, by decide⟩
  else ⟨scramble seed, zero⟩

/-- Draw a word. -/
def nextU64 (rng : Rng) : UInt64 × Rng :=
  (output (advance rng.state), ⟨advance rng.state, advance_ne_zero rng.nonzero⟩)

/-- Draw a number from zero to one, without one. -/
def f64 [F64 F] (rng : Rng) : F × Rng :=
  let (word, rng) := rng.nextU64
  (F64.div (F64.ofInt (word >>> 11).toNat)
    (F64.ofInt ((1 : UInt64) <<< 53).toNat), rng)

/-- Draw whether an event of a probability happens. -/
def chance [F64 F] (rng : Rng) (p : F) : Bool × Rng :=
  let (number, rng) : F × Rng := rng.f64
  (F64.lt number p, rng)

/-- Draw a number below a bound; the remainder by zero is a panic. -/
def below (rng : Rng) (n : Nat) : Option (Nat × Rng) :=
  if n = 0 then none
  else
    let (word, rng) := rng.nextU64
    some ((word % UInt64.ofNat n).toNat, rng)

/-- Draw a number from `-amp` to `amp`, without `amp`. -/
def noise [F64 F] (rng : Rng) (amp : F) : F × Rng :=
  let (number, rng) : F × Rng := rng.f64
  (F64.mul (F64.sub (F64.mul number (F64.ofInt 2)) (F64.ofInt 1)) amp, rng)

/-- Draw bytes. -/
def bytes (rng : Rng) : Nat → List UInt8 × Rng
  | 0 => ([], rng)
  | n + 1 =>
      let (word, rng) := rng.nextU64
      let (rest, rng) := rng.bytes n
      (word.toUInt8 :: rest, rng)

/-- Draw between one and `max` bytes. -/
def someBytes (rng : Rng) (max : Nat) : Option (List UInt8 × Rng) :=
  (rng.below max).map fun (n, rng) => rng.bytes (1 + n)

/-- The generator after a number of draws. -/
def after (rng : Rng) : Nat → Rng
  | 0 => rng
  | count + 1 => (rng.after count).nextU64.2

/-- The word drawn after a number of others. -/
def draw (rng : Rng) (count : Nat) : UInt64 := (rng.after count).nextU64.1

/-! ## Streams -/

@[ext] theorem ext_state
    {left right : Rng}
    (same : left.state = right.state) :
    left = right := by
  cases left
  cases right
  cases same
  rfl

theorem state_after (rng : Rng) (count : Nat) :
    (rng.after count).state = advance^[count] rng.state := by
  induction count with
  | zero => rfl
  | succ count inductionHypothesis =>
      rw [Function.iterate_succ_apply', ← inductionHypothesis]
      rfl

/-- Generators that draw the same word at any one position are the same. -/
theorem eq_of_draw_eq
    {left right : Rng}
    {count : Nat}
    (same : left.draw count = right.draw count) :
    left = right := by
  have states := advance_injective (output_injective same)
  rw [state_after, state_after] at states
  exact ext_state (advance_injective.iterate count states)

/-- Every stream comes back to its start. -/
theorem exists_period (rng : Rng) :
    ∃ period, 0 < period ∧
      ∀ count, rng.draw (count + period) = rng.draw count := by
  have finite : Finite UInt64 :=
    Finite.of_injective UInt64.toFin fun _ _ same => UInt64.toFin_inj.mp same
  obtain ⟨period, positive, returns⟩ :=
    Function.mem_periodicPts.mp (advance_injective.mem_periodicPts rng.state)
  refine ⟨period, positive, fun count => ?_⟩
  have same : rng.after (count + period) = rng.after count := by
    apply ext_state
    rw [state_after, state_after, Function.iterate_add_apply, returns]
  rw [draw, draw, same]

/-- The state of a new generator is the scrambled seed, but never zero. -/
theorem state_new (seed : UInt64) :
    (new seed).state = if scramble seed = 0 then 1 else scramble seed := by
  unfold new
  split <;> rfl

/-- Only the seeds that are scrambled into zero and into one lead to the same
generator. -/
theorem new_eq_iff (seed other : UInt64) :
    new seed = new other ↔
      seed = other ∨
        (scramble seed = 0 ∧ scramble other = 1) ∨
          (scramble seed = 1 ∧ scramble other = 0) := by
  constructor
  · intro same
    have states := congrArg Rng.state same
    rw [state_new, state_new] at states
    split_ifs at states with zero otherZero otherZero
    · exact .inl (scramble_injective (zero.trans otherZero.symm))
    · exact .inr (.inl ⟨zero, states.symm⟩)
    · exact .inr (.inr ⟨states, otherZero⟩)
    · exact .inl (scramble_injective states)
  · rintro (rfl | ⟨zero, one⟩ | ⟨one, zero⟩)
    · rfl
    · apply ext_state
      rw [state_new, state_new, zero, one]
      rfl
    · apply ext_state
      rw [state_new, state_new, zero, one]
      rfl

/-- The streams of two seeds are the same throughout, for one seed and for the
one pair that shares a state, or differ in every draw. -/
theorem draw_new_eq_iff (seed other : UInt64) (count : Nat) :
    (new seed).draw count = (new other).draw count ↔
      seed = other ∨
        (scramble seed = 0 ∧ scramble other = 1) ∨
          (scramble seed = 1 ∧ scramble other = 0) := by
  rw [← new_eq_iff]
  exact ⟨eq_of_draw_eq, fun same => by rw [same]⟩

/-- The pair of seeds. -/
example :
    scramble 0x61C8864680B583EB = 0 ∧ scramble 0xF8364607E9C949BD = 1 := by
  decide

/-- A number drawn below a bound is below it, and nothing else can go wrong. -/
theorem below_eq_some
    (rng : Rng)
    {n : Nat}
    (positive : 0 < n)
    (small : n < 2 ^ 64) :
    ∃ number, rng.below n = some (number, rng.nextU64.2) ∧ number < n := by
  have bound : (UInt64.ofNat n).toNat = n := by
    rw [UInt64.toNat_ofNat', Nat.mod_eq_of_lt small]
  refine ⟨(rng.nextU64.1 % UInt64.ofNat n).toNat, ?_, ?_⟩
  · rw [below, if_neg (Nat.ne_of_gt positive)]
  · rw [UInt64.toNat_mod, bound]
    exact Nat.mod_lt _ positive

/-- As many bytes are drawn as asked for. -/
theorem length_bytes (rng : Rng) (n : Nat) : (rng.bytes n).1.length = n := by
  induction n generalizing rng with
  | zero => rfl
  | succ n inductionHypothesis =>
      exact congrArg (· + 1) (inductionHypothesis rng.nextU64.2)

/-- Between one and `max` bytes are drawn. -/
theorem someBytes_eq_some
    (rng : Rng)
    {max : Nat}
    (positive : 0 < max)
    (small : max < 2 ^ 64) :
    ∃ drawn next, rng.someBytes max = some (drawn, next) ∧
      1 ≤ drawn.length ∧ drawn.length ≤ max := by
  obtain ⟨number, drawn, less⟩ := rng.below_eq_some positive small
  refine ⟨_, _, by rw [someBytes, drawn]; rfl, ?_⟩
  rw [length_bytes]
  omega

/-- The leading bits of the next word. -/
def leadingBits (rng : Rng) : Nat := (rng.nextU64.1 >>> 11).toNat

theorem leadingBits_lt (rng : Rng) : rng.leadingBits < 2 ^ 53 := by
  have bounded := rng.nextU64.1.toNat_lt
  rw [leadingBits, UInt64.toNat_shiftRight, Nat.shiftRight_eq_div_pow]
  exact (Nat.div_lt_iff_lt_mul (Nat.two_pow_pos _)).mpr bounded

/-- A number drawn from zero to one is the leading bits of a word, as an exact
fraction. -/
theorem scaled_f64 (rng : Rng) :
    (rng.f64 : Binary64 × Rng).1.isFinite = true ∧
      (rng.f64 : Binary64 × Rng).1.scaled * 2 ^ 53 =
        rng.leadingBits * (Binary64.unit : Int) := by
  obtain ⟨finite, scaled⟩ := Binary64.scaled_div_two_pow rng.leadingBits_lt
    (by decide : 53 ≤ 64)
  have units : 2 ^ (FloatFormat.double.unitExponent - 53) * 2 ^ 53 =
      Binary64.unit := by
    rw [← Nat.pow_add, Nat.sub_add_cancel (by decide), Binary64.unit]
  have denominator : ((1 : UInt64) <<< 53).toNat = 2 ^ 53 := by decide
  have drawn : (rng.f64 : Binary64 × Rng).1 =
      Binary64.div (Binary64.ofInt rng.leadingBits)
        (Binary64.ofInt (2 ^ 53 : Nat)) := by
    rw [← denominator]
    rfl
  have factor : (2 : Int) ^ 53 = (2 ^ 53 : Nat) := by decide
  rw [drawn]
  refine ⟨finite, ?_⟩
  rw [scaled, factor, ← units, ← Nat.cast_mul, ← Nat.cast_mul, Nat.mul_assoc]

/-- An event happens exactly when the fraction drawn is below its
probability. -/
theorem chance_iff
    (rng : Rng)
    {p : Binary64}
    (finite : p.isFinite = true) :
    (rng.chance p).1 = true ↔
      rng.leadingBits * (Binary64.unit : Int) < p.scaled * 2 ^ 53 := by
  obtain ⟨drawnFinite, drawn⟩ := rng.scaled_f64
  have compared : (rng.chance p).1 =
      Binary64.lt (rng.f64 : Binary64 × Rng).1 p := rfl
  rw [compared, Binary64.lt_iff_scaled_lt drawnFinite finite, ← drawn]
  omega

/-- Drawing a number and drawing an event take one word of the stream and are
exact: the number is the fraction of the leading bits of the word, and it decides
the event as a real number would.  An event that is impossible is never drawn,
and one that is certain always. -/
theorem chance_exact
    (rng : Rng)
    {p : Binary64}
    (finite : p.isFinite = true) :
    (rng.leadingBits = rng.nextU64.1.toNat / 2 ^ 11 ∧
        rng.leadingBits < 2 ^ 53) ∧
      ((rng.f64 : Binary64 × Rng).1.isFinite = true ∧
        (rng.f64 : Binary64 × Rng).1.scaled * 2 ^ 53 =
          rng.leadingBits * (Binary64.unit : Int)) ∧
      ((rng.chance p).1 = true ↔
        rng.leadingBits * (Binary64.unit : Int) < p.scaled * 2 ^ 53) ∧
      (p.scaled ≤ 0 → (rng.chance p).1 = false) ∧
      ((Binary64.unit : Int) ≤ p.scaled → (rng.chance p).1 = true) ∧
      (rng.f64 : Binary64 × Rng).2 = rng.nextU64.2 ∧
      (rng.chance p).2 = rng.nextU64.2 := by
  have drawn := rng.chance_iff finite
  have positive : (0 : Int) < Binary64.unit :=
    Int.natCast_pos.mpr Binary64.unit_pos
  have nonneg : (0 : Int) ≤ rng.leadingBits * (Binary64.unit : Int) :=
    Int.mul_nonneg (Int.natCast_nonneg _) positive.le
  have proper : rng.leadingBits * (Binary64.unit : Int) <
      Binary64.unit * 2 ^ 53 := by
    rw [mul_comm (Binary64.unit : Int)]
    exact Int.mul_lt_mul_of_pos_right (by exact_mod_cast rng.leadingBits_lt)
      positive
  refine ⟨⟨?_, rng.leadingBits_lt⟩, rng.scaled_f64, drawn, ?_, ?_, rfl, rfl⟩
  · rw [leadingBits, UInt64.toNat_shiftRight, Nat.shiftRight_eq_div_pow]
    rfl
  · intro impossible
    rw [← Bool.not_eq_true, drawn]
    omega
  · intro certain
    rw [drawn]
    omega

/-- The probability of one half. -/
theorem chance_exact_half :
    (new 7).leadingBits < 2 ^ 53 ∧
      ((new 7).f64 : Binary64 × Rng).1.scaled * 2 ^ 53 =
        (new 7).leadingBits * (Binary64.unit : Int) ∧
      (((new 7).chance (⟨0x3FE0000000000000⟩ : Binary64)).1 = true ↔
        (new 7).leadingBits * (Binary64.unit : Int) <
          Binary64.scaled ⟨0x3FE0000000000000⟩ * 2 ^ 53) := by
  obtain ⟨bits, number, event, -⟩ :=
    @chance_exact (new 7) ⟨0x3FE0000000000000⟩ (by decide)
  exact ⟨bits.2, number.2, event⟩

end Rng

end Simulator
end TelemetryEdge
