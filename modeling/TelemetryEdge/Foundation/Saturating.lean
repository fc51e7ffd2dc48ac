import Mathlib.Algebra.Order.Ring.Nat
import Mathlib.Data.Multiset.Fold

/-!
# Saturating 64-bit arithmetic and earliest deadlines

Unsigned 64-bit addition, subtraction and multiplication that stop at the ends
of the range instead of wrapping, described by their values as natural numbers,
and the earliest of a finite collection of optional deadlines.
-/

namespace TelemetryEdge
namespace Saturating

/-- Largest unsigned 64-bit number. -/
def u64Max : UInt64 := 18446744073709551615

theorem toNat_u64Max : u64Max.toNat = 2 ^ 64 - 1 := rfl

/-- Addition that stops at the largest number. -/
def saturatingAdd (left right : UInt64) : UInt64 :=
  if left.toNat + right.toNat < 2 ^ 64 then left + right else u64Max

/-- Subtraction that stops at zero. -/
def saturatingSub (left right : UInt64) : UInt64 :=
  if right ≤ left then left - right else 0

/-- Multiplication that stops at the largest number. -/
def saturatingMul (left right : UInt64) : UInt64 :=
  if left.toNat * right.toNat < 2 ^ 64 then left * right else u64Max

@[simp] theorem toNat_saturatingAdd (left right : UInt64) :
    (saturatingAdd left right).toNat =
      min (left.toNat + right.toNat) (2 ^ 64 - 1) := by
  unfold saturatingAdd
  split
  · next fits =>
      rw [UInt64.toNat_add, Nat.mod_eq_of_lt fits]
      omega
  · next overflows =>
      rw [toNat_u64Max]
      omega

@[simp] theorem toNat_saturatingSub (left right : UInt64) :
    (saturatingSub left right).toNat = left.toNat - right.toNat := by
  unfold saturatingSub
  split
  · next ordered => exact UInt64.toNat_sub_of_le left right ordered
  · next reversed =>
      rw [UInt64.le_iff_toNat_le] at reversed
      have smaller : left.toNat ≤ right.toNat := by omega
      rw [Nat.sub_eq_zero_of_le smaller]
      rfl

@[simp] theorem toNat_saturatingMul (left right : UInt64) :
    (saturatingMul left right).toNat =
      min (left.toNat * right.toNat) (2 ^ 64 - 1) := by
  unfold saturatingMul
  split
  · next fits =>
      rw [UInt64.toNat_mul, Nat.mod_eq_of_lt fits]
      omega
  · next overflows =>
      rw [toNat_u64Max]
      omega

/-- Adding a positive amount below the largest number moves strictly later. -/
theorem lt_saturatingAdd
    {left right : UInt64}
    (room : left < u64Max)
    (positive : 0 < right) :
    left < saturatingAdd left right := by
  rw [UInt64.lt_iff_toNat_lt] at room positive ⊢
  rw [toNat_u64Max] at room
  rw [UInt64.toNat_zero] at positive
  rw [toNat_saturatingAdd]
  omega

/-- The earlier of two optional deadlines; an absent one never comes. -/
def earlier : Option UInt64 → Option UInt64 → Option UInt64
  | none, right => right
  | some left, none => some left
  | some left, some right => some (if left ≤ right then left else right)

instance : Std.Commutative earlier where
  comm left right := by
    cases left <;> cases right <;> simp only [earlier]
    grind

instance : Std.Associative earlier where
  assoc first second third := by
    cases first <;> cases second <;> cases third <;> simp only [earlier]
    grind

/-- The earliest deadline of a finite collection. -/
def earliest (deadlines : Multiset (Option UInt64)) : Option UInt64 :=
  deadlines.fold earlier none

/-- The earliest deadline is at or before a time exactly when some deadline
is. -/
theorem earliest_le_iff
    (deadlines : Multiset (Option UInt64))
    (time : UInt64) :
    (∃ deadline, earliest deadlines = some deadline ∧ deadline ≤ time) ↔
      ∃ deadline, some deadline ∈ deadlines ∧ deadline ≤ time := by
  induction deadlines using Multiset.induction_on with
  | empty => simp [earliest]
  | cons head deadlines inductionHypothesis =>
      have unfolded : earliest (head ::ₘ deadlines) =
          earlier head (earliest deadlines) := by
        simp [earliest]
      rw [unfolded]
      cases head with
      | none => simpa [earlier] using inductionHypothesis
      | some first =>
          cases rest : earliest deadlines with
          | none =>
              rw [rest] at inductionHypothesis
              grind [earlier]
          | some second =>
              rw [rest] at inductionHypothesis
              grind [earlier]

/-- There is an earliest deadline as soon as there is one deadline. -/
theorem earliest_isSome_iff (deadlines : Multiset (Option UInt64)) :
    (earliest deadlines).isSome ↔ ∃ deadline, some deadline ∈ deadlines := by
  have bound : ∀ deadline : UInt64, deadline ≤ u64Max := by
    intro deadline
    rw [UInt64.le_iff_toNat_le, toNat_u64Max]
    have := deadline.toNat_lt
    omega
  have below := earliest_le_iff deadlines u64Max
  rw [Option.isSome_iff_exists]
  constructor
  · rintro ⟨deadline, found⟩
    obtain ⟨witness, member, _⟩ := below.mp ⟨deadline, found, bound deadline⟩
    exact ⟨witness, member⟩
  · rintro ⟨deadline, member⟩
    obtain ⟨witness, found, _⟩ := below.mpr ⟨deadline, member, bound deadline⟩
    exact ⟨witness, found⟩

end Saturating
end TelemetryEdge
