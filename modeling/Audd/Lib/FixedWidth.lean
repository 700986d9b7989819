import Mathlib.Algebra.Order.Ring.Int
import Mathlib.Tactic.Positivity
import Mathlib.Tactic.Ring

/-!
# Integers in a fixed number of bits

Which integers fit a signed width, and what a conversion to it makes of the
others. Widths are positive.
-/

namespace FixedWidth

/-- The integers of a signed type with `w + 1` bits. -/
def Fits (w : ℕ) (n : ℤ) : Prop := -2 ^ w ≤ n ∧ n < 2 ^ w

instance (w : ℕ) (n : ℤ) : Decidable (Fits w n) := inferInstanceAs (Decidable (_ ∧ _))

theorem Fits.mono {w w' : ℕ} {n : ℤ} (h : Fits w n) (hw : w ≤ w') : Fits w' n := by
  have : (2 : ℤ) ^ w ≤ 2 ^ w' := pow_le_pow_right₀ (by norm_num) hw
  unfold Fits at h ⊢
  omega

/-- A conversion leaves an integer alone exactly when it fits. -/
theorem bmod_eq_self_iff (w : ℕ) (n : ℤ) : n.bmod (2 ^ (w + 1)) = n ↔ Fits w n := by
  have hpos : (0 : ℤ) < 2 ^ w := by positivity
  have hcast : ((2 ^ (w + 1) : ℕ) : ℤ) = 2 * 2 ^ w := by
    push_cast
    ring
  constructor
  · intro h
    have hle := Int.le_bmod (x := n) (m := 2 ^ (w + 1)) (by positivity)
    have hlt := Int.bmod_lt (x := n) (m := 2 ^ (w + 1)) (by positivity)
    rw [h, hcast] at hle hlt
    unfold Fits
    omega
  · rintro ⟨hle, hlt⟩
    apply Int.bmod_eq_of_le <;> rw [hcast] <;> omega

/-- A conversion gives zero exactly for the multiples of the modulus. -/
theorem bmod_eq_zero_iff (w : ℕ) (n : ℤ) : n.bmod (2 ^ (w + 1)) = 0 ↔ 2 ^ (w + 1) ∣ n := by
  rw [← Int.dvd_iff_bmod_eq_zero]
  push_cast
  rfl

/-- An unsigned word read as a signed one. -/
theorem toInt_toInt64 (u : UInt64) : u.toInt64.toInt = (u.toNat : ℤ).bmod (2 ^ 64) :=
  BitVec.toInt_eq_toNat_bmod u.toBitVec

/-- An unsigned word read as a signed one is the conversion of its integer. -/
theorem toInt64_eq_ofInt (u : UInt64) : u.toInt64 = Int64.ofInt u.toNat := by
  apply Int64.toInt.inj
  rw [toInt_toInt64, Int64.toInt_ofInt]
  rfl

end FixedWidth
