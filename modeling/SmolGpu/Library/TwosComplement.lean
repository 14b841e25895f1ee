import Mathlib.Data.BitVec
import Mathlib.Tactic.Positivity

/-!
# Words read as signed numbers

A word of `w` bits is an unsigned number and, in two's complement, a signed one. An operation on the
one reading need not be the same operation on the other. The two orders agree on a pair of words
exactly if the words have the same sign (`lt_iff_toInt_lt_iff`). A shift to the right that fills in
zeros divides the signed number, rounding down, exactly if the word is not negative or is not
shifted at all (`toInt_ushiftRight_eq_iff`).
-/

namespace SmolGpu.TwosComplement

variable {w k : ℕ} {x y : BitVec w}

/-- The unsigned order of two words is their signed order exactly if they have the same sign. -/
theorem lt_iff_toInt_lt_iff : (x < y ↔ x.toInt < y.toInt) ↔ x.msb = y.msb := by
  rw [← BitVec.slt_iff_toInt_lt, ← BitVec.ult_iff_lt]
  by_cases hsign : x.msb = y.msb
  · rw [BitVec.slt_eq_ult_of_msb_eq hsign]
    simp [hsign]
  · -- Of two words of different signs, the negative one is the greater unsigned number.
    rw [BitVec.slt_eq_not_ult_of_msb_neq hsign]
    cases x.ult y <;> simp [hsign]

/-- A negative number that is divided by a power of two, rounding down, stays negative. -/
theorem toInt_ediv_neg (h : x.msb = true) (k : ℕ) : x.toInt / 2 ^ k < 0 := by
  have hneg : x.toInt < 0 := by simpa [BitVec.msb_eq_toInt] using h
  exact Int.ediv_neg_of_neg_of_pos hneg (by positivity)

/-- A shift that fills in zeros divides the signed number by a power of two, rounding down, exactly
if the number is not negative or the shift does nothing. -/
theorem toInt_ushiftRight_eq_iff :
    (x >>> k).toInt = x.toInt / 2 ^ k ↔ x.msb = false ∨ k = 0 := by
  rcases Nat.eq_zero_or_pos k with rfl | hk
  · simp
  have hshift : (x >>> k).toInt = ((x.toNat / 2 ^ k : ℕ) : ℤ) := by
    rw [BitVec.toInt_ushiftRight_of_lt hk, Nat.shiftRight_eq_div_pow]
  rcases hsign : x.msb with _ | _
  · rw [hshift, BitVec.toInt_eq_toNat_of_msb hsign]
    simp
  · -- The shifted word is not negative, and the quotient is.
    have hquotient := toInt_ediv_neg hsign k
    have hword : 0 ≤ ((x.toNat / 2 ^ k : ℕ) : ℤ) := Int.natCast_nonneg _
    rw [hshift]
    refine iff_of_false (by omega) ?_
    simp
    omega

/-- The quotient is zero exactly if the unsigned number is less than the divisor. -/
theorem toInt_ediv_eq_zero_iff (hk : k < w) : x.toInt / 2 ^ k = 0 ↔ x.toNat < 2 ^ k := by
  rcases hsign : x.msb with _ | _
  · rw [BitVec.toInt_eq_toNat_of_msb hsign]
    have hcast : (x.toNat : ℤ) / 2 ^ k = ((x.toNat / 2 ^ k : ℕ) : ℤ) := by simp
    rw [hcast, Int.natCast_eq_zero, Nat.div_eq_zero_iff]
    simp
  · -- A negative number is at least half the range, and so is no less than the divisor.
    have hquotient := toInt_ediv_neg hsign k
    have hhalf : 2 ^ (w - 1) ≤ x.toNat := by simpa [BitVec.msb_eq_decide] using hsign
    have hdivisor : (2 : ℕ) ^ k ≤ 2 ^ (w - 1) := Nat.pow_le_pow_right (by decide) (by omega)
    refine iff_of_false (by omega) (by omega)

end SmolGpu.TwosComplement
