import Mathlib.Data.BitVec

/-!
# Fields of a word

A word that is put together from fields is an OR of values, each shifted to the position of its
field. Reading a field back distributes over the OR (`BitVec.extractLsb'_or`). What a shifted value
contributes to the field that is read depends on where it lands: nothing where the two do not meet,
and its own bits where they do.
-/

namespace SmolGpu.BitField

variable {w : ℕ} {v : BitVec w} {k m s n : ℕ}

/-- The last two of three values that are put together can change places. -/
theorem bitOr_right_comm (a b c : BitVec w) : a ||| b ||| c = a ||| c ||| b := by
  rw [BitVec.or_assoc, BitVec.or_comm b, ← BitVec.or_assoc]

/-- A value of `m` bits has no bit from `m` on. -/
theorem getLsbD_of_lt (hv : v.toNat < 2 ^ m) {i : ℕ} (hi : m ≤ i) : v.getLsbD i = false := by
  have hlt : v.toNat < 2 ^ i := lt_of_lt_of_le hv (Nat.pow_le_pow_right (by omega) hi)
  exact Nat.testBit_lt_two_pow hlt

/-- A field above a value of `m` bits reads zero. -/
theorem extract_of_lt (hv : v.toNat < 2 ^ m) (h : m ≤ s) : v.extractLsb' s n = 0#n := by
  apply BitVec.eq_of_getLsbD_eq
  intro i hi
  rw [BitVec.getLsbD_extractLsb', getLsbD_of_lt hv (by omega)]
  simp

/-- A field below the position of a value reads zero. -/
theorem extract_shiftLeft_below (h : s + n ≤ k) : (v <<< k).extractLsb' s n = 0#n := by
  apply BitVec.eq_of_getLsbD_eq
  intro i hi
  have hlt : s + i < k := by omega
  rw [BitVec.getLsbD_extractLsb', BitVec.getLsbD_shiftLeft]
  simp [hlt]

/-- A field at or above the position of a value reads the value's own bits. -/
theorem extract_shiftLeft (h : k ≤ s) (hw : s + n ≤ w) :
    (v <<< k).extractLsb' s n = v.extractLsb' (s - k) n := by
  apply BitVec.eq_of_getLsbD_eq
  intro i hi
  have hpos : s + i < w ∧ ¬s + i < k := by omega
  have hsub : s + i - k = s - k + i := by omega
  rw [BitVec.getLsbD_extractLsb', BitVec.getLsbD_extractLsb', BitVec.getLsbD_shiftLeft, hsub]
  simp [hpos]

/-- A field above a shifted value of `m` bits reads zero. -/
theorem extract_shiftLeft_above (hv : v.toNat < 2 ^ m) (h : k + m ≤ s) (hw : s + n ≤ w) :
    (v <<< k).extractLsb' s n = 0#n := by
  rw [extract_shiftLeft (by omega) hw]
  exact extract_of_lt hv (by omega)

/-- The field at the position of a value reads its low bits. -/
theorem extract_shiftLeft_self (hw : k + n ≤ w) : (v <<< k).extractLsb' k n = v.setWidth n := by
  rw [extract_shiftLeft le_rfl hw, Nat.sub_self, BitVec.setWidth_eq_extractLsb' (by omega)]

/-- A field of a field is a field of the word. -/
theorem extract_extract (h : s + n ≤ m) :
    (v.extractLsb' k m).extractLsb' s n = v.extractLsb' (k + s) n := by
  apply BitVec.eq_of_getLsbD_eq
  intro i hi
  have hlt : s + i < m := by omega
  rw [BitVec.getLsbD_extractLsb', BitVec.getLsbD_extractLsb', BitVec.getLsbD_extractLsb']
  simp [hi, hlt, Nat.add_assoc]

end SmolGpu.BitField
