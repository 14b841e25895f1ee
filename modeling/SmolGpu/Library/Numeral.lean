import Mathlib.Data.Int.Notation
import Mathlib.Data.Nat.Notation
import Mathlib.Logic.Basic
import Mathlib.Tactic.SplitIfs

/-!
# Numerals

The digits of the bases up to 16, and the value of a sequence of them, the most significant first. A
number is the value of the digits that `Nat.toDigits` writes it with (`value_toDigits`).
-/

namespace SmolGpu.Numeral

variable {base base' : ℕ} {c : Char}

/-- The value of a digit. -/
def digit? (c : Char) : Option ℕ :=
  if '0' ≤ c ∧ c ≤ '9' then some (c.toNat - '0'.toNat)
  else if 'A' ≤ c ∧ c ≤ 'F' then some (c.toNat - 'A'.toNat + 10)
  else if 'a' ≤ c ∧ c ≤ 'f' then some (c.toNat - 'a'.toNat + 10)
  else none

/-- The character is a digit of the base. -/
def IsDigit (base : ℕ) (c : Char) : Prop := ∃ d, digit? c = some d ∧ d < base

/-- The value of a sequence of digits. -/
def value (base : ℕ) (digits : List Char) : ℕ :=
  digits.foldl (fun n c => n * base + (digit? c).getD 0) 0

/-- A digit is one of every greater base as well. -/
theorem IsDigit.mono (h : IsDigit base c) (hle : base ≤ base') : IsDigit base' c := by
  obtain ⟨d, hd, hlt⟩ := h
  exact ⟨d, hd, by omega⟩

/-- The decimal digits are the characters from zero to nine. -/
theorem isDigit_ten_iff : IsDigit 10 c ↔ c.isDigit = true := by
  have h0 : '0' ≤ c ↔ 48 ≤ c.toNat := Char.le_def
  have h9 : c ≤ '9' ↔ c.toNat ≤ 57 := Char.le_def
  have hdigit : c.isDigit = true ↔ 48 ≤ c.toNat ∧ c.toNat ≤ 57 := by
    rw [Char.isDigit_iff_toNat]
    rfl
  unfold IsDigit digit?
  rw [hdigit]
  simp only [h0, h9]
  split_ifs with hc ha hf
  · simp
    omega
  · simp
    omega
  · simp
    omega
  · simp
    omega

/-- The value of a decimal digit. -/
theorem digit?_of_isDigit (h : c.isDigit = true) : digit? c = some (c.toNat - '0'.toNat) := by
  have h0 : '0' ≤ c ↔ 48 ≤ c.toNat := Char.le_def
  have h9 : c ≤ '9' ↔ c.toNat ≤ 57 := Char.le_def
  have hdigit : 48 ≤ c.toNat ∧ c.toNat ≤ 57 := by
    rw [Char.isDigit_iff_toNat] at h
    exact h
  unfold digit?
  rw [if_pos ⟨h0.mpr hdigit.1, h9.mpr hdigit.2⟩]

/-- The value of a decimal numeral, as the standard library computes it. -/
theorem value_ten {digits : List Char} (h : ∀ c ∈ digits, c.isDigit = true) :
    value 10 digits = Nat.ofDigitChars 10 digits 0 := by
  have hfold : ∀ n, digits.foldl (fun n c => n * 10 + (digit? c).getD 0) n =
      Nat.ofDigitChars 10 digits n := by
    induction digits with
    | nil => exact fun n => Nat.ofDigitChars_nil.symm
    | cons c digits ih =>
      intro n
      have hc : digit? c = some (c.toNat - '0'.toNat) := digit?_of_isDigit (h c List.mem_cons_self)
      rw [List.foldl_cons, Nat.ofDigitChars_cons, hc, Nat.mul_comm,
        ih fun c hc => h c (List.mem_cons_of_mem _ hc)]
      rfl
  exact hfold 0

/-- A number is the value of its decimal digits. -/
theorem value_toDigits (n : ℕ) : value 10 (Nat.toDigits 10 n) = n := by
  have hdigits : ∀ c ∈ Nat.toDigits 10 n, c.isDigit = true := fun c hc =>
    Nat.isDigit_of_mem_toDigits (by decide) (by decide) hc
  rw [value_ten hdigits, Nat.ofDigitChars_ten_toDigits]

/-- The digits that a number is written with are decimal ones. -/
theorem isDigit_of_mem_toDigits {n : ℕ} (hc : c ∈ Nat.toDigits 10 n) : IsDigit 10 c :=
  isDigit_ten_iff.mpr (Nat.isDigit_of_mem_toDigits (by decide) (by decide) hc)

/-- Only the numeral of zero begins with a zero. -/
theorem eq_zero_of_toDigits_head {n : ℕ} (h : (Nat.toDigits 10 n).head? = some '0') : n = 0 := by
  induction n using Nat.strongRecOn with
  | ind n ih =>
    by_cases hlt : n < 10
    · rw [Nat.toDigits_of_lt_base hlt, List.head?_cons] at h
      exact Nat.digitChar_eq_zero.mp (Option.some.inj h)
    · -- The last digit is removed, and what is left is not zero.
      have hdiv : (Nat.toDigits 10 (n / 10)).head? = some '0' := by
        obtain ⟨c, digits, hdigits⟩ := List.exists_cons_of_ne_nil (@Nat.toDigits_ne_nil (n / 10) 10)
        rw [Nat.toDigits_of_base_le (by decide) (by omega), hdigits] at h
        rw [hdigits]
        exact h
      have hzero := ih (n / 10) (by omega) hdiv
      omega

/-- An integer is written as its sign and the digits of its magnitude. -/
theorem toList_toString (z : ℤ) :
    (toString z).toList =
      if z < 0 then '-' :: Nat.toDigits 10 z.natAbs else Nat.toDigits 10 z.natAbs := by
  rw [Int.toString_eq_repr, Int.repr_eq_if]
  by_cases hneg : z < 0
  · rw [if_neg (by omega), if_pos hneg, String.toList_append, Nat.toList_repr,
      show (-z).toNat = z.natAbs by omega]
    rfl
  · rw [if_pos (by omega), if_neg hneg, Nat.toList_repr, show z.toNat = z.natAbs by omega]

end SmolGpu.Numeral
