import SmolGpu.As.Termination
import SmolGpu.Library.Numeral

/-!
# The numbers that are read

`parse_num` takes a numeral from the front of a string: a sign, the prefix of a base, and a run of
hexadecimal digits, all of which the base must have. `NumeralAt` is this grammar, apart from the
code, and `parse_num_exact` says that the function meets it on every string.
-/

namespace SmolGpu.As

open Numeral

/-! ## The grammar -/

/-- The base of the numeral `body`, and what is behind its prefix. A zero in front of another
character is the prefix of the octal numerals, and a digit of the numeral as well. -/
inductive BasePrefix : List Char → ℕ → List Char → Prop
  | hexadecimal (x : Char) (rest : List Char) : x = 'x' ∨ x = 'X' →
      BasePrefix ('0' :: x :: rest) 16 rest
  | binary (b : Char) (rest : List Char) : b = 'b' ∨ b = 'B' →
      BasePrefix ('0' :: b :: rest) 2 rest
  | octal (c : Char) (rest : List Char) : c ≠ 'x' → c ≠ 'X' → c ≠ 'b' → c ≠ 'B' →
      BasePrefix ('0' :: c :: rest) 8 ('0' :: c :: rest)
  | decimal (body : List Char) : (∀ c rest, body ≠ '0' :: c :: rest) → BasePrefix body 10 body

/-- The digits of a numeral in front of `rest`. -/
structure DigitsAt (base : ℕ) (digits rest : List Char) : Prop where
  /-- There is a digit. -/
  nonempty : digits ≠ []
  /-- The digits are those of the base. -/
  digit : ∀ c ∈ digits, IsDigit base c
  /-- The run of digits goes on as long as the characters are digits of any base. -/
  maximal : ∀ c, rest.head? = some c → ¬IsDigit 16 c
  /-- The value is that of an `int` that is not negative. -/
  magnitude : value base digits ≤ 2 ^ 31 - 1

/-- The string is a numeral, which has the digits `digits`, and `rest`. -/
structure NumeralAt (source : List Char) (negative : Bool) (base : ℕ)
    (digits rest : List Char) : Prop extends DigitsAt base digits rest where
  /-- A minus sign perhaps, the mark of the base, and the digits. -/
  form : ∃ body, source = (if negative then '-' :: body else body) ∧
    BasePrefix body base (digits ++ rest)

/-- The value of a numeral with its sign. -/
def signedValue (negative : Bool) (base : ℕ) (digits : List Char) : ℤ :=
  if negative then -(value base digits : ℤ) else value base digits

/-! ## Digits -/

section Digits

variable {base : ℕ} {c : Char} {digits : List Char}

/-- The bases of `parse_num`. -/
def IsBase (base : ℕ) : Prop := base = 2 ∨ base = 8 ∨ base = 10 ∨ base = 16

/-- A numeral has base two, eight, ten or sixteen. -/
theorem BasePrefix.isBase {body after : List Char} (h : BasePrefix body base after) :
    IsBase base := by
  cases h with
  | hexadecimal => exact .inr (.inr (.inr rfl))
  | binary => exact .inl rfl
  | octal => exact .inr (.inl rfl)
  | decimal => exact .inr (.inr (.inl rfl))

/-- `is_numeric` knows the digits of a base. -/
theorem isNumeric_iff (hbase : IsBase base) : isNumeric c base = true ↔ IsDigit base c := by
  have h0 : '0' ≤ c ↔ 48 ≤ c.toNat := Char.le_def
  have h9 : c ≤ '9' ↔ c.toNat ≤ 57 := Char.le_def
  have hA : 'A' ≤ c ↔ 65 ≤ c.toNat := Char.le_def
  have hF : c ≤ 'F' ↔ c.toNat ≤ 70 := Char.le_def
  have ha : 'a' ≤ c ↔ 97 ≤ c.toNat := Char.le_def
  have hf : c ≤ 'f' ↔ c.toNat ≤ 102 := Char.le_def
  unfold IsDigit digit? isNumeric
  simp only [h0, h9, hA, hF, ha, hf]
  rcases hbase with rfl | rfl | rfl | rfl
  · split_ifs <;> simp <;> omega
  · split_ifs <;> simp <;> omega
  · split_ifs <;> simp <;> omega
  · split_ifs <;> simp <;> omega

/-- The code's value of a digit. -/
theorem digitValue_eq (h : IsDigit 16 c) : digitValue c = (digit? c).getD 0 := by
  have h0 : '0' ≤ c ↔ 48 ≤ c.toNat := Char.le_def
  have h9 : c ≤ '9' ↔ c.toNat ≤ 57 := Char.le_def
  have hA : 'A' ≤ c ↔ 65 ≤ c.toNat := Char.le_def
  have hF : c ≤ 'F' ↔ c.toNat ≤ 70 := Char.le_def
  have hZ : c ≤ 'Z' ↔ c.toNat ≤ 90 := Char.le_def
  have ha : 'a' ≤ c ↔ 97 ≤ c.toNat := Char.le_def
  have hf : c ≤ 'f' ↔ c.toNat ≤ 102 := Char.le_def
  obtain ⟨d, hd, hlt⟩ := h
  unfold digit? at hd ⊢
  unfold digitValue
  simp only [h0, h9, hA, hF, hZ, ha, hf] at hd ⊢
  split_ifs at hd ⊢ <;> simp at hd ⊢ <;> omega

/-- The value that `std::from_chars` computes. -/
theorem natOfDigits_eq (h : ∀ c ∈ digits, IsDigit 16 c) :
    natOfDigits base digits = value base digits := by
  have hfold : ∀ n, digits.foldl (fun n c => n * base + digitValue c) n =
      digits.foldl (fun n c => n * base + (digit? c).getD 0) n := by
    induction digits with
    | nil => exact fun _ => rfl
    | cons c digits ih =>
      intro n
      rw [List.foldl_cons, List.foldl_cons, digitValue_eq (h c List.mem_cons_self),
        ih fun c hc => h c (List.mem_cons_of_mem _ hc)]
  exact hfold 0

end Digits

/-! ## The number behind the prefix -/

section Integral

variable {base : ℕ} {negative : Bool} {number : WordType}
  {source digits rest body after : List Char}

/-- The word that `parse_integral` makes of the digits. -/
def signedWord (negative : Bool) (base : ℕ) (digits : List Char) : WordType :=
  if negative then -BitVec.ofNat 32 (value base digits) else BitVec.ofNat 32 (value base digits)

/-- A magnitude below `2^31` is an `int32_t`, and so is its negation. -/
theorem DigitsAt.toInt_ofNat (h : DigitsAt base digits rest) :
    (BitVec.ofNat 32 (value base digits)).toInt = value base digits := by
  have hlt := h.magnitude
  rw [BitVec.toInt_eq_toNat_cond, BitVec.toNat_ofNat, Nat.mod_eq_of_lt (by omega),
    if_pos (by omega)]

/-- The digits are below `2^31`, so that their negation does not overflow. -/
theorem DigitsAt.negOverflow (h : DigitsAt base digits rest) :
    (BitVec.ofNat 32 (value base digits)).negOverflow = false := by
  have hlow : (BitVec.ofNat 32 (value base digits)).toInt ≠ -2 ^ 31 := by
    rw [h.toInt_ofNat]
    omega
  simpa [BitVec.negOverflow] using hlow

/-- The word of a numeral has the numeral's value. -/
theorem DigitsAt.toInt_signedWord (h : DigitsAt base digits rest) :
    (signedWord negative base digits).toInt = signedValue negative base digits := by
  unfold signedWord signedValue
  cases negative with
  | false => exact h.toInt_ofNat
  | true =>
    rw [if_pos rfl, if_pos rfl, BitVec.toInt_neg_of_not_negOverflow, h.toInt_ofNat]
    simp [h.negOverflow]

/-- The digits of a base in front of something else are the run of its digits. -/
theorem DigitsAt.digitRun (h : DigitsAt base digits rest) (hbase : IsBase base) :
    digitRun base (digits ++ rest) = digits := by
  have hdigits : ∀ c ∈ digits, isNumeric c base = true := fun c hc =>
    (isNumeric_iff hbase).mpr (h.digit c hc)
  have hle : base ≤ 16 := by
    rcases hbase with rfl | rfl | rfl | rfl <;> decide
  refine takeWhile_exact hdigits fun c hc => ?_
  by_contra hnumeric
  rw [Bool.not_eq_false, isNumeric_iff hbase] at hnumeric
  exact h.maximal c hc (hnumeric.mono hle)

/-- The value of digits that are in range is read. -/
theorem convert_eq (hbase : IsBase base) (hdigits : ∀ c ∈ digits, IsDigit base c) :
    parseIntegral.convert negative base source digits rest = (.ok number, after) ↔
      digits ≠ [] ∧ value base digits ≤ 2 ^ 31 - 1 ∧ number = signedWord negative base digits ∧
        after = rest := by
  have hle : base ≤ 16 := by
    rcases hbase with rfl | rfl | rfl | rfl <;> decide
  -- The digits are those of the base, so `std::from_chars` reads them all, and fails only when
  -- there are none or the value is out of range.
  have hvalue : natOfDigits base digits = value base digits :=
    natOfDigits_eq fun c hc => (hdigits c hc).mono hle
  unfold parseIntegral.convert signedWord
  rw [fromChars_digits fun c hc => (isNumeric_iff hbase).mpr (hdigits c hc), hvalue]
  by_cases hempty : digits = []
  · simp [hempty]
  by_cases hlt : value base digits < 2 ^ 31
  · rw [if_neg hempty, if_pos hlt]
    constructor
    · intro h
      obtain ⟨hnumber, hafter⟩ := Prod.ext_iff.mp h
      exact ⟨hempty, by omega, (Except.ok.inj hnumber).symm, hafter.symm⟩
    · rintro ⟨-, -, rfl, rfl⟩
      rfl
  · rw [if_neg hempty, if_neg hlt]
    constructor
    · intro h
      cases h
    · rintro ⟨-, hmagnitude, -⟩
      omega

/-- `parse_integral` reads the digits of its base, up to a character that is no digit of any
base. -/
theorem parseIntegral_ok_iff (hbase : IsBase base) :
    parseIntegral negative base source = (.ok number, rest) ↔
      ∃ digits, source = digits ++ rest ∧ DigitsAt base digits rest ∧
        number = signedWord negative base digits := by
  have h16 : IsBase 16 := .inr (.inr (.inr rfl))
  constructor
  · intro h
    have hsplit := digitRun_append_drop base source
    have hrun : ∀ c ∈ digitRun base source, IsDigit base c := fun c hc =>
      (isNumeric_iff hbase).mp (isNumeric_of_mem_digitRun hc)
    -- What is behind the digits does not go on with a digit.
    have hread : (∀ c, (source.drop (digitRun base source).length).head? = some c → ¬IsDigit 16 c) ∧
        parseIntegral.convert negative base source (digitRun base source)
          (source.drop (digitRun base source).length) = (.ok number, rest) := by
      unfold parseIntegral at h
      simp only at h
      cases hhead : (source.drop (digitRun base source).length).head? with
      | none =>
        rw [hhead] at h
        exact ⟨by simp, h⟩
      | some c =>
        rw [hhead] at h
        simp only at h
        split_ifs at h with hc
        · simp at h
        · rw [isNumeric_iff h16] at hc
          refine ⟨fun c' hc' => ?_, h⟩
          obtain rfl := Option.some.inj hc'
          exact hc
    obtain ⟨hmaximal, hconvert⟩ := hread
    obtain ⟨hnonempty, hmagnitude, hnumber, rfl⟩ := (convert_eq hbase hrun).mp hconvert
    exact ⟨_, hsplit.symm, ⟨hnonempty, hrun, hmaximal, hmagnitude⟩, hnumber⟩
  · rintro ⟨digits, rfl, h, rfl⟩
    have hconvert : parseIntegral.convert negative base (digits ++ rest) digits rest =
        (.ok (signedWord negative base digits), rest) :=
      (convert_eq hbase h.digit).mpr ⟨h.nonempty, h.magnitude, rfl, rfl⟩
    unfold parseIntegral
    simp only [h.digitRun hbase, List.drop_left]
    cases hhead : rest.head? with
    | none => exact hconvert
    | some c =>
      have hc : ¬isNumeric c 16 = true := by
        rw [isNumeric_iff h16]
        exact h.maximal c hhead
      simp only
      rw [if_neg hc]
      exact hconvert

/-! ## The prefix and the sign -/

/-- Behind the prefix of a base, the number is read in that base. -/
theorem BasePrefix.parseMagnitude (h : BasePrefix body base after) :
    parseMagnitude negative body = parseIntegral negative base after := by
  cases h with
  | hexadecimal x rest hx => exact if_pos hx
  | binary b rest hb =>
    have hx : ¬(b = 'x' ∨ b = 'X') := by
      rcases hb with rfl | rfl <;> decide
    exact (if_neg hx).trans (if_pos hb)
  | octal c rest hx hX hb hB => exact (if_neg (by simp [hx, hX])).trans (if_neg (by simp [hb, hB]))
  | decimal =>
    rename_i hshort
    unfold As.parseMagnitude
    split
    · exact absurd rfl (hshort _ _)
    · rfl

/-- Every string has a prefix, which may be that of the decimal numerals. -/
theorem exists_basePrefix (body : List Char) : ∃ base after, BasePrefix body base after := by
  by_cases hzero : ∃ c rest, body = '0' :: c :: rest
  · obtain ⟨c, rest, rfl⟩ := hzero
    by_cases hx : c = 'x' ∨ c = 'X'
    · exact ⟨16, rest, .hexadecimal c rest hx⟩
    by_cases hb : c = 'b' ∨ c = 'B'
    · exact ⟨2, rest, .binary c rest hb⟩
    · rw [not_or] at hx hb
      exact ⟨8, _, .octal c rest hx.1 hx.2 hb.1 hb.2⟩
  · exact ⟨10, body, .decimal body fun c rest h => hzero ⟨c, rest, h⟩⟩

/-- A magnitude is read exactly when it is digits of its base, with the value in the range of an
`int`. -/
theorem parseMagnitude_ok_iff :
    parseMagnitude negative body = (.ok number, rest) ↔
      ∃ base digits, BasePrefix body base (digits ++ rest) ∧ DigitsAt base digits rest ∧
        number = signedWord negative base digits := by
  constructor
  · intro h
    obtain ⟨base, after, hpre⟩ := exists_basePrefix body
    rw [hpre.parseMagnitude, parseIntegral_ok_iff hpre.isBase] at h
    obtain ⟨digits, rfl, hdigits, hnumber⟩ := h
    exact ⟨base, digits, hpre, hdigits, hnumber⟩
  · rintro ⟨base, digits, hpre, hdigits, hnumber⟩
    rw [hpre.parseMagnitude, parseIntegral_ok_iff hpre.isBase]
    exact ⟨digits, rfl, hdigits, hnumber⟩

/-- No magnitude is empty or begins with a sign. -/
theorem parseMagnitude_head (h : parseMagnitude negative body = (.ok number, rest)) :
    ∃ c after, body = c :: after ∧ c ≠ '-' := by
  cases body with
  | nil => cases h
  | cons c after =>
    refine ⟨c, after, rfl, ?_⟩
    rintro rfl
    have hpre : BasePrefix ('-' :: after) 10 ('-' :: after) :=
      .decimal _ fun c rest h => absurd (List.cons.inj h).1 (by decide)
    rw [hpre.parseMagnitude, parseIntegral_ok_iff hpre.isBase] at h
    obtain ⟨digits, hsplit, hdigits, -⟩ := h
    cases digits with
    | nil => exact hdigits.nonempty rfl
    | cons d digits =>
      obtain rfl := (List.cons.inj hsplit).1
      have hminus := (isNumeric_iff hpre.isBase).mpr (hdigits.digit '-' List.mem_cons_self)
      rw [isNumeric_minus] at hminus
      simp at hminus

/-- `parse_num` removes a minus sign and reads the magnitude behind it. -/
theorem parseNum_ok_iff :
    parseNum source = (.ok number, rest) ↔
      ∃ negative body, source = (if negative then '-' :: body else body) ∧
        parseMagnitude negative body = (.ok number, rest) := by
  constructor
  · intro h
    unfold parseNum at h
    split at h
    · cases h
    · cases h
    · exact ⟨true, _, rfl, h⟩
    · exact ⟨false, _, rfl, h⟩
  · rintro ⟨negative, body, rfl, h⟩
    obtain ⟨c, after, rfl, hc⟩ := parseMagnitude_head h
    cases negative with
    | true => exact h
    | false => exact (parseNum_unsigned hc after).trans h

/-- `parse_num` reads the numerals. -/
theorem parseNum_ok_iff_numeralAt :
    parseNum source = (.ok number, rest) ↔
      ∃ negative base digits, NumeralAt source negative base digits rest ∧
        number.toInt = signedValue negative base digits := by
  rw [parseNum_ok_iff]
  constructor
  · rintro ⟨negative, body, hbody, h⟩
    obtain ⟨base, digits, hpre, hdigits, rfl⟩ := parseMagnitude_ok_iff.mp h
    exact ⟨negative, base, digits, ⟨hdigits, body, hbody, hpre⟩, hdigits.toInt_signedWord⟩
  · rintro ⟨negative, base, digits, ⟨hdigits, body, hbody, hpre⟩, hnumber⟩
    refine ⟨negative, body, hbody, parseMagnitude_ok_iff.mpr ⟨base, digits, hpre, hdigits, ?_⟩⟩
    exact BitVec.eq_of_toInt_eq (hnumber.trans hdigits.toInt_signedWord.symm)

end Integral

/-- `parse_num` meets its grammar on every string. It returns a number and the remaining source if
and only if the string is a numeral in front of that source, and the number is then the numeral's
value. The magnitude is an `int32_t` whose negation does not overflow. -/
theorem parse_num_exact (source : List Char) :
    (∀ number rest, parseNum source = (.ok number, rest) ↔
      ∃ negative base digits, NumeralAt source negative base digits rest ∧
        number.toInt = signedValue negative base digits) ∧
    ∀ negative base digits rest, NumeralAt source negative base digits rest →
      (∃ number, parseNum source = (.ok number, rest)) ∧
        (BitVec.ofNat 32 (value base digits)).toInt = value base digits ∧
          (BitVec.ofNat 32 (value base digits)).negOverflow = false := by
  refine ⟨fun number rest => parseNum_ok_iff_numeralAt, fun negative base digits rest h =>
    ⟨?_, h.toInt_ofNat, h.negOverflow⟩⟩
  exact ⟨signedWord negative base digits,
    parseNum_ok_iff_numeralAt.mpr ⟨negative, base, digits, h, h.toInt_signedWord⟩⟩

end SmolGpu.As
