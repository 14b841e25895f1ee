import Mathlib.Data.List.TakeWhile
import SmolGpu.As.Lexer

/-!
# When lexing a line ends

Every exit of `next_token` that returns a token or an error takes at least one character from the
remaining source, with one exception: an unsigned decimal or octal number that is out of range for
an `int32_t` stays where it is (`HugeNumeral`). The same call then returns the same error for ever,
so the iteration over a line ends if and only if it never comes to such a number.
-/

namespace SmolGpu.As

open Sim

/-! ## Runs of digits -/

/-- A run of characters goes up to the first one that does not belong to it. -/
theorem takeWhile_exact {predicate : Char → Bool} {run rest : List Char}
    (hrun : ∀ c ∈ run, predicate c = true) (hend : ∀ c, rest.head? = some c → predicate c = false) :
    (run ++ rest).takeWhile predicate = run := by
  have hrest : rest.takeWhile predicate = [] := by
    cases rest with
    | nil => rfl
    | cons c rest => exact List.takeWhile_cons_of_neg (by simp [hend c rfl])
  rw [List.takeWhile_append_of_pos hrun, hrest, List.append_nil]

/-- The character behind a run does not belong to it. -/
theorem head_behind_takeWhile {predicate : Char → Bool} {source : List Char} {c : Char}
    (h : (source.drop (source.takeWhile predicate).length).head? = some c) :
    predicate c = false := by
  induction source with
  | nil => simp at h
  | cons d source ih =>
    cases hd : predicate d with
    | true =>
      rw [List.takeWhile_cons_of_pos hd, List.length_cons, List.drop_succ_cons] at h
      exact ih h
    | false =>
      rw [List.takeWhile_cons_of_neg (by simp [hd]), List.length_nil, List.drop_zero,
        List.head?_cons] at h
      obtain rfl := Option.some.inj h
      exact hd

section Digits

variable {base : ℕ} {source : List Char}

/-- The base of an unsigned numeral, from its prefix. -/
def unsignedBase : List Char → ℕ
  | '0' :: c :: _ => if c = 'x' ∨ c = 'X' then 16 else if c = 'b' ∨ c = 'B' then 2 else 8
  | _ => 10

/-- The source begins with an unsigned decimal or octal numeral that is well formed and does not fit
an `int32_t`. -/
def HugeNumeral (source : List Char) : Prop :=
  (unsignedBase source = 8 ∨ unsignedBase source = 10) ∧
    digitRun (unsignedBase source) source ≠ [] ∧
      digitRun 16 source = digitRun (unsignedBase source) source ∧
        2 ^ 31 ≤ natOfDigits (unsignedBase source) (digitRun (unsignedBase source) source)

/-- Whether a huge numeral is at the front is decided by its sign and digits. -/
instance (source : List Char) : Decidable (HugeNumeral source) := by
  unfold HugeNumeral
  infer_instance

/-- The octal and decimal digits are hexadecimal digits. -/
theorem isNumeric_sixteen (hbase : base = 8 ∨ base = 10) {c : Char} (hc : isNumeric c base = true) :
    isNumeric c 16 = true := by
  have h0 : '0' ≤ c ↔ 48 ≤ c.toNat := Char.le_def
  have h9 : c ≤ '9' ↔ c.toNat ≤ 57 := Char.le_def
  unfold isNumeric at hc ⊢
  rcases hbase with rfl | rfl
  · simp at hc
    simp [h0, h9]
    omega
  · simp at hc
    simp [h0, h9]
    omega

/-- A minus sign is no digit. -/
theorem isNumeric_minus (base : ℕ) : isNumeric '-' base = false := by
  unfold isNumeric
  split_ifs
  · simp
  · simp
  · rfl

/-- The source is its run of digits and what is behind it. -/
theorem digitRun_append_drop (base : ℕ) (source : List Char) :
    digitRun base source ++ source.drop (digitRun base source).length = source :=
  List.prefix_iff_eq_append.mp (List.takeWhile_prefix _)

/-- The characters of a run of digits are digits. -/
theorem isNumeric_of_mem_digitRun {c : Char} (hc : c ∈ digitRun base source) :
    isNumeric c base = true := by
  have hall : (digitRun base source).all (isNumeric · base) = true := List.all_takeWhile
  exact List.all_eq_true.mp hall c hc

/-- A decimal or octal run of digits is the whole hexadecimal run unless a hexadecimal digit follows
it. -/
theorem digitRun_sixteen_iff (hbase : base = 8 ∨ base = 10) :
    digitRun 16 source = digitRun base source ↔
      ∀ d, (source.drop (digitRun base source).length).head? = some d →
        isNumeric d 16 = false := by
  have hsplit := digitRun_append_drop base source
  have hrun : digitRun 16 source = digitRun base source ++
      digitRun 16 (source.drop (digitRun base source).length) := by
    conv_lhs => rw [← hsplit]
    exact List.takeWhile_append_of_pos fun c hc =>
      isNumeric_sixteen hbase (isNumeric_of_mem_digitRun hc)
  rw [hrun, List.append_right_eq_self]
  -- The hexadecimal run goes on behind the other one just if a hexadecimal digit follows.
  cases source.drop (digitRun base source).length with
  | nil => simp [digitRun]
  | cons d rest =>
    cases hd : isNumeric d 16 with
    | false => simp [digitRun, hd]
    | true => simp [digitRun, hd]

/-- `std::from_chars` on a number without a sign fails when there are no digits or their value is
out of range. -/
theorem fromChars_unsigned (hminus : '-' ∉ source) :
    fromChars source base =
      if digitRun base source = [] then .error .invalidArgument
      else if natOfDigits base (digitRun base source) < 2 ^ 31 then
        .ok (BitVec.ofNat 32 (natOfDigits base (digitRun base source)),
          source.drop (digitRun base source).length)
      else .error .resultOutOfRange := by
  cases source with
  | nil => rfl
  | cons c source =>
    have hc : c ≠ '-' := by
      rintro rfl
      exact hminus List.mem_cons_self
    unfold fromChars
    simp [hc]

/-- On digits it takes all of them. -/
theorem fromChars_digits {digits : List Char} (h : ∀ c ∈ digits, isNumeric c base = true) :
    fromChars digits base =
      if digits = [] then .error .invalidArgument
      else if natOfDigits base digits < 2 ^ 31 then
        .ok (BitVec.ofNat 32 (natOfDigits base digits), [])
      else .error .resultOutOfRange := by
  have hself : digitRun base digits = digits := List.takeWhile_eq_self_iff.mpr h
  -- A sign is no digit, so the value is not negated.
  have hminus : '-' ∉ digits := fun hmem => by
    simpa [isNumeric_minus] using h '-' hmem
  rw [fromChars_unsigned hminus, hself, List.drop_length]

end Digits

/-! ## What a number takes from the source -/

section Numbers

variable {base : ℕ} {source : List Char} {is_negative : Bool}

/-- A conversion leaves the source as it is, or consumes exactly the digits. -/
theorem convert_snd {digits rest : List Char} :
    (parseIntegral.convert is_negative base source digits rest).2 = source ∨
      (parseIntegral.convert is_negative base source digits rest).2 = rest := by
  unfold parseIntegral.convert
  cases fromChars digits base with
  | error ec => exact .inl rfl
  | ok r => exact .inr rfl

/-- What remains behind a number is a suffix of the source. -/
theorem parseIntegral_suffix : (parseIntegral is_negative base source).2 <:+ source := by
  have hrest := List.drop_suffix (digitRun base source).length source
  have hconvert : ∀ digits, (parseIntegral.convert is_negative base source digits
      (source.drop (digitRun base source).length)).2 <:+ source := by
    intro digits
    have hcases := @convert_snd base source is_negative digits
      (source.drop (digitRun base source).length)
    rcases hcases with h | h
    · rw [h]
    · rw [h]
      exact hrest
  unfold parseIntegral
  simp only
  split
  · split_ifs
    · -- A hexadecimal digit that is none of the base ends the number with an error.
      exact hrest
    · exact hconvert _
  · exact hconvert _

/-- A numeral whose value is out of range stays in the source. -/
theorem parseIntegral_huge (hbase : base = 8 ∨ base = 10) (hne : digitRun base source ≠ [])
    (hend : digitRun 16 source = digitRun base source)
    (hbig : 2 ^ 31 ≤ natOfDigits base (digitRun base source)) :
    ∃ error, parseIntegral is_negative base source = (.error error, source) := by
  have hconvert : ∀ rest, ∃ error,
      parseIntegral.convert is_negative base source (digitRun base source) rest =
        (.error error, source) := by
    intro rest
    unfold parseIntegral.convert
    rw [fromChars_digits fun c hc => isNumeric_of_mem_digitRun hc, if_neg hne,
      if_neg (Nat.not_lt.mpr hbig)]
    exact ⟨_, rfl⟩
  -- The character behind the digits is no hexadecimal digit, so it is no error of its own.
  rw [digitRun_sixteen_iff hbase] at hend
  unfold parseIntegral
  simp only
  split
  · rename_i d hd
    rw [if_neg (by simp [hend d hd])]
    exact hconvert _
  · exact hconvert _

/-- A numeral that is not out of range, and the good digits in front of a bad one, are removed. -/
theorem parseIntegral_fits (hbase : base = 8 ∨ base = 10) (hne : digitRun base source ≠ [])
    (hfits : digitRun 16 source = digitRun base source →
      natOfDigits base (digitRun base source) < 2 ^ 31) :
    (parseIntegral is_negative base source).2 = source.drop (digitRun base source).length := by
  have hconvert : digitRun 16 source = digitRun base source → ∀ rest,
      (parseIntegral.convert is_negative base source (digitRun base source) rest).2 = rest := by
    intro hend rest
    unfold parseIntegral.convert
    rw [fromChars_digits fun c hc => isNumeric_of_mem_digitRun hc, if_neg hne,
      if_pos (hfits hend)]
  rw [digitRun_sixteen_iff hbase] at hconvert
  unfold parseIntegral
  simp only
  split
  · rename_i d hd
    split_ifs with h16
    · rfl
    · -- The numeral ends here, so it is one that fits.
      refine hconvert (fun d' hd' => ?_) _
      obtain rfl : d = d' := Option.some.inj (hd.symm.trans hd')
      simpa using h16
  · rename_i hd
    exact hconvert (fun d hd' => by rw [hd] at hd'; simp at hd') _

/-- An octal or decimal magnitude is parsed in its base from the start. -/
theorem parseMagnitude_eq (h : unsignedBase source = 8 ∨ unsignedBase source = 10) :
    parseMagnitude is_negative source = parseIntegral is_negative (unsignedBase source) source := by
  unfold parseMagnitude
  split
  · rename_i c rest
    have hbase : unsignedBase ('0' :: c :: rest) =
      if c = 'x' ∨ c = 'X' then 16 else if c = 'b' ∨ c = 'B' then 2 else 8 := rfl
    rw [hbase] at h ⊢
    split_ifs at h ⊢ with hx hb
    · omega
    · omega
    · rfl
  · rename_i hshort
    have hbase : unsignedBase source = 10 := by
      unfold unsignedBase
      split
      · exact (hshort _ _ rfl).elim
      · rfl
    rw [hbase]

/-- A magnitude with a base prefix is parsed behind it. -/
theorem parseMagnitude_prefixed (h : ¬(unsignedBase source = 8 ∨ unsignedBase source = 10)) :
    ∃ base, 2 ≤ source.length ∧
      parseMagnitude is_negative source = parseIntegral is_negative base (source.drop 2) := by
  unfold parseMagnitude
  unfold unsignedBase at h
  split at h
  · rename_i c rest
    by_cases hx : c = 'x' ∨ c = 'X'
    · exact ⟨16, by simp, if_pos hx⟩
    · by_cases hb : c = 'b' ∨ c = 'B'
      · exact ⟨2, by simp, (if_neg hx).trans (if_pos hb)⟩
      · simp [hx, hb] at h
  · simp at h

/-- What remains behind a magnitude is a suffix of the source. -/
theorem parseMagnitude_suffix : (parseMagnitude is_negative source).2 <:+ source := by
  by_cases h : unsignedBase source = 8 ∨ unsignedBase source = 10
  · rw [parseMagnitude_eq h]
    exact parseIntegral_suffix
  · obtain ⟨base, -, hparse⟩ := @parseMagnitude_prefixed source is_negative h
    rw [hparse]
    exact parseIntegral_suffix.trans (List.drop_suffix 2 source)

/-- After a minus sign, at least the sign is consumed. -/
theorem parseNum_minus (source : List Char) :
    (parseNum ('-' :: source)).2 <:+ source := by
  cases source with
  | nil => exact List.suffix_refl []
  | cons c source => exact parseMagnitude_suffix

/-- Without a minus sign, the numeral is that of its magnitude. -/
theorem parseNum_unsigned {c : Char} (hc : c ≠ '-') (source : List Char) :
    parseNum (c :: source) = parseMagnitude false (c :: source) := by
  unfold parseNum
  split
  · rename_i h
    simp at h
  · rename_i h
    exact absurd (List.cons.inj h).1 hc
  · rename_i h
    exact absurd (List.cons.inj h).1 hc
  · rfl

/-- What remains behind a number is a suffix of the source. -/
theorem parseNum_suffix (source : List Char) : (parseNum source).2 <:+ source := by
  cases source with
  | nil => exact List.suffix_refl []
  | cons c source =>
    by_cases hc : c = '-'
    · subst hc
      exact (parseNum_minus source).trans (List.suffix_cons '-' source)
    · rw [parseNum_unsigned hc]
      exact parseMagnitude_suffix

/-- The first character of an octal or decimal numeral is a digit of its base if it is a digit. -/
theorem isNumeric_unsignedBase {c : Char} {rest : List Char}
    (h : unsignedBase (c :: rest) = 8 ∨ unsignedBase (c :: rest) = 10) :
    isNumeric c (unsignedBase (c :: rest)) = isNumeric c 10 := by
  rcases h with h | h
  · -- Only a zero begins an octal numeral.
    rw [h]
    unfold unsignedBase at h
    split at h
    · rename_i heq
      rw [(List.cons.inj heq).1]
      decide
    · simp at h
  · rw [h]

/-- A huge numeral starts with a digit. -/
theorem HugeNumeral.head {source : List Char} (h : HugeNumeral source) :
    ∃ c rest, source = c :: rest ∧ isNumeric c 10 = true := by
  obtain ⟨hbase, hne, -, -⟩ := h
  cases source with
  | nil => exact absurd rfl hne
  | cons c rest =>
    refine ⟨c, rest, rfl, ?_⟩
    have hc : isNumeric c (unsignedBase (c :: rest)) = true := by
      by_contra hc
      exact hne (List.takeWhile_cons_of_neg hc)
    rwa [isNumeric_unsignedBase hbase] at hc

/-- A huge numeral stays where it is. -/
theorem parseNum_huge (h : HugeNumeral source) :
    ∃ error, parseNum source = (.error error, source) := by
  obtain ⟨c, rest, rfl, hc⟩ := h.head
  have hminus : c ≠ '-' := by
    rintro rfl
    simp [isNumeric_minus] at hc
  obtain ⟨hbase, hne, hend, hbig⟩ := h
  rw [parseNum_unsigned hminus, parseMagnitude_eq hbase]
  exact parseIntegral_huge hbase hne hend hbig

/-- Of anything else that begins like a number, at least one character is removed. -/
theorem parseNum_progress {c : Char} {rest : List Char} (hc : c = '-' ∨ isNumeric c 10 = true)
    (h : ¬HugeNumeral (c :: rest)) : (parseNum (c :: rest)).2.length < (c :: rest).length := by
  by_cases hminus : c = '-'
  · -- The sign is removed before the digits are looked at.
    subst hminus
    exact Nat.lt_succ_of_le (parseNum_minus rest).length_le
  have hc10 : isNumeric c 10 = true := hc.resolve_left hminus
  rw [parseNum_unsigned hminus]
  by_cases hbase : unsignedBase (c :: rest) = 8 ∨ unsignedBase (c :: rest) = 10
  · -- The first digit belongs to the numeral in either base.
    have hc' : isNumeric c (unsignedBase (c :: rest)) = true := by
      rw [isNumeric_unsignedBase hbase]
      exact hc10
    have hrun : digitRun (unsignedBase (c :: rest)) (c :: rest) =
        c :: digitRun (unsignedBase (c :: rest)) rest := List.takeWhile_cons_of_pos hc'
    have hne : digitRun (unsignedBase (c :: rest)) (c :: rest) ≠ [] := by simp [hrun]
    rw [parseMagnitude_eq hbase, parseIntegral_fits hbase hne fun hend => by
      by_contra hbig
      exact h ⟨hbase, hne, hend, Nat.not_lt.mp hbig⟩]
    rw [hrun, List.length_drop, List.length_cons, List.length_cons]
    omega
  · -- So is a base prefix.
    obtain ⟨base, hlength, hparse⟩ := @parseMagnitude_prefixed (c :: rest) false hbase
    have hsuffix : (parseIntegral false base ((c :: rest).drop 2)).2 <:+ (c :: rest).drop 2 :=
      parseIntegral_suffix
    have hle := hsuffix.length_le
    rw [List.length_drop] at hle
    rw [hparse]
    omega

end Numbers

/-! ## What a call takes from the source -/

namespace Lexer

variable {lexer : Lexer}

/-- `chop_while` leaves an end of its source. -/
theorem chopWhile_suffix (predicate : Char → Bool) :
    (lexer.chopWhile predicate).2.source <:+ lexer.source :=
  List.drop_suffix _ _

/-- `chop` leaves an end of its source. -/
theorem chop_suffix : lexer.chop.source <:+ lexer.source := List.drop_suffix _ _

/-- `trim_whitespace` leaves an end of its source. -/
theorem trimWhitespace_suffix : lexer.trimWhitespace.source <:+ lexer.source :=
  chopWhile_suffix isWhitespace

/-- A lexer at a character that is no blank trims nothing. -/
theorem trimWhitespace_of_head {c : Char} {rest : List Char} (h : lexer.source = c :: rest)
    (hc : isWhitespace c = false) : lexer.trimWhitespace = lexer := by
  have hrun : lexer.source.takeWhile isWhitespace = [] := by
    rw [h]
    exact List.takeWhile_cons_of_neg (by simp [hc])
  unfold trimWhitespace chopWhile
  rw [hrun]
  simp

/-- `parse_directive` leaves an end of its source. -/
theorem parseDirective_suffix : lexer.parseDirective.2.source <:+ lexer.source := by
  have h := @chopWhile_suffix lexer fun c => !isWhitespace c
  unfold parseDirective
  simp only
  split_ifs
  all_goals exact h

/-- `parse_number` leaves what `parse_num` leaves. -/
theorem parseNumber_source : lexer.parseNumber.2.source = (parseNum lexer.source).2 := by
  unfold parseNumber
  cases hparse : parseNum lexer.source with
  | mk result source =>
    cases result with
    | error e => rfl
    | ok n => rfl

/-- What remains behind a token or an error is a suffix of the source. -/
theorem tokenAt_suffix (c : Char) : (lexer.tokenAt c).2.source <:+ lexer.source := by
  unfold tokenAt
  split_ifs
  · rw [parseNumber_source]
    exact parseNum_suffix _
  · exact chopWhile_suffix _
  · exact chop_suffix
  · exact chop_suffix
  · exact chop_suffix
  · exact parseDirective_suffix.trans chop_suffix
  · exact chop_suffix

/-- At a character that is no blank, a call that does not come to a huge numeral removes at least
this character. -/
theorem tokenAt_progress {c : Char} {rest : List Char} (hsource : lexer.source = c :: rest)
    (h : ¬HugeNumeral lexer.source) :
    (lexer.tokenAt c).2.source.length < lexer.source.length := by
  have hchop : lexer.chop.source.length < lexer.source.length := by
    simp [chop, hsource]
  unfold tokenAt
  split_ifs with hnumber halpha
  · rw [parseNumber_source, hsource]
    rw [hsource] at h
    exact parseNum_progress hnumber h
  · -- The first letter is a character of the keyword.
    have hc : isKeywordChar c = true := by simp [isKeywordChar, isAlphanumeric, halpha]
    have hrun : lexer.source.takeWhile isKeywordChar = c :: rest.takeWhile isKeywordChar := by
      rw [hsource]
      exact List.takeWhile_cons_of_pos hc
    show (lexer.source.drop (lexer.source.takeWhile isKeywordChar).length).length < _
    rw [hrun, List.length_drop, List.length_cons, hsource, List.length_cons]
    omega
  · exact hchop
  · exact hchop
  · exact hchop
  · exact lt_of_le_of_lt parseDirective_suffix.length_le hchop
  · exact hchop

/-- `next_token` returns nothing at the end of the source and at a comment only. -/
theorem nextToken_eq_none {rest : Lexer} (h : lexer.nextToken = (none, rest)) :
    rest = lexer.trimWhitespace ∧
      (rest.source = [] ∨ ∃ comment, rest.source = '#' :: comment) := by
  unfold nextToken at h
  simp only at h
  cases hsource : lexer.trimWhitespace.source with
  | nil =>
    rw [hsource] at h
    obtain rfl := (Prod.ext_iff.mp h).2
    exact ⟨rfl, .inl hsource⟩
  | cons c source =>
    rw [hsource] at h
    simp only [List.head?_cons] at h
    split_ifs at h with hc
    · obtain rfl := (Prod.ext_iff.mp h).2
      exact ⟨rfl, .inr ⟨source, by rw [hsource, hc]⟩⟩
    · simp at h

/-- A call that returns something comes to a character that is no blank. -/
theorem nextToken_eq_some {result : Except Error Token} {rest : Lexer}
    (h : lexer.nextToken = (some result, rest)) :
    ∃ c source, lexer.trimWhitespace.source = c :: source ∧ c ≠ '#' ∧
      lexer.trimWhitespace.tokenAt c = (result, rest) := by
  unfold nextToken at h
  simp only at h
  cases hsource : lexer.trimWhitespace.source with
  | nil =>
    rw [hsource] at h
    simp at h
  | cons c source =>
    rw [hsource] at h
    simp only [List.head?_cons] at h
    split_ifs at h with hc
    · simp at h
    · obtain ⟨hresult, hrest⟩ := Prod.ext_iff.mp h
      exact ⟨c, source, rfl, hc, Prod.ext (Option.some.inj hresult) hrest⟩

/-- At the end of a line, or at a comment, the iteration stays over. -/
theorem nextToken_over {rest : Lexer} (h : lexer.nextToken = (none, rest)) :
    rest.nextToken.1 = none := by
  obtain ⟨-, hend⟩ := nextToken_eq_none h
  rcases hend with hend | ⟨comment, hend⟩
  · -- Nothing is left.
    have htrim : rest.trimWhitespace.source = [] := by
      have hsuffix := @trimWhitespace_suffix rest
      rw [hend] at hsuffix
      exact List.suffix_nil.mp hsuffix
    unfold nextToken
    simp [htrim]
  · -- The comment is still there, and no blank is in front of it.
    unfold nextToken
    rw [trimWhitespace_of_head hend (by decide)]
    simp [hend]

/-- At a huge numeral, a call returns an error and changes nothing. -/
theorem nextToken_huge (h : HugeNumeral lexer.source) :
    ∃ error, lexer.nextToken = (some (.error error), lexer) := by
  obtain ⟨c, rest, hsource, hc⟩ := h.head
  have hblank : isWhitespace c = false := by
    by_contra hblank
    simp only [isWhitespace, Bool.not_eq_false, decide_eq_true_eq] at hblank
    rcases hblank with rfl | rfl | rfl | rfl <;> simp [isNumeric] at hc
  have hhash : c ≠ '#' := by
    rintro rfl
    simp [isNumeric] at hc
  obtain ⟨error, hparse⟩ := parseNum_huge h
  refine ⟨makeErrorAt error lexer.column_number, ?_⟩
  unfold nextToken
  rw [trimWhitespace_of_head hsource hblank]
  simp only [hsource, List.head?_cons, if_neg hhash]
  unfold tokenAt
  rw [if_pos (.inr hc)]
  unfold parseNumber
  rw [hparse]

/-- What remains behind a call that returns something is a suffix of the source. -/
theorem nextToken_suffix {result : Except Error Token} {rest : Lexer}
    (h : lexer.nextToken = (some result, rest)) : rest.source <:+ lexer.source := by
  obtain ⟨c, source, -, -, htoken⟩ := nextToken_eq_some h
  have hsuffix := @tokenAt_suffix lexer.trimWhitespace c
  rw [htoken] at hsuffix
  exact hsuffix.trans trimWhitespace_suffix

/-- A call that does not start at a huge numeral makes the source shorter. -/
theorem nextToken_progress (h : ¬HugeNumeral lexer.source) :
    Scan.Progress nextToken (fun lexer => lexer.source.length) lexer := by
  intro result rest hnext
  obtain ⟨c, source, hsource, -, htoken⟩ := nextToken_eq_some hnext
  have hle := (@trimWhitespace_suffix lexer).length_le
  by_cases hhuge : HugeNumeral lexer.trimWhitespace.source
  · -- Then there was a blank in front of the numeral, which is gone.
    have hlt : lexer.trimWhitespace.source.length < lexer.source.length := by
      refine lt_of_le_of_ne hle fun heq => h ?_
      rwa [← (@trimWhitespace_suffix lexer).eq_of_length heq]
    have hsuffix := @tokenAt_suffix lexer.trimWhitespace c
    rw [htoken] at hsuffix
    exact lt_of_le_of_lt hsuffix.length_le hlt
  · have hlt := tokenAt_progress hsource hhuge
    rw [htoken] at hlt
    exact lt_of_lt_of_le hlt hle

/-- A call that returns something removes at least one character from the front of the source. -/
def Consumes (lexer : Lexer) : Prop :=
  ∀ result rest, lexer.nextToken = (some result, rest) →
    ∃ chopped, chopped ≠ [] ∧ lexer.source = chopped ++ rest.source

/-- A call consumes something unless it starts at a huge numeral. -/
theorem consumes_iff : Consumes lexer ↔ ¬HugeNumeral lexer.source := by
  constructor
  · intro h hhuge
    obtain ⟨error, hnext⟩ := nextToken_huge hhuge
    obtain ⟨chopped, hne, hsource⟩ := h _ _ hnext
    exact hne (List.append_left_eq_self.mp hsource.symm)
  · intro h result rest hnext
    obtain ⟨chopped, hsource⟩ := nextToken_suffix hnext
    have hlt : rest.source.length < lexer.source.length := nextToken_progress h result rest hnext
    refine ⟨chopped, ?_, hsource.symm⟩
    rintro rfl
    rw [← hsource] at hlt
    simp at hlt

end Lexer

/-! ## Lines -/

/-- The lexer after `n` calls on a line. -/
def lexerAfter (line : List Char) (n : ℕ) : Lexer :=
  Scan.after Lexer.nextToken (Lexer.ofSource line) n

/-- The iteration over a line never comes to a huge numeral. -/
def NeverHuge (line : List Char) : Prop := ∀ n, ¬HugeNumeral (lexerAfter line n).source

/-- Every result is a token or an error. -/
theorem length_tokensOf_add_errorsOf (results : List (Except Error Token)) :
    (tokensOf results).length + (errorsOf results).length = results.length := by
  induction results with
  | nil => rfl
  | cons result results ih =>
    unfold tokensOf errorsOf at ih ⊢
    cases result with
    | ok token =>
      simp only [List.filterMap_cons, List.length_cons]
      omega
    | error error =>
      simp only [List.filterMap_cons, List.length_cons]
      omega

/-- Lexing a line makes progress in every call, and ends after at most as many tokens and errors as
the line has characters. -/
structure LexingTerminates (line : List Char) : Prop where
  /-- Every call that returns something consumes a character. -/
  consumes : ∀ n, (lexerAfter line n).Consumes
  /-- The calls come to an end. -/
  ends : ∃ tokens errors, collectTokens line = some (tokens, errors) ∧
    tokens.length + errors.length ≤ line.length

/-- A line on which the iteration never comes to a huge numeral is lexed in the bound. -/
theorem LexingTerminates.of_neverHuge {line : List Char} (h : NeverHuge line) :
    LexingTerminates line := by
  have hprogress : ∀ n, Scan.Progress Lexer.nextToken (fun lexer => lexer.source.length)
      (Scan.after Lexer.nextToken (Lexer.ofSource line) n) :=
    fun n => Lexer.nextToken_progress (h n)
  obtain ⟨results, hscan, hlength⟩ := Scan.scan_of_progress (Nat.le_refl _) hprogress
  refine ⟨fun n => Lexer.consumes_iff.mpr (h n), tokensOf results, errorsOf results, ?_, ?_⟩
  · unfold collectTokens
    rw [show line.length = (Lexer.ofSource line).source.length from rfl, hscan]
    rfl
  · rw [length_tokensOf_add_errorsOf]
    exact hlength

/-- An iteration that ends never comes to a huge numeral. -/
theorem neverHuge_of_scan {line : List Char} {calls : ℕ} {results : List (Except Error Token)}
    (h : Scan.scan Lexer.nextToken calls (Lexer.ofSource line) = some results) :
    NeverHuge line := by
  intro n hhuge
  obtain ⟨results', hafter⟩ := Scan.scan_after (fun _ _ h => Lexer.nextToken_over h) h n
  obtain ⟨error, hnext⟩ := Lexer.nextToken_huge hhuge
  have hnone := Scan.scan_stuck hnext calls
  exact absurd (hnone.symm.trans hafter) (by simp)

/-- Lexing a line terminates if and only if the iteration never comes to a huge numeral. Where it
does, no number of calls brings it to the end. -/
theorem lexing_terminates_iff (line : List Char) :
    (LexingTerminates line ↔ NeverHuge line) ∧
      ((∃ calls results, Scan.scan Lexer.nextToken calls (Lexer.ofSource line) = some results) ↔
        NeverHuge line) := by
  refine ⟨⟨fun h => ?_, .of_neverHuge⟩, ⟨?_, fun h => ?_⟩⟩
  · exact fun n => Lexer.consumes_iff.mp (h.consumes n)
  · rintro ⟨calls, results, hscan⟩
    exact neverHuge_of_scan hscan
  · obtain ⟨tokens, errors, hcollect, -⟩ := (LexingTerminates.of_neverHuge h).ends
    obtain ⟨results, hscan, -⟩ := Option.map_eq_some_iff.mp hcollect
    exact ⟨_, results, hscan⟩

/-- A decimal number above `2^31 - 1` is never read. -/
theorem lexing_diverges : ¬∀ line, LexingTerminates line := by
  intro h
  have hconsumes := (h "99999999999".toList).consumes 0
  exact Lexer.consumes_iff.mp hconsumes (by decide)

end SmolGpu.As
