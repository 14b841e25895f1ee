import SmolGpu.As.Numbers

/-!
# The words that are registers

`parse_keyword` tries a mnemonic, a label with its colon, a register, and a label reference, in this
order. The number of a register is read by `std::from_chars`, which stops behind the digits and
knows no upper bound but that of an `int32_t`. So a word that only begins like a register
(`StartsLikeRegister`) is one to the lexer, whatever follows the digits, and with any number; also
where the word had two colons, of which the one at the end has been removed.
`register_names_exact_iff` says that on all other words registers and label references are told
apart as they should.
-/

namespace SmolGpu.As

open Sim Numeral

/-! ## The names of registers -/

/-- The letter of a register file. -/
def letter : RegisterType → Char
  | .VECTOR => 'x'
  | .SCALAR => 's'

/-- The word is the letter of a register file with the decimal digits `digits`, and `rest`. -/
structure RegisterAt (word : List Char) (type : RegisterType) (digits rest : List Char) : Prop where
  /-- The letter, the digits, and the rest. -/
  form : word = letter type :: (digits ++ rest)
  /-- There is a digit. -/
  nonempty : digits ≠ []
  /-- The digits are decimal. -/
  digit : ∀ c ∈ digits, IsDigit 10 c
  /-- The rest does not go on with a digit. -/
  maximal : ∀ c, rest.head? = some c → ¬IsDigit 10 c

/-- The word is the name of a register: nothing follows the digits, and the number is at most 31. -/
def RegisterName (word : List Char) (reg : Register) : Prop :=
  ∃ digits, RegisterAt word reg.type digits [] ∧ value 10 digits ≤ 31 ∧
    reg.register_number = BitVec.ofNat 32 (value 10 digits)

/-- The word begins like a register, with a number that an `int32_t` can hold. -/
def StartsLikeRegister (word : List Char) : Prop :=
  ∃ type digits rest, RegisterAt word type digits rest ∧ value 10 digits < 2 ^ 31

/-- The word declares a label: the label's characters and a colon. -/
def DeclaresLabel (word name : List Char) : Prop :=
  word = name ++ [':'] ∧ ∀ c ∈ name, isLabelChar c = true

section RegisterAt

variable {word digits digits' rest rest' str : List Char} {type type' : RegisterType} {c : Char}

/-- The letter of a register names its file. -/
theorem letter_injective (h : letter type = letter type') : type = type' := by
  cases type <;> cases type' <;> first | rfl | exact absurd h (by decide)

/-- `is_numeric` at base ten is being a decimal digit. -/
theorem isNumeric_ten_iff : isNumeric c 10 = true ↔ IsDigit 10 c :=
  isNumeric_iff (.inr (.inr (.inl rfl)))

/-- The digits are the run of digits behind the letter. -/
theorem RegisterAt.digits_eq (h : RegisterAt (letter type' :: str) type digits rest) :
    type = type' ∧ digits = digitRun 10 str ∧ rest = str.drop (digitRun 10 str).length := by
  obtain ⟨hletter, rfl⟩ := List.cons.inj h.form
  have hrun : digitRun 10 (digits ++ rest) = digits := by
    refine takeWhile_exact (fun c hc => isNumeric_ten_iff.mpr (h.digit c hc)) fun c hc => ?_
    by_contra hnumeric
    rw [Bool.not_eq_false, isNumeric_ten_iff] at hnumeric
    exact h.maximal c hc hnumeric
  rw [hrun, List.drop_left]
  exact ⟨(letter_injective hletter).symm, rfl, rfl⟩

/-- A word begins with a register in one way. -/
theorem RegisterAt.unique (h : RegisterAt word type digits rest)
    (h' : RegisterAt word type' digits' rest') :
    type = type' ∧ digits = digits' ∧ rest = rest' := by
  have hword := h'.form
  rw [hword] at h h'
  obtain ⟨htype, hdigits, hrest⟩ := h.digits_eq
  obtain ⟨-, hdigits', hrest'⟩ := h'.digits_eq
  exact ⟨htype, hdigits.trans hdigits'.symm, hrest.trans hrest'.symm⟩

/-- A letter in front of a digit begins like a register. -/
theorem registerAt_digitRun (h : digitRun 10 str ≠ []) :
    RegisterAt (letter type :: str) type (digitRun 10 str) (str.drop (digitRun 10 str).length) where
  form := by rw [digitRun_append_drop]
  nonempty := h
  digit c hc := isNumeric_ten_iff.mp (isNumeric_of_mem_digitRun hc)
  maximal c hc hdigit := by
    have hend : isNumeric c 10 = false := head_behind_takeWhile hc
    rw [isNumeric_ten_iff.mpr hdigit] at hend
    simp at hend

end RegisterAt

/-! ## Reading a register -/

section StrToReg

variable {word str : List Char} {reg : Register} {type : RegisterType}

/-- What `std::from_chars` makes of a number without a sign. -/
theorem regNumber_ok_iff (hminus : '-' ∉ str) :
    regNumber type str = .ok reg ↔ reg.type = type ∧ digitRun 10 str ≠ [] ∧
      value 10 (digitRun 10 str) < 2 ^ 31 ∧
        reg.register_number = BitVec.ofNat 32 (value 10 (digitRun 10 str)) := by
  have hvalue : natOfDigits 10 (digitRun 10 str) = value 10 (digitRun 10 str) :=
    natOfDigits_eq fun c hc =>
      (isNumeric_ten_iff.mp (isNumeric_of_mem_digitRun hc)).mono (by decide)
  unfold regNumber
  rw [fromChars_unsigned hminus, hvalue]
  -- `from_chars` fails without a digit and on a value that an `int` does not hold.
  by_cases hempty : digitRun 10 str = []
  · simp [hempty]
  by_cases hlt : value 10 (digitRun 10 str) < 2 ^ 31
  · rw [if_neg hempty, if_pos hlt]
    constructor
    · intro h
      obtain rfl := Except.ok.inj h
      exact ⟨rfl, hempty, hlt, rfl⟩
    · rintro ⟨rfl, -, -, hnumber⟩
      simp only
      rw [← hnumber]
  · rw [if_neg hempty, if_neg hlt]
    exact ⟨fun h => absurd h (by simp), fun h => absurd h.2.2.1 hlt⟩

/-- `str_to_reg` reads the number behind the letter of a register file. -/
theorem strToReg_letter (h : strToReg word = .ok reg) :
    ∃ type str, word = letter type :: str ∧ regNumber type str = .ok reg := by
  unfold strToReg at h
  split_ifs at h
  split at h
  · exact ⟨.VECTOR, _, rfl, h⟩
  · exact ⟨.SCALAR, _, rfl, h⟩
  · cases h

/-- `str_to_reg` reads every word that begins like a register. -/
theorem strToReg_ok_iff (hminus : '-' ∉ word) :
    strToReg word = .ok reg ↔ ∃ digits rest, RegisterAt word reg.type digits rest ∧
      value 10 digits < 2 ^ 31 ∧ reg.register_number = BitVec.ofNat 32 (value 10 digits) := by
  constructor
  · intro h
    obtain ⟨type, str, rfl, hnumber⟩ := strToReg_letter h
    obtain ⟨rfl, hrun, hlt, hreg⟩ :=
      (regNumber_ok_iff fun hmem => hminus (List.mem_cons_of_mem _ hmem)).mp hnumber
    exact ⟨_, _, registerAt_digitRun hrun, hlt, hreg⟩
  · rintro ⟨digits, rest, h, hlt, hreg⟩
    obtain rfl := h.form
    obtain ⟨-, hdigits, -⟩ := h.digits_eq
    -- The word has the letter and at least one digit.
    have hlength : ¬(letter reg.type :: (digits ++ rest)).length < 2 := by
      have hpos := List.length_pos_iff.mpr h.nonempty
      rw [List.length_cons, List.length_append]
      omega
    have hnumber : regNumber reg.type (digits ++ rest) = .ok reg := by
      rw [regNumber_ok_iff fun hmem => hminus (List.mem_cons_of_mem _ hmem), ← hdigits]
      exact ⟨rfl, h.nonempty, hlt, hreg⟩
    unfold strToReg
    rw [if_neg hlength]
    cases htype : reg.type with
    | VECTOR =>
      rw [htype] at hnumber
      exact hnumber
    | SCALAR =>
      rw [htype] at hnumber
      exact hnumber

/-- Some register is read from the words that begin like one. -/
theorem startsLikeRegister_iff (hminus : '-' ∉ word) :
    StartsLikeRegister word ↔ ∃ reg, strToReg word = .ok reg := by
  constructor
  · rintro ⟨type, digits, rest, h, hlt⟩
    exact ⟨⟨BitVec.ofNat 32 (value 10 digits), type⟩,
      (strToReg_ok_iff hminus).mpr ⟨digits, rest, h, hlt, rfl⟩⟩
  · rintro ⟨reg, h⟩
    obtain ⟨digits, rest, hat, hlt, -⟩ := (strToReg_ok_iff hminus).mp h
    exact ⟨reg.type, digits, rest, hat, hlt⟩

/-- The name of a register is read as that register. -/
theorem RegisterName.read (h : RegisterName word reg) (hminus : '-' ∉ word) :
    strToReg word = .ok reg := by
  obtain ⟨digits, hat, hle, hreg⟩ := h
  exact (strToReg_ok_iff hminus).mpr ⟨digits, [], hat, by omega, hreg⟩

end StrToReg

/-! ## Mnemonics -/

section Mnemonics

variable {word str : List Char}

/-- Whether a word ends in a colon, or has a decimal digit as its second character. -/
def UnlikeMnemonic (word : List Char) : Bool :=
  word.getLast? = some ':' || (word.drop 1).head?.any fun c => isNumeric c 10

/-- No mnemonic ends in a colon, or has a digit behind its first letter. -/
theorem strToMnemonicName_unlike (h : UnlikeMnemonic word = true) :
    strToMnemonicName word = none := by
  have hnames : ∀ k ∈ mnemonicNames, UnlikeMnemonic k.1.toList = false := by decide
  unfold strToMnemonicName
  rw [Option.map_eq_none_iff, List.find?_eq_none]
  intro k hk hword
  rw [← eq_of_beq hword, hnames k hk] at h
  simp at h

/-- A word unlike every mnemonic's name is no mnemonic. -/
theorem strToMnemonic_unlike (h : UnlikeMnemonic word = true) : strToMnemonic word = none := by
  unfold strToMnemonic
  split
  · rename_i str
    -- The dot behind the prefix is no digit, so the word ends in a colon, and not in the prefix.
    have hstr : str.getLast? = some ':' := by
      cases str with
      | nil => simp [UnlikeMnemonic, isNumeric] at h
      | cons c str => simpa [UnlikeMnemonic, isNumeric, List.getLast?_cons_cons] using h
    rw [strToMnemonicName_unlike (by simp [UnlikeMnemonic, hstr])]
    rfl
  · rw [strToMnemonicName_unlike h]
    rfl

/-- No mnemonic begins like a register. -/
theorem StartsLikeRegister.no_mnemonic (h : StartsLikeRegister word) :
    strToMnemonic word = none := by
  obtain ⟨type, digits, rest, hat, -⟩ := h
  refine strToMnemonic_unlike ?_
  rw [hat.form]
  cases digits with
  | nil => exact absurd rfl hat.nonempty
  | cons c digits =>
    have hc : isNumeric c 10 = true := isNumeric_ten_iff.mpr (hat.digit c List.mem_cons_self)
    simp [UnlikeMnemonic, hc]

/-- No mnemonic declares a label. -/
theorem DeclaresLabel.no_mnemonic {name : List Char} (h : DeclaresLabel word name) :
    strToMnemonic word = none := by
  refine strToMnemonic_unlike ?_
  rw [h.1]
  simp [UnlikeMnemonic]

end Mnemonics

/-! ## The token of a word -/

namespace Lexer

section KeywordToken

variable {word name : List Char} {reg : Register} {col col' : IData}

/-- A word that is read as a register is one of those that are tried. -/
theorem strToReg_head (h : strToReg word = .ok reg) :
    word.head? = some 'x' ∨ word.head? = some 's' ∨ word = "pc".toList := by
  obtain ⟨type, str, rfl, -⟩ := strToReg_letter h
  cases type with
  | VECTOR => exact .inl rfl
  | SCALAR => exact .inr (.inl rfl)

/-- A word gives a register if `str_to_reg` reads one. Otherwise it is a label reference if it is
one of label characters, and an error at its column if not. -/
theorem registerOrLabelRef_cases (word : List Char) (col : IData) :
    (∃ reg, strToReg word = .ok reg ∧ registerOrLabelRef word col = .ok ⟨.register reg, col⟩) ∨
      (∀ reg, strToReg word ≠ .ok reg) ∧
        ((∀ c ∈ word, isLabelChar c = true) ∧
            registerOrLabelRef word col = .ok ⟨.labelRef word, col⟩ ∨
          (¬∀ c ∈ word, isLabelChar c = true) ∧
            ∃ error, registerOrLabelRef word col = .error error ∧ error.column = col) := by
  have hall : strCheckPredicate word isLabelChar = true ↔ ∀ c ∈ word, isLabelChar c = true :=
    List.all_eq_true
  unfold registerOrLabelRef
  by_cases hhead : word.head? = some 'x' ∨ word.head? = some 's' ∨ word = "pc".toList
  · simp only [if_pos hhead]
    cases strToReg word with
    | ok reg => exact .inl ⟨reg, rfl, rfl⟩
    | error reg_error =>
      refine .inr ⟨by simp, ?_⟩
      by_cases hlabel : strCheckPredicate word isLabelChar = true
      · exact .inl ⟨hall.mp hlabel, if_pos hlabel⟩
      · exact .inr ⟨fun h => hlabel (hall.mpr h), _, if_neg hlabel, rfl⟩
  · -- No register is tried, and none could be read.
    simp only [if_neg hhead]
    refine .inr ⟨fun reg hreg => hhead (strToReg_head hreg), ?_⟩
    by_cases hlabel : strCheckPredicate word isLabelChar = true
    · exact .inl ⟨hall.mp hlabel, if_pos hlabel⟩
    · exact .inr ⟨fun h => hlabel (hall.mpr h), _, if_neg hlabel, rfl⟩

/-- A token that is no mnemonic is a register just if `str_to_reg` has read one. -/
theorem registerOrLabelRef_register :
    registerOrLabelRef word col = .ok ⟨.register reg, col'⟩ ↔
      strToReg word = .ok reg ∧ col' = col := by
  rcases registerOrLabelRef_cases word col with ⟨reg', hreg, h⟩ | ⟨hnone, ⟨-, h⟩ | ⟨-, error, h, -⟩⟩
  · rw [h, hreg]
    simp [eq_comm]
  · rw [h]
    simp [hnone reg]
  · rw [h]
    simp [hnone reg]

/-- A word of label characters that is not read as a register is a label reference. -/
theorem registerOrLabelRef_labelRef (hreg : ∀ reg, strToReg word ≠ .ok reg)
    (hlabel : ∀ c ∈ word, isLabelChar c = true) :
    registerOrLabelRef word col = .ok ⟨.labelRef word, col⟩ := by
  rcases registerOrLabelRef_cases word col with ⟨reg, h, -⟩ | ⟨-, ⟨-, h⟩ | ⟨hnot, -⟩⟩
  · exact absurd h (hreg reg)
  · exact h
  · exact absurd hlabel hnot

/-- A mnemonic's name is lexed as the mnemonic. -/
theorem keywordToken_mnemonic {opcode : Mnemonic} (h : strToMnemonic word = some opcode) :
    keywordToken word col = .ok ⟨.mnemonic opcode, col⟩ := by
  unfold keywordToken
  rw [h]

/-- A declaration of a label is lexed as the label. -/
theorem keywordToken_label (h : DeclaresLabel word name) :
    keywordToken word col = .ok ⟨.label name, col⟩ := by
  have hcheck : strCheckPredicate name isLabelChar = true := List.all_eq_true.mpr h.2
  unfold keywordToken
  rw [h.no_mnemonic]
  obtain rfl := h.1
  simp only [List.getLast?_concat, List.dropLast_concat]
  exact if_pos hcheck

/-- A colon at the end of a word that declares no label is removed. -/
theorem keywordToken_colon (hmnemonic : strToMnemonic (name ++ [':']) = none)
    (hlabel : ¬∀ c ∈ name, isLabelChar c = true) :
    keywordToken (name ++ [':']) col = registerOrLabelRef name col := by
  have hcheck : ¬strCheckPredicate name isLabelChar = true := fun h =>
    hlabel (List.all_eq_true.mp h)
  unfold keywordToken
  rw [hmnemonic]
  simp only [List.getLast?_concat, List.dropLast_concat]
  exact if_neg hcheck

/-- Any other word is lexed as a register or as a reference. -/
theorem keywordToken_plain (hmnemonic : strToMnemonic word = none)
    (hcolon : word.getLast? ≠ some ':') : keywordToken word col = registerOrLabelRef word col := by
  unfold keywordToken
  rw [hmnemonic]
  exact if_neg hcolon

end KeywordToken

/-- The word that `parse_keyword` reads. -/
def keyword (lexer : Lexer) : List Char := lexer.source.takeWhile isKeywordChar

/-- `parse_keyword` returns the token of the word at the front of its source. -/
theorem parseKeyword_fst (lexer : Lexer) :
    lexer.parseKeyword.1 = keywordToken lexer.keyword lexer.column_number := rfl

/-- No word has a minus sign. -/
theorem minus_notMem_keyword (lexer : Lexer) : '-' ∉ lexer.keyword := by
  intro hmem
  have hall : lexer.keyword.all isKeywordChar = true := List.all_takeWhile
  exact absurd (List.all_eq_true.mp hall '-' hmem) (by decide)

/-- The word at the lexer is told apart as it should: it is a register exactly if it is the name of
one, with that number and register file, and any other word of label characters that is no mnemonic
is a label reference. -/
structure RegisterNamesExact (lexer : Lexer) : Prop where
  /-- A register is lexed from its name and from nothing else. -/
  register : ∀ reg, (∃ col, lexer.parseKeyword.1 = .ok ⟨.register reg, col⟩) ↔
    RegisterName lexer.keyword reg
  /-- Any other word of label characters is a reference, if it is no mnemonic. -/
  labelRef : (∀ reg, ¬RegisterName lexer.keyword reg) →
    (∀ c ∈ lexer.keyword, isLabelChar c = true) → strToMnemonic lexer.keyword = none →
      ∃ col, lexer.parseKeyword.1 = .ok ⟨.labelRef lexer.keyword, col⟩

end Lexer

section Names

variable {word name : List Char} {reg : Register}

/-- A colon is no character of a label. -/
theorem isLabelChar_colon : isLabelChar ':' = false := by decide

/-- A colon is no digit. -/
theorem not_isDigit_colon : ¬IsDigit 10 ':' := by
  rw [← isNumeric_ten_iff]
  decide

/-- A register with nothing behind its digits ends in a digit. -/
theorem RegisterAt.getLast?_ne {type : RegisterType} {digits : List Char}
    (h : RegisterAt word type digits []) : word.getLast? ≠ some ':' := by
  intro hlast
  rw [h.form, List.append_nil, List.getLast?_cons] at hlast
  obtain ⟨c, hc⟩ : ∃ c, digits.getLast? = some c := by
    rw [← Option.isSome_iff_exists, List.getLast?_isSome]
    exact h.nonempty
  rw [hc] at hlast
  obtain rfl := Option.some.inj hlast
  exact not_isDigit_colon (h.digit ':' (List.mem_of_getLast? hc))

/-- A register's name does not end in a colon. -/
theorem RegisterName.getLast?_ne (h : RegisterName word reg) : word.getLast? ≠ some ':' := by
  obtain ⟨digits, hat, -⟩ := h
  exact hat.getLast?_ne

/-- A register's name begins like a register. -/
theorem RegisterName.startsLikeRegister (h : RegisterName word reg) : StartsLikeRegister word := by
  obtain ⟨digits, hat, hle, -⟩ := h
  exact ⟨reg.type, digits, [], hat, by omega⟩

/-- A word begins like a register when its letter is a register's and the number after it is in the
range of an `int`. -/
theorem startsLikeRegister_cons {c : Char} {str : List Char} :
    StartsLikeRegister (c :: str) ↔ (∃ type, c = letter type) ∧ digitRun 10 str ≠ [] ∧
      value 10 (digitRun 10 str) < 2 ^ 31 := by
  constructor
  · rintro ⟨type, digits, rest, hat, hlt⟩
    obtain ⟨rfl, -⟩ := List.cons.inj hat.form
    obtain ⟨-, rfl, -⟩ := hat.digits_eq
    exact ⟨⟨type, rfl⟩, hat.nonempty, hlt⟩
  · rintro ⟨⟨type, rfl⟩, hne, hlt⟩
    exact ⟨type, _, _, registerAt_digitRun hne, hlt⟩

/-- A colon at the end belongs to no run of digits. -/
theorem digitRun_colon (str : List Char) : digitRun 10 (str ++ [':']) = digitRun 10 str := by
  induction str with
  | nil => decide
  | cons c str ih =>
    unfold digitRun at ih ⊢
    rw [List.cons_append, List.takeWhile_cons, List.takeWhile_cons, ih]

/-- A colon at the end changes nothing about how a word begins. -/
theorem startsLikeRegister_colon :
    StartsLikeRegister (name ++ [':']) ↔ StartsLikeRegister name := by
  cases name with
  | nil =>
    -- A colon is no letter, and the empty word has none.
    constructor
    · intro h
      obtain ⟨⟨type, htype⟩, -⟩ := startsLikeRegister_cons.mp h
      cases type <;> exact absurd htype (by decide)
    · rintro ⟨type, digits, rest, hat, -⟩
      cases hat.form
  | cons c name =>
    rw [List.cons_append, startsLikeRegister_cons, startsLikeRegister_cons, digitRun_colon]

/-- A name of a register is that of the register which is read from it. -/
theorem RegisterName.read_iff {reg' : Register} (h : RegisterName word reg) (hminus : '-' ∉ word) :
    strToReg word = .ok reg' ↔ RegisterName word reg' := by
  refine ⟨fun h' => ?_, fun h' => RegisterName.read h' hminus⟩
  rw [RegisterName.read h hminus] at h'
  obtain rfl := Except.ok.inj h'
  exact h

end Names

/-! ## Which words are told apart -/

namespace Lexer

section Exact

variable {lexer : Lexer} {name : List Char}

/-- A word that begins like a register and is no label with its colon is a register to the lexer. -/
theorem parseKeyword_register (h : StartsLikeRegister lexer.keyword)
    (hlabel : ∀ name, ¬DeclaresLabel lexer.keyword name) :
    ∃ reg col, lexer.parseKeyword.1 = .ok ⟨.register reg, col⟩ := by
  rw [parseKeyword_fst]
  have hminus := lexer.minus_notMem_keyword
  generalize lexer.keyword = word at h hlabel hminus
  by_cases hcolon : word.getLast? = some ':'
  · -- The colon is removed, and the rest is read.
    obtain ⟨name, rfl⟩ := List.getLast?_eq_some_iff.mp hcolon
    have hname : '-' ∉ name := fun hmem => hminus (List.mem_append_left _ hmem)
    obtain ⟨reg, hreg⟩ := (startsLikeRegister_iff hname).mp (startsLikeRegister_colon.mp h)
    rw [keywordToken_colon h.no_mnemonic fun hall => hlabel name ⟨rfl, hall⟩]
    exact ⟨reg, _, registerOrLabelRef_register.mpr ⟨hreg, rfl⟩⟩
  · obtain ⟨reg, hreg⟩ := (startsLikeRegister_iff hminus).mp h
    rw [keywordToken_plain h.no_mnemonic hcolon]
    exact ⟨reg, _, registerOrLabelRef_register.mpr ⟨hreg, rfl⟩⟩

/-- A word for which the lexer has no register, and which is no name of one and has no reference to
be, is told apart. -/
theorem RegisterNamesExact.of_no_register
    (htoken : ∀ reg col, lexer.parseKeyword.1 ≠ .ok ⟨.register reg, col⟩)
    (hname : ∀ reg, ¬RegisterName lexer.keyword reg)
    (href : (∀ c ∈ lexer.keyword, isLabelChar c = true) → strToMnemonic lexer.keyword = none →
      ∃ col, lexer.parseKeyword.1 = .ok ⟨.labelRef lexer.keyword, col⟩) :
    RegisterNamesExact lexer where
  register reg := ⟨fun ⟨col, h⟩ => absurd h (htoken reg col), fun h => absurd h (hname reg)⟩
  labelRef _ := href

/-- A mnemonic is no register. -/
theorem RegisterNamesExact.of_mnemonic {opcode : Mnemonic}
    (h : strToMnemonic lexer.keyword = some opcode) : RegisterNamesExact lexer := by
  refine .of_no_register (fun reg col => ?_) (fun reg hreg => ?_) fun _ hnone => ?_
  · rw [parseKeyword_fst, keywordToken_mnemonic h]
    simp
  · rw [hreg.startsLikeRegister.no_mnemonic] at h
    simp at h
  · rw [hnone] at h
    simp at h

/-- A word with a colon at its end is no register, and no reference. -/
theorem RegisterNamesExact.of_colon (hcolon : lexer.keyword.getLast? = some ':')
    (htoken : ∀ reg col, lexer.parseKeyword.1 ≠ .ok ⟨.register reg, col⟩) :
    RegisterNamesExact lexer := by
  refine .of_no_register htoken (fun reg hreg => hreg.getLast?_ne hcolon) fun hall _ => ?_
  have hlabel := hall ':' (List.mem_of_getLast? hcolon)
  rw [isLabelChar_colon] at hlabel
  simp at hlabel

/-- Registers and label references are told apart as they should at a word if and only if the word
is the name of a register, or a label with its colon, or does not begin like a register. -/
theorem register_names_exact_iff (lexer : Lexer) :
    RegisterNamesExact lexer ↔ (∃ reg, RegisterName lexer.keyword reg) ∨
      (∃ name, DeclaresLabel lexer.keyword name) ∨ ¬StartsLikeRegister lexer.keyword := by
  have hminus := lexer.minus_notMem_keyword
  constructor
  · intro h
    by_contra hcond
    rw [not_or, not_or, not_not, not_exists, not_exists] at hcond
    obtain ⟨hname, hlabel, hstarts⟩ := hcond
    obtain ⟨reg, hreg⟩ := parseKeyword_register hstarts hlabel
    exact hname reg ((h.register reg).mp hreg)
  · intro hcond
    cases hmnemonic : strToMnemonic lexer.keyword with
    | some opcode => exact .of_mnemonic hmnemonic
    | none =>
      by_cases hcolon : lexer.keyword.getLast? = some ':'
      · refine .of_colon hcolon fun reg col => ?_
        rw [parseKeyword_fst]
        obtain ⟨name, hword⟩ := List.getLast?_eq_some_iff.mp hcolon
        by_cases hlabel : ∀ c ∈ name, isLabelChar c = true
        · rw [keywordToken_label ⟨hword, hlabel⟩]
          simp
        · -- Neither a name nor a label, so it does not begin like a register.
          have hstarts : ¬StartsLikeRegister lexer.keyword := by
            rcases hcond with ⟨reg, hreg⟩ | ⟨name', hname', hall⟩ | hstarts
            · exact absurd hcolon hreg.getLast?_ne
            · rw [hword] at hname'
              obtain rfl := List.append_cancel_right hname'
              exact absurd hall hlabel
            · exact hstarts
          rw [hword] at hstarts hminus hmnemonic ⊢
          have hname : '-' ∉ name := fun hmem => hminus (List.mem_append_left _ hmem)
          rw [startsLikeRegister_colon, startsLikeRegister_iff hname] at hstarts
          rw [keywordToken_colon hmnemonic hlabel, Ne, registerOrLabelRef_register]
          exact fun h => hstarts ⟨reg, h.1⟩
      · have hplain := @keywordToken_plain lexer.keyword lexer.column_number hmnemonic hcolon
        rcases hcond with ⟨reg, hreg⟩ | ⟨name, hword, -⟩ | hstarts
        · refine ⟨fun reg' => ?_, fun hnot => absurd hreg (hnot reg)⟩
          rw [parseKeyword_fst, hplain, ← RegisterName.read_iff hreg hminus]
          simp only [registerOrLabelRef_register, exists_eq_right]
        · rw [hword] at hcolon
          simp at hcolon
        · have hread : ∀ reg, strToReg lexer.keyword ≠ .ok reg := fun reg h =>
            hstarts ((startsLikeRegister_iff hminus).mpr ⟨reg, h⟩)
          refine .of_no_register (fun reg col => ?_)
            (fun reg hreg => hstarts hreg.startsLikeRegister) fun hall _ => ?_
          · rw [parseKeyword_fst, hplain, Ne, registerOrLabelRef_register]
            exact fun h => hread reg h.1
          · rw [parseKeyword_fst, hplain]
            exact ⟨_, registerOrLabelRef_labelRef hread hall⟩

/-- A label that begins like a register is taken for that register. -/
theorem label_taken_for_register : ¬∀ lexer, RegisterNamesExact lexer := by
  intro h
  have hexact := h (ofSource "x1_loop".toList)
  have hname : RegisterName "x1_loop".toList ⟨1, .VECTOR⟩ :=
    (hexact.register ⟨1, .VECTOR⟩).mp ⟨1, by decide⟩
  obtain ⟨digits, hat, -⟩ := hname
  have hmem : '_' ∈ "x1_loop".toList := by decide
  rw [hat.form, List.append_nil] at hmem
  rcases List.mem_cons.mp hmem with hletter | hdigit
  · exact absurd hletter (by decide)
  · exact absurd (isNumeric_ten_iff.mpr (hat.digit '_' hdigit)) (by decide)

end Exact

end Lexer

end SmolGpu.As
