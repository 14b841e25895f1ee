import SmolGpu.As.Keywords

/-!
# Texts and their tokens

A line's tokens as the results of an iteration that ends, whatever the bound on its calls
(`collectTokens_iff`), and the texts from which a given sequence of tokens is read: `Spells` says
what stands in a text, a lexeme or a blank at a time, and `collectTokens_of_spells` that the lexer
reads it so.
-/

namespace SmolGpu.As

open Sim

/-- The bound of `collect_tokens` suffices for every iteration that ends. -/
theorem scan_of_yields {source : List Char} {results : List (Except Error Token)}
    (h : Scan.Yields Lexer.nextToken (Lexer.ofSource source) results) :
    Scan.scan Lexer.nextToken (source.length + 1) (Lexer.ofSource source) = some results := by
  obtain ⟨calls, hscan⟩ := Scan.yields_iff.mp h
  have hterminates := LexingTerminates.of_neverHuge (neverHuge_of_scan hscan)
  obtain ⟨tokens, errors, hcollect, -⟩ := hterminates.ends
  obtain ⟨results', hscan', -⟩ := Option.map_eq_some_iff.mp hcollect
  obtain rfl := h.unique (Scan.yields_iff.mpr ⟨_, hscan'⟩)
  exact hscan'

/-- The tokens and errors of a line are those of the iteration over it, which ends. -/
theorem collectTokens_iff {source : List Char} {tokens : List Token} {errors : List Error} :
    collectTokens source = some (tokens, errors) ↔
      ∃ results, Scan.Yields Lexer.nextToken (Lexer.ofSource source) results ∧
        tokensOf results = tokens ∧ errorsOf results = errors := by
  constructor
  · intro h
    obtain ⟨results, hscan, hresults⟩ := Option.map_eq_some_iff.mp h
    obtain ⟨htokens, herrors⟩ := Prod.ext_iff.mp hresults
    exact ⟨results, Scan.yields_iff.mpr ⟨_, hscan⟩, htokens, herrors⟩
  · rintro ⟨results, hyields, rfl, rfl⟩
    unfold collectTokens
    rw [scan_of_yields hyields]
    rfl

/-! ## Calls at a character -/

section Characters

variable {c : Char}

/-- A letter is no blank, no digit, and none of the signs that a token can begin with. -/
theorem isAlphabetic_toNat (h : isAlphabetic c = true) : 65 ≤ c.toNat := by
  have ha : 'a' ≤ c ↔ 97 ≤ c.toNat := Char.le_def
  have hA : 'A' ≤ c ↔ 65 ≤ c.toNat := Char.le_def
  have hletter := of_decide_eq_true h
  rw [ha, hA] at hletter
  omega

/-- The codes of the decimal digits. -/
theorem isNumeric_ten_toNat (h : isNumeric c 10 = true) : 48 ≤ c.toNat ∧ c.toNat ≤ 57 := by
  have hdigit := of_decide_eq_true h
  exact ⟨hdigit.1, Nat.lt_succ_iff.mp hdigit.2⟩

/-- The characters that are removed without a token. -/
theorem isWhitespace_toNat (h : isWhitespace c = true) : c.toNat ≤ 32 := by
  rcases of_decide_eq_true h with rfl | rfl | rfl | rfl <;> decide

/-- A code above those of the blanks is no blank. -/
theorem isWhitespace_of_toNat (h : 33 ≤ c.toNat) : isWhitespace c = false := by
  by_contra hblank
  have hle := isWhitespace_toNat (Bool.of_not_eq_false hblank)
  omega

end Characters

namespace Lexer

variable {lexer : Lexer} {column : IData} {c : Char} {source text word : List Char}

/-- A blank is removed, and the call goes on behind it. -/
theorem nextToken_blank (hc : isWhitespace c = true) :
    nextToken ⟨column, c :: source⟩ = nextToken ⟨column + 1, source⟩ := by
  have htrim : trimWhitespace ⟨column, c :: source⟩ = trimWhitespace ⟨column + 1, source⟩ := by
    unfold trimWhitespace chopWhile
    simp only [List.takeWhile_cons_of_pos hc, List.length_cons, List.drop_succ_cons]
    rw [Nat.add_comm, BitVec.ofNat_add, ← BitVec.add_assoc]
    rfl
  unfold nextToken
  rw [htrim]

/-- At any other character but a comment's, a call returns the token at the character. -/
theorem nextToken_token (hc : isWhitespace c = false) (hhash : c ≠ '#') :
    nextToken ⟨column, c :: source⟩ =
      (some (tokenAt ⟨column, c :: source⟩ c).1, (tokenAt ⟨column, c :: source⟩ c).2) := by
  unfold nextToken
  rw [trimWhitespace_of_head rfl hc]
  simp only [List.head?_cons, if_neg hhash]

/-- At a digit or a minus sign, the token is a number. -/
theorem tokenAt_number (hc : c = '-' ∨ isNumeric c 10 = true) :
    lexer.tokenAt c = lexer.parseNumber := if_pos hc

/-- At a letter, the token is that of a word. -/
theorem tokenAt_letter (hc : isAlphabetic c = true) : lexer.tokenAt c = lexer.parseKeyword := by
  have hge := isAlphabetic_toNat hc
  have hnumber : ¬(c = '-' ∨ isNumeric c 10 = true) := by
    rintro (rfl | hdigit)
    · exact absurd hge (by decide)
    · have hle := (isNumeric_ten_toNat hdigit).2
      omega
  unfold tokenAt
  rw [if_neg hnumber, if_pos hc]

/-- A letter begins a keyword. -/
theorem nextToken_letter (hc : isAlphabetic c = true) :
    nextToken ⟨column, c :: source⟩ =
      (some (parseKeyword ⟨column, c :: source⟩).1, (parseKeyword ⟨column, c :: source⟩).2) := by
  have hge := isAlphabetic_toNat hc
  have hhash : c ≠ '#' := by
    rintro rfl
    exact absurd hge (by decide)
  rw [nextToken_token (isWhitespace_of_toNat (by omega)) hhash, tokenAt_letter hc]

/-- A digit or a minus sign begins a number. -/
theorem nextToken_number (hc : c = '-' ∨ isNumeric c 10 = true) :
    nextToken ⟨column, c :: source⟩ =
      (some (parseNumber ⟨column, c :: source⟩).1, (parseNumber ⟨column, c :: source⟩).2) := by
  have hge : 45 ≤ c.toNat := by
    rcases hc with rfl | hdigit
    · decide
    · have hle := (isNumeric_ten_toNat hdigit).1
      omega
  have hhash : c ≠ '#' := by
    rintro rfl
    exact absurd hge (by decide)
  rw [nextToken_token (isWhitespace_of_toNat (by omega)) hhash, tokenAt_number hc]

/-- A word up to a character that belongs to no keyword is read as its token. -/
theorem nextToken_word {type : TokenType} (hhead : word.head?.any isAlphabetic = true)
    (hword : ∀ c ∈ word, isKeywordChar c = true)
    (hend : ∀ c, text.head? = some c → isKeywordChar c = false)
    (htype : ∀ col, keywordToken word col = .ok ⟨type, col⟩) :
    nextToken ⟨column, word ++ text⟩ =
      (some (.ok ⟨type, column⟩), ⟨column + BitVec.ofNat 32 word.length, text⟩) := by
  have hkeyword : (word ++ text).takeWhile isKeywordChar = word := takeWhile_exact hword hend
  have hparse : parseKeyword ⟨column, word ++ text⟩ =
      (.ok ⟨type, column⟩, ⟨column + BitVec.ofNat 32 word.length, text⟩) := by
    unfold parseKeyword chopWhile
    simp only [hkeyword, List.drop_left, htype]
  cases word with
  | nil => simp at hhead
  | cons c word =>
    rw [List.cons_append] at hparse ⊢
    rw [nextToken_letter (by simpa using hhead), hparse]

end Lexer

/-! ## Spelling -/

/-- The tokens of a single character. -/
inductive Punctuation : Char → TokenType → Prop
  | comma : Punctuation ',' .comma
  | lparen : Punctuation '(' .lparen
  | rparen : Punctuation ')' .rparen

/-- At a punctuation character, the token is that of the character. -/
theorem Lexer.nextToken_punctuation {column : IData} {c : Char} {text : List Char}
    {type : TokenType} (hc : Punctuation c type) :
    nextToken ⟨column, c :: text⟩ = (some (.ok ⟨type, column⟩), ⟨column + 1, text⟩) := by
  have hblank : isWhitespace c = false := by
    cases hc <;> decide
  have hhash : c ≠ '#' := by
    cases hc <;> decide
  rw [nextToken_token hblank hhash]
  cases hc <;> rfl

/-- The words behind a dot. -/
inductive Directive : List Char → TokenType → Prop
  | blocks : Directive "blocks".toList .blocksDirective
  | warps : Directive "warps".toList .warpsDirective

/-- A directive up to a blank is read as its token. -/
theorem Lexer.nextToken_directive {column : IData} {word text : List Char} {type : TokenType}
    (hword : Directive word type) (hend : ∀ c, text.head? = some c → isWhitespace c = true) :
    ∃ column', nextToken ⟨column, '.' :: (word ++ text)⟩ =
      (some (.ok ⟨type, column'⟩), ⟨column', text⟩) := by
  have hblank : ∀ c ∈ word, (!isWhitespace c) = true := by
    rw [← List.all_eq_true]
    cases hword <;> decide
  have hrun : (word ++ text).takeWhile (fun c => !isWhitespace c) = word :=
    takeWhile_exact hblank fun c hc => by simp [hend c hc]
  -- `chop_while` runs over the word to the blank behind it and moves the column with it.
  have hchop : (⟨column + 1, word ++ text⟩ : Lexer).chopWhile (fun c => !isWhitespace c) =
      (word, ⟨column + 1 + BitVec.ofNat 32 word.length, text⟩) := by
    unfold chopWhile
    simp only [hrun, List.drop_left]
  have hparse : (⟨column + 1, word ++ text⟩ : Lexer).parseDirective =
      (.ok ⟨type, column + 1 + BitVec.ofNat 32 word.length⟩,
        ⟨column + 1 + BitVec.ofNat 32 word.length, text⟩) := by
    unfold parseDirective
    rw [hchop]
    cases hword <;> rfl
  have hdot : tokenAt ⟨column, '.' :: (word ++ text)⟩ '.' =
      (⟨column + 1, word ++ text⟩ : Lexer).parseDirective := rfl
  exact ⟨_, by rw [nextToken_token (by decide) (by decide), hdot, hparse]⟩

/-- The text is a sequence of blanks and lexemes, from which the tokens are read. -/
inductive Spells : List Char → List TokenType → Prop
  | nil : Spells [] []
  | blank {c : Char} {text : List Char} {types : List TokenType} (hc : isWhitespace c = true)
      (h : Spells text types) : Spells (c :: text) types
  | punctuation {c : Char} {text : List Char} {type : TokenType} {types : List TokenType}
      (hc : Punctuation c type) (h : Spells text types) : Spells (c :: text) (type :: types)
  | word {word text : List Char} {type : TokenType} {types : List TokenType}
      (hhead : word.head?.any isAlphabetic = true)
      (hword : ∀ c ∈ word, Lexer.isKeywordChar c = true)
      (hend : ∀ c, text.head? = some c → Lexer.isKeywordChar c = false)
      (htype : ∀ col, Lexer.keywordToken word col = .ok ⟨type, col⟩)
      (h : Spells text types) : Spells (word ++ text) (type :: types)
  | number {number text : List Char} {value : WordType} {types : List TokenType}
      (hhead : number.head?.any (fun c => c = '-' ∨ isNumeric c 10 = true) = true)
      (hparse : parseNum (number ++ text) = (.ok value, text))
      (h : Spells text types) : Spells (number ++ text) (.immediate value :: types)
  | directive {word text : List Char} {type : TokenType} {types : List TokenType}
      (hword : Directive word type) (hend : ∀ c, text.head? = some c → isWhitespace c = true)
      (h : Spells text types) : Spells ('.' :: (word ++ text)) (type :: types)

/-- One token more in front. -/
theorem Spells.yields_cons {lexer rest : Lexer} {token : Token} {types : List TokenType}
    (hnext : lexer.nextToken = (some (.ok token), rest))
    (hrest : ∃ tokens : List Token, Scan.Yields Lexer.nextToken rest (tokens.map .ok) ∧
      tokens.map Token.token_type = types) :
    ∃ tokens : List Token, Scan.Yields Lexer.nextToken lexer (tokens.map .ok) ∧
      tokens.map Token.token_type = token.token_type :: types := by
  obtain ⟨tokens, hyields, rfl⟩ := hrest
  exact ⟨token :: tokens, .cons hnext hyields, rfl⟩

/-- The iteration over a text yields the tokens that it spells. -/
theorem Spells.yields {text : List Char} {types : List TokenType} (h : Spells text types)
    (column : IData) : ∃ tokens : List Token,
      Scan.Yields Lexer.nextToken ⟨column, text⟩ (tokens.map .ok) ∧
        tokens.map Token.token_type = types := by
  induction h generalizing column with
  | nil => exact ⟨[], .nil rfl, rfl⟩
  | blank hc h ih =>
    obtain ⟨tokens, hyields, htypes⟩ := ih (column + 1)
    exact ⟨tokens, hyields.of_next_eq (Lexer.nextToken_blank hc), htypes⟩
  | punctuation hc h ih => exact yields_cons (Lexer.nextToken_punctuation hc) (ih (column + 1))
  | word hhead hword hend htype h ih =>
    exact yields_cons (Lexer.nextToken_word hhead hword hend htype) (ih _)
  | @number number text value types hhead hparse h ih =>
    -- The token of a number carries the column behind it, which depends on `parseNum`.
    have hnext : ∃ column', Lexer.nextToken ⟨column, number ++ text⟩ =
        (some (.ok ⟨.immediate value, column⟩), ⟨column', text⟩) := by
      cases number with
      | nil => simp at hhead
      | cons c number =>
        rw [List.cons_append] at hparse ⊢
        rw [Lexer.nextToken_number (by simpa using hhead)]
        unfold Lexer.parseNumber
        rw [hparse]
        exact ⟨_, rfl⟩
    obtain ⟨column', hnext⟩ := hnext
    exact yields_cons hnext (ih column')
  | directive hword hend h ih =>
    obtain ⟨column', hnext⟩ := Lexer.nextToken_directive hword hend
    exact yields_cons hnext (ih column')

/-- A text is lexed without an error to the tokens that it spells. -/
theorem collectTokens_of_spells {text : List Char} {types : List TokenType}
    (h : Spells text types) :
    ∃ tokens, collectTokens text = some (tokens, []) ∧ tokens.map Token.token_type = types := by
  obtain ⟨tokens, hyields, htypes⟩ := h.yields 1
  refine ⟨tokens, collectTokens_iff.mpr ⟨_, hyields, ?_, ?_⟩, htypes⟩
  · simp [tokensOf, List.filterMap_map]
  · simp [errorsOf, List.filterMap_map]

section Words

variable {word text digits : List Char} {type : TokenType} {types : List TokenType} {reg : Register}

/-- A letter, a digit, or an underscore. -/
theorem isKeywordChar_of_isLabelChar {c : Char} (h : isLabelChar c = true) :
    Lexer.isKeywordChar c = true := by
  simp [Lexer.isKeywordChar, h]

/-- No label has a colon at its end. -/
theorem label_getLast?_ne (h : ∀ c ∈ word, isLabelChar c = true) : word.getLast? ≠ some ':' :=
  fun hlast => absurd (h ':' (List.mem_of_getLast? hlast)) (by decide)

/-- A word of label characters at the end of a text spells its token. -/
theorem spells_label (hhead : word.head?.any isAlphabetic = true)
    (hlabel : ∀ c ∈ word, isLabelChar c = true)
    (htype : ∀ col, Lexer.keywordToken word col = .ok ⟨type, col⟩) : Spells word [type] := by
  have hspells : Spells (word ++ []) [type] :=
    .word hhead (fun c hc => isKeywordChar_of_isLabelChar (hlabel c hc)) (by simp) htype .nil
  rwa [List.append_nil] at hspells

/-- A mnemonic is spelled by its text. -/
theorem spells_mnemonic (m : Mnemonic)
    (hend : ∀ c, text.head? = some c → Lexer.isKeywordChar c = false)
    (h : Spells text types) :
    Spells (m.toStr.toList ++ text) (.mnemonic m :: types) := by
  have hword : m.toStr.toList.head?.any isAlphabetic = true ∧
      m.toStr.toList.all Lexer.isKeywordChar = true ∧ strToMnemonic m.toStr.toList = some m := by
    obtain ⟨name, has_s_prefix⟩ := m
    cases name <;> cases has_s_prefix <;> decide
  obtain ⟨hhead, hall, hmnemonic⟩ := hword
  exact .word hhead (List.all_eq_true.mp hall) hend
    (fun col => Lexer.keywordToken_mnemonic hmnemonic) h

/-- A decimal digit is a character of a keyword. -/
theorem isKeywordChar_of_isDigit {c : Char} (h : Numeral.IsDigit 10 c) :
    Lexer.isKeywordChar c = true := by
  simp [Lexer.isKeywordChar, isAlphanumeric, isNumeric_ten_iff.mpr h]

/-- A register is spelled by its letter and the digits of its number. -/
theorem spells_register (hat : RegisterAt word reg.type digits [])
    (hlt : Numeral.value 10 digits < 2 ^ 31)
    (hnumber : reg.register_number = BitVec.ofNat 32 (Numeral.value 10 digits))
    (hend : ∀ c, text.head? = some c → Lexer.isKeywordChar c = false) (h : Spells text types) :
    Spells (word ++ text) (.register reg :: types) := by
  have hword : ∀ c ∈ word, Lexer.isKeywordChar c = true := by
    intro c hc
    rw [hat.form, List.append_nil] at hc
    rcases List.mem_cons.mp hc with rfl | hdigit
    · cases reg.type <;> decide
    · exact isKeywordChar_of_isDigit (hat.digit c hdigit)
  have hminus : '-' ∉ word := fun hmem => absurd (hword '-' hmem) (by decide)
  have hhead : word.head?.any isAlphabetic = true := by
    rw [hat.form]
    show isAlphabetic (letter reg.type) = true
    cases reg.type <;> decide
  have hstarts : StartsLikeRegister word := ⟨_, _, _, hat, hlt⟩
  refine .word hhead hword hend (fun col => ?_) h
  rw [Lexer.keywordToken_plain hstarts.no_mnemonic hat.getLast?_ne,
    Lexer.registerOrLabelRef_register, strToReg_ok_iff hminus]
  exact ⟨⟨digits, [], hat, hlt, hnumber⟩, rfl⟩

end Words

/-! ## What is read -/

/-- A token that some text spells. A label is a word of its own characters, a label reference is a
word that the lexer takes for one, and no number is below the negation of another one. -/
def Readable : TokenType → Prop
  | .label name => name.head?.any isAlphabetic = true ∧ ∀ c ∈ name, isLabelChar c = true
  | .labelRef label_name => label_name.head?.any isAlphabetic = true ∧
      (∀ c ∈ label_name, isLabelChar c = true) ∧ strToMnemonic label_name = none ∧
        ∀ reg, strToReg label_name ≠ .ok reg
  | .immediate value => -2 ^ 31 < value.toInt
  | .register reg => reg.register_number.toNat < 2 ^ 31
  | _ => True

namespace Lexer

variable {lexer rest : Lexer} {word : List Char} {col : IData} {token : Token}

/-- A word that is no mnemonic and no label gives a register, or is a label reference. -/
theorem registerOrLabelRef_ok (h : registerOrLabelRef word col = .ok token) :
    (∃ reg, strToReg word = .ok reg ∧ token = ⟨.register reg, col⟩) ∨
      (∀ c ∈ word, isLabelChar c = true) ∧ (∀ reg, strToReg word ≠ .ok reg) ∧
        token = ⟨.labelRef word, col⟩ := by
  rcases registerOrLabelRef_cases word col with
    ⟨reg, hreg, hok⟩ | ⟨hnone, ⟨hlabel, hok⟩ | ⟨-, error, herror, -⟩⟩
  · rw [hok] at h
    exact .inl ⟨reg, hreg, (Except.ok.inj h).symm⟩
  · rw [hok] at h
    exact .inr ⟨hlabel, hnone, (Except.ok.inj h).symm⟩
  · rw [herror] at h
    cases h

/-- What the token of a word can be. -/
theorem keywordToken_ok (h : keywordToken word col = .ok token) :
    (∃ opcode, token = ⟨.mnemonic opcode, col⟩) ∨
      (∃ name, DeclaresLabel word name ∧ token = ⟨.label name, col⟩) ∨
        (∃ tried reg, tried <+: word ∧ strToReg tried = .ok reg ∧ token = ⟨.register reg, col⟩) ∨
          (∀ c ∈ word, isLabelChar c = true) ∧ strToMnemonic word = none ∧
            (∀ reg, strToReg word ≠ .ok reg) ∧ token = ⟨.labelRef word, col⟩ := by
  -- In the order of `parse_keyword`: a mnemonic, a declaration, and what `register_or_label_ref`
  -- makes of the word, without its colon if it had one.
  cases hmnemonic : strToMnemonic word with
  | some opcode =>
    rw [keywordToken_mnemonic hmnemonic] at h
    exact .inl ⟨opcode, (Except.ok.inj h).symm⟩
  | none =>
    right
    by_cases hcolon : word.getLast? = some ':'
    · obtain ⟨name, rfl⟩ := List.getLast?_eq_some_iff.mp hcolon
      by_cases hlabel : ∀ c ∈ name, isLabelChar c = true
      · rw [keywordToken_label ⟨rfl, hlabel⟩] at h
        exact .inl ⟨name, ⟨rfl, hlabel⟩, (Except.ok.inj h).symm⟩
      · rw [keywordToken_colon hmnemonic hlabel] at h
        rcases registerOrLabelRef_ok h with ⟨reg, hreg, htoken⟩ | ⟨hall, -, -⟩
        · exact .inr (.inl ⟨name, reg, List.prefix_append _ _, hreg, htoken⟩)
        · exact absurd hall hlabel
    · rw [keywordToken_plain hmnemonic hcolon] at h
      rcases registerOrLabelRef_ok h with ⟨reg, hreg, htoken⟩ | ⟨hall, hreg, htoken⟩
      · exact .inr (.inl ⟨word, reg, List.prefix_refl _, hreg, htoken⟩)
      · exact .inr (.inr ⟨hall, rfl, hreg, htoken⟩)

/-- The token of a word of the lexer is readable. -/
theorem keywordToken_readable (h : keywordToken word col = .ok token)
    (hhead : word.head?.any isAlphabetic = true) (hminus : '-' ∉ word) :
    Readable token.token_type := by
  rcases keywordToken_ok h with ⟨opcode, rfl⟩ | ⟨name, ⟨rfl, hlabel⟩, rfl⟩ |
    ⟨tried, reg, htried, hreg, rfl⟩ | ⟨hlabel, hmnemonic, hreg, rfl⟩
  · exact trivial
  · -- A colon is no letter, so there is something in front of it.
    refine ⟨?_, hlabel⟩
    cases name with
    | nil => exact absurd hhead (by decide)
    | cons c name => exact hhead
  · have hnumber : '-' ∉ tried := fun hmem => hminus (htried.subset hmem)
    obtain ⟨digits, tail, -, hlt, hnum⟩ := (strToReg_ok_iff hnumber).mp hreg
    show reg.register_number.toNat < 2 ^ 31
    rw [hnum, BitVec.toNat_ofNat, Nat.mod_eq_of_lt (by omega)]
    exact hlt
  · exact ⟨hhead, hlabel, hmnemonic, hreg⟩

/-- A number that is lexed can be written. -/
theorem parseNumber_ok (h : lexer.parseNumber = (.ok token, rest)) : Readable token.token_type := by
  unfold parseNumber at h
  cases hparse : parseNum lexer.source with
  | mk result source =>
    rw [hparse] at h
    cases result with
    | error error => cases h
    | ok number =>
      obtain rfl := Except.ok.inj (Prod.ext_iff.mp h).1
      obtain ⟨negative, base, digits, hnumeral, hvalue⟩ := parseNum_ok_iff_numeralAt.mp hparse
      have hmagnitude := hnumeral.magnitude
      show -2 ^ 31 < number.toInt
      rw [hvalue, signedValue]
      split_ifs <;> omega

/-- A directive that is lexed can be written. -/
theorem parseDirective_ok (h : lexer.parseDirective = (.ok token, rest)) :
    Readable token.token_type := by
  unfold parseDirective at h
  simp only at h
  split_ifs at h
  · obtain rfl := Except.ok.inj (Prod.ext_iff.mp h).1
    exact trivial
  · obtain rfl := Except.ok.inj (Prod.ext_iff.mp h).1
    exact trivial
  · cases (Prod.ext_iff.mp h).1
  · cases (Prod.ext_iff.mp h).1

/-- The tokens of the lexer are readable. -/
theorem nextToken_readable (h : lexer.nextToken = (some (.ok token), rest)) :
    Readable token.token_type := by
  obtain ⟨c, source, hsource, -, htoken⟩ := nextToken_eq_some h
  unfold tokenAt at htoken
  split_ifs at htoken with hnumber hletter
  · exact parseNumber_ok htoken
  · -- The word begins with the letter.
    have hc : isKeywordChar c = true := by simp [isKeywordChar, isAlphanumeric, hletter]
    refine keywordToken_readable (Prod.ext_iff.mp htoken).1 ?_ (minus_notMem_keyword _)
    rw [hsource, List.takeWhile_cons_of_pos hc]
    exact hletter
  · obtain rfl := Except.ok.inj (Prod.ext_iff.mp htoken).1
    exact trivial
  · obtain rfl := Except.ok.inj (Prod.ext_iff.mp htoken).1
    exact trivial
  · obtain rfl := Except.ok.inj (Prod.ext_iff.mp htoken).1
    exact trivial
  · exact parseDirective_ok htoken
  · cases (Prod.ext_iff.mp htoken).1

end Lexer

/-- The results of an iteration over a line are readable tokens and errors. -/
theorem readable_of_yields {lexer : Lexer} {results : List (Except Error Token)}
    (h : Scan.Yields Lexer.nextToken lexer results) :
    ∀ token ∈ tokensOf results, Readable token.token_type := by
  induction h with
  | nil h => simp [tokensOf]
  | @cons lexer rest result results h hrest ih =>
    unfold tokensOf at ih ⊢
    cases result with
    | error error => exact ih
    | ok token =>
      intro token' htoken'
      rcases List.mem_cons.mp htoken' with rfl | hmem
      · exact Lexer.nextToken_readable h
      · exact ih token' hmem

/-- The tokens of a line are readable. -/
theorem readable_of_collectTokens {source : List Char} {tokens : List Token} {errors : List Error}
    (h : collectTokens source = some (tokens, errors)) :
    ∀ token ∈ tokens, Readable token.token_type := by
  obtain ⟨results, hyields, rfl, -⟩ := collectTokens_iff.mp h
  exact readable_of_yields hyields

end SmolGpu.As
