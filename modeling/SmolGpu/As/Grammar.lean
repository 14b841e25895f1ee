import SmolGpu.As.Parser

/-!
# The grammar of a line

`OperandForm` lists the operands that each kind of mnemonic takes, as types of tokens, with the
register files that its registers must belong to, and `LineForm` what a line is made of. A line that
the parser returns is of this form (`parses_parseLine`), so that the operands' variant follows from
the mnemonic.

Every failing path of the parser has reported an error, except that an empty line has none to report
(`honest_parseLine`).
-/

namespace SmolGpu.As

open Sim TokenParser

/-- The destination of an instruction other than a jump is a scalar register. -/
def ScalarRd (m : Mnemonic) : Bool :=
  if m.name = .SX_SLT ∨ m.name = .SX_SLTI then true else m.isScalar

/-- The sources of an instruction other than a jump are scalar registers. -/
def ScalarRs (m : Mnemonic) : Bool :=
  if m.name = .SX_SLT ∨ m.name = .SX_SLTI then false else m.isScalar

/-- The operands that follow a mnemonic. -/
inductive OperandForm (m : Mnemonic) : List TokenType → Operands → Prop
  | halt (hm : m.name = .HALT) : OperandForm m [] .default
  | itype (rd rs1 : Register) (imm12 : WordType) (hm : isItypeArithmetic m.name = true)
      (hrd : rd.isScalar = ScalarRd m) (hrs1 : rs1.isScalar = ScalarRs m) :
      OperandForm m [.register rd, .comma, .register rs1, .comma, .immediate imm12]
        (.itype ⟨rd, rs1, imm12⟩)
  | rtype (rd rs1 rs2 : Register) (hm : isRtype m.name = true)
      (hrd : rd.isScalar = ScalarRd m) (hrs1 : rs1.isScalar = ScalarRs m)
      (hrs2 : rs2.isScalar = ScalarRs m) :
      OperandForm m [.register rd, .comma, .register rs1, .comma, .register rs2]
        (.rtype ⟨rd, rs1, rs2⟩)
  | load (rd rs1 : Register) (offset : WordType) (hm : isLoadType m.name = true)
      (hrd : rd.isScalar = ScalarRd m) (hrs1 : rs1.isScalar = ScalarRs m) :
      OperandForm m [.register rd, .comma, .immediate offset, .lparen, .register rs1, .rparen]
        (.itype ⟨rd, rs1, offset⟩)
  | store (rs1 rs2 : Register) (offset : WordType) (hm : isStoreType m.name = true)
      (hrs1 : rs1.isScalar = ScalarRs m) (hrs2 : rs2.isScalar = ScalarRs m) :
      OperandForm m [.register rs2, .comma, .immediate offset, .lparen, .register rs1, .rparen]
        (.stype ⟨rs1, rs2, offset⟩)
  | utype (rd : Register) (imm20 : WordType) (hm : isUtype m.name = true)
      (hrd : rd.isScalar = ScalarRd m) :
      OperandForm m [.register rd, .comma, .immediate imm20] (.utype ⟨rd, imm20⟩)
  | jal (rd : Register) (immediate : WordType) (hm : m.name = .JAL) :
      OperandForm m [.register rd, .comma, .immediate immediate] (.jtype ⟨rd, immediate⟩)
  | jalrLabel (rd : Register) (label_name : List Char) (hm : m.name = .JALR) :
      OperandForm m [.register rd, .comma, .labelRef label_name]
        (.jalr ⟨rd, .zero, .labelRef label_name⟩)
  | jalr (rd rs1 : Register) (value : WordType) (hm : m.name = .JALR) :
      OperandForm m [.register rd, .comma, .immediate value, .lparen, .register rs1, .rparen]
        (.jalr ⟨rd, rs1, .immediate value⟩)

/-- The parser has no case for the branches. -/
theorem OperandForm.isBranch {m : Mnemonic} {types : List TokenType} {operands : Operands}
    (h : OperandForm m types operands) : m.isBranch = false := by
  by_contra hbranch
  have hname : m.name = .BEQ ∨ m.name = .BNE ∨ m.name = .BLT ∨ m.name = .BGE :=
    of_decide_eq_true (Bool.of_not_eq_false hbranch)
  cases h with
  | itype _ _ _ hm => rcases hname with hn | hn | hn | hn <;> simp [hn, isItypeArithmetic] at hm
  | rtype _ _ _ hm => rcases hname with hn | hn | hn | hn <;> simp [hn, isRtype] at hm
  | load _ _ _ hm => rcases hname with hn | hn | hn | hn <;> simp [hn, isLoadType] at hm
  | store _ _ _ hm => rcases hname with hn | hn | hn | hn <;> simp [hn, isStoreType] at hm
  | utype _ _ hm => rcases hname with hn | hn | hn | hn <;> simp [hn, isUtype] at hm
  | halt hm | jal _ _ hm | jalrLabel _ _ hm | jalr _ _ _ hm => simp [hm] at hname

/-- The tokens of a line, by their types. -/
inductive LineForm : List TokenType → Line → Prop
  | blocks (number : IData) (h : 1 ≤ number.toInt) :
      LineForm [.blocksDirective, .immediate number] (.blocksDirective number)
  | warps (number : IData) (h : 1 ≤ number.toInt) :
      LineForm [.warpsDirective, .immediate number] (.warpsDirective number)
  | justLabel (label : List Char) : LineForm [.label label] (.justLabel label)
  | instruction (m : Mnemonic) (types : List TokenType) (operands : Operands)
      (h : OperandForm m types operands) :
      LineForm (.mnemonic m :: types) (.instruction ⟨none, m, operands⟩)
  | labelled (label : List Char) (m : Mnemonic) (types : List TokenType) (operands : Operands)
      (h : OperandForm m types operands) :
      LineForm (.label label :: .mnemonic m :: types) (.instruction ⟨some label, m, operands⟩)

/-- The operands of an instruction line have the form of its mnemonic. -/
theorem LineForm.operandForm {types : List TokenType} {i : Instruction}
    (h : LineForm types (.instruction i)) : ∃ types, OperandForm i.mnemonic types i.operands := by
  cases h with
  | instruction m types operands hform => exact ⟨types, hform⟩
  | labelled label m types operands hform => exact ⟨types, hform⟩

namespace Parser

variable {tokens rest : List Token}

/-! ## What `expect` and `CHECK_REG` accept -/

/-- A class of tokens is expected: the next token is of the class. -/
theorem parses_expect_class {α : Type} {c : TokenClass α} {x : α × IData} :
    Parses (expect c) tokens x rest ↔
      ∃ token, tokens = token :: rest ∧ c.get? token.token_type = some x.1 ∧ token.col = x.2 := by
  unfold expect
  rw [parses_expect]
  refine exists_congr fun token => and_congr_right fun _ => ?_
  rw [Option.map_eq_some_iff]
  constructor
  · rintro ⟨a, ha, rfl⟩
    exact ⟨ha, rfl⟩
  · rintro ⟨ha, hcol⟩
    exact ⟨x.1, ha, by rw [hcol]⟩

/-- A class that carries what a type of token carries takes a token of that type. -/
theorem parses_expect_of {α : Type} {c : TokenClass α} (type : α → TokenType)
    (hc : ∀ t a, c.get? t = some a ↔ t = type a) {x : α × IData} :
    Parses (expect c) tokens x rest ↔ tokens = ⟨type x.1, x.2⟩ :: rest := by
  rw [parses_expect_class]
  constructor
  · rintro ⟨⟨t, col⟩, rfl, ht, rfl⟩
    have htype : t = type x.1 := (hc _ _).mp ht
    rw [htype]
  · rintro rfl
    exact ⟨_, rfl, (hc _ _).mpr rfl, rfl⟩

/-- A register is expected. -/
theorem parses_register {x : Register × IData} :
    Parses (expect .register) tokens x rest ↔ tokens = ⟨.register x.1, x.2⟩ :: rest := by
  refine parses_expect_of .register fun t a => ?_
  cases t <;> simp [TokenClass.register]

/-- An immediate is expected. -/
theorem parses_immediate {x : WordType × IData} :
    Parses (expect .immediate) tokens x rest ↔ tokens = ⟨.immediate x.1, x.2⟩ :: rest := by
  refine parses_expect_of .immediate fun t a => ?_
  cases t <;> simp [TokenClass.immediate]

/-- A comma is expected. -/
theorem parses_comma {x : Unit × IData} :
    Parses (expect .comma) tokens x rest ↔ tokens = ⟨.comma, x.2⟩ :: rest := by
  refine parses_expect_of (fun _ => .comma) fun t a => ?_
  cases t <;> simp [TokenClass.comma]

/-- An opening parenthesis is expected. -/
theorem parses_lparen {x : Unit × IData} :
    Parses (expect .lparen) tokens x rest ↔ tokens = ⟨.lparen, x.2⟩ :: rest := by
  refine parses_expect_of (fun _ => .lparen) fun t a => ?_
  cases t <;> simp [TokenClass.lparen]

/-- A closing parenthesis is expected. -/
theorem parses_rparen {x : Unit × IData} :
    Parses (expect .rparen) tokens x rest ↔ tokens = ⟨.rparen, x.2⟩ :: rest := by
  refine parses_expect_of (fun _ => .rparen) fun t a => ?_
  cases t <;> simp [TokenClass.rparen]

/-- The token that is an immediate or a label reference. -/
def tokenOf : ImmediateOrLabelref → TokenType
  | .immediate value => .immediate value
  | .labelRef label_name => .labelRef label_name

/-- A label reference or an immediate is expected, and becomes the token of the value returned. -/
theorem parses_labelRefOrImmediate {x : ImmediateOrLabelref × IData} :
    Parses (expect .labelRefOrImmediate) tokens x rest ↔ tokens = ⟨tokenOf x.1, x.2⟩ :: rest := by
  refine parses_expect_of tokenOf fun t a => ?_
  cases t <;> cases a <;> simp [TokenClass.labelRefOrImmediate, tokenOf]

/-- `CHECK_REG` reads nothing, and passes registers of the right file. -/
theorem parses_checkReg {reg : Register × IData} {should_be_scalar : Bool} {u : Unit} :
    Parses (checkReg reg should_be_scalar) tokens u rest ↔
      reg.1.isScalar = should_be_scalar ∧ rest = tokens := by
  unfold checkReg
  by_cases h : reg.1.isScalar = should_be_scalar
  · rw [if_pos h, parses_pure]
    simp [h]
  · rw [if_neg h]
    simp [not_parses_failWith, h]

/-- Expecting a class of tokens fails with one error. -/
theorem honest_expect_class {α : Type} {c : TokenClass α} : Honest (expect c) tokens :=
  honest_expect

/-- `CHECK_REG` fails with one error. -/
theorem honest_checkReg {reg : Register × IData} {should_be_scalar : Bool} :
    Honest (checkReg reg should_be_scalar) tokens := by
  unfold checkReg
  by_cases h : reg.1.isScalar = should_be_scalar
  · rw [if_pos h]
    exact honest_pure _
  · rw [if_neg h]
    exact honest_failWith _

/-! ## Instructions -/

section Instructions

variable {m : Mnemonic} {i : Instruction}

/-- An instruction without a label whose operands are of the mnemonic's form, taken from the front
of the tokens. -/
def TakesForm (m : Mnemonic) (tokens : List Token) (i : Instruction) (rest : List Token) : Prop :=
  ∃ used operands, tokens = used ++ rest ∧ i = ⟨none, m, operands⟩ ∧
    OperandForm m (used.map Token.token_type) operands

/-! The register files as the parsers of the kinds ask for them. Of the two `sx` instructions one is
of the `itype` and one of the `rtype` kind. -/

/-- The files that the I-type parser checks for are those of the mnemonic. -/
theorem scalar_of_itype (hm : isItypeArithmetic m.name = true) :
    ScalarRd m = (if m.name = .SX_SLTI then true else m.isScalar) ∧
      ScalarRs m = if m.name = .SX_SLTI then false else m.isScalar := by
  have hne : m.name ≠ .SX_SLT := by
    rintro hn
    simp [isItypeArithmetic, hn] at hm
  simp [ScalarRd, ScalarRs, hne]

/-- The files that the R-type parser checks for are those of the mnemonic. -/
theorem scalar_of_rtype (hm : isRtype m.name = true) :
    ScalarRd m = (if m.name = .SX_SLT then true else m.isScalar) ∧
      ScalarRs m = if m.name = .SX_SLT then false else m.isScalar := by
  have hne : m.name ≠ .SX_SLTI := by
    rintro hn
    simp [isRtype, hn] at hm
  simp [ScalarRd, ScalarRs, hne]

/-- But for the two `sx` mnemonics, all operands are in the file that the mnemonic names. -/
theorem scalar_of_not_sx (h : m.name ≠ .SX_SLT) (h' : m.name ≠ .SX_SLTI) :
    ScalarRd m = m.isScalar ∧ ScalarRs m = m.isScalar := by
  simp [ScalarRd, ScalarRs, h, h']

/-- A load has all operands in one file. -/
theorem scalar_of_load (hm : isLoadType m.name = true) :
    ScalarRd m = m.isScalar ∧ ScalarRs m = m.isScalar := by
  apply scalar_of_not_sx <;> rintro hn <;> simp [isLoadType, hn] at hm

/-- A store has all operands in one file. -/
theorem scalar_of_store (hm : isStoreType m.name = true) :
    ScalarRd m = m.isScalar ∧ ScalarRs m = m.isScalar := by
  apply scalar_of_not_sx <;> rintro hn <;> simp [isStoreType, hn] at hm

/-- A U-type instruction has all operands in one file. -/
theorem scalar_of_utype (hm : isUtype m.name = true) :
    ScalarRd m = m.isScalar ∧ ScalarRs m = m.isScalar := by
  apply scalar_of_not_sx <;> rintro hn <;> simp [isUtype, hn] at hm

/-- What the U-type parser accepts has the form of the mnemonic. -/
theorem takesForm_utype (hm : isUtype m.name = true)
    (h : Parses (parseUtypeInstruction m) tokens i rest) : TakesForm m tokens i rest := by
  obtain ⟨hrd, -⟩ := scalar_of_utype hm
  -- The tokens in the order in which they are expected, and then the check.
  unfold parseUtypeInstruction at h
  simp only [parses_bind, parses_register, parses_comma, parses_immediate, parses_checkReg,
    parses_pure] at h
  obtain ⟨rd, _, rfl, comma, _, rfl, imm20, _, rfl, _, _, ⟨hcheck, rfl⟩, rfl, rfl⟩ := h
  exact ⟨[⟨.register rd.1, rd.2⟩, ⟨.comma, comma.2⟩, ⟨.immediate imm20.1, imm20.2⟩], _, rfl, rfl,
    .utype rd.1 imm20.1 hm (hcheck.trans hrd.symm)⟩

/-- What the I-type parser accepts has the form of the mnemonic. -/
theorem takesForm_itype (hm : isItypeArithmetic m.name = true)
    (h : Parses (parseItypeArithmeticInstruction m) tokens i rest) : TakesForm m tokens i rest := by
  obtain ⟨hrd, hrs⟩ := scalar_of_itype hm
  unfold parseItypeArithmeticInstruction at h
  simp only [parses_bind, parses_register, parses_comma, parses_immediate, parses_checkReg,
    parses_pure] at h
  obtain ⟨rd, _, rfl, c1, _, rfl, rs1, _, rfl, c2, _, rfl, imm12, _, rfl, _, _, ⟨hcheck, rfl⟩, _, _,
    ⟨hcheck1, rfl⟩, rfl, rfl⟩ := h
  exact ⟨[⟨.register rd.1, rd.2⟩, ⟨.comma, c1.2⟩, ⟨.register rs1.1, rs1.2⟩, ⟨.comma, c2.2⟩,
    ⟨.immediate imm12.1, imm12.2⟩], _, rfl, rfl,
    .itype rd.1 rs1.1 imm12.1 hm (hcheck.trans hrd.symm) (hcheck1.trans hrs.symm)⟩

/-- What the R-type parser accepts has the form of the mnemonic. -/
theorem takesForm_rtype (hm : isRtype m.name = true)
    (h : Parses (parseRtypeInstruction m) tokens i rest) : TakesForm m tokens i rest := by
  obtain ⟨hrd, hrs⟩ := scalar_of_rtype hm
  unfold parseRtypeInstruction at h
  simp only [parses_bind, parses_register, parses_comma, parses_checkReg, parses_pure] at h
  obtain ⟨rd, _, rfl, c1, _, rfl, rs1, _, rfl, c2, _, rfl, rs2, _, rfl, _, _, ⟨hcheck, rfl⟩, _, _,
    ⟨hcheck1, rfl⟩, _, _, ⟨hcheck2, rfl⟩, rfl, rfl⟩ := h
  exact ⟨[⟨.register rd.1, rd.2⟩, ⟨.comma, c1.2⟩, ⟨.register rs1.1, rs1.2⟩, ⟨.comma, c2.2⟩,
    ⟨.register rs2.1, rs2.2⟩], _, rfl, rfl, .rtype rd.1 rs1.1 rs2.1 hm (hcheck.trans hrd.symm)
    (hcheck1.trans hrs.symm) (hcheck2.trans hrs.symm)⟩

/-- What the parser of loads accepts has the form of the mnemonic. -/
theorem takesForm_load (hm : isLoadType m.name = true)
    (h : Parses (parseLoadInstruction m) tokens i rest) : TakesForm m tokens i rest := by
  obtain ⟨hrd, hrs⟩ := scalar_of_load hm
  unfold parseLoadInstruction at h
  simp only [parses_bind, parses_register, parses_comma, parses_immediate, parses_lparen,
    parses_rparen, parses_checkReg, parses_pure] at h
  obtain ⟨rd, _, rfl, c1, _, rfl, offset, _, rfl, lparen, _, rfl, rs1, _, rfl, rparen, _, rfl, _, _,
    ⟨hcheck, rfl⟩, _, _, ⟨hcheck1, rfl⟩, rfl, rfl⟩ := h
  exact ⟨[⟨.register rd.1, rd.2⟩, ⟨.comma, c1.2⟩, ⟨.immediate offset.1, offset.2⟩,
    ⟨.lparen, lparen.2⟩, ⟨.register rs1.1, rs1.2⟩, ⟨.rparen, rparen.2⟩], _, rfl, rfl,
    .load rd.1 rs1.1 offset.1 hm (hcheck.trans hrd.symm) (hcheck1.trans hrs.symm)⟩

/-- What the parser of stores accepts has the form of the mnemonic. -/
theorem takesForm_store (hm : isStoreType m.name = true)
    (h : Parses (parseStoreInstruction m) tokens i rest) : TakesForm m tokens i rest := by
  obtain ⟨-, hrs⟩ := scalar_of_store hm
  unfold parseStoreInstruction at h
  simp only [parses_bind, parses_register, parses_comma, parses_immediate, parses_lparen,
    parses_rparen, parses_checkReg, parses_pure] at h
  obtain ⟨rs2, _, rfl, c1, _, rfl, offset, _, rfl, lparen, _, rfl, rs1, _, rfl, rparen, _, rfl, _,
    _, ⟨hcheck1, rfl⟩, _, _, ⟨hcheck2, rfl⟩, rfl, rfl⟩ := h
  exact ⟨[⟨.register rs2.1, rs2.2⟩, ⟨.comma, c1.2⟩, ⟨.immediate offset.1, offset.2⟩,
    ⟨.lparen, lparen.2⟩, ⟨.register rs1.1, rs1.2⟩, ⟨.rparen, rparen.2⟩], _, rfl, rfl,
    .store rs1.1 rs2.1 offset.1 hm (hcheck1.trans hrs.symm) (hcheck2.trans hrs.symm)⟩

/-- What the parser of `jal` accepts has the form of the mnemonic. -/
theorem takesForm_jal (hm : m.name = .JAL) (h : Parses (parseJalInstruction m) tokens i rest) :
    TakesForm m tokens i rest := by
  unfold parseJalInstruction at h
  simp only [parses_bind, parses_register, parses_comma, parses_immediate, parses_pure] at h
  obtain ⟨rd, _, rfl, comma, _, rfl, imm, _, rfl, rfl, rfl⟩ := h
  exact ⟨[⟨.register rd.1, rd.2⟩, ⟨.comma, comma.2⟩, ⟨.immediate imm.1, imm.2⟩], _, rfl, rfl,
    .jal rd.1 imm.1 hm⟩

/-- What the parser of `jalr` accepts has the form of the mnemonic. -/
theorem takesForm_jalr (hm : m.name = .JALR) (h : Parses (parseJalrInstruction m) tokens i rest) :
    TakesForm m tokens i rest := by
  unfold parseJalrInstruction at h
  simp only [parses_bind, parses_register, parses_comma, parses_labelRefOrImmediate] at h
  obtain ⟨rd, _, rfl, comma, _, rfl, ⟨next, col⟩, mid, rfl, h⟩ := h
  cases next with
  | labelRef label_name =>
    -- Nothing is expected behind a label reference.
    simp only [parses_pure] at h
    obtain ⟨rfl, rfl⟩ := h
    exact ⟨[⟨.register rd.1, rd.2⟩, ⟨.comma, comma.2⟩, ⟨.labelRef label_name, col⟩], _, rfl, rfl,
      .jalrLabel rd.1 label_name hm⟩
  | immediate value =>
    simp only [parses_bind, parses_lparen, parses_register, parses_rparen, parses_pure] at h
    obtain ⟨lparen, _, rfl, rs1, _, rfl, rparen, _, rfl, rfl, rfl⟩ := h
    exact ⟨[⟨.register rd.1, rd.2⟩, ⟨.comma, comma.2⟩, ⟨.immediate value, col⟩,
      ⟨.lparen, lparen.2⟩, ⟨.register rs1.1, rs1.2⟩, ⟨.rparen, rparen.2⟩], _, rfl, rfl,
      .jalr rd.1 rs1.1 value hm⟩

/-- An instruction has the operands that its mnemonic takes. -/
theorem parses_parseInstruction {col : IData} (h : Parses (parseInstruction m col) tokens i rest) :
    TakesForm m tokens i rest := by
  unfold parseInstruction at h
  split_ifs at h with h1 h2 h3 h4 h5 h6 h7 h8
  · -- `halt` takes no operands.
    obtain ⟨rfl, rfl⟩ := parses_pure.mp h
    exact ⟨[], _, rfl, rfl, .halt h1⟩
  · exact takesForm_itype h2 h
  · exact takesForm_rtype h3 h
  · exact takesForm_load h4 h
  · exact takesForm_store h5 h
  · exact takesForm_utype h6 h
  · exact takesForm_jalr h7 h
  · exact takesForm_jal h8 h
  · exact absurd h not_parses_failWith

end Instructions

/-! ## Lines -/

/-- A statement is a mnemonic and its operands, up to the end of the line. -/
theorem parses_parseStatement {label : Option (List Char)} {token : Token} {line : Line}
    (h : Parses (parseStatement label token) (token :: tokens) line rest) :
    ∃ m operands, token.token_type = .mnemonic m ∧
      OperandForm m (tokens.map Token.token_type) operands ∧
      line = .instruction ⟨label, m, operands⟩ := by
  unfold parseStatement at h
  split at h
  · next m hm =>
    -- The mnemonic, the instruction behind it, and a look at what follows.
    simp only [parses_bind, parses_chop, parses_peek] at h
    obtain ⟨_, body, ⟨rfl, rfl⟩, i, left, hi, next, _, ⟨hnext, rfl⟩, h⟩ := h
    obtain ⟨used, operands, hused, rfl, hform⟩ := parses_parseInstruction hi
    -- The instruction is accepted if nothing is left behind it.
    cases next with
    | none =>
      obtain ⟨hline, -⟩ := parses_pure.mp h
      rw [List.head?_eq_none_iff.mp hnext.symm, List.append_nil] at hused
      rw [hused]
      exact ⟨m, operands, hm, hform, hline⟩
    | some next => exact absurd h not_parses_failWith
  · exact absurd h not_parses_failWith

/-- A directive is followed by its number. -/
theorem parses_parseDirective {token : Token} {line : Line}
    (htoken : token.token_type = .blocksDirective ∨ token.token_type = .warpsDirective)
    (h : Parses parseDirective (token :: tokens) line rest) :
    LineForm ((token :: tokens).map Token.token_type) line := by
  unfold parseDirective at h
  simp only [parses_bind, parses_chop] at h
  obtain ⟨_, _, ⟨rfl, rfl⟩, h⟩ := h
  simp only [List.head?_cons, parses_bind, parses_immediate] at h
  obtain ⟨number, left, rfl, h⟩ := h
  -- The number must be positive.
  by_cases hlow : number.1.toInt < 1
  · rw [if_pos hlow] at h
    exact absurd h not_parses_failWith
  rw [if_neg hlow] at h
  have hpos : 1 ≤ number.1.toInt := by omega
  simp only [parses_bind, parses_peek] at h
  -- Nothing may follow it.
  obtain ⟨next, left, ⟨hnext, rfl⟩, h⟩ := h
  cases next with
  | some next => exact absurd h not_parses_failWith
  | none =>
    rw [List.head?_eq_none_iff.mp hnext.symm, List.map_cons, List.map_cons, List.map_nil]
    simp only at h
    -- The first token tells the two directives apart.
    rcases htoken with htype | htype
    · rw [if_pos htype] at h
      obtain ⟨rfl, -⟩ := parses_pure.mp h
      rw [htype]
      exact .blocks number.1 hpos
    · rw [if_neg (by simp [htype])] at h
      obtain ⟨rfl, -⟩ := parses_pure.mp h
      rw [htype]
      exact .warps number.1 hpos

/-- A line that the parser returns is of the line's form. -/
theorem parses_parseLine {line : Line} (h : Parses Parser.parseLine tokens line rest) :
    LineForm (tokens.map Token.token_type) line := by
  unfold Parser.parseLine at h
  simp only [parses_bind, parses_peek] at h
  obtain ⟨_, tokens, ⟨rfl, rfl⟩, h⟩ := h
  cases tokens with
  | nil => exact absurd h not_parses_fail
  | cons token tokens =>
    simp only [List.head?_cons] at h
    split at h
    · next htype => exact parses_parseDirective (.inl htype) h
    · next htype => exact parses_parseDirective (.inr htype) h
    · next label htype =>
      -- A label, on its own or in front of a statement.
      simp only [parses_bind, parses_chop, parses_peek] at h
      obtain ⟨_, _, ⟨rfl, rfl⟩, _, tokens, ⟨rfl, rfl⟩, h⟩ := h
      rw [List.map_cons, htype]
      cases tokens with
      | nil =>
        obtain ⟨rfl, -⟩ := parses_pure.mp h
        exact .justLabel label
      | cons next tokens =>
        obtain ⟨m, operands, hm, hform, rfl⟩ := parses_parseStatement h
        rw [List.map_cons, hm]
        exact .labelled label m _ operands hform
    · obtain ⟨m, operands, hm, hform, rfl⟩ := parses_parseStatement h
      rw [List.map_cons, hm]
      exact .instruction m _ operands hform

/-! ## Every failure is reported -/

section Honest

variable {m : Mnemonic}

/-- The U-type parser fails with one error. -/
theorem honest_parseUtypeInstruction : Honest (parseUtypeInstruction m) tokens := by
  refine honest_bind honest_expect_class fun _ _ _ => ?_
  refine honest_bind honest_expect_class fun _ _ _ => ?_
  refine honest_bind honest_expect_class fun _ _ _ => ?_
  refine honest_bind honest_checkReg fun _ _ _ => ?_
  exact honest_pure _

/-- The I-type parser fails with one error. -/
theorem honest_parseItypeArithmeticInstruction :
    Honest (parseItypeArithmeticInstruction m) tokens := by
  refine honest_bind honest_expect_class fun _ _ _ => ?_
  refine honest_bind honest_expect_class fun _ _ _ => ?_
  refine honest_bind honest_expect_class fun _ _ _ => ?_
  refine honest_bind honest_expect_class fun _ _ _ => ?_
  refine honest_bind honest_expect_class fun _ _ _ => ?_
  refine honest_bind honest_checkReg fun _ _ _ => ?_
  refine honest_bind honest_checkReg fun _ _ _ => ?_
  exact honest_pure _

/-- The R-type parser fails with one error. -/
theorem honest_parseRtypeInstruction : Honest (parseRtypeInstruction m) tokens := by
  refine honest_bind honest_expect_class fun _ _ _ => ?_
  refine honest_bind honest_expect_class fun _ _ _ => ?_
  refine honest_bind honest_expect_class fun _ _ _ => ?_
  refine honest_bind honest_expect_class fun _ _ _ => ?_
  refine honest_bind honest_expect_class fun _ _ _ => ?_
  refine honest_bind honest_checkReg fun _ _ _ => ?_
  refine honest_bind honest_checkReg fun _ _ _ => ?_
  refine honest_bind honest_checkReg fun _ _ _ => ?_
  exact honest_pure _

/-- The parser of loads fails with one error. -/
theorem honest_parseLoadInstruction : Honest (parseLoadInstruction m) tokens := by
  refine honest_bind honest_expect_class fun _ _ _ => ?_
  refine honest_bind honest_expect_class fun _ _ _ => ?_
  refine honest_bind honest_expect_class fun _ _ _ => ?_
  refine honest_bind honest_expect_class fun _ _ _ => ?_
  refine honest_bind honest_expect_class fun _ _ _ => ?_
  refine honest_bind honest_expect_class fun _ _ _ => ?_
  refine honest_bind honest_checkReg fun _ _ _ => ?_
  refine honest_bind honest_checkReg fun _ _ _ => ?_
  exact honest_pure _

/-- The parser of stores fails with one error. -/
theorem honest_parseStoreInstruction : Honest (parseStoreInstruction m) tokens := by
  refine honest_bind honest_expect_class fun _ _ _ => ?_
  refine honest_bind honest_expect_class fun _ _ _ => ?_
  refine honest_bind honest_expect_class fun _ _ _ => ?_
  refine honest_bind honest_expect_class fun _ _ _ => ?_
  refine honest_bind honest_expect_class fun _ _ _ => ?_
  refine honest_bind honest_expect_class fun _ _ _ => ?_
  refine honest_bind honest_checkReg fun _ _ _ => ?_
  refine honest_bind honest_checkReg fun _ _ _ => ?_
  exact honest_pure _

/-- The parser of `jal` fails with one error. -/
theorem honest_parseJalInstruction : Honest (parseJalInstruction m) tokens := by
  refine honest_bind honest_expect_class fun _ _ _ => ?_
  refine honest_bind honest_expect_class fun _ _ _ => ?_
  refine honest_bind honest_expect_class fun _ _ _ => ?_
  exact honest_pure _

/-- The parser of `jalr` fails with one error. -/
theorem honest_parseJalrInstruction : Honest (parseJalrInstruction m) tokens := by
  refine honest_bind honest_expect_class fun _ _ _ => ?_
  refine honest_bind honest_expect_class fun _ _ _ => ?_
  refine honest_bind honest_expect_class fun next _ _ => ?_
  cases next.1 with
  | labelRef label_name => exact honest_pure _
  | immediate value =>
    refine honest_bind honest_expect_class fun _ _ _ => ?_
    refine honest_bind honest_expect_class fun _ _ _ => ?_
    refine honest_bind honest_expect_class fun _ _ _ => ?_
    exact honest_pure _

/-- The parser of an instruction fails with one error, that of its mnemonic's parser. -/
theorem honest_parseInstruction {col : IData} : Honest (parseInstruction m col) tokens := by
  unfold parseInstruction
  split_ifs
  · exact honest_pure _
  · exact honest_parseItypeArithmeticInstruction
  · exact honest_parseRtypeInstruction
  · exact honest_parseLoadInstruction
  · exact honest_parseStoreInstruction
  · exact honest_parseUtypeInstruction
  · exact honest_parseJalrInstruction
  · exact honest_parseJalInstruction
  · exact honest_failWith _

/-- At a directive's token, the parser of directives reports what it rejects. -/
theorem honest_parseDirective (h : tokens ≠ []) : Honest parseDirective tokens := by
  refine honest_bind honest_chop fun token _ htoken => ?_
  obtain ⟨rfl, rfl⟩ := parses_chop.mp htoken
  cases tokens with
  -- Without a token the parser would return nothing and report nothing.
  | nil => exact absurd rfl h
  | cons token tokens =>
    refine honest_bind honest_expect_class fun number _ _ => ?_
    by_cases hlow : number.1.toInt < 1
    · rw [if_pos hlow]
      exact honest_failWith _
    rw [if_neg hlow]
    refine honest_bind honest_peek fun next _ _ => ?_
    cases next with
    | some next => exact honest_failWith _
    | none =>
      simp only
      split_ifs
      · exact honest_pure _
      · exact honest_pure _

/-- The parser of a statement fails with one error. -/
theorem honest_parseStatement {label : Option (List Char)} {token : Token} :
    Honest (parseStatement label token) tokens := by
  unfold parseStatement
  split
  · refine honest_bind honest_chop fun _ _ _ => ?_
    refine honest_bind honest_parseInstruction fun _ _ _ => ?_
    refine honest_bind honest_peek fun next _ _ => ?_
    cases next with
    | none => exact honest_pure _
    | some next => exact honest_failWith _
  · exact honest_failWith _

/-- On a line with tokens, the parser returns nothing only with an error. -/
theorem honest_parseLine (h : tokens ≠ []) : Honest Parser.parseLine tokens := by
  refine honest_bind honest_peek fun token rest htoken => ?_
  obtain ⟨rfl, rfl⟩ := parses_peek.mp htoken
  cases rest with
  | nil => exact absurd rfl h
  | cons token rest =>
    simp only [List.head?_cons]
    split
    · exact honest_parseDirective h
    · exact honest_parseDirective h
    · refine honest_bind honest_chop fun _ _ _ => ?_
      refine honest_bind honest_peek fun next _ _ => ?_
      cases next with
      | none => exact honest_pure _
      | some next => exact honest_parseStatement
    · exact honest_parseStatement

end Honest

end Parser

/-- A line that is rejected has errors. -/
theorem parseLine_error {tokens : List Token} {errors : List Error} (hne : tokens ≠ [])
    (h : parseLine tokens = .error errors) : errors ≠ [] := by
  unfold parseLine at h
  cases hvalue : (Parser.parseLine tokens).value with
  | none =>
    rw [hvalue] at h
    obtain rfl := Except.error.inj h
    exact (Parser.honest_parseLine hne).mp hvalue
  | some line =>
    rw [hvalue] at h
    simp at h

/-- The tokens of an accepted line are of its form. -/
theorem parseLine_ok {tokens : List Token} {line : Line} (hne : tokens ≠ [])
    (h : parseLine tokens = .ok line) : LineForm (tokens.map Token.token_type) line := by
  unfold parseLine at h
  cases hvalue : (Parser.parseLine tokens).value with
  | none =>
    rw [hvalue] at h
    simp at h
  | some line =>
    -- A parser that is honest and returns a line has taken it without an error.
    rw [hvalue] at h
    obtain rfl := Except.ok.inj h
    exact Parser.parses_parseLine ((Parser.honest_parseLine hne).parses hvalue)

/-- The instruction of an accepted line has the operands that its mnemonic takes. -/
theorem parseLine_instruction {tokens : List Token} {i : Instruction} (hne : tokens ≠ [])
    (h : parseLine tokens = .ok (.instruction i)) :
    ∃ types, OperandForm i.mnemonic types i.operands :=
  (parseLine_ok hne h).operandForm

end SmolGpu.As
