import SmolGpu.As.Grammar

/-!
# The lines that are accepted

The other direction of `Grammar.lean`: every token sequence of a line's form is accepted, and gives
the line that it is the form of. The operands' form picks the parser that is called behind the
mnemonic (`parses_of_operandForm`), and an empty rest is what the parser of a line asks for behind
the operands. `parse_line_exact` puts the two directions together.
-/

namespace SmolGpu.As

open Sim TokenParser

namespace Parser

variable {tokens used rest : List Token} {types : List TokenType} {m : Mnemonic} {col : IData}

/-! ## Instructions -/

/-- A token sequence whose types begin with `type`. -/
theorem types_cons {type : TokenType} : tokens.map Token.token_type = type :: types ↔
    ∃ col left, tokens = ⟨type, col⟩ :: left ∧ left.map Token.token_type = types := by
  constructor
  · intro h
    obtain ⟨token, left, rfl, rfl, hleft⟩ := List.map_eq_cons_iff.mp h
    exact ⟨token.col, left, rfl, hleft⟩
  · rintro ⟨col, left, rfl, rfl⟩
    rfl

/-- The tests of `parse_instruction` in front of that of a kind do not hold of its mnemonics. -/
theorem kinds_disjoint {name : MnemonicName} :
    (isItypeArithmetic name = true → name ≠ .HALT) ∧
    (isRtype name = true → name ≠ .HALT ∧ isItypeArithmetic name = false) ∧
    (isLoadType name = true → name ≠ .HALT ∧ isItypeArithmetic name = false ∧
      isRtype name = false) ∧
    (isStoreType name = true → name ≠ .HALT ∧ isItypeArithmetic name = false ∧
      isRtype name = false ∧ isLoadType name = false) ∧
    (isUtype name = true → name ≠ .HALT ∧ isItypeArithmetic name = false ∧
      isRtype name = false ∧ isLoadType name = false ∧ isStoreType name = false) := by
  cases name <;> decide

/-- The I-type mnemonics have the I-type parser. -/
theorem parseInstruction_itype (hm : isItypeArithmetic m.name = true) :
    parseInstruction m col = parseItypeArithmeticInstruction m := by
  have hne := kinds_disjoint.1 hm
  rw [parseInstruction, if_neg hne, if_pos hm]

/-- The R-type mnemonics have the R-type parser. -/
theorem parseInstruction_rtype (hm : isRtype m.name = true) :
    parseInstruction m col = parseRtypeInstruction m := by
  obtain ⟨hne, hitype⟩ := kinds_disjoint.2.1 hm
  rw [parseInstruction, if_neg hne, if_neg (by simp [hitype]), if_pos hm]

/-- The loads have their parser. -/
theorem parseInstruction_load (hm : isLoadType m.name = true) :
    parseInstruction m col = parseLoadInstruction m := by
  obtain ⟨hne, hitype, hrtype⟩ := kinds_disjoint.2.2.1 hm
  rw [parseInstruction, if_neg hne, if_neg (by simp [hitype]), if_neg (by simp [hrtype]), if_pos hm]

/-- The stores have their parser. -/
theorem parseInstruction_store (hm : isStoreType m.name = true) :
    parseInstruction m col = parseStoreInstruction m := by
  obtain ⟨hne, hitype, hrtype, hload⟩ := kinds_disjoint.2.2.2.1 hm
  rw [parseInstruction, if_neg hne, if_neg (by simp [hitype]), if_neg (by simp [hrtype]),
    if_neg (by simp [hload]), if_pos hm]

/-- The U-type mnemonics have the U-type parser. -/
theorem parseInstruction_utype (hm : isUtype m.name = true) :
    parseInstruction m col = parseUtypeInstruction m := by
  obtain ⟨hne, hitype, hrtype, hload, hstore⟩ := kinds_disjoint.2.2.2.2 hm
  rw [parseInstruction, if_neg hne, if_neg (by simp [hitype]), if_neg (by simp [hrtype]),
    if_neg (by simp [hload]), if_neg (by simp [hstore]), if_pos hm]

/-- `jalr` has its parser. -/
theorem parseInstruction_jalr (hm : m.name = .JALR) :
    parseInstruction m col = parseJalrInstruction m := by
  simp [parseInstruction, hm, isItypeArithmetic, isRtype, isLoadType, isStoreType, isUtype]

/-- `jal` has its parser. -/
theorem parseInstruction_jal (hm : m.name = .JAL) :
    parseInstruction m col = parseJalInstruction m := by
  simp [parseInstruction, hm, isItypeArithmetic, isRtype, isLoadType, isStoreType, isUtype]

/-- The operands of the mnemonic's form are taken, whatever follows them. -/
theorem parses_of_operandForm {operands : Operands} (h : OperandForm m types operands)
    (hused : used.map Token.token_type = types) :
    Parses (parseInstruction m col) (used ++ rest) ⟨none, m, operands⟩ rest := by
  -- One case a form. The columns of the tokens are free, so the tokens of the line are any with the
  -- types of the form, and the parser takes them one by one.
  cases h with
  | halt hm =>
    -- A `halt` has no operands.
    rw [parseInstruction, if_pos hm, List.map_eq_nil_iff.mp hused]
    exact parses_pure.mpr ⟨rfl, rfl⟩
  | itype rd rs1 imm12 hm hrd hrs1 =>
    -- The two files that the parser checks for are those of the form.
    obtain ⟨hd, hs⟩ := scalar_of_itype hm
    simp only [types_cons, List.map_eq_nil_iff] at hused
    obtain ⟨c1, _, rfl, c2, _, rfl, c3, _, rfl, c4, _, rfl, c5, _, rfl, rfl⟩ := hused
    rw [parseInstruction_itype hm, parseItypeArithmeticInstruction]
    simp only [parses_bind, parses_register, parses_comma, parses_immediate, parses_checkReg,
      parses_pure]
    exact ⟨(rd, c1), _, rfl, ((), c2), _, rfl, (rs1, c3), _, rfl, ((), c4), _, rfl, (imm12, c5), _,
      rfl, (), _, ⟨hrd.trans hd, rfl⟩, (), _, ⟨hrs1.trans hs, rfl⟩, rfl, rfl⟩
  | rtype rd rs1 rs2 hm hrd hrs1 hrs2 =>
    obtain ⟨hd, hs⟩ := scalar_of_rtype hm
    simp only [types_cons, List.map_eq_nil_iff] at hused
    obtain ⟨c1, _, rfl, c2, _, rfl, c3, _, rfl, c4, _, rfl, c5, _, rfl, rfl⟩ := hused
    rw [parseInstruction_rtype hm, parseRtypeInstruction]
    simp only [parses_bind, parses_register, parses_comma, parses_checkReg, parses_pure]
    exact ⟨(rd, c1), _, rfl, ((), c2), _, rfl, (rs1, c3), _, rfl, ((), c4), _, rfl, (rs2, c5), _,
      rfl, (), _, ⟨hrd.trans hd, rfl⟩, (), _, ⟨hrs1.trans hs, rfl⟩, (), _, ⟨hrs2.trans hs, rfl⟩,
      rfl, rfl⟩
  | load rd rs1 offset hm hrd hrs1 =>
    -- An offset, and the base register in parentheses.
    obtain ⟨hd, hs⟩ := scalar_of_load hm
    simp only [types_cons, List.map_eq_nil_iff] at hused
    obtain ⟨c1, _, rfl, c2, _, rfl, c3, _, rfl, c4, _, rfl, c5, _, rfl, c6, _, rfl, rfl⟩ := hused
    rw [parseInstruction_load hm, parseLoadInstruction]
    simp only [parses_bind, parses_register, parses_comma, parses_immediate, parses_lparen,
      parses_rparen, parses_checkReg, parses_pure]
    exact ⟨(rd, c1), _, rfl, ((), c2), _, rfl, (offset, c3), _, rfl, ((), c4), _, rfl, (rs1, c5),
      _, rfl, ((), c6), _, rfl, (), _, ⟨hrd.trans hd, rfl⟩, (), _, ⟨hrs1.trans hs, rfl⟩, rfl, rfl⟩
  | store rs1 rs2 offset hm hrs1 hrs2 =>
    obtain ⟨-, hs⟩ := scalar_of_store hm
    simp only [types_cons, List.map_eq_nil_iff] at hused
    obtain ⟨c1, _, rfl, c2, _, rfl, c3, _, rfl, c4, _, rfl, c5, _, rfl, c6, _, rfl, rfl⟩ := hused
    rw [parseInstruction_store hm, parseStoreInstruction]
    simp only [parses_bind, parses_register, parses_comma, parses_immediate, parses_lparen,
      parses_rparen, parses_checkReg, parses_pure]
    -- The source register comes first in the line, and second in the operands.
    exact ⟨(rs2, c1), _, rfl, ((), c2), _, rfl, (offset, c3), _, rfl, ((), c4), _, rfl, (rs1, c5),
      _, rfl, ((), c6), _, rfl, (), _, ⟨hrs1.trans hs, rfl⟩, (), _, ⟨hrs2.trans hs, rfl⟩, rfl, rfl⟩
  | utype rd imm20 hm hrd =>
    obtain ⟨hd, -⟩ := scalar_of_utype hm
    simp only [types_cons, List.map_eq_nil_iff] at hused
    obtain ⟨c1, _, rfl, c2, _, rfl, c3, _, rfl, rfl⟩ := hused
    rw [parseInstruction_utype hm, parseUtypeInstruction]
    simp only [parses_bind, parses_register, parses_comma, parses_immediate, parses_checkReg,
      parses_pure]
    exact ⟨(rd, c1), _, rfl, ((), c2), _, rfl, (imm20, c3), _, rfl, (), _, ⟨hrd.trans hd, rfl⟩, rfl,
      rfl⟩
  | jal rd immediate hm =>
    simp only [types_cons, List.map_eq_nil_iff] at hused
    obtain ⟨c1, _, rfl, c2, _, rfl, c3, _, rfl, rfl⟩ := hused
    rw [parseInstruction_jal hm, parseJalInstruction]
    simp only [parses_bind, parses_register, parses_comma, parses_immediate, parses_pure]
    exact ⟨(rd, c1), _, rfl, ((), c2), _, rfl, (immediate, c3), _, rfl, rfl, rfl⟩
  | jalrLabel rd label_name hm =>
    simp only [types_cons, List.map_eq_nil_iff] at hused
    obtain ⟨c1, _, rfl, c2, _, rfl, c3, _, rfl, rfl⟩ := hused
    rw [parseInstruction_jalr hm, parseJalrInstruction]
    simp only [parses_bind, parses_register, parses_comma, parses_labelRefOrImmediate]
    exact ⟨(rd, c1), _, rfl, ((), c2), _, rfl, (.labelRef label_name, c3), _, rfl,
      parses_pure.mpr ⟨rfl, rfl⟩⟩
  | jalr rd rs1 value hm =>
    simp only [types_cons, List.map_eq_nil_iff] at hused
    obtain ⟨c1, _, rfl, c2, _, rfl, c3, _, rfl, c4, _, rfl, c5, _, rfl, c6, _, rfl, rfl⟩ := hused
    rw [parseInstruction_jalr hm, parseJalrInstruction]
    simp only [parses_bind, parses_register, parses_comma, parses_labelRefOrImmediate]
    refine ⟨(rd, c1), _, rfl, ((), c2), _, rfl, (.immediate value, c3), _, rfl, ?_⟩
    -- Behind an immediate the base register is expected.
    simp only [parses_bind, parses_lparen, parses_register, parses_rparen, parses_pure]
    exact ⟨((), c4), _, rfl, (rs1, c5), _, rfl, ((), c6), _, rfl, rfl, rfl⟩

/-! ## Lines -/

/-- A mnemonic with its operands at the end of the line is accepted. -/
theorem parses_statement {label : Option (List Char)} {operands : Operands}
    (h : OperandForm m (tokens.map Token.token_type) operands) :
    Parses (parseStatement label ⟨.mnemonic m, col⟩) (⟨.mnemonic m, col⟩ :: tokens)
      (.instruction ⟨label, m, operands⟩) [] := by
  have hinstruction : Parses (parseInstruction m col) tokens ⟨none, m, operands⟩ [] := by
    have happend : Parses (parseInstruction m col) (tokens ++ []) ⟨none, m, operands⟩ [] :=
      parses_of_operandForm h rfl
    rwa [List.append_nil] at happend
  unfold parseStatement
  simp only [parses_bind, parses_chop, parses_peek]
  exact ⟨_, _, ⟨rfl, rfl⟩, _, [], hinstruction, none, [], ⟨rfl, rfl⟩, parses_pure.mpr ⟨rfl, rfl⟩⟩

/-- A directive with a positive number is accepted. -/
theorem parses_directive {token : Token} {number : IData} (hpos : 1 ≤ number.toInt) :
    Parses parseDirective [token, ⟨.immediate number, col⟩]
      (if token.token_type = .blocksDirective then .blocksDirective number
        else .warpsDirective number) [] := by
  have hlow : ¬number.toInt < 1 := by omega
  unfold parseDirective
  simp only [parses_bind, parses_chop]
  refine ⟨_, _, ⟨rfl, rfl⟩, ?_⟩
  simp only [List.head?_cons, parses_bind, parses_immediate]
  refine ⟨(number, col), [], rfl, ?_⟩
  rw [if_neg hlow]
  simp only [parses_bind, parses_peek]
  refine ⟨none, [], ⟨rfl, rfl⟩, ?_⟩
  split_ifs
  · exact parses_pure.mpr ⟨rfl, rfl⟩
  · exact parses_pure.mpr ⟨rfl, rfl⟩

/-- Every sequence of a line's form is accepted. -/
theorem parses_of_lineForm {line : Line} (h : LineForm types line)
    (htokens : tokens.map Token.token_type = types) : Parses Parser.parseLine tokens line [] := by
  unfold Parser.parseLine
  simp only [parses_bind, parses_peek]
  refine ⟨_, _, ⟨rfl, rfl⟩, ?_⟩
  -- The next token is the first of the form, so the parser takes its branch.
  cases h with
  | blocks number hpos =>
    simp only [types_cons, List.map_eq_nil_iff] at htokens
    obtain ⟨c1, _, rfl, c2, _, rfl, rfl⟩ := htokens
    exact parses_directive hpos
  | warps number hpos =>
    simp only [types_cons, List.map_eq_nil_iff] at htokens
    obtain ⟨c1, _, rfl, c2, _, rfl, rfl⟩ := htokens
    exact parses_directive hpos
  | justLabel label =>
    simp only [types_cons, List.map_eq_nil_iff] at htokens
    obtain ⟨c1, _, rfl, rfl⟩ := htokens
    simp only [List.head?_cons, parses_bind, parses_chop, parses_peek]
    exact ⟨_, _, ⟨rfl, rfl⟩, none, [], ⟨rfl, rfl⟩, parses_pure.mpr ⟨rfl, rfl⟩⟩
  | instruction m types operands hform =>
    simp only [types_cons] at htokens
    obtain ⟨c1, left, rfl, rfl⟩ := htokens
    exact parses_statement hform
  | labelled label m types operands hform =>
    simp only [types_cons] at htokens
    obtain ⟨c1, _, rfl, c2, left, rfl, rfl⟩ := htokens
    simp only [List.head?_cons, parses_bind, parses_chop, parses_peek]
    exact ⟨_, _, ⟨rfl, rfl⟩, _, _, ⟨rfl, rfl⟩, parses_statement hform⟩

end Parser

/-- A sequence of a line's form is parsed to that line. -/
theorem parseLine_of_lineForm {tokens : List Token} {line : Line}
    (h : LineForm (tokens.map Token.token_type) line) : parseLine tokens = .ok line := by
  have hparses := Parser.parses_of_lineForm h rfl
  unfold Parses at hparses
  rw [parseLine, hparses]

/-- Outside of jumps the register files follow from the mnemonic's prefix, except that an `sx`
instruction has a scalar destination and vector sources. -/
theorem OperandForm.scalar {m : Mnemonic} {types : List TokenType} {operands : Operands}
    (h : OperandForm m types operands) (hjump : m.isJump = false) :
    ScalarRd m = (m.has_s_prefix || m.isVectorScalar) ∧
      ScalarRs m = (m.has_s_prefix && !m.isVectorScalar) := by
  have hisScalar : m.isScalar = (m.has_s_prefix || m.isVectorScalar) := by
    simp [Mnemonic.isScalar, hjump, h.isBranch]
  unfold ScalarRd ScalarRs
  by_cases hsx : m.name = .SX_SLT ∨ m.name = .SX_SLTI
  · have hvector : m.isVectorScalar = true := by simpa [Mnemonic.isVectorScalar] using hsx
    rw [if_pos hsx, if_pos hsx, hvector]
    simp
  · have hvector : m.isVectorScalar = false := by simpa [Mnemonic.isVectorScalar] using hsx
    rw [if_neg hsx, if_neg hsx, hisScalar, hvector]
    simp

/-- A line is accepted exactly if its tokens are of a line's form, as the line that this is the form
of. The registers that `OperandForm` asks of an instruction other than a jump are scalar with the
prefix `s.` and vector registers without it. Of the `sx` instructions the destination is scalar and
the sources are vector registers. -/
theorem parse_line_exact (tokens : List Token) :
    (∀ line, parseLine tokens = .ok line ↔ LineForm (tokens.map Token.token_type) line) ∧
    ∀ m types operands, OperandForm m types operands → m.isJump = false →
      ScalarRd m = (m.has_s_prefix || m.isVectorScalar) ∧
        ScalarRs m = (m.has_s_prefix && !m.isVectorScalar) := by
  refine ⟨fun line => ⟨fun h => ?_, parseLine_of_lineForm⟩,
    fun m types operands h hjump => h.scalar hjump⟩
  by_cases hne : tokens = []
  · rw [hne] at h
    cases h
  · exact parseLine_ok hne h

end SmolGpu.As
