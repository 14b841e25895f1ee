import SmolGpu.As.Lexemes
import SmolGpu.As.Lines

/-!
# Printing lines

`to_string`, `Instruction::to_str`, and `line_to_str` of `src/sim/aslib/parser.hpp` and
`parser.cpp`, and what becomes of a line that is printed, lexed, and parsed again. The printer looks
at the variant of the operands, and the parser at the mnemonic. The two agree on every instruction
but `halt`, which has no operands in the text, and value-initialised ones of the first variant in
the line.
-/

namespace SmolGpu.As

open Sim Numeral

/-! ## The printer -/

/-- `to_string` of an `ImmediateOrLabelref`. -/
def ImmediateOrLabelref.toStr : ImmediateOrLabelref → String
  | .immediate value => toString value.toInt
  | .labelRef label_name => String.ofList label_name

/-- The visitor of `Instruction::to_str`. -/
def Operands.toStr (mnemonic : Mnemonic) : Operands → String
  | .itype operands =>
    if isLoadType mnemonic.name then
      operands.rd.toStr ++ ", " ++ toString operands.imm12.toInt ++ "(" ++ operands.rs1.toStr ++ ")"
    else
      operands.rd.toStr ++ ", " ++ operands.rs1.toStr ++ ", " ++
        (ImmediateOrLabelref.immediate operands.imm12).toStr
  | .rtype operands => operands.rd.toStr ++ ", " ++ operands.rs1.toStr ++ ", " ++ operands.rs2.toStr
  | .stype operands =>
    operands.rs2.toStr ++ ", " ++ toString operands.imm12.toInt ++ "(" ++ operands.rs1.toStr ++ ")"
  | .utype operands => operands.rd.toStr ++ ", " ++ toString operands.imm20.toInt
  | .jtype operands => operands.rd.toStr ++ ", " ++ toString operands.imm20.toInt
  | .jalr operands =>
    operands.rd.toStr ++ ", " ++
      match operands.immediate_or_label_ref with
      | .labelRef label_name => String.ofList label_name
      | .immediate value => toString value.toInt ++ "(" ++ operands.rs1.toStr ++ ")"

/-- `Instruction::to_str`. -/
def Instruction.toStr (i : Instruction) : String :=
  (match i.label with
    | some label => String.ofList label ++ ": "
    | none => "") ++ (i.mnemonic.toStr ++ " ") ++ i.operands.toStr i.mnemonic

/-- `line_to_str`. -/
def lineToStr : Line → String
  | .justLabel label => String.ofList label ++ ":"
  | .blocksDirective number => ".blocks " ++ toString number.toNat
  | .warpsDirective number => ".warps " ++ toString number.toNat
  | .instruction instruction => instruction.toStr

/-! ## What the printer spells -/

section Spelling

variable {text word : List Char} {types : List TokenType} {reg : Register} {imm : WordType}
  {name : List Char}

/-- A character in front of which every word and every number ends. -/
def Delimited (text : List Char) : Prop :=
  ∀ c, text.head? = some c → Lexer.isKeywordChar c = false

/-- A hexadecimal digit is a character of a keyword. -/
theorem not_isDigit_sixteen {c : Char} (h : Lexer.isKeywordChar c = false) : ¬IsDigit 16 c := by
  intro hdigit
  have h0 : '0' ≤ c ↔ 48 ≤ c.toNat := Char.le_def
  have h9 : c ≤ '9' ↔ c.toNat ≤ 57 := Char.le_def
  have hkeyword : isNumeric c 10 = true ∨ isAlphabetic c = true := by
    obtain ⟨d, hd, -⟩ := hdigit
    unfold digit? at hd
    split_ifs at hd with hten hupper hlower
    · left
      rw [isNumeric_ten_iff, isDigit_ten_iff, Char.isDigit_iff_toNat]
      exact ⟨h0.mp hten.1, h9.mp hten.2⟩
    · right
      have hZ : c ≤ 'Z' := Char.le_trans hupper.2 (by decide)
      simp [isAlphabetic, hupper.1, hZ]
    · right
      have hz : c ≤ 'z' := Char.le_trans hlower.2 (by decide)
      simp [isAlphabetic, hlower.1, hz]
  rcases hkeyword with hnumeric | hletter
  · simp [Lexer.isKeywordChar, isAlphanumeric, hnumeric] at h
  · simp [Lexer.isKeywordChar, isAlphanumeric, hletter] at h

/-- The decimal digits of a number in front of a delimiter are those of a numeral, to the base 8
where a zero has something behind it. -/
theorem exists_basePrefix_toDigits (n : ℕ) (hend : Delimited text) :
    ∃ base, BasePrefix (Nat.toDigits 10 n ++ text) base (Nat.toDigits 10 n ++ text) ∧
      value base (Nat.toDigits 10 n) = n ∧ ∀ c ∈ Nat.toDigits 10 n, IsDigit base c := by
  by_cases hzero : n = 0
  · subst hzero
    rw [Nat.toDigits_zero]
    have hdigit : ∀ base, 0 < base → ∀ c ∈ ['0'], IsDigit base c := by
      intro base hbase c hc
      obtain rfl := List.mem_singleton.mp hc
      exact ⟨0, by decide, hbase⟩
    cases text with
    | nil =>
      refine ⟨10, .decimal _ fun c rest h => ?_, by decide, hdigit 10 (by decide)⟩
      simp at h
    | cons c rest =>
      have hc : Lexer.isKeywordChar c = false := hend c rfl
      refine ⟨8, .octal c rest ?_ ?_ ?_ ?_, by decide, hdigit 8 (by decide)⟩
      · rintro rfl
        exact absurd hc (by decide)
      · rintro rfl
        exact absurd hc (by decide)
      · rintro rfl
        exact absurd hc (by decide)
      · rintro rfl
        exact absurd hc (by decide)
  · -- A number that is not zero does not begin with one.
    refine ⟨10, .decimal _ fun c rest h => hzero (eq_zero_of_toDigits_head ?_), value_toDigits n,
      fun c hc => isDigit_of_mem_toDigits hc⟩
    obtain ⟨d, digits, hdigits⟩ := List.exists_cons_of_ne_nil (@Nat.toDigits_ne_nil n 10)
    rw [hdigits] at h ⊢
    obtain ⟨rfl, -⟩ := List.cons.inj h
    rfl

/-- The numbers above the least `int32_t` are read as they are printed. -/
theorem parseNum_toString (himm : Readable (.immediate imm)) (hend : Delimited text) :
    parseNum ((toString imm.toInt).toList ++ text) = (.ok imm, text) := by
  obtain ⟨base, hpre, hmagnitude, hdigit⟩ := exists_basePrefix_toDigits imm.toInt.natAbs hend
  -- The magnitude is in range, as the least number is left out.
  have hrange : imm.toInt.natAbs ≤ 2 ^ 31 - 1 := by
    have hlow : -2 ^ 31 < imm.toInt := himm
    have hhigh := @BitVec.toInt_lt 32 imm
    omega
  refine parseNum_ok_iff_numeralAt.mpr ⟨decide (imm.toInt < 0), base,
    Nat.toDigits 10 imm.toInt.natAbs, ⟨⟨Nat.toDigits_ne_nil, hdigit, ?_, ?_⟩, ?_⟩, ?_⟩
  · exact fun c hc => not_isDigit_sixteen (hend c hc)
  · rw [hmagnitude]
    exact hrange
  · refine ⟨_, ?_, hpre⟩
    rw [toList_toString]
    by_cases hneg : imm.toInt < 0
    · simp [hneg]
    · simp [hneg]
  · unfold signedValue
    rw [hmagnitude]
    by_cases hneg : imm.toInt < 0
    · rw [if_pos (by simpa using hneg)]
      omega
    · rw [if_neg (by simpa using hneg)]
      omega

/-- A printed immediate, with a delimiter after it, spells the immediate. -/
theorem spells_immediate (himm : Readable (.immediate imm)) (hend : Delimited text)
    (h : Spells text types) :
    Spells ((toString imm.toInt).toList ++ text) (.immediate imm :: types) := by
  refine .number ?_ (parseNum_toString himm hend) h
  rw [toList_toString]
  by_cases hneg : imm.toInt < 0
  · rw [if_pos hneg]
    rfl
  · rw [if_neg hneg]
    obtain ⟨c, digits, hdigits⟩ := List.exists_cons_of_ne_nil
      (@Nat.toDigits_ne_nil imm.toInt.natAbs 10)
    have hc : c ∈ Nat.toDigits 10 imm.toInt.natAbs := by
      rw [hdigits]
      exact List.mem_cons_self
    rw [hdigits]
    simp [isNumeric_ten_iff.mpr (isDigit_of_mem_toDigits hc)]

/-- A printed register, with a delimiter after it, spells the register. -/
theorem spells_reg (hreg : Readable (.register reg)) (hend : Delimited text)
    (h : Spells text types) : Spells (reg.toStr.toList ++ text) (.register reg :: types) := by
  have hvalue := value_toDigits reg.register_number.toNat
  have hat : RegisterAt reg.toStr.toList reg.type
      (Nat.toDigits 10 reg.register_number.toNat) [] := by
    refine ⟨?_, Nat.toDigits_ne_nil, fun c hc => isDigit_of_mem_toDigits hc, by simp⟩
    unfold Register.toStr
    cases reg.type with
    | VECTOR =>
      simp only [String.toList_append, List.append_nil]
      rw [Nat.toString_eq_repr, Nat.toList_repr]
      rfl
    | SCALAR =>
      simp only [String.toList_append, List.append_nil]
      rw [Nat.toString_eq_repr, Nat.toList_repr]
      rfl
  refine spells_register hat ?_ ?_ hend h
  · rw [hvalue]
    exact hreg
  · rw [hvalue, BitVec.ofNat_toNat, BitVec.setWidth_eq]

/-- A reference at the end of the line. -/
theorem spells_reference (hname : Readable (.labelRef name)) :
    Spells (name ++ []) [.labelRef name] := by
  rw [List.append_nil]
  refine spells_label hname.1 hname.2.1 fun col => ?_
  rw [Lexer.keywordToken_plain hname.2.2.1 (label_getLast?_ne hname.2.1)]
  exact Lexer.registerOrLabelRef_labelRef hname.2.2.2 hname.2.1

/-- A name and a colon, with a delimiter after them, spell the label. -/
theorem spells_declaration (hname : Readable (.label name)) (hend : Delimited text)
    (h : Spells text types) : Spells (name ++ ':' :: text) (.label name :: types) := by
  have hword : ∀ c ∈ name ++ [':'], Lexer.isKeywordChar c = true := by
    intro c hc
    rcases List.mem_append.mp hc with hc | hc
    · exact isKeywordChar_of_isLabelChar (hname.2 c hc)
    · obtain rfl := List.mem_singleton.mp hc
      decide
  have hhead : (name ++ [':']).head?.any isAlphabetic = true := by
    cases name with
    | nil => exact absurd hname.1 (by decide)
    | cons c name => exact hname.1
  have hspells : Spells ((name ++ [':']) ++ text) (.label name :: types) :=
    .word hhead hword hend (fun col => Lexer.keywordToken_label ⟨rfl, hname.2⟩) h
  rwa [List.append_assoc] at hspells

end Spelling

/-! ## Operands -/

section Operands

variable {text : List Char} {types : List TokenType} {reg : Register} {m : Mnemonic}
  {operands : Operands}

/-- The end of the line delimits a word. -/
theorem delimited_nil : Delimited [] := by simp [Delimited]

/-- A character that is not one of words delimits them. -/
theorem delimited_cons {c : Char} (h : Lexer.isKeywordChar c = false) : Delimited (c :: text) := by
  simp [Delimited, h]

/-! The texts between the operands. -/

/-- The characters of the text between a mnemonic and its operands. -/
theorem toList_space : " ".toList = [' '] := by decide

/-- The characters of the text after a label of its own line. -/
theorem toList_colon : ":".toList = [':'] := by decide

/-- The characters of the text between a label and an instruction. -/
theorem toList_colon_space : ": ".toList = [':', ' '] := by decide

/-- The characters of the text between two operands. -/
theorem toList_comma : ", ".toList = [',', ' '] := by decide

/-- The characters of the text before a base register. -/
theorem toList_lparen : "(".toList = ['('] := by decide

/-- The characters of the text after a base register. -/
theorem toList_rparen : ")".toList = [')'] := by decide

/-- An operand that is followed by another one. -/
theorem spells_reg_comma (hreg : Readable (.register reg)) (h : Spells text types) :
    Spells (reg.toStr.toList ++ (',' :: ' ' :: text)) (.register reg :: .comma :: types) :=
  spells_reg hreg (delimited_cons (by decide)) (.punctuation .comma (.blank (by decide) h))

/-- The base register in parentheses. -/
theorem spells_base (hreg : Readable (.register reg)) :
    Spells ('(' :: (reg.toStr.toList ++ [')'])) [.lparen, .register reg, .rparen] :=
  .punctuation .lparen
    (spells_reg hreg (delimited_cons (by decide)) (.punctuation .rparen .nil))

/-- The operands of every instruction but `halt` are printed as they are parsed. -/
theorem spells_operands (h : OperandForm m types operands) (hm : m.name ≠ .HALT)
    (hread : ∀ type ∈ types, Readable type) : Spells ((operands.toStr m).toList ++ []) types := by
  cases h with
  | halt hhalt => exact absurd hhalt hm
  | itype rd rs1 imm12 hitype hrd hrs1 =>
    -- The other instructions with these operands have no parentheses.
    have hload : ¬isLoadType m.name = true := fun hload => by
      have hnot := (Parser.kinds_disjoint.2.2.1 hload).2.1
      rw [hitype] at hnot
      simp at hnot
    simp only [Operands.toStr, if_neg hload, ImmediateOrLabelref.toStr, String.toList_append,
      toList_comma, List.append_assoc, List.cons_append, List.nil_append]
    exact spells_reg_comma (hread _ (by simp)) (spells_reg_comma (hread _ (by simp))
      (spells_immediate (hread _ (by simp)) delimited_nil .nil))
  | rtype rd rs1 rs2 hrtype hrd hrs1 hrs2 =>
    simp only [Operands.toStr, String.toList_append, toList_comma, List.append_assoc,
      List.cons_append, List.nil_append]
    exact spells_reg_comma (hread _ (by simp)) (spells_reg_comma (hread _ (by simp))
      (spells_reg (hread _ (by simp)) delimited_nil .nil))
  | load rd rs1 offset hload hrd hrs1 =>
    simp only [Operands.toStr, if_pos hload, String.toList_append, toList_comma, toList_lparen,
      toList_rparen, List.append_assoc, List.cons_append, List.nil_append, List.append_nil]
    exact spells_reg_comma (hread _ (by simp)) (spells_immediate (hread _ (by simp))
      (delimited_cons (by decide)) (spells_base (hread _ (by simp))))
  | store rs1 rs2 offset hstore hrs1 hrs2 =>
    simp only [Operands.toStr, String.toList_append, toList_comma, toList_lparen,
      toList_rparen, List.append_assoc, List.cons_append, List.nil_append, List.append_nil]
    exact spells_reg_comma (hread _ (by simp)) (spells_immediate (hread _ (by simp))
      (delimited_cons (by decide)) (spells_base (hread _ (by simp))))
  | utype rd imm20 hutype hrd =>
    simp only [Operands.toStr, String.toList_append, toList_comma, List.append_assoc,
      List.cons_append, List.nil_append]
    exact spells_reg_comma (hread _ (by simp))
      (spells_immediate (hread _ (by simp)) delimited_nil .nil)
  | jal rd immediate hjal =>
    simp only [Operands.toStr, String.toList_append, toList_comma, List.append_assoc,
      List.cons_append, List.nil_append]
    exact spells_reg_comma (hread _ (by simp))
      (spells_immediate (hread _ (by simp)) delimited_nil .nil)
  | jalrLabel rd label_name hjalr =>
    simp only [Operands.toStr, String.toList_append, toList_comma, String.toList_ofList,
      List.append_assoc, List.cons_append, List.nil_append]
    exact spells_reg_comma (hread _ (by simp)) (spells_reference (hread _ (by simp)))
  | jalr rd rs1 imm hjalr =>
    simp only [Operands.toStr, String.toList_append, toList_comma, toList_lparen,
      toList_rparen, List.append_assoc, List.cons_append, List.nil_append, List.append_nil]
    exact spells_reg_comma (hread _ (by simp)) (spells_immediate (hread _ (by simp))
      (delimited_cons (by decide)) (spells_base (hread _ (by simp))))

end Operands

/-! ## Lines -/

section Lines

variable {text : List Char} {types : List TokenType} {m : Mnemonic} {operands : Operands}
  {label : Option (List Char)}

/-- An instruction spells its label, its mnemonic, and what its operands spell. -/
theorem spells_instruction (hlabel : ∀ name, label = some name → Readable (.label name))
    (h : Spells ((operands.toStr m).toList ++ []) types) :
    Spells (Instruction.toStr ⟨label, m, operands⟩).toList
      ((label.map TokenType.label).toList ++ .mnemonic m :: types) := by
  rw [List.append_nil] at h
  have hstatement : Spells (m.toStr.toList ++ ' ' :: (operands.toStr m).toList)
      (.mnemonic m :: types) :=
    spells_mnemonic m (delimited_cons (by decide)) (.blank (by decide) h)
  cases label with
  | none =>
    simp only [Instruction.toStr, String.toList_append, toList_space, String.toList_empty,
      List.append_assoc, List.cons_append, List.nil_append]
    exact hstatement
  | some name =>
    simp only [Instruction.toStr, String.toList_append, toList_space, toList_colon_space,
      String.toList_ofList, List.append_assoc, List.cons_append, List.nil_append]
    exact spells_declaration (hlabel name rfl) (delimited_cons (by decide))
      (.blank (by decide) hstatement)

/-- A directive spells its positive number. -/
theorem spells_directive {word : List Char} {type : TokenType} {number : IData}
    (hword : Directive word type) (hpos : 1 ≤ number.toInt) :
    Spells ('.' :: (word ++ ' ' :: (toString number.toNat).toList)) [type, .immediate number] := by
  have hnat : (toString number.toNat).toList = (toString number.toInt).toList ++ [] := by
    have hcast : number.toInt = number.toNat := by
      rw [BitVec.toInt_eq_toNat_cond] at hpos ⊢
      split_ifs at hpos ⊢
      · rfl
      · omega
    rw [List.append_nil, toList_toString, hcast, if_neg (by omega), Int.natAbs_natCast,
      Nat.toString_eq_repr, Nat.toList_repr]
  have hread : Readable (.immediate number) := by
    show -2 ^ 31 < number.toInt
    omega
  rw [hnat]
  exact .directive hword (by simp [isWhitespace])
    (.blank (by decide) (spells_immediate hread delimited_nil .nil))

/-- Every line but a `halt` is printed as it is parsed. -/
theorem spells_line {line : Line} (h : LineForm types line)
    (hhalt : ∀ i, line = .instruction i → i.mnemonic.name ≠ .HALT)
    (hread : ∀ type ∈ types, Readable type) : Spells (lineToStr line).toList types := by
  cases h with
  | blocks number hpos =>
    -- A directive, a blank, and the number.
    have htext : (lineToStr (.blocksDirective number)).toList =
        '.' :: ("blocks".toList ++ ' ' :: (toString number.toNat).toList) := by
      simp only [lineToStr, String.toList_append]
      rw [show ".blocks ".toList = '.' :: ("blocks".toList ++ [' ']) by decide]
      simp
    rw [htext]
    exact spells_directive .blocks hpos
  | warps number hpos =>
    have htext : (lineToStr (.warpsDirective number)).toList =
        '.' :: ("warps".toList ++ ' ' :: (toString number.toNat).toList) := by
      simp only [lineToStr, String.toList_append]
      rw [show ".warps ".toList = '.' :: ("warps".toList ++ [' ']) by decide]
      simp
    rw [htext]
    exact spells_directive .warps hpos
  | justLabel name =>
    -- A label and its colon.
    simp only [lineToStr, String.toList_append, String.toList_ofList, toList_colon]
    exact spells_declaration (hread _ (by simp)) delimited_nil .nil
  | instruction m types operands hform =>
    -- Without a label, the mnemonic and its operands.
    have hm : m.name ≠ .HALT := hhalt _ rfl
    have hoperands := spells_operands hform hm fun type htype =>
      hread type (List.mem_cons_of_mem _ htype)
    rw [lineToStr]
    exact @spells_instruction types m operands none (by simp) hoperands
  | labelled name m types operands hform =>
    have hm : m.name ≠ .HALT := hhalt _ rfl
    have hoperands := spells_operands hform hm fun type htype =>
      hread type (List.mem_cons_of_mem _ (List.mem_cons_of_mem _ htype))
    -- With one, its name stands in front and can be read back, as it came from a line.
    have hname : ∀ name', some name = some name' → Readable (.label name') := by
      intro name' hname'
      obtain rfl := Option.some.inj hname'
      exact hread _ List.mem_cons_self
    rw [lineToStr]
    exact spells_instruction hname hoperands

/-- A `halt` is parsed without operands. -/
theorem OperandForm.of_halt (h : OperandForm m types operands) (hm : m.name = .HALT) :
    types = [] ∧ operands = .default := by
  cases h with
  | halt => exact ⟨rfl, rfl⟩
  | itype _ _ _ hname => simp [hm, isItypeArithmetic] at hname
  | rtype _ _ _ hname => simp [hm, isRtype] at hname
  | load _ _ _ hname => simp [hm, isLoadType] at hname
  | store _ _ _ hname => simp [hm, isStoreType] at hname
  | utype _ _ hname => simp [hm, isUtype] at hname
  | jal _ _ hname | jalrLabel _ _ hname | jalr _ _ _ hname => simp [hm] at hname

/-- A `halt` is printed with the operands that it does not have. -/
theorem spells_halt (hm : m.name = .HALT) :
    Spells ((Operands.default.toStr m).toList ++ [])
      [.register .zero, .comma, .register .zero, .comma, .immediate 0] := by
  have hzero : Readable (.register .zero) :=
    show Register.zero.register_number.toNat < 2 ^ 31 by decide
  have himm : Readable (.immediate 0) := show -2 ^ 31 < (0 : WordType).toInt by decide
  have hload : ¬isLoadType m.name = true := by simp [hm, isLoadType]
  simp only [Operands.default, Operands.toStr, if_neg hload, ImmediateOrLabelref.toStr,
    String.toList_append, toList_comma, List.append_assoc, List.cons_append, List.nil_append]
  exact spells_reg_comma hzero (spells_reg_comma hzero (spells_immediate himm delimited_nil .nil))

/-- The printed text of a `halt` is not parsed to a line with a `halt`. -/
theorem not_parses_halt {i : Instruction} {tokens : List Token} {errors : List Error}
    (hi : ∃ types, OperandForm i.mnemonic types i.operands) (hm : i.mnemonic.name = .HALT)
    (hlabel : ∀ name, i.label = some name → Readable (.label name))
    (hcollect : collectTokens (lineToStr (.instruction i)).toList = some (tokens, errors)) :
    parseLine tokens ≠ .ok (.instruction i) := by
  obtain ⟨types, hform⟩ := hi
  obtain ⟨label, m, operands⟩ := i
  obtain ⟨-, hdefault⟩ := hform.of_halt hm
  dsimp only at hdefault hm
  subst hdefault
  obtain ⟨tokens', hcollect', htypes⟩ :=
    collectTokens_of_spells (spells_instruction hlabel (spells_halt hm))
  have htokens : tokens = tokens' := by
    have heq := hcollect.symm.trans hcollect'
    exact (Prod.ext_iff.mp (Option.some.inj heq)).1
  subst htokens
  intro hparse
  have hne : tokens ≠ [] := by
    rintro rfl
    cases hparse
  -- The mnemonic is followed by a register.
  have hline := parseLine_ok hne hparse
  rw [htypes] at hline
  cases label with
  | none =>
    cases hline with
    | instruction _ _ _ hoperands => exact absurd (hoperands.of_halt hm).1 (by simp)
  | some name =>
    cases hline with
    | labelled _ _ _ _ hoperands => exact absurd (hoperands.of_halt hm).1 (by simp)

/-- The label of a line that is parsed is one of its tokens. -/
theorem label_of_lineForm {i : Instruction} (h : LineForm types (.instruction i)) :
    ∀ name, i.label = some name → .label name ∈ types := by
  intro name hname
  cases h with
  | instruction => simp at hname
  | labelled label =>
    obtain rfl := Option.some.inj hname
    exact List.mem_cons_self

end Lines

/-- A line that is lexed, parsed, printed, and lexed again is parsed to the same line, without an
error, if and only if it is no `halt`. -/
theorem print_then_parse_iff (text : List Char) (tokens : List Token) (errors : List Error)
    (line : Line) (htokens : collectTokens text = some (tokens, errors))
    (hline : parseLine tokens = .ok line) :
    (∃ tokens', collectTokens (lineToStr line).toList = some (tokens', []) ∧
        parseLine tokens' = .ok line) ↔
      ∀ i, line = .instruction i → i.mnemonic.name ≠ .HALT := by
  have hne : tokens ≠ [] := by
    rintro rfl
    cases hline
  have hform := parseLine_ok hne hline
  have hread : ∀ type ∈ tokens.map Token.token_type, Readable type := by
    intro type htype
    obtain ⟨token, htoken, rfl⟩ := List.mem_map.mp htype
    exact readable_of_collectTokens htokens token htoken
  constructor
  · rintro ⟨tokens', hcollect, hparse⟩ i rfl hm
    exact not_parses_halt hform.operandForm hm
      (fun name hname => hread _ (label_of_lineForm hform name hname)) hcollect hparse
  · intro hhalt
    obtain ⟨tokens', hcollect, htypes⟩ := collectTokens_of_spells (spells_line hform hhalt hread)
    exact ⟨tokens', hcollect, parseLine_of_lineForm (htypes ▸ hform)⟩

/-- A load with a label is printed as it was read. -/
theorem print_then_parse_iff_load :
    (∃ tokens', collectTokens (lineToStr (.instruction
          ⟨some ['L'], ⟨.LW, true⟩, .itype ⟨⟨5, .SCALAR⟩, ⟨6, .SCALAR⟩, 4⟩⟩)).toList =
            some (tokens', []) ∧
        parseLine tokens' = .ok (.instruction
          ⟨some ['L'], ⟨.LW, true⟩, .itype ⟨⟨5, .SCALAR⟩, ⟨6, .SCALAR⟩, 4⟩⟩)) ↔
      ∀ i, Line.instruction ⟨some ['L'], ⟨.LW, true⟩, .itype ⟨⟨5, .SCALAR⟩, ⟨6, .SCALAR⟩, 4⟩⟩ =
        .instruction i → i.mnemonic.name ≠ .HALT :=
  print_then_parse_iff "L: s.lw s5, 4(s6)".toList
    [⟨.label ['L'], 1⟩, ⟨.mnemonic ⟨.LW, true⟩, 4⟩, ⟨.register ⟨5, .SCALAR⟩, 9⟩, ⟨.comma, 11⟩,
      ⟨.immediate 4, 13⟩, ⟨.lparen, 14⟩, ⟨.register ⟨6, .SCALAR⟩, 15⟩, ⟨.rparen, 17⟩] []
    _ (by decide +kernel) (by decide +kernel)

/-- A `halt` is printed with operands, and is not parsed again. -/
theorem halt_not_parsed_again : ¬∀ text tokens errors line,
    collectTokens text = some (tokens, errors) → parseLine tokens = .ok line →
      ∃ tokens', collectTokens (lineToStr line).toList = some (tokens', []) ∧
        parseLine tokens' = .ok line := by
  intro h
  obtain ⟨tokens', hcollect, hparse⟩ := h "halt".toList [⟨.mnemonic ⟨.HALT, false⟩, 1⟩] []
    (.instruction ⟨none, ⟨.HALT, false⟩, .default⟩) (by decide +kernel) (by decide +kernel)
  exact not_parses_halt ⟨[], .halt rfl⟩ rfl (by simp) hcollect hparse

end SmolGpu.As
