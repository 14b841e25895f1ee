import SmolGpu.As.Translation

/-!
# Immediates of twelve bits

An immediate is a signed number in three forms. The lexer reads a signed number of 32 bits, the
emitter takes it for an unsigned one that must fit twelve bits, and the decoder extends these twelve
bits by their sign. The three agree on the numbers from 0 to 2047. So no negative immediate is
emitted, and those from 2048 to 4095 are emitted and decoded to negative ones
(`signed_immediate_iff`).

The emitter builds the shifts by an immediate like the other I-type instructions, without the
`funct7` and without the limit of the builder of shifts (`shift_immediate_iff`).
-/

namespace SmolGpu.As

open Sim Sim.Instructions

/-! ## The words of the I-type layout -/

section Words

variable {rd rs1 : Register} {imm : IData}

/-- An immediate below 4096 is emitted if it is one from 0 to 4095. -/
theorem imm12_fits_iff : imm < 4096 ↔ 0 ≤ imm.toInt ∧ imm.toInt < 4096 := by
  have hlt := imm.isLt
  show imm.toNat < 4096 ↔ _
  rw [BitVec.toInt_eq_toNat_cond]
  omega

/-- Of the immediates that are emitted, those below 2048 are decoded to themselves. -/
theorem signExtend_toInt_iff (hfits : imm < 4096) :
    (signExtend (imm.setWidth 12)).toInt = imm.toInt ↔ imm.toInt < 2048 := by
  have hnat : imm.toNat < 4096 := hfits
  have hlow : (imm.setWidth 12).toNat = imm.toNat := by
    rw [BitVec.toNat_setWidth]
    omega
  have hdecoded := signExtend_toNat (imm.setWidth 12)
  rw [hlow] at hdecoded
  rw [BitVec.toInt_eq_toNat_cond, BitVec.toInt_eq_toNat_cond, hdecoded]
  split_ifs <;> omega

end Words

/-! ## Signed immediates -/

/-- The shifts by an immediate. -/
def isShift (name : MnemonicName) : Bool := name ∈ [.SLLI, .SRLI, MnemonicName.SRAI]

/-- The operands of an instruction that has a signed immediate of twelve bits: an I-type operation
that is no shift, a load, or a `jalr` with an offset. -/
def signedOperands (i : Instruction) : Option ItypeOperands :=
  match i.operands with
  | .itype operands =>
    if isItypeArithmetic i.mnemonic.name && !isShift i.mnemonic.name || isLoadType i.mnemonic.name
    then some operands
    else none
  | .jalr ⟨rd, rs1, .immediate value⟩ => some ⟨rd, rs1, value⟩
  | _ => none

section Signed

variable {program : Program} {i : Instruction} {operands : ItypeOperands} {k : ℕ}
  {w : InstructionBits}

/-- The opcode and the `funct3` of a word whose immediate the decoder takes from bit 20. -/
def HasImmediate (opcode : Opcode) (funct3 : Funct3) : Prop :=
  ∀ (rd rs1 : Register) (imm : IData), rd.validate = true → rs1.validate = true →
    (decode (word12 opcode.bits rd.bits funct3.bits rs1.bits imm)).decoded_immediate =
      signExtend (imm.setWidth 12)

/-- The mnemonics with a signed immediate stand for words that have one. -/
theorem hasImmediate_of_name {name : MnemonicName}
    (hname : (isItypeArithmetic name && !isShift name || isLoadType name) = true) :
    HasImmediate (nameToDeterminant name).opcode (nameToDeterminant name).funct3 := by
  have hload : ∀ funct3, HasImmediate .LOAD funct3 := fun funct3 rd rs1 imm hrd hrs1 =>
    congrArg Decoded.decoded_immediate (decode_load funct3 hrd hrs1).1
  have hitype : ∀ {funct3 : Funct3} (operation : AluInstruction),
      (∀ f7 d, decodeI (funct3.bits.setWidth 3) f7 d =
        { d with decoded_alu_instruction := operation }) → HasImmediate .ITYPE funct3 :=
    fun _ hsel rd rs1 imm hrd hrs1 =>
      congrArg Decoded.decoded_immediate (decode_itype (hsel _) hrd hrs1).1
  cases name with
  | LB | LH | LW => exact hload _
  | SX_SLTI =>
    exact fun rd rs1 imm hrd hrs1 => congrArg Decoded.decoded_immediate (decode_sxSlti hrd hrs1)
  | ADDI | SLTI | XORI | ORI | ANDI => exact hitype _ fun _ _ => rfl
  | _ => exact absurd hname (by decide)

/-- An instruction with a signed immediate is translated by the builder of the I-type layout. -/
theorem translate_signed (program : Program) (h : signedOperands i = some operands) :
    ∃ opcode funct3, HasImmediate opcode funct3 ∧ translateInstruction program i =
      createItypeInstruction opcode funct3 operands.rd operands.rs1 operands.imm12 := by
  obtain ⟨label, mnemonic, kind⟩ := i
  unfold signedOperands at h
  unfold translateInstruction
  cases kind with
  | itype operands' =>
    simp only at h
    split_ifs at h with hname
    obtain rfl := Option.some.inj h
    exact ⟨_, _, hasImmediate_of_name hname, rfl⟩
  | jalr operands' =>
    obtain ⟨rd, rs1, _ | _⟩ := operands'
    · obtain rfl := Option.some.inj h
      refine ⟨.JALR, .JALR, fun rd rs1 imm hrd hrs1 => ?_, rfl⟩
      exact congrArg Decoded.decoded_immediate (decode_jalr hrd hrs1)
    · exact nomatch h
  | _ => exact nomatch h

/-- The word of an instruction with a signed immediate. -/
theorem emitsAt_signed (hi : program.instructions[k]? = some i)
    (hoperands : signedOperands i = some operands) (hrd : operands.rd.validate = true)
    (hrs1 : operands.rs1.validate = true) : ∃ word, (∀ w, EmitsAt program k w ↔
      operands.imm12 < 4096 ∧ w = word) ∧
        (decode word).decoded_immediate = signExtend (operands.imm12.setWidth 12) := by
  obtain ⟨opcode, funct3, himmediate, htranslate⟩ := translate_signed program hoperands
  refine ⟨_, fun w => ?_, himmediate operands.rd operands.rs1 operands.imm12 hrd hrs1⟩
  rw [emitsAt_iff hi, htranslate, createItypeInstruction_eq_ok]
  simp [hrd, hrs1]

/-- In an accepted program, a signed immediate of an instruction with valid registers is emitted
exactly if it is from -2048 to 2047, and every one that is emitted is decoded to itself, if and only
if it is neither from -2048 to -1 nor from 2048 to 4095. -/
theorem signed_immediate_iff {lines earlier later : List (List Char)} {line : List Char}
    (h : parseProgram lines = some (.ok program)) (hlines : lines = earlier ++ line :: later)
    (hi : instructionOf line = some i) (hoperands : signedOperands i = some operands)
    (hrd : operands.rd.validate = true) (hrs1 : operands.rs1.validate = true) :
    (((∃ w, EmitsAt program (instructionCount earlier) w) ↔
        -2048 ≤ operands.imm12.toInt ∧ operands.imm12.toInt ≤ 2047) ∧
      ∀ w, EmitsAt program (instructionCount earlier) w →
        (decode w).decoded_immediate.toInt = operands.imm12.toInt) ↔
      ¬(-2048 ≤ operands.imm12.toInt ∧ operands.imm12.toInt < 0) ∧
        ¬(2048 ≤ operands.imm12.toInt ∧ operands.imm12.toInt < 4096) := by
  subst hlines
  obtain ⟨word, hemits, hdecoded⟩ := emitsAt_signed
    ((parseProgram_ok h).2.2.getElem?_of_line hi) hoperands hrd hrs1
  have hemitted : (∃ w, EmitsAt program (instructionCount earlier) w) ↔ operands.imm12 < 4096 := by
    simp only [hemits]
    exact ⟨fun ⟨_, hfits, _⟩ => hfits, fun hfits => ⟨word, hfits, rfl⟩⟩
  rw [hemitted, imm12_fits_iff]
  constructor
  · rintro ⟨hrange, hall⟩
    refine ⟨by omega, fun hupper => ?_⟩
    -- An emitted immediate from 2048 on is decoded to a negative number.
    omega
  · rintro ⟨hneg, hupper⟩
    refine ⟨by omega, fun w hw => ?_⟩
    obtain ⟨hfits, rfl⟩ := (hemits w).mp hw
    have hbounds := imm12_fits_iff.mp hfits
    rw [hdecoded, signExtend_toInt_iff hfits]
    omega

/-- `addi x5, x6, 7` keeps its immediate. -/
theorem signed_immediate_iff_addi :
    (((∃ w, EmitsAt ⟨1, 1, [⟨none, ⟨.ADDI, false⟩, .itype ⟨⟨5, .VECTOR⟩, ⟨6, .VECTOR⟩, 7⟩⟩], []⟩
          (instructionCount []) w) ↔ -2048 ≤ (7#32).toInt ∧ (7#32).toInt ≤ 2047) ∧
      ∀ w, EmitsAt ⟨1, 1, [⟨none, ⟨.ADDI, false⟩, .itype ⟨⟨5, .VECTOR⟩, ⟨6, .VECTOR⟩, 7⟩⟩], []⟩
          (instructionCount []) w → (decode w).decoded_immediate.toInt = (7#32).toInt) ↔
      ¬(-2048 ≤ (7#32).toInt ∧ (7#32).toInt < 0) ∧
        ¬(2048 ≤ (7#32).toInt ∧ (7#32).toInt < 4096) := by
  have haccepted : parseProgram ["addi x5, x6, 7".toList] = some (.ok ⟨1, 1,
      [⟨none, ⟨.ADDI, false⟩, .itype ⟨⟨5, .VECTOR⟩, ⟨6, .VECTOR⟩, 7⟩⟩], []⟩) := by
    decide +kernel
  have hline : instructionOf "addi x5, x6, 7".toList =
      some ⟨none, ⟨.ADDI, false⟩, .itype ⟨⟨5, .VECTOR⟩, ⟨6, .VECTOR⟩, 7⟩⟩ := by
    decide +kernel
  have hlines : ["addi x5, x6, 7".toList] = [] ++ "addi x5, x6, 7".toList :: [] := rfl
  have hoperands : signedOperands ⟨none, ⟨.ADDI, false⟩, .itype ⟨⟨5, .VECTOR⟩, ⟨6, .VECTOR⟩, 7⟩⟩ =
      some ⟨⟨5, .VECTOR⟩, ⟨6, .VECTOR⟩, 7⟩ := rfl
  exact signed_immediate_iff haccepted hlines hline hoperands (by decide) (by decide)

/-- `addi x5, x6, -1` is accepted and not emitted. -/
theorem negative_immediate_lost :
    ¬∀ lines earlier line later program i operands, parseProgram lines = some (.ok program) →
      lines = earlier ++ line :: later → instructionOf line = some i →
        signedOperands i = some operands → operands.rd.validate = true →
          operands.rs1.validate = true →
            (((∃ w, EmitsAt program (instructionCount earlier) w) ↔
                -2048 ≤ operands.imm12.toInt ∧ operands.imm12.toInt ≤ 2047) ∧
              ∀ w, EmitsAt program (instructionCount earlier) w →
                (decode w).decoded_immediate.toInt = operands.imm12.toInt) := by
  intro h
  have haccepted : parseProgram ["addi x5, x6, -1".toList] = some (.ok ⟨1, 1,
      [⟨none, ⟨.ADDI, false⟩, .itype ⟨⟨5, .VECTOR⟩, ⟨6, .VECTOR⟩, -1⟩⟩], []⟩) := by
    decide +kernel
  have hline : instructionOf "addi x5, x6, -1".toList =
      some ⟨none, ⟨.ADDI, false⟩, .itype ⟨⟨5, .VECTOR⟩, ⟨6, .VECTOR⟩, -1⟩⟩ := by
    decide +kernel
  obtain ⟨hemitted, -⟩ := h _ [] _ [] _ _ ⟨⟨5, .VECTOR⟩, ⟨6, .VECTOR⟩, -1⟩ haccepted rfl hline rfl
    (by decide) (by decide)
  obtain ⟨w, ⟨i, hi, hw⟩, -⟩ := hemitted.mpr (by decide)
  obtain rfl := Option.some.inj hi
  -- As an unsigned number the immediate is far above the twelve bits of its field.
  obtain ⟨⟨-, -, hfits⟩, -⟩ := createItypeInstruction_eq_ok.mp hw
  exact absurd hfits (by decide)

end Signed

/-! ## Shifts by an immediate -/

/-- The operation of a shift by an immediate. -/
def shiftOperation : MnemonicName → Option AluInstruction
  | .SLLI => some .SLLI
  | .SRLI => some .SRLI
  | .SRAI => some .SRAI
  | _ => none

/-- The fields of a shift by an immediate, on vector or scalar registers. -/
def ofShift (operation : AluInstruction) (operands : ItypeOperands) (scalar : Bool) : Decoded :=
  { Decoded.ofItype operation operands.rd operands.rs1 operands.imm12 with
    decoded_immediate := operands.imm12
    decoded_scalar_instruction := scalar }

section Shifts

variable {program : Program} {i : Instruction} {operands : ItypeOperands} {k : ℕ}
  {w : InstructionBits} {name : MnemonicName} {operation : AluInstruction}

/-- Without its `funct7`, an arithmetic shift is a logical one. -/
def emittedShift : MnemonicName → AluInstruction
  | .SLLI => .SLLI
  | _ => .SRLI

/-- The operation that is emitted is the one of the mnemonic, but for `srai`. -/
theorem emittedShift_eq_iff (hop : shiftOperation name = some operation) :
    emittedShift name = operation ↔ name ≠ .SRAI := by
  cases name with
  | SLLI | SRLI | SRAI =>
    obtain rfl := Option.some.inj hop
    decide
  | _ => exact nomatch hop

/-- The word that is emitted for a shift by less than 32. -/
theorem decode_shift (hop : shiftOperation name = some operation)
    (hrd : operands.rd.validate = true) (hrs1 : operands.rs1.validate = true)
    (himm : operands.imm12 < 32) :
    decode (word12 (nameToDeterminant name).opcode.bits operands.rd.bits
        (nameToDeterminant name).funct3.bits operands.rs1.bits operands.imm12) =
      ofShift (emittedShift name) operands false := by
  have hnat : operands.imm12.toNat < 32 := himm
  -- The upper seven bits of the immediate are zero.
  have hf7 : (operands.imm12.setWidth 12).extractLsb' 5 7 = 0#7 := by
    rw [BitVec.setWidth_eq_extractLsb' (by decide), BitField.extract_extract (by decide)]
    exact BitField.extract_of_lt (m := 5) hnat (by decide)
  have hvalue : signExtend (operands.imm12.setWidth 12) = operands.imm12 := by
    apply BitVec.eq_of_toNat_eq
    have hlow : (operands.imm12.setWidth 12).toNat = operands.imm12.toNat := by
      rw [BitVec.toNat_setWidth]
      omega
    rw [signExtend_toNat, hlow, if_pos (by omega)]
  have hword : ∀ {funct3 : Funct3} {operation : AluInstruction},
      (∀ d, decodeI (funct3.bits.setWidth 3) 0 d =
          { d with decoded_alu_instruction := operation }) →
        decode (word12 Opcode.ITYPE.bits operands.rd.bits funct3.bits operands.rs1.bits
          operands.imm12) = ofShift operation operands false := by
    intro funct3 operation hsel
    rw [(decode_itype (fun d => by rw [hf7]; exact hsel d) hrd hrs1).1]
    unfold Decoded.ofItype ofShift
    rw [hvalue]
    rfl
  cases name with
  | SLLI | SRLI | SRAI => exact hword fun _ => rfl
  | _ => exact nomatch hop

/-- A shift is translated by the builder of the I-type layout. -/
theorem emitsAt_shift (hi : program.instructions[k]? = some i)
    (hoperands : i.operands = .itype operands) (hrd : operands.rd.validate = true)
    (hrs1 : operands.rs1.validate = true) : EmitsAt program k w ↔ operands.imm12 < 4096 ∧
      w = word12 (nameToDeterminant i.mnemonic.name).opcode.bits operands.rd.bits
        (nameToDeterminant i.mnemonic.name).funct3.bits operands.rs1.bits operands.imm12 := by
  rw [emitsAt_iff hi]
  unfold translateInstruction
  simp only [hoperands]
  rw [createItypeInstruction_eq_ok]
  simp [hrd, hrs1]

/-- In an accepted program, a shift by an immediate with valid registers is emitted for no amount
outside 0 to 31 and, for the others, as a word that decodes to the same shift, if and only if the
amount is not from 32 to 4095 and, where it is below 32, the shift is neither arithmetic nor
scalar. -/
theorem shift_immediate_iff {lines earlier later : List (List Char)} {line : List Char}
    (h : parseProgram lines = some (.ok program)) (hlines : lines = earlier ++ line :: later)
    (hi : instructionOf line = some i) (hop : shiftOperation i.mnemonic.name = some operation)
    (hoperands : i.operands = .itype operands) (hrd : operands.rd.validate = true)
    (hrs1 : operands.rs1.validate = true) :
    ((¬(0 ≤ operands.imm12.toInt ∧ operands.imm12.toInt ≤ 31) →
        ∀ w, ¬EmitsAt program (instructionCount earlier) w) ∧
      (0 ≤ operands.imm12.toInt ∧ operands.imm12.toInt ≤ 31 →
        ∃ w, EmitsAt program (instructionCount earlier) w ∧
          decode w = ofShift operation operands i.mnemonic.has_s_prefix)) ↔
      ¬(32 ≤ operands.imm12.toInt ∧ operands.imm12.toInt ≤ 4095) ∧
        (0 ≤ operands.imm12.toInt ∧ operands.imm12.toInt ≤ 31 →
          i.mnemonic.name ≠ .SRAI ∧ i.mnemonic.has_s_prefix = false) := by
  subst hlines
  have hemits := fun w => emitsAt_shift (w := w) ((parseProgram_ok h).2.2.getElem?_of_line hi)
    hoperands hrd hrs1
  simp only [hemits]
  have hfits : operands.imm12 < 4096 ↔ _ := imm12_fits_iff
  refine and_congr ?_ (imp_congr_right fun hlow => ?_)
  · -- The emitter checks the twelve bits of the field, and nothing else.
    constructor
    · rintro hnone ⟨hge, hle⟩
      exact hnone (by omega) _ ⟨hfits.mpr (by omega), rfl⟩
    · rintro hgap hout w ⟨hlt, -⟩
      have hbounds := hfits.mp hlt
      omega
  · have hlt : operands.imm12 < 32 := by
      show operands.imm12.toNat < 32
      have htoInt := BitVec.toInt_eq_toNat_cond operands.imm12
      split_ifs at htoInt <;> omega
    have hsame : ofShift (emittedShift i.mnemonic.name) operands false =
        ofShift operation operands i.mnemonic.has_s_prefix ↔
          emittedShift i.mnemonic.name = operation ∧ false = i.mnemonic.has_s_prefix := by
      simp [ofShift, Decoded.ofItype, and_comm]
    rw [← emittedShift_eq_iff hop]
    constructor
    · rintro ⟨w, ⟨-, rfl⟩, hdecode⟩
      rw [decode_shift hop hrd hrs1 hlt, hsame] at hdecode
      exact ⟨hdecode.1, hdecode.2.symm⟩
    · rintro ⟨hshift, hpre⟩
      refine ⟨_, ⟨hfits.mpr (by omega), rfl⟩, ?_⟩
      rw [decode_shift hop hrd hrs1 hlt, hsame]
      exact ⟨hshift, hpre.symm⟩

/-- `slli x5, x6, 3` is emitted as it is. -/
theorem shift_immediate_iff_slli :
    ((¬(0 ≤ (3#32).toInt ∧ (3#32).toInt ≤ 31) →
        ∀ w, ¬EmitsAt ⟨1, 1, [⟨none, ⟨.SLLI, false⟩, .itype ⟨⟨5, .VECTOR⟩, ⟨6, .VECTOR⟩, 3⟩⟩], []⟩
          (instructionCount []) w) ∧
      (0 ≤ (3#32).toInt ∧ (3#32).toInt ≤ 31 →
        ∃ w, EmitsAt ⟨1, 1, [⟨none, ⟨.SLLI, false⟩, .itype ⟨⟨5, .VECTOR⟩, ⟨6, .VECTOR⟩, 3⟩⟩], []⟩
          (instructionCount []) w ∧
            decode w = ofShift .SLLI ⟨⟨5, .VECTOR⟩, ⟨6, .VECTOR⟩, 3⟩ false)) ↔
      ¬(32 ≤ (3#32).toInt ∧ (3#32).toInt ≤ 4095) ∧
        (0 ≤ (3#32).toInt ∧ (3#32).toInt ≤ 31 → MnemonicName.SLLI ≠ .SRAI ∧ false = false) := by
  have haccepted : parseProgram ["slli x5, x6, 3".toList] = some (.ok ⟨1, 1,
      [⟨none, ⟨.SLLI, false⟩, .itype ⟨⟨5, .VECTOR⟩, ⟨6, .VECTOR⟩, 3⟩⟩], []⟩) := by
    decide +kernel
  have hline : instructionOf "slli x5, x6, 3".toList =
      some ⟨none, ⟨.SLLI, false⟩, .itype ⟨⟨5, .VECTOR⟩, ⟨6, .VECTOR⟩, 3⟩⟩ := by
    decide +kernel
  have hlines : ["slli x5, x6, 3".toList] = [] ++ "slli x5, x6, 3".toList :: [] := rfl
  exact shift_immediate_iff haccepted hlines hline rfl rfl (by decide) (by decide)

/-- `srai x5, x6, 1` is emitted as `srli x5, x6, 1`. -/
theorem arithmetic_shift_lost :
    ¬∀ lines earlier line later program i operands operation,
      parseProgram lines = some (.ok program) → lines = earlier ++ line :: later →
        instructionOf line = some i → shiftOperation i.mnemonic.name = some operation →
          i.operands = .itype operands → operands.rd.validate = true →
            operands.rs1.validate = true →
              (¬(0 ≤ operands.imm12.toInt ∧ operands.imm12.toInt ≤ 31) →
                ∀ w, ¬EmitsAt program (instructionCount earlier) w) ∧
              (0 ≤ operands.imm12.toInt ∧ operands.imm12.toInt ≤ 31 →
                ∃ w, EmitsAt program (instructionCount earlier) w ∧
                  decode w = ofShift operation operands i.mnemonic.has_s_prefix) := by
  intro h
  -- The line is accepted, so its word should decode to an `srai`.
  have haccepted : parseProgram ["srai x5, x6, 1".toList] = some (.ok ⟨1, 1,
      [⟨none, ⟨.SRAI, false⟩, .itype ⟨⟨5, .VECTOR⟩, ⟨6, .VECTOR⟩, 1⟩⟩], []⟩) := by
    decide +kernel
  have hline : instructionOf "srai x5, x6, 1".toList =
      some ⟨none, ⟨.SRAI, false⟩, .itype ⟨⟨5, .VECTOR⟩, ⟨6, .VECTOR⟩, 1⟩⟩ := by
    decide +kernel
  obtain ⟨-, hemitted⟩ := h _ [] _ [] _ _ ⟨⟨5, .VECTOR⟩, ⟨6, .VECTOR⟩, 1⟩ _ haccepted rfl hline rfl
    rfl (by decide) (by decide)
  obtain ⟨w, ⟨⟨i, hi, hw⟩, -⟩, hdecode⟩ := hemitted (by decide)
  obtain rfl := Option.some.inj hi
  -- But its word is that of an `srli`.
  obtain ⟨-, rfl⟩ := createItypeInstruction_eq_ok.mp hw
  have hoperation := congrArg Decoded.decoded_alu_instruction hdecode
  exact absurd hoperation (by decide)

end Shifts

end SmolGpu.As
