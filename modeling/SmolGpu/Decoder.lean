import SmolGpu.Common

/-!
# The instruction decoder

`src/decoder.sv`: a register for each decoded field, written while the warp is in `WARP_DECODE`.
`decode` is the combinational part, from an instruction word to the fields. It follows the source's
assignments: the defaults first, then the fields that the matching opcode sets, where a word that no
case sets a field for leaves the default. Seven-bit opcodes (halt, the `sx` instructions, branches,
and jumps) are matched before the six-bit ones, whose seventh bit selects scalar or vector.
-/

namespace SmolGpu

/-- The output registers of `decoder`. -/
structure Decoded where
  decoded_reg_write_enable : Bool
  decoded_mem_write_enable : Bool
  decoded_mem_read_enable : Bool
  decoded_branch : Bool
  decoded_reg_input_mux : RegInputMux
  decoded_scalar_instruction : Bool
  decoded_immediate : DataT
  decoded_rd_address : RegAddress
  decoded_rs1_address : RegAddress
  decoded_rs2_address : RegAddress
  decoded_alu_instruction : AluInstruction
  decoded_halt : Bool
  deriving DecidableEq, Repr

namespace Decoded

/-- The values the fields are reset to, and assigned before a new decode; a new decode then sets
the scalar flag to bit 6 of the word. -/
def default : Decoded where
  decoded_reg_write_enable := false
  decoded_mem_write_enable := false
  decoded_mem_read_enable := false
  decoded_branch := false
  decoded_reg_input_mux := .aluOut
  decoded_scalar_instruction := false
  decoded_immediate := 0
  decoded_rd_address := 0
  decoded_rs1_address := 0
  decoded_rs2_address := 0
  decoded_alu_instruction := .ADDI
  decoded_halt := false

end Decoded

section Opcodes

/-! `OPCODE_*` of `common.sv`: seven bits, then six. -/

/-- The kernel's end for a warp. -/
def OPCODE_HALT : BitVec 7 := 0b1111111#7

/-- The vector-to-scalar comparison of two registers. -/
def OPCODE_SX_SLT : BitVec 7 := 0b1111110#7

/-- The vector-to-scalar comparison with an immediate. -/
def OPCODE_SX_SLTI : BitVec 7 := 0b1111101#7

/-- Branches. -/
def OPCODE_B : BitVec 7 := 0b1100011#7

/-- `jal`. -/
def OPCODE_J : BitVec 7 := 0b1101111#7

/-- `jalr`. -/
def OPCODE_JALR : BitVec 7 := 0b1100111#7

/-- Operations on two registers. -/
def OPCODE_R : BitVec 6 := 0b110011#6

/-- Operations on a register and an immediate. -/
def OPCODE_I : BitVec 6 := 0b010011#6

/-- Stores. -/
def OPCODE_S : BitVec 6 := 0b100011#6

/-- `lui`. -/
def OPCODE_U : BitVec 6 := 0b110111#6

/-- Loads. -/
def OPCODE_LOAD : BitVec 6 := 0b000011#6

/-- `auipc`. -/
def OPCODE_AUIPC : BitVec 6 := 0b010111#6

end Opcodes

section Fields

/-! The field wires of `decoder.sv`. -/

variable (instruction : InstructionT)

/-- Bit 6: the scalar form of a six-bit opcode. -/
def scalarBit : Bool := instruction.getLsbD 6

/-- The six-bit opcode. -/
def inst : BitVec 6 := instruction.extractLsb' 0 6

/-- The seven-bit opcode. -/
def opcode : BitVec 7 := instruction.extractLsb' 0 7

/-- The destination register. -/
def rd : BitVec 5 := instruction.extractLsb' 7 5

/-- The three-bit function code. -/
def funct3 : BitVec 3 := instruction.extractLsb' 12 3

/-- The first operand's register. -/
def rs1 : BitVec 5 := instruction.extractLsb' 15 5

/-- The second operand's register. -/
def rs2 : BitVec 5 := instruction.extractLsb' 20 5

/-- The seven-bit function code. -/
def funct7 : BitVec 7 := instruction.extractLsb' 25 7

/-- The immediate of the I-type. -/
def immI : BitVec 12 := instruction.extractLsb' 20 12

/-- The immediate of the S-type, in two parts. -/
def immS : BitVec 12 := instruction.extractLsb' 25 7 ++ instruction.extractLsb' 7 5

/-- The immediate of the branches, with a zero bit 0. -/
def immB : BitVec 13 :=
  instruction.extractLsb' 31 1 ++ instruction.extractLsb' 7 1 ++ instruction.extractLsb' 25 6 ++
    instruction.extractLsb' 8 4 ++ 0#1

/-- The immediate of the U-type. -/
def immU : BitVec 20 := instruction.extractLsb' 12 20

/-- The immediate of `jal`, with a zero bit 0. -/
def immJ : BitVec 21 :=
  instruction.extractLsb' 31 1 ++ instruction.extractLsb' 12 8 ++ instruction.extractLsb' 20 1 ++
    instruction.extractLsb' 21 10 ++ 0#1

end Fields

/-- The branch of a `funct3`, `d` with no assignment for an invalid one. -/
def decodeBranch (f3 : BitVec 3) (d : Decoded) : Decoded :=
  if f3 = 0b000#3 then { d with decoded_alu_instruction := .BEQ }
  else if f3 = 0b001#3 then { d with decoded_alu_instruction := .BNE }
  else if f3 = 0b100#3 then { d with decoded_alu_instruction := .BLT }
  else if f3 = 0b101#3 then { d with decoded_alu_instruction := .BGE }
  else d

/-- The ALU operation of an R-type word, `d` with no assignment for an invalid `funct3` or
`funct7`. -/
def decodeR (f3 : BitVec 3) (f7 : BitVec 7) (d : Decoded) : Decoded :=
  if f3 = 0b000#3 then
    if f7 = 0b0000000#7 then { d with decoded_alu_instruction := .ADD }
    else if f7 = 0b0100000#7 then { d with decoded_alu_instruction := .SUB }
    else d
  else if f3 = 0b001#3 then { d with decoded_alu_instruction := .SLL }
  else if f3 = 0b010#3 then { d with decoded_alu_instruction := .SLT }
  else if f3 = 0b100#3 then { d with decoded_alu_instruction := .XOR }
  else if f3 = 0b101#3 then
    if f7 = 0b0000000#7 then { d with decoded_alu_instruction := .SRL }
    else if f7 = 0b0100000#7 then { d with decoded_alu_instruction := .SRA }
    else d
  else if f3 = 0b110#3 then { d with decoded_alu_instruction := .OR }
  else if f3 = 0b111#3 then { d with decoded_alu_instruction := .AND }
  else d

/-- The ALU operation of an I-type word, `d` with no assignment for an invalid `funct3` or
`funct7`. -/
def decodeI (f3 : BitVec 3) (f7 : BitVec 7) (d : Decoded) : Decoded :=
  if f3 = 0b000#3 then { d with decoded_alu_instruction := .ADDI }
  else if f3 = 0b010#3 then { d with decoded_alu_instruction := .SLTI }
  else if f3 = 0b100#3 then { d with decoded_alu_instruction := .XORI }
  else if f3 = 0b110#3 then { d with decoded_alu_instruction := .ORI }
  else if f3 = 0b111#3 then { d with decoded_alu_instruction := .ANDI }
  else if f3 = 0b001#3 then { d with decoded_alu_instruction := .SLLI }
  else if f3 = 0b101#3 then
    if f7 = 0b0000000#7 then { d with decoded_alu_instruction := .SRLI }
    else if f7 = 0b0100000#7 then { d with decoded_alu_instruction := .SRAI }
    else d
  else d

/-- The case over the six opcode bits that the seven-bit opcodes leave. -/
def decodeInst (w : InstructionT) (d : Decoded) : Decoded :=
  if inst w = OPCODE_R then
    decodeR (funct3 w) (funct7 w)
      { d with
        decoded_rd_address := rd w
        decoded_rs1_address := rs1 w
        decoded_rs2_address := rs2 w
        decoded_reg_write_enable := true
        decoded_reg_input_mux := .aluOut }
  else if inst w = OPCODE_I then
    decodeI (funct3 w) (funct7 w)
      { d with
        decoded_rd_address := rd w
        decoded_rs1_address := rs1 w
        decoded_reg_write_enable := true
        decoded_reg_input_mux := .aluOut
        decoded_immediate := signExtend (immI w) }
  else if inst w = OPCODE_LOAD then
    { d with
      decoded_rd_address := rd w
      decoded_rs1_address := rs1 w
      decoded_reg_write_enable := true
      decoded_reg_input_mux := .lsuOut
      decoded_immediate := signExtend (immI w)
      decoded_mem_read_enable := true
      decoded_alu_instruction := .ADDI }
  else if inst w = OPCODE_S then
    { d with
      decoded_rs1_address := rs1 w
      decoded_rs2_address := rs2 w
      decoded_immediate := signExtend (immS w)
      decoded_mem_write_enable := true
      decoded_alu_instruction := .ADDI }
  else if inst w = OPCODE_U then
    { d with
      decoded_rd_address := rd w
      decoded_immediate := immU w ++ 0#12
      decoded_reg_write_enable := true
      decoded_reg_input_mux := .immediate }
  else if inst w = OPCODE_AUIPC then
    { d with
      decoded_rd_address := rd w
      decoded_immediate := immU w ++ 0#12
      decoded_reg_write_enable := true
      decoded_alu_instruction := .ADD }
  else d

/-- The fields decoded from an instruction word, the `WARP_DECODE` branch of `decoder.sv`. -/
def decode (w : InstructionT) : Decoded :=
  let d := { Decoded.default with decoded_scalar_instruction := scalarBit w }
  if opcode w = OPCODE_HALT then { d with decoded_halt := true }
  else if opcode w = OPCODE_SX_SLT then
    { d with
      decoded_scalar_instruction := false
      decoded_rd_address := rd w
      decoded_rs1_address := rs1 w
      decoded_rs2_address := rs2 w
      decoded_reg_write_enable := true
      decoded_reg_input_mux := .vectorToScalar
      decoded_alu_instruction := .SLT }
  else if opcode w = OPCODE_SX_SLTI then
    { d with
      decoded_scalar_instruction := false
      decoded_rd_address := rd w
      decoded_rs1_address := rs1 w
      decoded_immediate := signExtend (immI w)
      decoded_reg_write_enable := true
      decoded_reg_input_mux := .vectorToScalar
      decoded_alu_instruction := .SLTI }
  else if opcode w = OPCODE_B then
    decodeBranch (funct3 w)
      { d with
        decoded_rs1_address := rs1 w
        decoded_rs2_address := rs2 w
        decoded_immediate := signExtend13 (immB w)
        decoded_branch := true }
  else if opcode w = OPCODE_J then
    { d with
      decoded_rd_address := rd w
      decoded_reg_write_enable := true
      decoded_reg_input_mux := .pcPlus1
      decoded_scalar_instruction := true
      decoded_alu_instruction := .JAL
      decoded_immediate := signExtend21 (immJ w) }
  else if opcode w = OPCODE_JALR then
    { d with
      decoded_rd_address := rd w
      decoded_rs1_address := rs1 w
      decoded_reg_write_enable := true
      decoded_reg_input_mux := .pcPlus1
      decoded_scalar_instruction := true
      decoded_alu_instruction := .JALR
      decoded_immediate := signExtend (immI w) }
  else decodeInst w d

/-- The input ports of `decoder`. -/
structure DecoderIn where
  reset : Bool
  warp_state : WarpState
  instruction : InstructionT

/-- The always block of `decoder.sv`. -/
def decoderStep (i : DecoderIn) (d : Decoded) : Decoded :=
  if i.reset then Decoded.default
  else if i.warp_state = .decode then decode i.instruction
  else d

/-! ## What the cases set

Each inner case sets the ALU operation and leaves the other fields as they are. So the decoder has
seven cases, of which the last one has seven again. -/

/-- The fields with another ALU operation. -/
def Decoded.withAlu (d : Decoded) (operation : AluInstruction) : Decoded :=
  { d with decoded_alu_instruction := operation }

/-- Decoding a branch sets the ALU operation only. -/
theorem decodeBranch_eq (f3 : BitVec 3) (d : Decoded) :
    decodeBranch f3 d =
      { d with decoded_alu_instruction := (decodeBranch f3 d).decoded_alu_instruction } := by
  show _ = d.withAlu _
  unfold decodeBranch
  simp only [apply_ite Decoded.decoded_alu_instruction, apply_ite d.withAlu]
  rfl

/-- Decoding the function codes of an R-type word sets the ALU operation only. -/
theorem decodeR_eq (f3 : BitVec 3) (f7 : BitVec 7) (d : Decoded) :
    decodeR f3 f7 d =
      { d with decoded_alu_instruction := (decodeR f3 f7 d).decoded_alu_instruction } := by
  show _ = d.withAlu _
  unfold decodeR
  simp only [apply_ite Decoded.decoded_alu_instruction, apply_ite d.withAlu]
  rfl

/-- Decoding the function codes of an I-type word sets the ALU operation only. -/
theorem decodeI_eq (f3 : BitVec 3) (f7 : BitVec 7) (d : Decoded) :
    decodeI f3 f7 d =
      { d with decoded_alu_instruction := (decodeI f3 f7 d).decoded_alu_instruction } := by
  show _ = d.withAlu _
  unfold decodeI
  simp only [apply_ite Decoded.decoded_alu_instruction, apply_ite d.withAlu]
  rfl

/-- What holds of the fields that each class of the six-bit opcodes sets, and without any of them,
holds of the fields that a word sets. -/
@[elab_as_elim]
theorem decodeInst_cases {w : InstructionT} {d : Decoded} {P : Decoded → Prop}
    (hr : ∀ operation, P { d with
      decoded_rd_address := rd w
      decoded_rs1_address := rs1 w
      decoded_rs2_address := rs2 w
      decoded_reg_write_enable := true
      decoded_reg_input_mux := .aluOut
      decoded_alu_instruction := operation })
    (hi : ∀ operation, P { d with
      decoded_rd_address := rd w
      decoded_rs1_address := rs1 w
      decoded_reg_write_enable := true
      decoded_reg_input_mux := .aluOut
      decoded_immediate := signExtend (immI w)
      decoded_alu_instruction := operation })
    (hload : P { d with
      decoded_rd_address := rd w
      decoded_rs1_address := rs1 w
      decoded_reg_write_enable := true
      decoded_reg_input_mux := .lsuOut
      decoded_immediate := signExtend (immI w)
      decoded_mem_read_enable := true
      decoded_alu_instruction := .ADDI })
    (hstore : P { d with
      decoded_rs1_address := rs1 w
      decoded_rs2_address := rs2 w
      decoded_immediate := signExtend (immS w)
      decoded_mem_write_enable := true
      decoded_alu_instruction := .ADDI })
    (hlui : P { d with
      decoded_rd_address := rd w
      decoded_immediate := immU w ++ 0#12
      decoded_reg_write_enable := true
      decoded_reg_input_mux := .immediate })
    (hauipc : P { d with
      decoded_rd_address := rd w
      decoded_immediate := immU w ++ 0#12
      decoded_reg_write_enable := true
      decoded_alu_instruction := .ADD })
    (hnone : P d) : P (decodeInst w d) := by
  -- The chain of `decodeInst`, in the order of the source.
  unfold decodeInst
  refine iteInduction (fun _ => ?_) fun _ => ?_
  · -- The cases of the function codes set the ALU operation, whatever it is.
    rw [decodeR_eq]
    exact hr _
  refine iteInduction (fun _ => ?_) fun _ => ?_
  · rw [decodeI_eq]
    exact hi _
  refine iteInduction (fun _ => hload) fun _ => ?_
  refine iteInduction (fun _ => hstore) fun _ => ?_
  refine iteInduction (fun _ => hlui) fun _ => ?_
  exact iteInduction (fun _ => hauipc) fun _ => hnone

/-- The fields with the scalar bit of a word, which the cases start from. -/
def initial (w : InstructionT) : Decoded :=
  { Decoded.default with decoded_scalar_instruction := scalarBit w }

/-- What holds of the fields that each seven-bit opcode sets, and of the ones that a word without
such an opcode sets, holds of the decoded fields. -/
@[elab_as_elim]
theorem decode_cases {w : InstructionT} {P : Decoded → Prop}
    (hhalt : opcode w = OPCODE_HALT → P { initial w with decoded_halt := true })
    (hslt : opcode w = OPCODE_SX_SLT → P { initial w with
      decoded_scalar_instruction := false
      decoded_rd_address := rd w
      decoded_rs1_address := rs1 w
      decoded_rs2_address := rs2 w
      decoded_reg_write_enable := true
      decoded_reg_input_mux := .vectorToScalar
      decoded_alu_instruction := .SLT })
    (hslti : opcode w = OPCODE_SX_SLTI → P { initial w with
      decoded_scalar_instruction := false
      decoded_rd_address := rd w
      decoded_rs1_address := rs1 w
      decoded_immediate := signExtend (immI w)
      decoded_reg_write_enable := true
      decoded_reg_input_mux := .vectorToScalar
      decoded_alu_instruction := .SLTI })
    (hbranch : ∀ operation, opcode w = OPCODE_B → P { initial w with
      decoded_rs1_address := rs1 w
      decoded_rs2_address := rs2 w
      decoded_immediate := signExtend13 (immB w)
      decoded_branch := true
      decoded_alu_instruction := operation })
    (hjal : opcode w = OPCODE_J → P { initial w with
      decoded_rd_address := rd w
      decoded_reg_write_enable := true
      decoded_reg_input_mux := .pcPlus1
      decoded_scalar_instruction := true
      decoded_alu_instruction := .JAL
      decoded_immediate := signExtend21 (immJ w) })
    (hjalr : opcode w = OPCODE_JALR → P { initial w with
      decoded_rd_address := rd w
      decoded_rs1_address := rs1 w
      decoded_reg_write_enable := true
      decoded_reg_input_mux := .pcPlus1
      decoded_scalar_instruction := true
      decoded_alu_instruction := .JALR
      decoded_immediate := signExtend (immI w) })
    (hinst : opcode w ≠ OPCODE_HALT → opcode w ≠ OPCODE_SX_SLT → opcode w ≠ OPCODE_SX_SLTI →
      opcode w ≠ OPCODE_B → opcode w ≠ OPCODE_J → opcode w ≠ OPCODE_JALR →
        P (decodeInst w (initial w))) : P (decode w) := by
  -- The chain of `decode`, in the order of the source: each condition that fails is one that the
  -- next cases may use.
  unfold decode
  refine iteInduction hhalt fun h1 => ?_
  refine iteInduction hslt fun h2 => ?_
  refine iteInduction hslti fun h3 => ?_
  refine iteInduction (fun h => ?_) fun h4 => ?_
  · -- The case of the branch's `funct3` sets the ALU operation, whatever it is.
    rw [decodeBranch_eq]
    exact hbranch _ h
  refine iteInduction hjal fun h5 => ?_
  exact iteInduction hjalr fun h6 => hinst h1 h2 h3 h4 h5 h6

/-- No word is both a load and a store. -/
theorem decode_one_kind (w : InstructionT) :
    ¬((decode w).decoded_mem_read_enable = true ∧ (decode w).decoded_mem_write_enable = true) := by
  refine decode_cases ?_ ?_ ?_ ?_ ?_ ?_ fun _ _ _ _ _ _ => ?_
  case refine_7 => refine decodeInst_cases ?_ ?_ ?_ ?_ ?_ ?_ ?_ <;> simp [initial, Decoded.default]
  all_goals simp [initial, Decoded.default]

/-- The two instructions that gather a bit of each thread into a scalar register, `sx.slt` and
`sx.slti`. -/
def IsSx (w : InstructionT) : Prop := opcode w = OPCODE_SX_SLT ∨ opcode w = OPCODE_SX_SLTI

/-- Whether a word is an `sx` word is decidable from its opcode. -/
instance (w : InstructionT) : Decidable (IsSx w) := inferInstanceAs (Decidable (_ ∨ _))

/-- The words that gather are the two `sx` instructions, which are vector instructions that write a
register and are no loads, stores, or halts. -/
theorem decode_vectorToScalar (w : InstructionT)
    (h : (decode w).decoded_reg_input_mux = .vectorToScalar) :
    IsSx w ∧ (decode w).decoded_scalar_instruction = false ∧
      (decode w).decoded_reg_write_enable = true ∧ (decode w).decoded_mem_read_enable = false ∧
      (decode w).decoded_mem_write_enable = false ∧ (decode w).decoded_halt = false := by
  revert h
  refine decode_cases ?_ (fun hslt _ => ?_) (fun hslti _ => ?_) ?_ ?_ ?_ fun _ _ _ _ _ _ => ?_
  case refine_2 => exact ⟨.inl hslt, rfl, rfl, rfl, rfl, rfl⟩
  case refine_3 => exact ⟨.inr hslti, rfl, rfl, rfl, rfl, rfl⟩
  -- Every other case sets another input, or leaves the ALU's.
  case refine_7 => refine decodeInst_cases ?_ ?_ ?_ ?_ ?_ ?_ ?_ <;> simp [initial, Decoded.default]
  all_goals simp [initial, Decoded.default]

/-- The fields of `sx.slt`. -/
theorem decode_sx_slt {w : InstructionT} (h : opcode w = OPCODE_SX_SLT) :
    decode w = { Decoded.default with
      decoded_rd_address := rd w
      decoded_rs1_address := rs1 w
      decoded_rs2_address := rs2 w
      decoded_reg_write_enable := true
      decoded_reg_input_mux := .vectorToScalar
      decoded_alu_instruction := .SLT } := by
  unfold decode
  simp only [h]
  rw [if_neg (by decide), if_pos trivial]
  rfl

/-- The fields of `sx.slti`. -/
theorem decode_sx_slti {w : InstructionT} (h : opcode w = OPCODE_SX_SLTI) :
    decode w = { Decoded.default with
      decoded_rd_address := rd w
      decoded_rs1_address := rs1 w
      decoded_immediate := signExtend (immI w)
      decoded_reg_write_enable := true
      decoded_reg_input_mux := .vectorToScalar
      decoded_alu_instruction := .SLTI } := by
  unfold decode
  simp only [h]
  rw [if_neg (by decide), if_neg (by decide), if_pos trivial]
  rfl

/-- An `sx` word writes back from the vector-to-scalar register. -/
theorem IsSx.decode {w : InstructionT} (h : IsSx w) :
    (decode w).decoded_reg_input_mux = .vectorToScalar := by
  rcases h with h | h
  · rw [decode_sx_slt h]
  · rw [decode_sx_slti h]

/-- The destination of an `sx` instruction is the register that the word names. -/
theorem IsSx.decode_rd {w : InstructionT} (h : IsSx w) :
    (SmolGpu.decode w).decoded_rd_address = rd w := by
  rcases h with h | h
  · rw [decode_sx_slt h]
  · rw [decode_sx_slti h]

/-- Only a load writes back what an LSU returns. -/
theorem decode_lsuOut (w : InstructionT) (h : (decode w).decoded_reg_input_mux = .lsuOut) :
    (decode w).decoded_mem_read_enable = true := by
  revert h
  refine decode_cases ?_ ?_ ?_ ?_ ?_ ?_ fun _ _ _ _ _ _ => ?_
  case refine_7 => refine decodeInst_cases ?_ ?_ ?_ ?_ ?_ ?_ ?_ <;> simp [initial, Decoded.default]
  all_goals simp [initial, Decoded.default]

end SmolGpu
