import SmolGpu.As.Decoding
import SmolGpu.As.Immediates
import SmolGpu.As.Semantics
import SmolGpu.Sim.Jumps

/-!
# What is assembled right

The word that is emitted for an instruction does to a warp what the line asks for
(`translateInstruction_does`) if the line keeps clear of what is lost on the way: the `s.` prefix of
all but the jumps, immediates that the decoder reads as negative ones, the low bits of the offset of
a store or a jump, `auipc`, and the width of a load or a store. `Faithful` lists these conditions.

An `srai` is emitted as an `srli`. The ALU shifts zeros in for both, so that nothing is lost.
-/

namespace SmolGpu

open SharedMemory (Access)
open Sim Sim.Instructions

/-! ## The effect of the control signals -/

namespace WarpArch

variable {T : ℕ} {d : Decoded} {loads : Fin (T + 1) → DataT} {a : WarpArch T}

/-- A vector instruction goes on at the next address. -/
theorem nextPc_of_vector (hs : d.decoded_scalar_instruction = false) : a.nextPc d = a.pc + 1 := by
  unfold nextPc
  rw [hs]
  rfl

/-- An instruction of the threads that writes a register. -/
theorem exec_of_write {v : Fin (T + 1) → DataT} (hw : d.decoded_reg_write_enable = true)
    (hs : d.decoded_scalar_instruction = false) (hhalt : d.decoded_halt = false)
    (hmux : d.decoded_reg_input_mux ≠ .vectorToScalar)
    (hv : ∀ t, a.vectorValue d loads t = some (v t.castSucc)) :
    a.exec d loads = (a.set false d.decoded_rd_address v).next := by
  refine WarpArch.ext ?_ (funext fun r => ?_) (funext fun t => funext fun r => ?_)
  · simp [exec, hhalt, nextPc_of_vector hs]
  · simp [exec, WritesScalar, hs, hmux]
  · simp [exec, WritesVector, hw, hs, hv, and_assoc]

/-- An instruction that gathers a bit from each thread. -/
theorem exec_of_gather (hw : d.decoded_reg_write_enable = true)
    (hs : d.decoded_scalar_instruction = false) (hhalt : d.decoded_halt = false)
    (hmux : d.decoded_reg_input_mux = .vectorToScalar) : a.exec d loads =
      (a.setBits d.decoded_rd_address fun t => a.result d t.castSucc).next := by
  have hscalar : a.scalarValue d loads =
      gather fun t => if a.mask t then a.result d t.castSucc else 0 := by
    unfold scalarValue
    rw [hmux]
    rfl
  have hvector : ∀ t, a.vectorValue d loads t = none := fun t => by
    unfold vectorValue
    rw [hmux]
  refine WarpArch.ext ?_ (funext fun r => ?_) (funext fun t => funext fun r => ?_)
  · simp [exec, setBits, hhalt, nextPc_of_vector hs]
  · simp [exec, setBits, WritesScalar, hw, hmux, hscalar]
  · simp [exec, setBits, hvector]

/-- An instruction of the threads that writes no register. -/
theorem exec_of_no_write (hw : d.decoded_reg_write_enable = false)
    (hs : d.decoded_scalar_instruction = false) (hhalt : d.decoded_halt = false) :
    a.exec d loads = a.next := by
  refine WarpArch.ext ?_ (funext fun r => ?_) (funext fun t => funext fun r => ?_)
  · simp [exec, hhalt, nextPc_of_vector hs]
  · simp [exec, WritesScalar, hw]
  · simp [exec, WritesVector, hw]

/-- A halt. -/
theorem exec_of_halt (hw : d.decoded_reg_write_enable = false) (hhalt : d.decoded_halt = true) :
    a.exec d loads = a := by
  refine WarpArch.ext ?_ (funext fun r => ?_) (funext fun t => funext fun r => ?_)
  · simp [exec, hhalt]
  · simp [exec, WritesScalar, hw]
  · simp [exec, WritesVector, hw]

/-- A jump. -/
theorem exec_of_jump (hw : d.decoded_reg_write_enable = true)
    (hs : d.decoded_scalar_instruction = true) (hhalt : d.decoded_halt = false)
    (hmux : d.decoded_reg_input_mux = .pcPlus1) (hbranch : d.decoded_branch = false)
    (hjump : d.decoded_alu_instruction = .JAL ∨ d.decoded_alu_instruction = .JALR) :
    a.exec d loads = (a.set true d.decoded_rd_address fun _ => a.pc + 1).goto
      (a.result d (Fin.last T)) := by
  have hscalar : a.scalarValue d loads = a.pc + 1 := by
    unfold scalarValue
    rw [hmux]
  refine WarpArch.ext ?_ (funext fun r => ?_) (funext fun t => funext fun r => ?_)
  · simp [exec, nextPc, hhalt, hs, hbranch, hjump]
  · simp [exec, WritesScalar, hw, hs, hscalar]
  · simp [exec, WritesVector, hs]

/-- Register `s0` is zero for good. -/
theorem exec_scalar_zero : (a.exec d loads).scalar 0 = a.scalar 0 :=
  if_neg fun hw => absurd hw.2.2.2 (by decide)

/-- The accesses of the threads. -/
theorem access_eq (hs : d.decoded_scalar_instruction = false) (l : Fin (T + 1)) :
    a.access d l = if a.takesPart false l then
      if d.decoded_mem_read_enable then
        some (.read (a.reg d.decoded_rs1_address l + d.decoded_immediate))
      else if d.decoded_mem_write_enable then
        some (.write (a.reg d.decoded_rs1_address l + d.decoded_immediate)
          (a.reg d.decoded_rs2_address l))
      else none
    else none := by
  have henabled : a.enabled d l = a.takesPart false l := by
    unfold enabled takesPart
    rw [hs]
  unfold access
  rw [henabled]
  rfl

/-- An instruction that neither loads nor stores accesses nothing. -/
theorem access_eq_none (hread : d.decoded_mem_read_enable = false)
    (hwrite : d.decoded_mem_write_enable = false) (l : Fin (T + 1)) : a.access d l = none := by
  unfold access
  rw [hread, hwrite]
  exact ite_self none

end WarpArch

namespace As

/-! ## What is kept -/

/-- The emitted word is for the register file of the line. -/
def KeepsFile (m : Mnemonic) : Prop :=
  m.has_s_prefix = false ∨ m.isVectorScalar = true ∨ m.isJump = true ∨ m.name = .HALT

/-- The decoder reads the immediate as it stands in the line. -/
def KeepsImmediate (position : List Char → Option IData) (i : Instruction) : Prop :=
  match i.operands with
  | .itype operands =>
    if isShift i.mnemonic.name then operands.imm12 < 32 else operands.imm12 < 2048
  | .stype operands => operands.imm12 < 2048 ∧ operands.imm12.toNat % 32 = 0
  | .jtype operands => operands.imm20 < 1048576 ∧ operands.imm20.toNat % 2 = 0
  | .jalr operands =>
    match operands.immediate_or_label_ref with
    | .labelRef label_name => ∀ index ∈ position label_name, index < 2048
    | .immediate value => value < 2048
  | .rtype _ | .utype _ => True

/-- The emitted word is for the whole line. -/
structure Faithful (position : List Char → Option IData) (i : Instruction) : Prop where
  /-- The word is for the register file of the line. -/
  file : KeepsFile i.mnemonic
  /-- The word has the value of the immediate. -/
  immediate : KeepsImmediate position i
  /-- The decoder has the instruction. -/
  name : i.mnemonic.name ∉ [.AUIPC, .LB, .LH, .SB, MnemonicName.SH]

/-- Whether a mnemonic keeps its file is decidable from its name. -/
instance (m : Mnemonic) : Decidable (KeepsFile m) := by
  unfold KeepsFile
  infer_instance

/-- Whether an immediate keeps its value is decidable from its kind. -/
instance decidableKeepsImmediate (position : List Char → Option IData) :
    (i : Instruction) → Decidable (KeepsImmediate position i)
  | ⟨_, m, .itype operands⟩ => inferInstanceAs
      (Decidable (if isShift m.name then operands.imm12 < 32 else operands.imm12 < 2048))
  | ⟨_, _, .stype operands⟩ => inferInstanceAs
      (Decidable (operands.imm12 < 2048 ∧ operands.imm12.toNat % 32 = 0))
  | ⟨_, _, .jtype operands⟩ => inferInstanceAs
      (Decidable (operands.imm20 < 1048576 ∧ operands.imm20.toNat % 2 = 0))
  | ⟨_, _, .jalr ⟨_, _, .labelRef label_name⟩⟩ => inferInstanceAs
      (Decidable (∀ index ∈ position label_name, index < 2048))
  | ⟨_, _, .jalr ⟨_, _, .immediate value⟩⟩ => inferInstanceAs (Decidable (value < 2048))
  | ⟨_, _, .rtype _⟩ | ⟨_, _, .utype _⟩ => .isTrue trivial

/-- Whether a line is faithful is decidable. -/
instance (position : List Char → Option IData) (i : Instruction) :
    Decidable (Faithful position i) :=
  decidable_of_iff (KeepsFile i.mnemonic ∧ KeepsImmediate position i ∧
      i.mnemonic.name ∉ [.AUIPC, .LB, .LH, .SB, MnemonicName.SH])
    ⟨fun ⟨hfile, himmediate, hname⟩ => ⟨hfile, himmediate, hname⟩,
      fun h => ⟨h.file, h.immediate, h.name⟩⟩

/-- Away from the `sx` instructions, the jumps, and `halt`, a line is for the threads. -/
theorem KeepsFile.eq_false {m : Mnemonic} (h : KeepsFile m)
    (hname : m.name ∉ [.SX_SLT, .SX_SLTI, .JAL, .JALR, MnemonicName.HALT]) :
    m.has_s_prefix = false := by
  simp only [List.mem_cons, List.not_mem_nil, or_false, not_or] at hname
  obtain ⟨hslt, hslti, hjal, hjalr, hhalt⟩ := hname
  simpa [KeepsFile, Mnemonic.isVectorScalar, Mnemonic.isJump, hslt, hslti, hjal, hjalr, hhalt]
    using h

section Immediates

variable {imm : IData}

/-- A positive immediate of twelve bits. -/
theorem signExtend_of_lt (h : imm < 2048) : signExtend (imm.setWidth 12) = imm := by
  have hnat : imm.toNat < 2048 := h
  have hlow : (imm.setWidth 12).toNat = imm.toNat := by
    rw [BitVec.toNat_setWidth]
    omega
  apply BitVec.eq_of_toNat_eq
  rw [signExtend_toNat, hlow, if_pos hnat]

/-- A positive and even offset of 21 bits. -/
theorem jumpOffset_of_lt (h : imm < 1048576) (heven : imm.toNat % 2 = 0) :
    (imm.extractLsb' 1 20 ++ 0#1).signExtend 32 = imm := by
  have hnat : imm.toNat < 1048576 := h
  have hlow : (imm.setWidth 21).toNat = imm.toNat := by
    rw [BitVec.toNat_setWidth]
    omega
  have hmsb : (imm.setWidth 21).msb = false := by
    rw [BitVec.msb_eq_decide, hlow]
    simpa using hnat
  rw [(extract_append_zero_iff imm).mpr heven, BitVec.signExtend_eq_setWidth_of_msb_false hmsb]
  apply BitVec.eq_of_toNat_eq
  rw [BitVec.toNat_setWidth, hlow]
  omega

end Immediates

/-! ## The words of each kind of line -/

section Words

variable {name : MnemonicName} {rd rs1 rs2 : Register} {imm : IData}

/-- The word of an instruction with a register and an immediate. -/
theorem decode_itype_name (hname : isItypeArithmetic name = true) (hsx : name ≠ .SX_SLTI)
    (himm : if isShift name then imm < 32 else imm < 2048) (hrd : rd.validate = true)
    (hrs1 : rs1.validate = true) : ∃ op op', operation name = some op ∧
      (∀ pc imm x y, aluResult op' pc imm x y = aluResult op pc imm x 0) ∧
        decode (word12 (nameToDeterminant name).opcode.bits rd.bits
          (nameToDeterminant name).funct3.bits rs1.bits imm) = .ofItype op' rd rs1 imm := by
  -- Where `funct7` does not matter, the operation is that of `funct3`.
  have hitype {funct3 : Funct3} {op : AluInstruction}
      (hsel : ∀ f7 d, decodeI (funct3.bits.setWidth 3) f7 d =
        { d with decoded_alu_instruction := op }) :
      decode (word12 Opcode.ITYPE.bits rd.bits funct3.bits rs1.bits imm) =
        .ofItype op rd rs1 imm :=
    (decode_itype (hsel _) hrd hrs1).1
  -- A shift is decoded from its whole immediate, which for an `srai` loses `funct7`.
  have hshift {op : AluInstruction} (hop : shiftOperation name = some op) (himm : imm < 32) :
      decode (word12 (nameToDeterminant name).opcode.bits rd.bits
        (nameToDeterminant name).funct3.bits rs1.bits imm) =
          .ofItype (emittedShift name) rd rs1 imm := by
    have hword := @decode_shift ⟨rd, rs1, imm⟩ _ _ hop hrd hrs1 himm
    refine hword.trans ?_
    unfold ofShift Decoded.ofItype
    rw [signExtend_of_lt (BitVec.lt_trans himm (by decide))]
    rfl
  cases name with
  | ADDI | SLTI | XORI | ORI | ANDI =>
    exact ⟨_, _, rfl, fun _ _ _ _ => rfl, hitype fun _ _ => rfl⟩
  | SLLI | SRLI | SRAI => exact ⟨_, _, rfl, fun _ _ _ _ => rfl, hshift rfl himm⟩
  | SX_SLTI => exact absurd rfl hsx
  | _ => exact absurd hname (by decide)

/-- The word of an instruction with two registers. -/
theorem decode_rtype_name (hname : isRtype name = true) (hsx : name ≠ .SX_SLT)
    (hrd : rd.validate = true) (hrs1 : rs1.validate = true) (hrs2 : rs2.validate = true) :
    ∃ op, operation name = some op ∧
      decode (word12 (nameToDeterminant name).opcode.bits rd.bits
        (nameToDeterminant name).funct3.bits rs1.bits
          (rs2.bits ||| (nameToDeterminant name).funct7.bits <<< 5)) = .ofRtype op rd rs1 rs2 := by
  have hrtype {funct3 : Funct3} {funct7 : Funct7} {op : AluInstruction}
      (hsel : ∀ d, decodeR (funct3.bits.setWidth 3) (funct7.bits.setWidth 7) d =
        { d with decoded_alu_instruction := op }) :
      decode (word12 Opcode.RTYPE.bits rd.bits funct3.bits rs1.bits
        (rs2.bits ||| funct7.bits <<< 5)) = Decoded.ofRtype op rd rs1 rs2 :=
    (decode_rtype hsel hrd hrs1 hrs2).1
  cases name with
  | ADD | SUB | SLL | SLT | XOR | SRL | SRA | OR | AND =>
    exact ⟨_, rfl, hrtype fun _ => rfl⟩
  | SX_SLT => exact absurd rfl hsx
  | _ => exact absurd hname (by decide)

/-- The word of a `halt`. -/
theorem decode_halt {w : InstructionBits} (h : opcode w = OPCODE_HALT) : decode w =
    { Decoded.default with
      decoded_scalar_instruction := scalarBit w
      decoded_halt := true } := by
  unfold decode
  simp only
  rw [if_pos h]

/-- Only a `halt` halts. -/
theorem decoded_halt_iff (w : InstructionBits) :
    (decode w).decoded_halt = true ↔ opcode w = OPCODE_HALT := by
  refine decode_cases (fun h => ?_) (fun h => ?_) (fun h => ?_) (fun _ h => ?_) (fun h => ?_)
    (fun h => ?_) fun h _ _ _ _ _ => ?_
  case refine_7 =>
    refine decodeInst_cases ?_ ?_ ?_ ?_ ?_ ?_ ?_ <;> simp [initial, Decoded.default, h]
  all_goals
    rw [h]
    simp [initial, Decoded.default]
  all_goals decide

end Words

/-! ## What the words do -/

section Lines

variable {T : ℕ} {position : List Char → Option IData} {label : Option (List Char)} {m : Mnemonic}
  {i : Instruction} {w : InstructionBits} {a : WarpArch T} {rd rs1 rs2 : Register} {imm : IData}

/-- A word does to a warp what an instruction asks for. -/
structure Does (position : List Char → Option IData) (i : Instruction) (w : InstructionBits)
    (a : WarpArch T) : Prop where
  /-- The registers afterwards are the same. -/
  exec : ∀ loads, i.exec position loads a = some (a.exec (decode w) loads)
  /-- The accesses to memory are the same. -/
  access : ∀ l, i.access a l = a.access (decode w) l

/-- What an I-type word computes. -/
theorem result_ofItype (op : AluInstruction) (l : Fin (T + 1)) :
    a.result (.ofItype op rd rs1 imm) l = aluResult op a.pc (signExtend (imm.setWidth 12))
      (a.reg rs1.address l) (a.reg 0 l) := rfl

/-- The immediate of an instruction of the I-type layout is below 2048. -/
theorem Faithful.imm_lt (hi : Faithful position ⟨label, m, .itype ⟨rd, rs1, imm⟩⟩) :
    imm < 2048 := by
  have himm : if isShift m.name then imm < 32 else imm < 2048 := hi.immediate
  split_ifs at himm
  · exact BitVec.lt_trans himm (by decide)
  · exact himm

/-- An instruction of the threads that computes from a register and an immediate. -/
theorem does_itype (hname : isItypeArithmetic m.name = true) (hsx : m.name ≠ .SX_SLTI)
    (hi : Faithful position ⟨label, m, .itype ⟨rd, rs1, imm⟩⟩) (hrd : rd.validate = true)
    (hrs1 : rs1.validate = true) :
    Does position ⟨label, m, .itype ⟨rd, rs1, imm⟩⟩
      (word12 (nameToDeterminant m.name).opcode.bits rd.bits
        (nameToDeterminant m.name).funct3.bits rs1.bits imm) a := by
  obtain ⟨op, op', hop, halu, hdecode⟩ := decode_itype_name hname hsx hi.immediate hrd hrs1
  -- The names of the form are none that the semantics treats apart, and a faithful line of the form
  -- is for the threads.
  have hne : m.name ≠ .HALT ∧ m.name ≠ .LW ∧ m.name ≠ .SX_SLT ∧
      m.name ∉ [.SX_SLT, .SX_SLTI, .JAL, .JALR, MnemonicName.HALT] := by
    revert hname hsx
    cases m.name <;> simp [isItypeArithmetic]
  obtain ⟨hhalt, hload, hslt, hfile⟩ := hne
  have hs : m.has_s_prefix = false := hi.file.eq_false hfile
  constructor
  · intro loads
    -- Below 2048 the immediate is what the decoder extends it to.
    have hresult : a.result (.ofItype op' rd rs1 imm) =
        Instruction.computeI a op ⟨rd, rs1, imm⟩ := by
      funext l
      rw [result_ofItype, signExtend_of_lt hi.imm_lt, halu]
      rfl
    have hvalue : ∀ t, a.vectorValue (.ofItype op' rd rs1 imm) loads t =
        some (Instruction.computeI a op ⟨rd, rs1, imm⟩ t.castSucc) := fun t =>
      congrArg some (congrFun hresult t.castSucc)
    rw [hdecode, WarpArch.exec_of_write rfl rfl rfl RegInputMux.noConfusion hvalue]
    simp [Instruction.exec, hhalt, hload, hs, Mnemonic.isVectorScalar, hslt, hsx, hop]
    rfl
  · intro l
    rw [hdecode, WarpArch.access_eq_none rfl rfl]
    simp [Instruction.access, hload]

/-- An `sx.slti`. -/
theorem does_sx_slti (hname : m.name = .SX_SLTI)
    (hi : Faithful position ⟨label, m, .itype ⟨rd, rs1, imm⟩⟩) (hrd : rd.validate = true)
    (hrs1 : rs1.validate = true) :
    Does position ⟨label, m, .itype ⟨rd, rs1, imm⟩⟩
      (word12 (nameToDeterminant m.name).opcode.bits rd.bits
        (nameToDeterminant m.name).funct3.bits rs1.bits imm) a := by
  have hdecode : decode (word12 (nameToDeterminant m.name).opcode.bits rd.bits
      (nameToDeterminant m.name).funct3.bits rs1.bits imm) =
        (Decoded.ofItype .SLTI rd rs1 imm).gathering := by
    rw [hname]
    exact decode_sxSlti hrd hrs1
  constructor
  · intro loads
    -- The line computes with the emitted immediate as it stands, which is below 2048.
    have hresult : a.result (Decoded.ofItype .SLTI rd rs1 imm).gathering =
        Instruction.computeI a .SLTI ⟨rd, rs1, imm⟩ := by
      funext l
      show a.result (.ofItype .SLTI rd rs1 imm) l = _
      rw [result_ofItype, signExtend_of_lt hi.imm_lt]
      rfl
    rw [hdecode, WarpArch.exec_of_gather rfl rfl rfl rfl, hresult]
    simp [Instruction.exec, hname, Mnemonic.isVectorScalar, operation]
    rfl
  · intro l
    rw [hdecode, WarpArch.access_eq_none rfl rfl]
    simp [Instruction.access, hname]

/-- An instruction of the threads that computes from two registers. -/
theorem does_rtype (hname : isRtype m.name = true) (hsx : m.name ≠ .SX_SLT)
    (hi : Faithful position ⟨label, m, .rtype ⟨rd, rs1, rs2⟩⟩) (hrd : rd.validate = true)
    (hrs1 : rs1.validate = true) (hrs2 : rs2.validate = true) :
    Does position ⟨label, m, .rtype ⟨rd, rs1, rs2⟩⟩
      (word12 (nameToDeterminant m.name).opcode.bits rd.bits
        (nameToDeterminant m.name).funct3.bits rs1.bits
          (rs2.bits ||| (nameToDeterminant m.name).funct7.bits <<< 5)) a := by
  -- The name fixes the operation, and `funct3` and `funct7` encode it.
  obtain ⟨op, hop, hdecode⟩ := decode_rtype_name hname hsx hrd hrs1 hrs2
  have hne : m.name ≠ .SX_SLTI ∧
      m.name ∉ [.SX_SLT, .SX_SLTI, .JAL, .JALR, MnemonicName.HALT] := by
    revert hname hsx
    cases m.name <;> simp [isRtype]
  have hs : m.has_s_prefix = false := hi.file.eq_false hne.2
  constructor
  · intro loads
    have hvalue : ∀ t, a.vectorValue (.ofRtype op rd rs1 rs2) loads t =
        some (Instruction.computeR a op ⟨rd, rs1, rs2⟩ t.castSucc) := fun _ => rfl
    rw [hdecode, WarpArch.exec_of_write rfl rfl rfl RegInputMux.noConfusion hvalue]
    simp [Instruction.exec, hs, Mnemonic.isVectorScalar, hsx, hne.1, hop]
    rfl
  · intro l
    rw [hdecode, WarpArch.access_eq_none rfl rfl]
    simp [Instruction.access]

/-- An `sx.slt`. -/
theorem does_sx_slt (hname : m.name = .SX_SLT) (hrd : rd.validate = true)
    (hrs1 : rs1.validate = true) (hrs2 : rs2.validate = true) :
    Does position ⟨label, m, .rtype ⟨rd, rs1, rs2⟩⟩
      (word12 (nameToDeterminant m.name).opcode.bits rd.bits
        (nameToDeterminant m.name).funct3.bits rs1.bits
          (rs2.bits ||| (nameToDeterminant m.name).funct7.bits <<< 5)) a := by
  have hdecode : decode (word12 (nameToDeterminant m.name).opcode.bits rd.bits
      (nameToDeterminant m.name).funct3.bits rs1.bits
        (rs2.bits ||| (nameToDeterminant m.name).funct7.bits <<< 5)) =
          (Decoded.ofRtype .SLT rd rs1 rs2).gathering := by
    rw [hname]
    exact decode_sxSlt hrd hrs1 hrs2
  constructor
  · intro loads
    rw [hdecode, WarpArch.exec_of_gather rfl rfl rfl rfl]
    simp [Instruction.exec, hname, Mnemonic.isVectorScalar, operation]
    rfl
  · intro l
    rw [hdecode, WarpArch.access_eq_none rfl rfl]
    simp [Instruction.access]

/-- A load. -/
theorem does_load (hname : m.name = .LW)
    (hi : Faithful position ⟨label, m, .itype ⟨rd, rs1, imm⟩⟩) (hrd : rd.validate = true)
    (hrs1 : rs1.validate = true) :
    Does position ⟨label, m, .itype ⟨rd, rs1, imm⟩⟩
      (word12 (nameToDeterminant m.name).opcode.bits rd.bits
        (nameToDeterminant m.name).funct3.bits rs1.bits imm) a := by
  have hdecode : decode (word12 (nameToDeterminant m.name).opcode.bits rd.bits
      (nameToDeterminant m.name).funct3.bits rs1.bits imm) = .ofLoad rd rs1 imm := by
    rw [hname]
    exact (decode_load _ hrd hrs1).1
  -- A scalar load would be decoded as a load of the vector registers.
  have hs : m.has_s_prefix = false := hi.file.eq_false (by simp [hname])
  constructor
  · intro loads
    have hvalue : ∀ t, a.vectorValue (.ofLoad rd rs1 imm) loads t = some (loads t.castSucc) :=
      fun _ => rfl
    rw [hdecode, WarpArch.exec_of_write rfl rfl rfl RegInputMux.noConfusion hvalue]
    simp [Instruction.exec, hname, hs]
    rfl
  · intro l
    have himm : (Decoded.ofLoad rd rs1 imm).decoded_immediate = imm := signExtend_of_lt hi.imm_lt
    rw [hdecode, WarpArch.access_eq rfl, himm]
    simp [Instruction.access, hname, hs]
    rfl

/-- A store. -/
theorem does_store (hname : m.name = .SW)
    (hi : Faithful position ⟨label, m, .stype ⟨rs1, rs2, imm⟩⟩) (hrs1 : rs1.validate = true)
    (hrs2 : rs2.validate = true) :
    Does position ⟨label, m, .stype ⟨rs1, rs2, imm⟩⟩
      (word12 (nameToDeterminant m.name).opcode.bits 0
        (nameToDeterminant m.name).funct3.bits rs1.bits (rs2.bits ||| imm)) a := by
  obtain ⟨hlt, hlow⟩ : imm < 2048 ∧ imm.toNat % 32 = 0 := hi.immediate
  have hdecode : decode (word12 (nameToDeterminant m.name).opcode.bits 0
      (nameToDeterminant m.name).funct3.bits rs1.bits (rs2.bits ||| imm)) =
        .ofStore rs1 rs2 imm := by
    rw [hname]
    exact (decode_store_iff _ hrs1 hrs2 hlt).mpr hlow
  have hs : m.has_s_prefix = false := hi.file.eq_false (by simp [hname])
  constructor
  · intro loads
    rw [hdecode, WarpArch.exec_of_no_write rfl rfl rfl]
    simp [Instruction.exec, hname]
  · intro l
    rw [hdecode, WarpArch.access_eq rfl]
    simp [Instruction.access, hname, hs]
    rfl

/-- A `lui`. -/
theorem does_lui (hname : m.name = .LUI)
    (hi : Faithful position ⟨label, m, .utype ⟨rd, imm⟩⟩) (hrd : rd.validate = true)
    (himm : imm < 1048576) :
    Does position ⟨label, m, .utype ⟨rd, imm⟩⟩
      (word20 (nameToDeterminant m.name).opcode.bits rd.bits imm) a := by
  have hdecode : decode (word20 (nameToDeterminant m.name).opcode.bits rd.bits imm) =
      .ofLui rd imm := by
    rw [hname]
    exact (decode_lui hrd himm).1
  have hs : m.has_s_prefix = false := hi.file.eq_false (by simp [hname])
  constructor
  · intro loads
    rw [hdecode, WarpArch.exec_of_write (v := fun _ => imm <<< 12) rfl rfl rfl
      RegInputMux.noConfusion fun _ => rfl]
    simp [Instruction.exec, hname, hs]
    rfl
  · intro l
    rw [hdecode, WarpArch.access_eq_none rfl rfl]
    simp [Instruction.access]

/-- A `jal`. -/
theorem does_jal (hi : Faithful position ⟨label, m, .jtype ⟨rd, imm⟩⟩) (hname : m.name = .JAL)
    (hrd : rd.validate = true) :
    Does position ⟨label, m, .jtype ⟨rd, imm⟩⟩
      ((nameToDeterminant m.name).opcode.bits ||| rd.bits <<< 7 ||| immJBits imm) a := by
  obtain ⟨hlt, heven⟩ : imm < 1048576 ∧ imm.toNat % 2 = 0 := hi.immediate
  have hdecode : decode ((nameToDeterminant m.name).opcode.bits ||| rd.bits <<< 7 |||
      immJBits imm) = .ofJal rd imm := by
    rw [hname]
    refine (decode_jtype hrd).trans ?_
    rw [jumpOffset_of_lt hlt heven]
  constructor
  · intro loads
    rw [hdecode, WarpArch.exec_of_jump rfl rfl rfl rfl rfl (.inl rfl)]
    rfl
  · intro l
    rw [hdecode, WarpArch.access_eq_none rfl rfl]
    simp [Instruction.access]

/-- A `jalr` to the sum of a register and an offset. -/
theorem does_jalr {operands : JalrOperands} (hrd : operands.rd.validate = true)
    (hrs1 : rs1.validate = true) (hlt : imm < 2048)
    (htarget : Instruction.target position a operands = some (a.scalar rs1.address + imm)) :
    Does position ⟨label, m, .jalr operands⟩
      (word12 Opcode.JALR.bits operands.rd.bits Funct3.JALR.bits rs1.bits imm) a := by
  have hresult : a.result (.ofJalr operands.rd rs1 imm) (Fin.last T) =
      a.scalar rs1.address + imm := by
    have hreg : a.reg rs1.address (Fin.last T) = a.scalar rs1.address := Fin.lastCases_last
    show a.result (.ofItype .JALR operands.rd rs1 imm) (Fin.last T) = _
    rw [result_ofItype, signExtend_of_lt hlt, hreg]
    rfl
  constructor
  · intro loads
    rw [decode_jalr hrd hrs1, WarpArch.exec_of_jump rfl rfl rfl rfl rfl (.inr rfl), hresult]
    unfold Instruction.exec
    simp only [htarget]
    rfl
  · intro l
    rw [decode_jalr hrd hrs1, WarpArch.access_eq_none rfl rfl]
    simp [Instruction.access]

/-- A `halt`. -/
theorem does_halt (hname : m.name = .HALT) {operands : ItypeOperands}
    (hw : opcode w = OPCODE_HALT) :
    Does position ⟨label, m, .itype operands⟩ w a := by
  constructor
  · intro loads
    rw [decode_halt hw, WarpArch.exec_of_halt rfl rfl]
    simp [Instruction.exec, hname]
  · intro l
    rw [decode_halt hw, WarpArch.access_eq_none rfl rfl]
    simp [Instruction.access, hname]

/-- The word that is emitted for an instruction does what it asks for, where nothing of it is
lost. -/
theorem translateInstruction_does {program : Program} {types : List TokenType}
    (hform : OperandForm i.mnemonic types i.operands) (hi : Faithful program.position i)
    (h : translateInstruction program i = .ok w) (hzero : a.scalar 0 = 0) :
    Does program.position i w a := by
  obtain ⟨label, m, operands⟩ := i
  have hname := hi.name
  simp only [List.mem_cons, List.not_mem_nil, or_false, not_or] at hname
  obtain ⟨hauipc, hlb, hlh, hsb, hsh⟩ := hname
  simp only at hform
  cases hform with
  | halt hm =>
    obtain ⟨-, rfl⟩ := createItypeInstruction_eq_ok.mp h
    refine does_halt hm ?_
    rw [opcode_word12, hm]
    rfl
  | itype rd rs1 imm hm =>
    obtain ⟨⟨hrd, hrs1, -⟩, rfl⟩ := createItypeInstruction_eq_ok.mp h
    by_cases hsx : m.name = .SX_SLTI
    · exact does_sx_slti hsx hi hrd hrs1
    · exact does_itype hm hsx hi hrd hrs1
  | rtype rd rs1 rs2 hm =>
    obtain ⟨⟨hrd, hrs1, hrs2⟩, rfl⟩ := createRtypeInstruction_eq_ok.mp h
    by_cases hsx : m.name = .SX_SLT
    · exact does_sx_slt hsx hrd hrs1 hrs2
    · exact does_rtype hm hsx hi hrd hrs1 hrs2
  | load rd rs1 imm hm =>
    obtain ⟨⟨hrd, hrs1, -⟩, rfl⟩ := createItypeInstruction_eq_ok.mp h
    have hlw : m.name = .LW := by simpa [isLoadType, hlb, hlh] using hm
    exact does_load hlw hi hrd hrs1
  | store rs1 rs2 imm hm =>
    obtain ⟨⟨hrs1, hrs2, -⟩, rfl⟩ := createStypeInstruction_eq_ok.mp h
    have hsw : m.name = .SW := by simpa [isStoreType, hsb, hsh] using hm
    exact does_store hsw hi hrs1 hrs2
  | utype rd imm hm =>
    obtain ⟨⟨hrd, himm⟩, rfl⟩ := createUtypeInstruction_eq_ok.mp h
    have hlui : m.name = .LUI := by simpa [isUtype, hauipc] using hm
    exact does_lui hlui hi hrd himm
  | jal rd imm hm =>
    obtain ⟨⟨hrd, -⟩, rfl⟩ := createJtypeInstruction_eq_ok.mp h
    exact does_jal hi hm hrd
  | jalr rd rs1 value hm =>
    obtain ⟨⟨hrd, hrs1, -⟩, rfl⟩ := createItypeInstruction_eq_ok.mp h
    exact does_jalr hrd hrs1 hi.immediate rfl
  | jalrLabel rd label_name hm =>
    unfold translateInstruction at h
    simp only at h
    cases hlookup : program.label_mappings.lookup label_name with
    | none =>
      rw [hlookup] at h
      cases h
    | some index =>
      -- The word is that of a jump to the sum of register 0 and the label's position.
      rw [hlookup] at h
      obtain ⟨⟨hrd, hrs1, -⟩, rfl⟩ := createItypeInstruction_eq_ok.mp h
      have hlt : index < 2048 := hi.immediate index hlookup
      refine does_jalr hrd hrs1 hlt ?_
      show program.label_mappings.lookup label_name = some (a.scalar 0 + index)
      rw [hlookup, hzero]
      exact congrArg some (BitVec.zero_add index).symm

end Lines

end As

end SmolGpu
