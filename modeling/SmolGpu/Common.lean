import Mathlib.Data.BitVec

/-!
# Shared types

The types and enumerations of `src/common/common.sv`. Logic is two-valued: a register holds a word
of its width, as in the simulator that the repository is run with. `data_t`, `instruction_t`, and
the address types are all 32 bits wide.
-/

namespace SmolGpu

/-- `data_t`, a 32-bit word. -/
abbrev DataT := BitVec 32

/-- `instruction_t`, a 32-bit instruction word. -/
abbrev InstructionT := BitVec 32

/-- `data_memory_address_t`. -/
abbrev DataMemoryAddressT := BitVec 32

/-- `instruction_memory_address_t`. -/
abbrev InstructionMemoryAddressT := BitVec 32

/-- The number of a vector or scalar register, five bits. -/
abbrev RegAddress := BitVec 5

/-- `kernel_config_t`. -/
structure KernelConfig where
  base_instructions_address : InstructionMemoryAddressT
  base_data_address : DataMemoryAddressT
  num_blocks : DataT
  num_warps_per_block : DataT
  deriving DecidableEq, Repr

/-- `alu_instruction_t`. -/
inductive AluInstruction
  | ADDI | SLTI | XORI | ORI | ANDI | SLLI | SRLI | SRAI
  | ADD | SUB | SLL | SLT | XOR | SRL | SRA | OR | AND
  | BEQ | BNE | BLT | BGE
  | JAL | JALR
  deriving DecidableEq, Repr

/-- `warp_state_t`. -/
inductive WarpState
  | idle | fetch | decode | request | wait | execute | update | done
  deriving DecidableEq, Repr

/-- `fetcher_state_t`. -/
inductive FetcherState
  | idle | fetching | done
  deriving DecidableEq, Repr

/-- `lsu_state_t`. -/
inductive LsuState
  | idle | requesting | waiting | done
  deriving DecidableEq, Repr

/-- `reg_input_mux_t`. -/
inductive RegInputMux
  | aluOut | lsuOut | immediate | pcPlus1 | vectorToScalar
  deriving DecidableEq, Repr

/-- `sign_extend`, from 12 bits. -/
def signExtend (imm12 : BitVec 12) : DataT :=
  if imm12.getLsbD 11 then BitVec.allOnes 20 ++ imm12 else 0#20 ++ imm12

/-- The sign of a 12-bit immediate is its topmost bit. -/
theorem signExtend_eq (imm12 : BitVec 12) : signExtend imm12 = imm12.signExtend 32 := by
  have hsign : imm12.msb = imm12.getLsbD 11 := BitVec.msb_eq_getLsbD_last imm12
  unfold signExtend
  rw [BitVec.signExtend_eq_append_of_le (by decide), BitVec.cast_eq, hsign]
  cases imm12.getLsbD 11 <;> rfl

/-- `sign_extend_13`. -/
def signExtend13 (imm13 : BitVec 13) : DataT :=
  if imm13.getLsbD 12 then BitVec.allOnes 19 ++ imm13 else 0#19 ++ imm13

/-- `sign_extend_21`. -/
def signExtend21 (imm21 : BitVec 21) : DataT :=
  if imm21.getLsbD 20 then BitVec.allOnes 11 ++ imm21 else 0#11 ++ imm21

/-- The source's extension of 21 bits is the sign extension. -/
theorem signExtend21_eq (imm21 : BitVec 21) : signExtend21 imm21 = imm21.signExtend 32 := by
  have hsign : imm21.msb = imm21.getLsbD 20 := BitVec.msb_eq_getLsbD_last imm21
  unfold signExtend21
  rw [BitVec.signExtend_eq_append_of_le (by decide), BitVec.cast_eq, hsign]
  cases imm21.getLsbD 20 <;> rfl

end SmolGpu
