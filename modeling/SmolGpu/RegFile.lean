import SmolGpu.Common
import Mathlib.Logic.Function.Basic

/-!
# The register files

`src/reg_file.sv` holds the vector registers of a warp, 32 for each thread, and
`src/scalar_reg_file.sv` its scalar registers. Both latch the source operands while the warp is in
`WARP_REQUEST` and write the result while it is in `WARP_UPDATE`. The loops of `reg_file.sv` treat
the threads independently, so `regFileStep` says what happens to one of them.
-/

namespace SmolGpu

/-! ## Vector registers -/

/-- The registers and operand latches of one thread of `reg_file`. -/
structure RegFile where
  registers : RegAddress → DataT
  rs1 : DataT
  rs2 : DataT

/-- The input ports of `reg_file`, as one thread sees them: `thread_enable`, `alu_out`, and
`lsu_out` are its own, and `thread_id` is its entry of `thread_ids`. -/
structure RegFileIn where
  reset : Bool
  enable : Bool
  thread_enable : Bool
  thread_id : DataT
  block_id : DataT
  block_size : DataT
  warp_state : WarpState
  decoded_reg_write_enable : Bool
  decoded_reg_input_mux : RegInputMux
  decoded_immediate : DataT
  decoded_rd_address : RegAddress
  decoded_rs1_address : RegAddress
  decoded_rs2_address : RegAddress
  alu_out : DataT
  lsu_out : DataT

/-- `thread_ids`: `warp_id * THREADS_PER_WARP + i`, in 32 bits. -/
def threadId (T : ℕ) (warp_id : DataT) (i : Fin T) : DataT :=
  warp_id * BitVec.ofNat 32 T + BitVec.ofNat 32 i

/-- The vector register that is zero. -/
def ZERO_REG : RegAddress := 0

/-- The vector register of the thread's number. -/
def THREAD_ID_REG : RegAddress := 1

/-- The vector register of the block's number. -/
def BLOCK_ID_REG : RegAddress := 2

/-- The vector register of the block's size. -/
def BLOCK_SIZE_REG : RegAddress := 3

/-- The four assignments to the special registers, over `registers`. -/
def specialRegisters (thread_id block_id block_size : DataT) (registers : RegAddress → DataT) :
    RegAddress → DataT := fun r =>
  if r = ZERO_REG then 0
  else if r = THREAD_ID_REG then thread_id
  else if r = BLOCK_ID_REG then block_id
  else if r = BLOCK_SIZE_REG then block_size
  else registers r

/-- The value that `decoded_reg_input_mux` selects for a vector register; `none` where the case
assigns nothing. -/
def vectorRegInput (i : RegFileIn) : Option DataT :=
  match i.decoded_reg_input_mux with
  | .aluOut => some i.alu_out
  | .lsuOut => some i.lsu_out
  | .immediate => some i.decoded_immediate
  | .vectorToScalar => none
  | .pcPlus1 => none

/-- Assigns `value` to register `r`, if there is one. -/
def writeRegister (registers : RegAddress → DataT) (r : RegAddress) (value : Option DataT) :
    RegAddress → DataT :=
  match value with
  | some v => Function.update registers r v
  | none => registers

/-- The always block of `reg_file.sv`, for one thread. -/
def regFileStep (i : RegFileIn) (s : RegFile) : RegFile :=
  if i.reset then
    { s with
      registers := specialRegisters i.thread_id i.block_id i.block_size fun _ => 0 }
  else if i.enable then
    let registers := specialRegisters i.thread_id i.block_id i.block_size s.registers
    if i.thread_enable then
      { rs1 := if i.warp_state = .request then s.registers i.decoded_rs1_address else s.rs1
        rs2 := if i.warp_state = .request then s.registers i.decoded_rs2_address else s.rs2
        registers :=
          if i.warp_state = .update then
            -- Prevent writes to read-only registers
            if i.decoded_reg_write_enable && i.decoded_rd_address ≥ 4 then
              writeRegister registers i.decoded_rd_address (vectorRegInput i)
            else registers
          else registers }
    else { s with registers := registers }
  else s

/-- An enabled register file assigns its special registers at every edge, and never writes a result
to them. -/
theorem regFileStep_special {i : RegFileIn} {s : RegFile} (hr : i.reset = false)
    (he : i.enable = true) {r : RegAddress} (hlt : ¬4 ≤ r) : (regFileStep i s).registers r =
      specialRegisters i.thread_id i.block_id i.block_size s.registers r := by
  unfold regFileStep
  simp only [hr, he, Bool.false_eq_true, if_false, if_true]
  rcases ht : i.thread_enable with _ | _
  · rfl
  · simp only [if_true]
    by_cases hup : i.warp_state = .update
    · rw [if_pos hup]
      by_cases hwr : (i.decoded_reg_write_enable && i.decoded_rd_address ≥ 4) = true
      · rw [if_pos hwr]
        simp only [Bool.and_eq_true, decide_eq_true_eq] at hwr
        have hne : r ≠ i.decoded_rd_address := by
          rintro rfl
          exact hlt hwr.2
        cases vectorRegInput i with
        | none => rfl
        | some v => exact Function.update_of_ne hne _ _
      · rw [if_neg hwr]
    · rw [if_neg hup]

/-! ## Scalar registers -/

/-- The registers of `scalar_reg_file`. -/
structure ScalarRegFile where
  registers : RegAddress → DataT
  rs1 : DataT
  rs2 : DataT

/-- The input ports of `scalar_reg_file`. -/
structure ScalarRegFileIn where
  reset : Bool
  enable : Bool
  warp_state : WarpState
  decoded_reg_write_enable : Bool
  decoded_reg_input_mux : RegInputMux
  decoded_immediate : DataT
  decoded_rd_address : RegAddress
  decoded_rs1_address : RegAddress
  decoded_rs2_address : RegAddress
  alu_out : DataT
  lsu_out : DataT
  pc : InstructionMemoryAddressT
  vector_to_scalar_data : DataT

/-- The scalar register of the execution mask. -/
def EXECUTION_MASK_REG : RegAddress := 1

/-- The output `warp_execution_mask`. -/
def ScalarRegFile.warp_execution_mask (s : ScalarRegFile) : DataT := s.registers EXECUTION_MASK_REG

/-- The value that `decoded_reg_input_mux` selects for a scalar register. -/
def scalarRegInput (i : ScalarRegFileIn) : DataT :=
  match i.decoded_reg_input_mux with
  | .aluOut => i.alu_out
  | .lsuOut => i.lsu_out
  | .immediate => i.decoded_immediate
  | .pcPlus1 => i.pc + 1
  | .vectorToScalar => i.vector_to_scalar_data

/-- The scalar registers after a reset: all threads enabled, every other register zero. -/
def scalarResetRegisters : RegAddress → DataT := fun r =>
  if r = EXECUTION_MASK_REG then BitVec.allOnes 32 else 0

/-- The always block of `scalar_reg_file.sv`. -/
def scalarRegFileStep (i : ScalarRegFileIn) (s : ScalarRegFile) : ScalarRegFile :=
  if i.reset then { s with registers := scalarResetRegisters }
  else if i.enable then
    { rs1 := if i.warp_state = .request then s.registers i.decoded_rs1_address else s.rs1
      rs2 := if i.warp_state = .request then s.registers i.decoded_rs2_address else s.rs2
      registers :=
        if i.warp_state = .update then
          if i.decoded_reg_write_enable && i.decoded_rd_address > 0 then
            Function.update s.registers i.decoded_rd_address (scalarRegInput i)
          else s.registers
        else s.registers }
  else s

/-- A reset clears scalar register 0, and no result is written to it. -/
theorem scalarRegFileStep_zero {i : ScalarRegFileIn} {s : ScalarRegFile}
    (h : i.reset = true ∨ s.registers 0 = 0) : (scalarRegFileStep i s).registers 0 = 0 := by
  unfold scalarRegFileStep
  by_cases hr : i.reset = true
  · rw [if_pos hr]
    rfl
  rw [if_neg hr]
  have hzero : s.registers 0 = 0 := h.resolve_left hr
  by_cases he : i.enable = true
  · rw [if_pos he]
    by_cases hwr : (i.decoded_reg_write_enable && i.decoded_rd_address > 0) = true
    · -- The register file asks for a destination above 0.
      have hne : i.decoded_rd_address ≠ 0 := by
        intro hrd
        rw [hrd] at hwr
        simp at hwr
      have hkept : Function.update s.registers i.decoded_rd_address (scalarRegInput i) 0 = 0 := by
        rw [Function.update_of_ne hne.symm, hzero]
      rw [if_pos hwr]
      dsimp only
      split_ifs
      · exact hkept
      · exact hzero
    · rw [if_neg hwr]
      dsimp only
      split_ifs
      · exact hzero
      · exact hzero
  · rw [if_neg he]
    exact hzero

end SmolGpu
