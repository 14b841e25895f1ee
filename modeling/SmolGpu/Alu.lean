import SmolGpu.Common

/-!
# The ALU

`src/alu.sv`: a result register that is recomputed at every edge at which the unit is enabled.
`data_t` is an unsigned type, so the comparisons are unsigned and `>>>` shifts in zeros. Its shifts
take the whole 32-bit amount.
-/

namespace SmolGpu

/-- The case of `alu.sv` over `instruction`. -/
def aluResult (instruction : AluInstruction) (pc imm rs1 rs2 : DataT) : DataT :=
  match instruction with
  | .ADDI => rs1 + imm
  | .SLTI => if rs1 < imm then 1 else 0
  | .XORI => rs1 ^^^ imm
  | .ORI => rs1 ||| imm
  | .ANDI => rs1 &&& imm
  | .SLLI => rs1 <<< imm
  | .SRLI => rs1 >>> imm
  | .SRAI => rs1 >>> imm
  | .ADD => rs1 + rs2
  | .SUB => rs1 - rs2
  | .SLL => rs1 <<< rs2
  | .SLT => if rs1 < rs2 then 1 else 0
  | .XOR => rs1 ^^^ rs2
  | .SRL => rs1 >>> rs2
  | .SRA => rs1 >>> rs2
  | .OR => rs1 ||| rs2
  | .AND => rs1 &&& rs2
  | .BEQ => if rs1 = rs2 then 1 else 0
  | .BNE => if rs1 ≠ rs2 then 1 else 0
  | .BLT => if rs1 < rs2 then 1 else 0
  | .BGE => if rs1 ≥ rs2 then 1 else 0
  | .JAL => pc + imm
  | .JALR => rs1 + imm

/-- The input ports of `alu`. -/
structure AluIn where
  reset : Bool
  enable : Bool
  pc : InstructionMemoryAddressT
  imm : DataT
  rs1 : DataT
  rs2 : DataT
  instruction : AluInstruction

/-- The always block of `alu.sv`: the next `alu_out`. -/
def aluStep (i : AluIn) (alu_out : DataT) : DataT :=
  if i.reset then 0
  else if i.enable then aluResult i.instruction i.pc i.imm i.rs1 i.rs2
  else alu_out

end SmolGpu
