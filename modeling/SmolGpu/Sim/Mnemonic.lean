import SmolGpu.Sim.Instructions

/-!
# Mnemonics

The second half of `src/sim/simlib/instructions.hpp`: the names of the instructions, a mnemonic as a
name with or without the `s.` prefix, and the opcode, `funct3`, and `funct7` of each name. The
source's `std::string_view` is the list of its characters.
-/

namespace SmolGpu.Sim

/-- `sim::InstructionDeterminant`. -/
structure InstructionDeterminant where
  opcode : Opcode
  funct3 : Funct3
  funct7 : Funct7
  deriving DecidableEq, Repr

/-- `sim::MnemonicName`. -/
inductive MnemonicName
  | LUI | AUIPC
  | ADDI | SLTI | XORI | ORI | ANDI | SLLI | SRLI | SRAI
  | ADD | SUB | SLL | SLT | XOR | SRL | SRA | OR | AND
  | LB | LH | LW
  | SB | SH | SW
  | JAL
  | JALR
  | BEQ | BNE | BLT | BGE
  | HALT
  | SX_SLT | SX_SLTI
  deriving DecidableEq, Repr

/-- `to_string` of a `MnemonicName`. -/
def MnemonicName.toString : MnemonicName → String
  | .LUI => "lui"
  | .AUIPC => "auipc"
  | .ADDI => "addi"
  | .SLTI => "slti"
  | .XORI => "xori"
  | .ORI => "ori"
  | .ANDI => "andi"
  | .SLLI => "slli"
  | .SRLI => "srli"
  | .SRAI => "srai"
  | .ADD => "add"
  | .SUB => "sub"
  | .SLL => "sll"
  | .SLT => "slt"
  | .XOR => "xor"
  | .SRL => "srl"
  | .SRA => "sra"
  | .OR => "or"
  | .AND => "and"
  | .LB => "lb"
  | .LH => "lh"
  | .LW => "lw"
  | .SB => "sb"
  | .SH => "sh"
  | .SW => "sw"
  | .JAL => "jal"
  | .JALR => "jalr"
  | .BEQ => "beq"
  | .BNE => "bne"
  | .BLT => "blt"
  | .BGE => "bge"
  | .HALT => "halt"
  | .SX_SLT => "sx.slt"
  | .SX_SLTI => "sx.slti"

/-- The keywords of `str_to_mnemonic_name`, in the order of its tests. -/
def mnemonicNames : List (String × MnemonicName) :=
  [("lui", .LUI), ("auipc", .AUIPC), ("addi", .ADDI), ("slti", .SLTI), ("xori", .XORI),
    ("ori", .ORI), ("andi", .ANDI), ("slli", .SLLI), ("srli", .SRLI), ("srai", .SRAI),
    ("add", .ADD), ("sub", .SUB), ("sll", .SLL), ("slt", .SLT), ("xor", .XOR), ("srl", .SRL),
    ("sra", .SRA), ("or", .OR), ("and", .AND), ("lb", .LB), ("lh", .LH), ("lw", .LW), ("sb", .SB),
    ("sh", .SH), ("sw", .SW), ("jal", .JAL), ("jalr", .JALR), ("beq", .BEQ), ("bne", .BNE),
    ("blt", .BLT), ("bge", .BGE), ("halt", .HALT), ("sx.slt", .SX_SLT), ("sx.slti", .SX_SLTI)]

/-- `str_to_mnemonic_name`. -/
def strToMnemonicName (name : List Char) : Option MnemonicName :=
  (mnemonicNames.find? fun k => k.1.toList == name).map Prod.snd

/-- `sim::Mnemonic`. -/
structure Mnemonic where
  name : MnemonicName
  has_s_prefix : Bool
  deriving DecidableEq, Repr

namespace Mnemonic

variable (m : Mnemonic)

/-- `to_str`: the `s.` of the scalar form, and the name. -/
def toStr : String := (if m.has_s_prefix then "s." else "") ++ m.name.toString

/-- `is_vector_scalar`. -/
def isVectorScalar : Bool := m.name = .SX_SLT ∨ m.name = .SX_SLTI

/-- `is_branch`. -/
def isBranch : Bool := m.name = .BEQ ∨ m.name = .BNE ∨ m.name = .BLT ∨ m.name = .BGE

/-- `is_jump`. -/
def isJump : Bool := m.name = .JAL ∨ m.name = .JALR

/-- `is_scalar`: the operands of the line are scalar registers. -/
def isScalar : Bool := m.has_s_prefix || m.isVectorScalar || m.isBranch || m.isJump

end Mnemonic

/-- `str_to_mnemonic`. -/
def strToMnemonic : List Char → Option Mnemonic
  | 's' :: '.' :: str => (strToMnemonicName str).map (Mnemonic.mk · true)
  | str => (strToMnemonicName str).map (Mnemonic.mk · false)

/-- `name_to_determinant`; a field that the source leaves empty has the value 0. -/
def nameToDeterminant : MnemonicName → InstructionDeterminant
  | .LUI => ⟨.LUI, .ADDI, .SLLI⟩
  | .AUIPC => ⟨.AUIPC, .ADDI, .SLLI⟩
  | .ADDI => ⟨.ITYPE, .ADDI, .SLLI⟩
  | .SLTI => ⟨.ITYPE, .SLTI, .SLLI⟩
  | .XORI => ⟨.ITYPE, .XORI, .SLLI⟩
  | .ORI => ⟨.ITYPE, .ORI, .SLLI⟩
  | .ANDI => ⟨.ITYPE, .ANDI, .SLLI⟩
  | .SLLI => ⟨.ITYPE, .SLLI, .SLLI⟩
  | .SRLI => ⟨.ITYPE, .SRLI, .SRLI⟩
  | .SRAI => ⟨.ITYPE, .SRAI, .SRAI⟩
  | .ADD => ⟨.RTYPE, .ADD, .ADD⟩
  | .SUB => ⟨.RTYPE, .SUB, .SUB⟩
  | .SLL => ⟨.RTYPE, .SLL, .SLL⟩
  | .SLT => ⟨.RTYPE, .SLT, .SLT⟩
  | .XOR => ⟨.RTYPE, .XOR, .XOR⟩
  | .SRL => ⟨.RTYPE, .SRL, .SRL⟩
  | .SRA => ⟨.RTYPE, .SRA, .SRA⟩
  | .OR => ⟨.RTYPE, .OR, .OR⟩
  | .AND => ⟨.RTYPE, .AND, .AND⟩
  | .LB => ⟨.LOAD, .LB, .SLLI⟩
  | .LH => ⟨.LOAD, .LH, .SLLI⟩
  | .LW => ⟨.LOAD, .LW, .SLLI⟩
  | .SB => ⟨.STYPE, .SB, .SLLI⟩
  | .SH => ⟨.STYPE, .SH, .SLLI⟩
  | .SW => ⟨.STYPE, .SW, .SLLI⟩
  | .JAL => ⟨.JTYPE, .ADDI, .SLLI⟩
  | .JALR => ⟨.JALR, .JALR, .SLLI⟩
  | .BEQ => ⟨.BTYPE, .BEQ, .SLLI⟩
  | .BNE => ⟨.BTYPE, .BNE, .SLLI⟩
  | .BLT => ⟨.BTYPE, .BLT, .SLLI⟩
  | .BGE => ⟨.BTYPE, .BGE, .SLLI⟩
  | .HALT => ⟨.HALT, .ADDI, .SLLI⟩
  | .SX_SLT => ⟨.SX_SLT, .SLT, .SLT⟩
  | .SX_SLTI => ⟨.SX_SLTI, .SLTI, .SLLI⟩

example : strToMnemonic "s.addi".toList = some ⟨.ADDI, true⟩ := by decide

end SmolGpu.Sim
