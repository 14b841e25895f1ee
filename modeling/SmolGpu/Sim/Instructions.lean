import Mathlib.Data.BitVec

/-!
# The instruction builders

`src/sim/simlib/instructions.hpp`: the registers and the opcode, `funct3`, and `funct7` fields of an
instruction word, the setters of `InstructionBits`, which OR a field into the word, and the
constructors of `sim::instructions`, one for each instruction. A setter asserts that its value fits
the field, and the simulator is built with assertions: a failed one prints its error and aborts.
-/

namespace SmolGpu.Sim

/-- `IData`, `std::uint32_t`. -/
abbrev IData := BitVec 32

/-- `sim::Error`: a message and the place in the source that it is about. -/
structure Error where
  message : String
  column : IData
  line : IData
  deriving DecidableEq, Repr

/-- How a call of the simulator's C++ code ends when it does not return: an assertion of `error`
fails, or a container's `at` throws `std::out_of_range`. -/
inductive Failure
  | assertion (error : Error)
  | outOfRange
  deriving DecidableEq, Repr

/-- `assert_or_err`. -/
def assertOrErr (condition : Bool) (message : String) : Except Failure Unit :=
  if condition then .ok () else .error (.assertion ⟨message, 0, 0⟩)

section Fields

/-- `sim::Opcode`. The seven-bit ones are scalar only. -/
inductive Opcode
  | LUI | AUIPC | ITYPE | RTYPE | LOAD | STYPE
  | JTYPE | JALR | BTYPE
  | HALT | SX_SLT | SX_SLTI
  deriving DecidableEq, Repr

/-- The value of an opcode. -/
def Opcode.bits : Opcode → IData
  | .LUI => 0b110111
  | .AUIPC => 0b010111
  | .ITYPE => 0b010011
  | .RTYPE => 0b110011
  | .LOAD => 0b000011
  | .STYPE => 0b100011
  | .JTYPE => 0b1101111
  | .JALR => 0b1100111
  | .BTYPE => 0b1100011
  | .HALT => 0b1111111
  | .SX_SLT => 0b1111110
  | .SX_SLTI => 0b1111101

/-- `opcodes`. -/
def opcodes : List Opcode :=
  [.LUI, .AUIPC, .ITYPE, .RTYPE, .LOAD, .STYPE, .JTYPE, .JALR, .BTYPE, .HALT, .SX_SLT, .SX_SLTI]

/-- `sim::Funct3`, with the enumerators of the I-type operations, which cover every value that the
enumeration has. -/
inductive Funct3
  | ADDI | SLLI | SLTI | XORI | SRLI | ORI | ANDI
  deriving DecidableEq, Repr

namespace Funct3

/-- The value of a `funct3`. -/
def bits : Funct3 → IData
  | .ADDI => 0b000
  | .SLLI => 0b001
  | .SLTI => 0b010
  | .XORI => 0b100
  | .SRLI => 0b101
  | .ORI => 0b110
  | .ANDI => 0b111

/-! The other enumerators of the values. -/

/-- `funct3::SRAI`, the value of `SRLI`. -/
abbrev SRAI : Funct3 := .SRLI

/-- `funct3::ADD`, the value of `ADDI`. -/
abbrev ADD : Funct3 := .ADDI

/-- `funct3::SUB`, the value of `ADDI`. -/
abbrev SUB : Funct3 := .ADDI

/-- `funct3::SLL`, the value of `SLLI`. -/
abbrev SLL : Funct3 := .SLLI

/-- `funct3::SLT`, the value of `SLTI`. -/
abbrev SLT : Funct3 := .SLTI

/-- `funct3::XOR`, the value of `XORI`. -/
abbrev XOR : Funct3 := .XORI

/-- `funct3::SRL`, the value of `SRLI`. -/
abbrev SRL : Funct3 := .SRLI

/-- `funct3::SRA`, the value of `SRLI`. -/
abbrev SRA : Funct3 := .SRLI

/-- `funct3::OR`, the value of `ORI`. -/
abbrev OR : Funct3 := .ORI

/-- `funct3::AND`, the value of `ANDI`. -/
abbrev AND : Funct3 := .ANDI

/-- `funct3::LB`, the value of `ADDI`. -/
abbrev LB : Funct3 := .ADDI

/-- `funct3::LH`, the value of `SLLI`. -/
abbrev LH : Funct3 := .SLLI

/-- `funct3::LW`, the value of `SLTI`. -/
abbrev LW : Funct3 := .SLTI

/-- `funct3::SB`, the value of `ADDI`. -/
abbrev SB : Funct3 := .ADDI

/-- `funct3::SH`, the value of `SLLI`. -/
abbrev SH : Funct3 := .SLLI

/-- `funct3::SW`, the value of `SLTI`. -/
abbrev SW : Funct3 := .SLTI

/-- `funct3::JALR`, the value of `ADDI`. -/
abbrev JALR : Funct3 := .ADDI

/-- `funct3::BEQ`, the value of `ADDI`. -/
abbrev BEQ : Funct3 := .ADDI

/-- `funct3::BNE`, the value of `SLLI`. -/
abbrev BNE : Funct3 := .SLLI

/-- `funct3::BLT`, the value of `XORI`. -/
abbrev BLT : Funct3 := .XORI

/-- `funct3::BGE`, the value of `SRLI`. -/
abbrev BGE : Funct3 := .SRLI

end Funct3

/-- `funct3s`, a value once. -/
def funct3s : List Funct3 := [.ADDI, .SLTI, .XORI, .ORI, .ANDI, .SLLI, .SRLI]

/-- `sim::Funct7`, with the enumerators of two I-type operations for its two values. -/
inductive Funct7
  | SLLI | SRAI
  deriving DecidableEq, Repr

namespace Funct7

/-- The value of a `funct7`. -/
def bits : Funct7 → IData
  | .SLLI => 0b0000000
  | .SRAI => 0b0100000

/-! The other enumerators of the values. -/

/-- `funct7::SRLI`, the value of `SLLI`. -/
abbrev SRLI : Funct7 := .SLLI

/-- `funct7::ADD`, the value of `SLLI`. -/
abbrev ADD : Funct7 := .SLLI

/-- `funct7::SUB`, the value of `SRAI`. -/
abbrev SUB : Funct7 := .SRAI

/-- `funct7::SLL`, the value of `SLLI`. -/
abbrev SLL : Funct7 := .SLLI

/-- `funct7::SLT`, the value of `SLLI`. -/
abbrev SLT : Funct7 := .SLLI

/-- `funct7::XOR`, the value of `SLLI`. -/
abbrev XOR : Funct7 := .SLLI

/-- `funct7::SRL`, the value of `SLLI`. -/
abbrev SRL : Funct7 := .SLLI

/-- `funct7::SRA`, the value of `SRAI`. -/
abbrev SRA : Funct7 := .SRAI

/-- `funct7::OR`, the value of `SLLI`. -/
abbrev OR : Funct7 := .SLLI

/-- `funct7::AND`, the value of `SLLI`. -/
abbrev AND : Funct7 := .SLLI

end Funct7

/-- `funct7s`, a value once. -/
def funct7s : List Funct7 := [.SLLI, .SRAI]

/-- `sim::RegisterType`. -/
inductive RegisterType
  | VECTOR | SCALAR
  deriving DecidableEq, Repr

/-- `sim::Register`. -/
structure Register where
  register_number : IData
  type : RegisterType
  deriving DecidableEq, Repr

namespace Register

/-- `0_x`, which is also the value-initialised register. -/
def zero : Register := ⟨0, .VECTOR⟩

variable (reg : Register)

/-- The value of a register in a word: its number. -/
def bits : IData := reg.register_number

/-- `is_scalar`. -/
def isScalar : Bool := reg.type = .SCALAR

/-- `to_str`: `x` or `s` and the number. -/
def toStr : String :=
  match reg.type with
  | .VECTOR => "x" ++ toString reg.register_number.toNat
  | .SCALAR => "s" ++ toString reg.register_number.toNat

/-- `validate`: the number is one of the 32. -/
def validate : Bool := reg.register_number < 32

end Register

/-- `std::bitset<7>(id).to_string()`. -/
def bitString (id : IData) : String :=
  String.ofList ((List.range 7).reverse.map fun i => if id.getLsbD i then '1' else '0')

end Fields

/-- `validate_register`. -/
def validateRegister (reg : Register) : Except Failure Unit :=
  assertOrErr reg.validate ("Invalid register: '" ++ reg.toStr ++ "'.")

/-- `validate_instr_id`; `bits` is the value of `id`. -/
def validateInstrId {α : Type} [DecidableEq α] (id_name : String) (bits : IData) (id : α)
    (possible_ids : List α) : Except Failure Unit :=
  assertOrErr (possible_ids.contains id) ("Unknown " ++ id_name ++ ": '0b" ++ bitString bits ++ "'")

/-- The word of an `InstructionBits`. -/
abbrev InstructionBits := IData

section Setters

variable (bits : InstructionBits)

/-- `set_opcode`, bits 0 to 6. -/
def setOpcode (opcode : Opcode) : Except Failure InstructionBits := do
  validateInstrId "opcode" opcode.bits opcode opcodes
  return bits ||| opcode.bits

/-- `set_rd`, bits 7 to 11. -/
def setRd (rd : Register) : Except Failure InstructionBits := do
  validateRegister rd
  return bits ||| rd.bits <<< 7

/-- `set_funct3`, bits 12 to 14. -/
def setFunct3 (funct3 : Funct3) : Except Failure InstructionBits := do
  validateInstrId "funct3" funct3.bits funct3 funct3s
  return bits ||| funct3.bits <<< 12

/-- `set_rs1`, bits 15 to 19. -/
def setRs1 (rs1 : Register) : Except Failure InstructionBits := do
  validateRegister rs1
  return bits ||| rs1.bits <<< 15

/-- `set_rs2`, bits 20 to 24. -/
def setRs2 (rs2 : Register) : Except Failure InstructionBits := do
  validateRegister rs2
  return bits ||| rs2.bits <<< 20

/-- The message of an immediate that does not fit its field. -/
def invalidImmediate (imm : IData) (width : String) : String :=
  "Invalid immediate: '" ++ toString imm.toNat ++ "', expected " ++ width ++ "."

/-- `set_imm12`, bits 20 to 31. -/
def setImm12 (imm : IData) : Except Failure InstructionBits := do
  assertOrErr (imm < 4096) (invalidImmediate imm "12-bit")
  return bits ||| imm <<< 20

/-- `set_funct7`, bits 25 to 31. -/
def setFunct7 (funct7 : Funct7) : Except Failure InstructionBits := do
  validateInstrId "funct7" funct7.bits funct7 funct7s
  return bits ||| funct7.bits <<< 25

/-- `set_imm20`, bits 12 to 31. -/
def setImm20 (imm20 : IData) : Except Failure InstructionBits := do
  assertOrErr (imm20 < 1048576) (invalidImmediate imm20 "20-bit")
  return bits ||| imm20 <<< 12

/-- `imm_j` of `set_imm21`: bit 20 of the immediate at 31, bits 10 to 1 at 30 to 21, bit 11 at 20,
and bits 19 to 12 at their own positions. -/
def immJBits (imm : IData) : IData :=
  imm.extractLsb' 20 1 ++ imm.extractLsb' 1 10 ++ imm.extractLsb' 11 1 ++ imm.extractLsb' 12 8 ++
    0#12

/-- `set_imm21`: the bits of the offset in the order of a jump. -/
def setImm21 (imm21 : IData) : Except Failure InstructionBits := do
  assertOrErr (imm21 < 2097152) (invalidImmediate imm21 "21-bit")
  return bits ||| immJBits imm21

/-- `make_scalar`: sets bit 6. -/
def makeScalar : InstructionBits := bits ||| 1#32 <<< 6

end Setters

namespace Instructions

section Formats

variable (opcode : Opcode) (funct3 : Funct3) (funct7 : Funct7) (rd rs1 rs2 : Register)

/-- `create_utype_instruction`. -/
def createUtypeInstruction (imm20 : IData) : Except Failure InstructionBits := do
  setImm20 (← setRd (← setOpcode 0 opcode) rd) imm20

/-- `create_itype_instruction`. -/
def createItypeInstruction (imm12 : IData) : Except Failure InstructionBits := do
  setImm12 (← setRs1 (← setRd (← setFunct3 (← setOpcode 0 opcode) funct3) rd) rs1) imm12

/-- `create_itype_shift_instruction`, which sets `funct7` as well and asserts a five-bit
immediate. -/
def createItypeShiftInstruction (imm12 : IData) : Except Failure InstructionBits := do
  assertOrErr (imm12 < 32) (invalidImmediate imm12 "5-bit immediate in shift instruction")
  setImm12
    (← setRs1 (← setRd (← setFunct7 (← setFunct3 (← setOpcode 0 opcode) funct3) funct7) rd) rs1)
    imm12

/-- `create_rtype_instruction`. -/
def createRtypeInstruction : Except Failure InstructionBits := do
  setRs2
    (← setRs1 (← setRd (← setFunct7 (← setFunct3 (← setOpcode 0 opcode) funct3) funct7) rd) rs1)
    rs2

/-- `create_jtype_instruction`. -/
def createJtypeInstruction (imm21 : IData) : Except Failure InstructionBits := do
  setImm21 (← setRd (← setOpcode 0 opcode) rd) imm21

/-- `create_stype_instruction`. -/
def createStypeInstruction (imm12 : IData) : Except Failure InstructionBits := do
  setImm12 (← setRs2 (← setRs1 (← setFunct3 (← setOpcode 0 opcode) funct3) rs1) rs2) imm12

end Formats

section Constructors

variable (rd rs1 rs2 : Register) (imm : IData)

/-- `lui`, U-type. -/
def lui := createUtypeInstruction .LUI rd imm

/-- `auipc`, U-type. -/
def auipc := createUtypeInstruction .AUIPC rd imm

/-- `addi`, I-type. -/
def addi := createItypeInstruction .ITYPE .ADDI rd rs1 imm

/-- `slti`, I-type. -/
def slti := createItypeInstruction .ITYPE .SLTI rd rs1 imm

/-- `xori`, I-type. -/
def xori := createItypeInstruction .ITYPE .XORI rd rs1 imm

/-- `ori`, I-type. -/
def ori := createItypeInstruction .ITYPE .ORI rd rs1 imm

/-- `andi`, I-type. -/
def andi := createItypeInstruction .ITYPE .ANDI rd rs1 imm

/-- `slli`, an I-type shift. -/
def slli := createItypeShiftInstruction .ITYPE .SLLI .SLLI rd rs1 imm

/-- `srli`, an I-type shift. -/
def srli := createItypeShiftInstruction .ITYPE .SRLI .SRLI rd rs1 imm

/-- `srai`, an I-type shift. -/
def srai := createItypeShiftInstruction .ITYPE .SRAI .SRAI rd rs1 imm

/-- `add`, R-type. -/
def add := createRtypeInstruction .RTYPE .ADD .ADD rd rs1 rs2

/-- `sub`, R-type. -/
def sub := createRtypeInstruction .RTYPE .SUB .SUB rd rs1 rs2

/-- `sll`, R-type. -/
def sll := createRtypeInstruction .RTYPE .SLL .SLL rd rs1 rs2

/-- `slt`, R-type. -/
def slt := createRtypeInstruction .RTYPE .SLT .SLT rd rs1 rs2

/-- `xor_`, R-type. -/
def xor_ := createRtypeInstruction .RTYPE .XOR .XOR rd rs1 rs2

/-- `srl`, R-type. -/
def srl := createRtypeInstruction .RTYPE .SRL .SRL rd rs1 rs2

/-- `sra`, R-type. -/
def sra := createRtypeInstruction .RTYPE .SRA .SRA rd rs1 rs2

/-- `or_`, R-type. -/
def or_ := createRtypeInstruction .RTYPE .OR .OR rd rs1 rs2

/-- `and_`, R-type. -/
def and_ := createRtypeInstruction .RTYPE .AND .AND rd rs1 rs2

/-- `lb`, a load. -/
def lb := createItypeInstruction .LOAD .LB rd rs1 imm

/-- `lh`, a load. -/
def lh := createItypeInstruction .LOAD .LH rd rs1 imm

/-- `lw`, a load. -/
def lw := createItypeInstruction .LOAD .LW rd rs1 imm

/-- `sb`, S-type. -/
def sb := createStypeInstruction .STYPE .SB rs1 rs2 imm

/-- `sh`, S-type. -/
def sh := createStypeInstruction .STYPE .SH rs1 rs2 imm

/-- `sw`, S-type. -/
def sw := createStypeInstruction .STYPE .SW rs1 rs2 imm

/-- `jal`, J-type. -/
def jal := createJtypeInstruction .JTYPE rd imm

/-- `jalr`, in the format of the I-type. -/
def jalr := createItypeInstruction .JALR .JALR rd rs1 imm

/-- `halt`, which is its opcode alone. -/
def halt : Except Failure InstructionBits := setOpcode 0 .HALT

/-- `sx_slt`. -/
def sxSlt := createRtypeInstruction .SX_SLT .SLT .SLT rd rs1 rs2

/-- `sx_slti`. -/
def sxSlti := createItypeInstruction .SX_SLTI .SLTI rd rs1 imm

end Constructors

end Instructions

end SmolGpu.Sim
