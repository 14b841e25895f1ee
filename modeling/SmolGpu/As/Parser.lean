import SmolGpu.As.Lexer
import SmolGpu.Library.TokenParser

/-!
# The line parser

`src/sim/aslib/parser.hpp` and the class `Parser` of `parser.cpp`: the operands of each kind of
instruction, and the parser of a line's tokens. `EXPECT_OR_RETURN` and `CHECK_REG` return from the
parser when they fail, so a parser is a sequence of `TokenParser`s. `throw_unexpected_token`,
`throw_unexpected_eos`, and `push_err` record an error, and every use of them is followed by a
return without a value (`TokenParser.failWith`).
-/

namespace SmolGpu.As

open Sim

/-! ## Lines -/

/-- `ImmediateOrLabelref`. -/
inductive ImmediateOrLabelref
  | immediate (value : WordType)
  | labelRef (label_name : List Char)
  deriving DecidableEq, Repr

/-- `parser::ItypeOperands`, which loads have as well. -/
structure ItypeOperands where
  rd : Register
  rs1 : Register
  imm12 : WordType
  deriving DecidableEq, Repr

/-- `parser::RtypeOperands`. -/
structure RtypeOperands where
  rd : Register
  rs1 : Register
  rs2 : Register
  deriving DecidableEq, Repr

/-- `parser::StypeOperands`. -/
structure StypeOperands where
  rs1 : Register
  rs2 : Register
  imm12 : WordType
  deriving DecidableEq, Repr

/-- `parser::UtypeOperands`. -/
structure UtypeOperands where
  rd : Register
  imm20 : WordType
  deriving DecidableEq, Repr

/-- `parser::JtypeOperands`. -/
structure JtypeOperands where
  rd : Register
  imm20 : WordType
  deriving DecidableEq, Repr

/-- `parser::JalrOperands`. -/
structure JalrOperands where
  rd : Register
  rs1 : Register
  immediate_or_label_ref : ImmediateOrLabelref
  deriving DecidableEq, Repr

/-- `Operands`. -/
inductive Operands
  | itype (operands : ItypeOperands)
  | rtype (operands : RtypeOperands)
  | stype (operands : StypeOperands)
  | utype (operands : UtypeOperands)
  | jtype (operands : JtypeOperands)
  | jalr (operands : JalrOperands)
  deriving DecidableEq, Repr

/-- Value-initialised operands: the first kind, with all its members zero. -/
def Operands.default : Operands := .itype ⟨.zero, .zero, 0⟩

/-- `Instruction`. -/
structure Instruction where
  label : Option (List Char)
  mnemonic : Mnemonic
  operands : Operands
  deriving DecidableEq, Repr

/-- `Line`. -/
inductive Line
  | justLabel (label : List Char)
  | warpsDirective (number : IData)
  | blocksDirective (number : IData)
  | instruction (instruction : Instruction)
  deriving DecidableEq, Repr

section Kinds

variable (name : MnemonicName)

/-- `is_itype_arithmetic`. -/
def isItypeArithmetic : Bool :=
  name ∈ [.ADDI, .SLTI, .XORI, .ORI, .ANDI, .SLLI, .SRLI, .SRAI, MnemonicName.SX_SLTI]

/-- `is_rtype`. -/
def isRtype : Bool :=
  name ∈ [.ADD, .SUB, .SLL, .SLT, .XOR, .SRL, .SRA, .OR, .AND, MnemonicName.SX_SLT]

/-- `is_load_type`. -/
def isLoadType : Bool := name ∈ [.LB, .LH, MnemonicName.LW]

/-- `is_store_type`. -/
def isStoreType : Bool := name ∈ [.SB, .SH, MnemonicName.SW]

/-- `is_utype`. -/
def isUtype : Bool := name ∈ [.LUI, MnemonicName.AUIPC]

end Kinds

/-! ## The parser -/

/-- `Parser`, as a computation that takes tokens and records errors. -/
abbrev Parser (α : Type) := TokenParser Token Error α

namespace Parser

open TokenParser

/-- A type of token that `expect` asks for: its text, and what a token of the type carries. -/
structure TokenClass (α : Type) where
  text : String
  get? : TokenType → Option α

namespace TokenClass

/-- Registers. -/
def register : TokenClass Register where
  text := "register"
  get?
    | .register register_data => some register_data
    | _ => none

/-- Immediates. -/
def immediate : TokenClass WordType where
  text := "immediate"
  get?
    | .immediate value => some value
    | _ => none

/-- Commas. -/
def comma : TokenClass Unit where
  text := "','"
  get?
    | .comma => some ()
    | _ => none

/-- Opening parentheses. -/
def lparen : TokenClass Unit where
  text := "'('"
  get?
    | .lparen => some ()
    | _ => none

/-- Closing parentheses. -/
def rparen : TokenClass Unit where
  text := "')'"
  get?
    | .rparen => some ()
    | _ => none

/-- `token::LabelRef` or `token::Immediate`. -/
def labelRefOrImmediate : TokenClass ImmediateOrLabelref where
  text := "label_ref or immediate"
  get?
    | .labelRef label_name => some (.labelRef label_name)
    | .immediate value => some (.immediate value)
    | _ => none

end TokenClass

/-- The error of `throw_unexpected_token`. -/
def unexpectedToken (expected : String) (unexpected : Token) : Error :=
  ⟨"Unexpected token: Expected " ++ expected ++ ", instead found " ++ unexpected.toStr,
    unexpected.col, 0⟩

/-- The error of `throw_unexpected_eos`. -/
def unexpectedEos (expected : String) : Error :=
  ⟨"Unexpected end of stream: Expected " ++ expected, 0, 0⟩

/-- `expect`: what the next token carries, and its column. -/
def expect {α : Type} (c : TokenClass α) : Parser (α × IData) :=
  TokenParser.expect (fun token => (c.get? token.token_type).map fun a => (a, token.col))
    (unexpectedEos c.text) (unexpectedToken c.text)

/-- `CHECK_REG` with `check_register_correct_type`. -/
def checkReg (reg : Register × IData) (should_be_scalar : Bool) : Parser Unit :=
  if reg.1.isScalar = should_be_scalar then pure ()
  else
    failWith ⟨"Register '" ++ reg.1.toStr ++ "' should be " ++
      (if should_be_scalar then "scalar" else "vector"), reg.2, 0⟩

section Instructions

variable (mnemonic : Mnemonic)

/-- `parse_utype_instruction`. -/
def parseUtypeInstruction : Parser Instruction := do
  let rd ← expect .register
  let _ ← expect .comma
  let imm20 ← expect .immediate
  checkReg rd mnemonic.isScalar
  return ⟨none, mnemonic, .utype ⟨rd.1, imm20.1⟩⟩

/-- `parse_itype_arithmetic_instruction`. -/
def parseItypeArithmeticInstruction : Parser Instruction := do
  let rd ← expect .register
  let _ ← expect .comma
  let rs1 ← expect .register
  let _ ← expect .comma
  let imm12 ← expect .immediate
  checkReg rd (if mnemonic.name = .SX_SLTI then true else mnemonic.isScalar)
  checkReg rs1 (if mnemonic.name = .SX_SLTI then false else mnemonic.isScalar)
  return ⟨none, mnemonic, .itype ⟨rd.1, rs1.1, imm12.1⟩⟩

/-- `parse_rtype_instruction`. -/
def parseRtypeInstruction : Parser Instruction := do
  let rd ← expect .register
  let _ ← expect .comma
  let rs1 ← expect .register
  let _ ← expect .comma
  let rs2 ← expect .register
  checkReg rd (if mnemonic.name = .SX_SLT then true else mnemonic.isScalar)
  checkReg rs1 (if mnemonic.name = .SX_SLT then false else mnemonic.isScalar)
  checkReg rs2 (if mnemonic.name = .SX_SLT then false else mnemonic.isScalar)
  return ⟨none, mnemonic, .rtype ⟨rd.1, rs1.1, rs2.1⟩⟩

/-- `parse_load_instruction`. -/
def parseLoadInstruction : Parser Instruction := do
  let rd ← expect .register
  let _ ← expect .comma
  let offset ← expect .immediate
  let _ ← expect .lparen
  let rs1 ← expect .register
  let _ ← expect .rparen
  checkReg rd mnemonic.isScalar
  checkReg rs1 mnemonic.isScalar
  return ⟨none, mnemonic, .itype ⟨rd.1, rs1.1, offset.1⟩⟩

/-- `parse_store_instruction`. -/
def parseStoreInstruction : Parser Instruction := do
  let rs2 ← expect .register
  let _ ← expect .comma
  let offset ← expect .immediate
  let _ ← expect .lparen
  let rs1 ← expect .register
  let _ ← expect .rparen
  checkReg rs1 mnemonic.isScalar
  checkReg rs2 mnemonic.isScalar
  return ⟨none, mnemonic, .stype ⟨rs1.1, rs2.1, offset.1⟩⟩

/-- `parse_jal_instruction`, which checks no register. -/
def parseJalInstruction : Parser Instruction := do
  let rd ← expect .register
  let _ ← expect .comma
  let immediate ← expect .immediate
  return ⟨none, mnemonic, .jtype ⟨rd.1, immediate.1⟩⟩

/-- `parse_jalr_instruction`, which checks no register. -/
def parseJalrInstruction : Parser Instruction := do
  let rd ← expect .register
  let _ ← expect .comma
  let next ← expect .labelRefOrImmediate
  match next.1 with
  -- A jump to a label has no base register, and the source leaves it zero.
  | .labelRef label_name =>
    return ⟨none, mnemonic, .jalr ⟨rd.1, .zero, .labelRef label_name⟩⟩
  | .immediate value =>
    let _ ← expect .lparen
    let rs1 ← expect .register
    let _ ← expect .rparen
    return ⟨none, mnemonic, .jalr ⟨rd.1, rs1.1, .immediate value⟩⟩

/-- `parse_instruction`, behind the mnemonic, which is at `col`. -/
def parseInstruction (col : IData) : Parser Instruction :=
  if mnemonic.name = .HALT then pure ⟨none, mnemonic, .default⟩
  else if isItypeArithmetic mnemonic.name then parseItypeArithmeticInstruction mnemonic
  else if isRtype mnemonic.name then parseRtypeInstruction mnemonic
  else if isLoadType mnemonic.name then parseLoadInstruction mnemonic
  else if isStoreType mnemonic.name then parseStoreInstruction mnemonic
  else if isUtype mnemonic.name then parseUtypeInstruction mnemonic
  else if mnemonic.name = .JALR then parseJalrInstruction mnemonic
  else if mnemonic.name = .JAL then parseJalInstruction mnemonic
  else failWith ⟨"Unknown mnemonic: '" ++ mnemonic.toStr ++ "'", col, 0⟩

end Instructions

/-- `parse_directive`. -/
def parseDirective : Parser Line := do
  match ← chop with
  | none => fail
  | some token =>
    let number ← expect .immediate
    if number.1.toInt < 1 then
      failWith ⟨"Invalid number of " ++ token.toStr ++ ": '" ++ toString number.1.toInt ++ "'",
        number.2, 0⟩
    else
      match ← peek with
      | some next => failWith (unexpectedToken "End of line" next)
      | none =>
        if token.token_type = .blocksDirective then pure (.blocksDirective number.1)
        else pure (.warpsDirective number.1)

/-- The part of `parse_line` behind the label: an instruction up to the end of the line. `token` is
the next token. -/
def parseStatement (label : Option (List Char)) (token : Token) : Parser Line :=
  match token.token_type with
  | .mnemonic mnemonic => do
    let _ ← chop
    let instruction ← parseInstruction mnemonic token.col
    match ← peek with
    | none => return .instruction { instruction with label }
    -- The error shows the token that follows, at the column of the mnemonic.
    | some next =>
      failWith ⟨"Unexpected token: Expected end of line, instead found '" ++ next.toStr ++ "'",
        token.col, 0⟩
  | _ =>
    failWith ⟨"Unexpected token: Expected mnemonic or directive, instead found '" ++ token.toStr ++
      "'", token.col, 0⟩

/-- `Parser::parse_line`. -/
def parseLine : Parser Line := do
  match ← peek with
  | none => fail
  | some token =>
    match token.token_type with
    | .blocksDirective => parseDirective
    | .warpsDirective => parseDirective
    | .label label => do
      let _ ← chop
      match ← peek with
      | none => return .justLabel label
      | some token => parseStatement (some label) token
    | _ => parseStatement none token

end Parser

/-- `as::parse_line`: the line, or the errors that were recorded. -/
def parseLine (tokens : List Token) : Except (List Error) Line :=
  match (Parser.parseLine tokens).value with
  | none => .error (Parser.parseLine tokens).errors
  | some line => .ok line

example : (collectTokens "L: s.lw s5, 4(s6)".toList).map (fun r => parseLine r.1) =
    some (.ok (.instruction
      ⟨some ['L'], ⟨.LW, true⟩, .itype ⟨⟨5, .SCALAR⟩, ⟨6, .SCALAR⟩, 4⟩⟩)) := by
  decide +kernel

end SmolGpu.As
