import SmolGpu.As.Parser

/-!
# Parsing a program

`parse_program` of `src/sim/aslib/parser.cpp`: the loop over the lines of a source file, with the
instructions, labels, and errors that it accumulates. The loop stays in a line on which lexing does
not end, so `parseProgram` returns nothing for a program with such a line.

A `std::unordered_map` from labels is a list of pairs that is only extended by labels it lacks.
-/

namespace SmolGpu.As

open Sim

/-- `Program`. -/
structure Program where
  blocks : IData
  warps : IData
  instructions : List Instruction
  label_mappings : List (List Char × IData)
  deriving DecidableEq, Repr

/-- The local variables of `parse_program`. -/
structure ProgramState where
  instructions : List Instruction
  label_mappings : List (List Char × IData)
  errors : List Error
  block_count : Option IData
  warp_count : Option IData
  line_nr : IData
  instr_count : IData
  deriving DecidableEq, Repr

/-- `Error::with_line`. -/
def withLine (line : IData) (error : Error) : Error := { error with line }

namespace ProgramState

/-- The local variables before the first line. -/
def init : ProgramState := ⟨[], [], [], none, none, 0, 0⟩

variable (s : ProgramState)

/-- `errors.push_back` for each error, with the line's number. -/
def pushErrors (errors : List Error) : ProgramState :=
  { s with errors := s.errors ++ errors.map (withLine s.line_nr) }

/-- The lambda `add_label`. -/
def addLabel (label_name : List Char) : ProgramState :=
  match s.label_mappings.lookup label_name with
  | some _ =>
    s.pushErrors [errorOf ("Duplicate label declaration on line " ++ toString s.line_nr.toNat)]
  | none => { s with label_mappings := (label_name, s.instr_count) :: s.label_mappings }

/-- The visitor of a parsed line. -/
def addLine : Line → ProgramState
  | .justLabel label => s.addLabel label
  | .instruction instr =>
    let s := { s with instructions := s.instructions ++ [instr] }
    let s :=
      match instr.label with
      | some label => s.addLabel label
      | none => s
    { s with instr_count := s.instr_count + 1 }
  | .blocksDirective number =>
    let s := if s.block_count.isSome then s.pushErrors [errorOf "Duplicate blocks directive"] else s
    { s with block_count := some number }
  | .warpsDirective number =>
    let s := if s.warp_count.isSome then s.pushErrors [errorOf "Duplicate warps directive"] else s
    { s with warp_count := some number }

/-- The part of the loop's body behind the tokenization. -/
def addTokens (tokens : List Token) : ProgramState :=
  if tokens = [] then s
  else
    match parseLine tokens with
    | .error errors => s.pushErrors errors
    | .ok val => s.addLine val

/-- The body of the loop over the lines, if lexing the line ends. -/
def step (line : List Char) : Option ProgramState :=
  (collectTokens line).map fun lexed =>
    (({ s with line_nr := s.line_nr + 1 } : ProgramState).pushErrors lexed.2).addTokens lexed.1

/-- What `parse_program` returns behind the loop. -/
def result : Except (List Error) Program :=
  if s.errors = [] then
    .ok ⟨s.block_count.getD 1, s.warp_count.getD 1, s.instructions, s.label_mappings⟩
  else .error s.errors

end ProgramState

/-- `parse_program`. -/
def parseProgram (lines : List (List Char)) : Option (Except (List Error) Program) :=
  (lines.foldlM ProgramState.step ProgramState.init).map ProgramState.result

example : parseProgram ["L: halt".toList, "jalr x1, L".toList] = some (.ok ⟨1, 1,
    [⟨some ['L'], ⟨.HALT, false⟩, .default⟩,
      ⟨none, ⟨.JALR, false⟩, .jalr ⟨⟨1, .VECTOR⟩, .zero, .labelRef ['L']⟩⟩], [(['L'], 0)]⟩) := by
  decide +kernel

end SmolGpu.As
