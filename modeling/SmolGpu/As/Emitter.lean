import SmolGpu.As.Exactness
import SmolGpu.Library.Loop
import SmolGpu.Sim.RoundTrip

/-!
# Emitting machine code

`src/sim/aslib/emitter.cpp`: a word for each instruction of a program. The emitter builds the word
with the `create_*` function of the operands' kind and has no error channel of its own, so it ends
with a failed assertion or with the exception of `label_mappings.at`.

An instruction is emitted exactly if its operands fit their fields
(`translateInstruction_isOk_iff`), and a program exactly if all its instructions are
(`translateToBinary_isOk_iff`).
-/

namespace SmolGpu.As

open Sim Sim.Instructions

/-- The visitor of an instruction's operands in `translate_to_binary`. -/
def translateInstruction (program : Program) (instruction : Instruction) :
    Except Failure InstructionBits :=
  let d := nameToDeterminant instruction.mnemonic.name
  match instruction.operands with
  | .itype operands =>
    createItypeInstruction d.opcode d.funct3 operands.rd operands.rs1 operands.imm12
  | .rtype operands =>
    createRtypeInstruction d.opcode d.funct3 d.funct7 operands.rd operands.rs1 operands.rs2
  | .stype operands =>
    createStypeInstruction d.opcode d.funct3 operands.rs1 operands.rs2 operands.imm12
  | .utype operands => createUtypeInstruction d.opcode operands.rd operands.imm20
  | .jtype operands => createJtypeInstruction d.opcode operands.rd operands.imm20
  | .jalr operands =>
    match operands.immediate_or_label_ref with
    | .labelRef label_name =>
      match program.label_mappings.lookup label_name with
      | some index => jalr operands.rd .zero index
      | none => .error .outOfRange
    | .immediate value => jalr operands.rd operands.rs1 value

/-- `translate_to_binary`. -/
def translateToBinary (program : Program) : Except Failure (List InstructionBits) :=
  program.instructions.mapM (translateInstruction program)

/-! ## What is emitted -/

/-- The position of a label, if it is declared. -/
def Program.position (program : Program) (label_name : List Char) : Option IData :=
  program.label_mappings.lookup label_name

/-- The operands of an instruction fit their fields, where `position` has the positions of the
labels. -/
def Encodable (position : List Char → Option IData) (instruction : Instruction) : Prop :=
  match instruction.operands with
  | .itype operands =>
    operands.rd.validate = true ∧ operands.rs1.validate = true ∧ operands.imm12 < 4096
  | .rtype operands =>
    operands.rd.validate = true ∧ operands.rs1.validate = true ∧ operands.rs2.validate = true
  | .stype operands =>
    operands.rs1.validate = true ∧ operands.rs2.validate = true ∧ operands.imm12 < 4096
  | .utype operands => operands.rd.validate = true ∧ operands.imm20 < 1048576
  | .jtype operands => operands.rd.validate = true ∧ operands.imm20 < 2097152
  | .jalr operands =>
    match operands.immediate_or_label_ref with
    | .labelRef label_name => operands.rd.validate = true ∧
        ∃ index, position label_name = some index ∧ index < 4096
    | .immediate value =>
      operands.rd.validate = true ∧ operands.rs1.validate = true ∧ value < 4096

/-- A builder that returns one word under a condition returns a word exactly under it. -/
theorem exists_eq_ok {built : Except Failure InstructionBits} {fits : Prop} {v : InstructionBits}
    (h : ∀ w, built = .ok w ↔ fits ∧ w = v) : (∃ w, built = .ok w) ↔ fits := by
  constructor
  · rintro ⟨w, hw⟩
    exact ((h w).mp hw).1
  · intro hfits
    exact ⟨v, (h v).mpr ⟨hfits, rfl⟩⟩

/-- An instruction is emitted exactly if its operands fit. -/
theorem translateInstruction_isOk_iff (program : Program) (instruction : Instruction) :
    (∃ w, translateInstruction program instruction = .ok w) ↔
      Encodable program.position instruction := by
  unfold translateInstruction Encodable Program.position
  cases instruction.operands with
  | itype operands => exact exists_eq_ok fun _ => createItypeInstruction_eq_ok
  | rtype operands => exact exists_eq_ok fun _ => createRtypeInstruction_eq_ok
  | stype operands => exact exists_eq_ok fun _ => createStypeInstruction_eq_ok
  | utype operands => exact exists_eq_ok fun _ => createUtypeInstruction_eq_ok
  | jtype operands => exact exists_eq_ok fun _ => createJtypeInstruction_eq_ok
  | jalr operands =>
    simp only
    cases operands.immediate_or_label_ref with
    | immediate value => exact exists_eq_ok fun _ => createItypeInstruction_eq_ok
    | labelRef label_name =>
      simp only
      cases program.label_mappings.lookup label_name with
      | none => simp
      | some index =>
        -- The first source register is `x0`.
        have hzero : Register.zero.validate = true := by decide
        have hjalr : (∃ w, jalr operands.rd .zero index = .ok w) ↔
            operands.rd.validate = true ∧ Register.zero.validate = true ∧ index < 4096 :=
          exists_eq_ok fun _ => createItypeInstruction_eq_ok
        simp only
        rw [hjalr]
        simp [hzero]

/-- A program is emitted exactly if all its instructions are. -/
theorem translateToBinary_isOk_iff (program : Program) :
    (∃ words, translateToBinary program = .ok words) ↔
      ∀ instruction ∈ program.instructions, Encodable program.position instruction := by
  unfold translateToBinary
  rw [Loop.exists_mapM_eq_ok]
  simp only [translateInstruction_isOk_iff]

/-- A program is emitted as one word for each instruction, in order. -/
theorem translateToBinary_getElem? {program : Program} {words : List InstructionBits}
    (h : translateToBinary program = .ok words) {k : ℕ} {i : Instruction}
    (hi : program.instructions[k]? = some i) :
    ∃ w, words[k]? = some w ∧ translateInstruction program i = .ok w := by
  have hall := Loop.mapM_eq_ok.mp h
  obtain ⟨hk, rfl⟩ := List.getElem?_eq_some_iff.mp hi
  have hk' : k < words.length := hall.length_eq ▸ hk
  exact ⟨words[k], List.getElem?_eq_getElem hk', hall.get hk hk'⟩

end SmolGpu.As
