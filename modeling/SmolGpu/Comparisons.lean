import SmolGpu.Alu
import SmolGpu.Library.TwosComplement
import SmolGpu.Sim.ScalarForms

/-!
# Comparisons

The instructions that compare two numbers, from the word to the result of the ALU. The instruction
set has no unsigned arithmetic, so these numbers are signed. But `data_t` is an unsigned type, and
so the ALU compares unsigned numbers. Its result is right exactly if the two operands have the same
sign (`comparisons_signed_iff`).
-/

namespace SmolGpu

/-- The instructions that compare two numbers. -/
inductive Comparison
  | slt | slti | sxSlt | sxSlti | blt | bge
  deriving DecidableEq, Repr

namespace Comparison

/-- The words of a comparison, for `slt` and `slti` in both the vector and the scalar form. -/
def IsWord (w : InstructionT) : Comparison → Prop
  | .slt => inst w = OPCODE_R ∧ funct3 w = 0b010#3
  | .slti => inst w = OPCODE_I ∧ funct3 w = 0b010#3
  | .sxSlt => opcode w = OPCODE_SX_SLT
  | .sxSlti => opcode w = OPCODE_SX_SLTI
  | .blt => opcode w = OPCODE_B ∧ funct3 w = 0b100#3
  | .bge => opcode w = OPCODE_B ∧ funct3 w = 0b101#3

/-- What the first operand is compared to: the second source register, or the immediate of the word,
extended by its sign. -/
def operand2 (w : InstructionT) (rs2 : DataT) : Comparison → DataT
  | .slti | .sxSlti => (immI w).signExtend 32
  | .slt | .sxSlt | .blt | .bge => rs2

/-- What a comparison asks of an order. -/
def Asks (less : Prop) : Comparison → Prop
  | .slt | .slti | .sxSlt | .sxSlti | .blt => less
  | .bge => ¬less

variable {c : Comparison} {w : InstructionT}

/-- The ALU operation of a comparison. -/
def operation : Comparison → AluInstruction
  | .slt | .sxSlt => .SLT
  | .slti | .sxSlti => .SLTI
  | .blt => .BLT
  | .bge => .BGE

/-- A branch is decoded to the operation that its `funct3` selects. -/
theorem decode_branch (hop : opcode w = OPCODE_B) {operation : AluInstruction}
    (hsel : ∀ d, decodeBranch (funct3 w) d = { d with decoded_alu_instruction := operation }) :
    (decode w).decoded_alu_instruction = operation := by
  unfold decode
  simp only [hop]
  rw [if_neg (by decide), if_neg (by decide), if_neg (by decide), if_pos trivial, hsel]

/-- The words of a comparison are decoded to its operation. -/
theorem IsWord.decode_operation (hw : c.IsWord w) :
    (decode w).decoded_alu_instruction = c.operation := by
  cases c with
  | slt =>
    -- The six-bit opcode and `funct3` select the operation.
    obtain ⟨hinst, hf3⟩ := hw
    -- The opcode alone does.
    show (decode w).decoded_alu_instruction = .SLT
    rw [decode_of_class (by rw [hinst]; decide) (by rw [hinst]; decide)]
    unfold decodeInst
    rw [if_pos hinst, hf3]
    rfl
  | slti =>
    obtain ⟨hinst, hf3⟩ := hw
    show (decode w).decoded_alu_instruction = .SLTI
    rw [decode_of_class (by rw [hinst]; decide) (by rw [hinst]; decide)]
    unfold decodeInst
    rw [hinst, if_neg (by decide), if_pos rfl, hf3]
    rfl
  | sxSlt =>
    show (decode w).decoded_alu_instruction = .SLT
    rw [decode_sx_slt hw]
  | sxSlti =>
    show (decode w).decoded_alu_instruction = .SLTI
    rw [decode_sx_slti hw]
  | blt =>
    -- The seven-bit opcode and `funct3` do.
    obtain ⟨hop, hf3⟩ := hw
    apply decode_branch hop
    rw [hf3]
    exact fun _ => rfl
  | bge =>
    obtain ⟨hop, hf3⟩ := hw
    apply decode_branch hop
    rw [hf3]
    exact fun _ => rfl

/-- The immediate of a comparison with one is extended by its sign. -/
theorem IsWord.immediate (hw : c.IsWord w) (hc : c = .slti ∨ c = .sxSlti) :
    (decode w).decoded_immediate = (immI w).signExtend 32 := by
  rw [← signExtend_eq]
  rcases hc with rfl | rfl
  · obtain ⟨hinst, hf3⟩ := hw
    rw [decode_of_class (by rw [hinst]; decide) (by rw [hinst]; decide)]
    unfold decodeInst
    rw [hinst, if_neg (by decide), if_pos rfl, decodeI_eq]
  · rw [decode_sx_slti hw]

/-- The ALU compares unsigned numbers. -/
theorem IsWord.aluResult_eq_one (hw : c.IsWord w) (pc rs1 rs2 : DataT) :
    aluResult (decode w).decoded_alu_instruction pc (decode w).decoded_immediate rs1 rs2 = 1 ↔
      c.Asks (rs1 < c.operand2 w rs2) := by
  have hite : ∀ p : Prop, [Decidable p] → ((if p then 1 else 0 : DataT) = 1 ↔ p) := by
    intro p _
    by_cases hp : p <;> simp [hp]
  rw [hw.decode_operation]
  cases c with
  | slti | sxSlti =>
    rw [hw.immediate (by simp)]
    exact hite _
  | slt | sxSlt | blt => exact hite _
  | bge => exact (hite _).trans BitVec.not_lt.symm

/-- A comparison says of two orders that they agree. -/
theorem asks_iff_asks {p q : Prop} : (c.Asks p ↔ c.Asks q) ↔ (p ↔ q) := by
  cases c <;> simp [Asks, not_iff_not]

end Comparison

/-- The ALU yields 1 for a comparison exactly if the signed numbers compare as the instruction asks,
if and only if the operands have the same sign. -/
theorem comparisons_signed_iff {c : Comparison} {w : InstructionT} (hw : c.IsWord w)
    (pc rs1 rs2 : DataT) :
    (aluResult (decode w).decoded_alu_instruction pc (decode w).decoded_immediate rs1 rs2 = 1 ↔
        c.Asks (rs1.toInt < (c.operand2 w rs2).toInt)) ↔
      rs1.msb = (c.operand2 w rs2).msb := by
  rw [hw.aluResult_eq_one, Comparison.asks_iff_asks]
  exact TwosComplement.lt_iff_toInt_lt_iff

/-- `slti x5, x6, -1` on 7: the operands have different signs. -/
theorem comparisons_signed_iff_slti :
    (aluResult (decode 0xFFF32293#32).decoded_alu_instruction 0
        (decode 0xFFF32293#32).decoded_immediate 7 0 = 1 ↔
      Comparison.Asks ((7#32).toInt < (Comparison.operand2 0xFFF32293#32 0 .slti).toInt) .slti) ↔
      (7#32).msb = (Comparison.operand2 0xFFF32293#32 0 .slti).msb :=
  comparisons_signed_iff (c := .slti) ⟨by decide, by decide⟩ 0 7 0

/-- `slt x5, x6, x7` says that -1 is not less than 0. -/
theorem comparison_unsigned :
    ¬∀ (c : Comparison) (w : InstructionT) (pc rs1 rs2 : DataT), c.IsWord w →
      (aluResult (decode w).decoded_alu_instruction pc (decode w).decoded_immediate rs1 rs2 = 1 ↔
        c.Asks (rs1.toInt < (c.operand2 w rs2).toInt)) := by
  intro h
  have hslt := h .slt 0x007322B3#32 0 (-1) 0 ⟨by decide, by decide⟩
  have hless : (-1 : DataT).toInt < (0 : DataT).toInt := by decide
  exact absurd (hslt.mpr hless) (by decide)

end SmolGpu
