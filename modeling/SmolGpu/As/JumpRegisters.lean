import SmolGpu.As.Lines

/-!
# The registers of jumps

`parse_jal_instruction` and `parse_jalr_instruction` have no `CHECK_REG`, while every other format
checks the register file of each of its registers. So a jump is accepted with a vector register,
though `is_scalar` holds of its mnemonic. `jump_registers_scalar_iff` says for which tokens the
parser does what the other formats do.
-/

namespace SmolGpu.As

open Sim

/-! ## Registers of an instruction -/

/-- The register that an instruction writes. -/
def Operands.destination : Operands → Option Register
  | .itype operands => some operands.rd
  | .rtype operands => some operands.rd
  | .stype _ => none
  | .utype operands => some operands.rd
  | .jtype operands => some operands.rd
  | .jalr operands => some operands.rd

/-- The registers that an instruction reads. -/
def Operands.sources : Operands → List Register
  | .itype operands => [operands.rs1]
  | .rtype operands => [operands.rs1, operands.rs2]
  | .stype operands => [operands.rs1, operands.rs2]
  | .utype _ => []
  | .jtype _ => []
  | .jalr operands => [operands.rs1]

/-- The operands of a jump. -/
inductive JumpOperands : MnemonicName → List TokenType → Prop
  | jal (rd : Register) (immediate : WordType) :
      JumpOperands .JAL [.register rd, .comma, .immediate immediate]
  | jalrLabel (rd : Register) (label_name : List Char) :
      JumpOperands .JALR [.register rd, .comma, .labelRef label_name]
  | jalr (rd rs1 : Register) (value : WordType) :
      JumpOperands .JALR
        [.register rd, .comma, .immediate value, .lparen, .register rs1, .rparen]

/-- The tokens of a line with a jump: a label or none, the mnemonic, and the operands. -/
def JumpLine (types : List TokenType) : Prop :=
  ∃ (label : Option (List Char)) (m : Mnemonic) (operands : List TokenType),
    types = (label.map TokenType.label).toList ++ .mnemonic m :: operands ∧
      JumpOperands m.name operands

/-- Among the tokens there is a vector register whose number is not 0. -/
def NamesVector (types : List TokenType) : Prop :=
  ∃ reg, .register reg ∈ types ∧ reg.register_number ≠ 0 ∧ reg.isScalar = false

/-- The parser treats the registers of a jump like those of other instructions. A jump that is
accepted has scalar registers only, but for those with the number 0, and one with a vector register
is rejected with an error; the other instructions that are accepted have scalar registers where
their mnemonic asks for them. -/
structure JumpRegistersScalar (tokens : List Token) : Prop where
  /-- The registers of an accepted jump are scalar, or have the number 0. -/
  accepted : ∀ i, parseLine tokens = .ok (.instruction i) → i.mnemonic.isJump = true →
    ∀ reg ∈ i.operands.destination.toList ++ i.operands.sources,
      reg.register_number ≠ 0 → reg.isScalar = true
  /-- A jump that names a vector register is rejected. -/
  rejected : JumpLine (tokens.map Token.token_type) → NamesVector (tokens.map Token.token_type) →
    ∃ errors, parseLine tokens = .error errors ∧ errors ≠ []
  /-- Every other instruction has its registers in the files that its mnemonic asks for. -/
  others : ∀ i, parseLine tokens = .ok (.instruction i) → i.mnemonic.isJump = false →
    (∀ rd, i.operands.destination = some rd → rd.register_number ≠ 0 →
      rd.isScalar = ScalarRd i.mnemonic) ∧
    ∀ rs ∈ i.operands.sources, rs.register_number ≠ 0 → rs.isScalar = ScalarRs i.mnemonic

section Forms

variable {m : Mnemonic} {types : List TokenType} {operands : Operands} {i : Instruction}

/-- The operands of an instruction other than a jump are in the register files that `CHECK_REG` asks
for. A `halt` has none, and value-initialised ones. -/
theorem OperandForm.checked (h : OperandForm m types operands) (hm : m.isJump = false) :
    (∀ rd, operands.destination = some rd → rd.register_number ≠ 0 → rd.isScalar = ScalarRd m) ∧
      ∀ rs ∈ operands.sources, rs.register_number ≠ 0 → rs.isScalar = ScalarRs m := by
  cases h with
  | halt hhalt =>
    refine ⟨fun rd hrd hne => ?_, fun rs hrs hne => ?_⟩
    · obtain rfl := Option.some.inj hrd
      exact absurd rfl hne
    · obtain rfl := List.mem_singleton.mp hrs
      exact absurd rfl hne
  | itype rd rs1 imm12 _ hrd hrs1 => simp [Operands.destination, Operands.sources, hrd, hrs1]
  | rtype rd rs1 rs2 _ hrd hrs1 hrs2 =>
    simp [Operands.destination, Operands.sources, hrd, hrs1, hrs2]
  | load rd rs1 offset _ hrd hrs1 => simp [Operands.destination, Operands.sources, hrd, hrs1]
  | store rs1 rs2 offset _ hrs1 hrs2 => simp [Operands.destination, Operands.sources, hrs1, hrs2]
  | utype rd imm20 _ hrd => simp [Operands.destination, Operands.sources, hrd]
  | jal _ _ hname | jalrLabel _ _ hname | jalr _ _ _ hname => simp [Mnemonic.isJump, hname] at hm

/-- The registers of a jump are those of its tokens, and perhaps the one with the number 0. -/
theorem OperandForm.jump (h : OperandForm m types operands) (hm : m.isJump = true) :
    JumpOperands m.name types ∧
      ∀ reg, reg.register_number ≠ 0 →
        (reg ∈ operands.destination.toList ++ operands.sources ↔ .register reg ∈ types) := by
  have hname : m.name = .JAL ∨ m.name = .JALR := of_decide_eq_true hm
  cases h with
  | jal rd immediate hjal =>
    rw [hjal]
    exact ⟨.jal rd immediate, by simp [Operands.destination, Operands.sources]⟩
  | jalrLabel rd label_name hjalr =>
    rw [hjalr]
    refine ⟨.jalrLabel rd label_name, fun reg hne => ?_⟩
    -- The base register that the parser adds has the number 0.
    have hzero : reg ≠ .zero := by
      rintro rfl
      exact hne rfl
    simp [Operands.destination, Operands.sources, hzero]
  | jalr rd rs1 value hjalr =>
    rw [hjalr]
    exact ⟨.jalr rd rs1 value, by simp [Operands.destination, Operands.sources]⟩
  | halt hhalt => simp [hhalt] at hname
  | itype _ _ _ hkind => rcases hname with hn | hn <;> simp [hn, isItypeArithmetic] at hkind
  | rtype _ _ _ hkind => rcases hname with hn | hn <;> simp [hn, isRtype] at hkind
  | load _ _ _ hkind => rcases hname with hn | hn <;> simp [hn, isLoadType] at hkind
  | store _ _ _ hkind => rcases hname with hn | hn <;> simp [hn, isStoreType] at hkind
  | utype _ _ hkind => rcases hname with hn | hn <;> simp [hn, isUtype] at hkind

/-- The operands of a jump are accepted, whatever its registers. -/
theorem JumpOperands.operandForm (h : JumpOperands m.name types) :
    m.isJump = true ∧ ∃ operands, OperandForm m types operands := by
  generalize hname : m.name = name at h
  cases h with
  | jal rd immediate => exact ⟨by simp [Mnemonic.isJump, hname], _, .jal rd immediate hname⟩
  | jalrLabel rd label_name =>
    exact ⟨by simp [Mnemonic.isJump, hname], _, .jalrLabel rd label_name hname⟩
  | jalr rd rs1 value => exact ⟨by simp [Mnemonic.isJump, hname], _, .jalr rd rs1 value hname⟩

/-- A line whose instruction is a jump has the tokens of one, with its registers. -/
theorem LineForm.jump (h : LineForm types (.instruction i)) (hi : i.mnemonic.isJump = true) :
    JumpLine types ∧ ∀ reg, reg.register_number ≠ 0 →
      (reg ∈ i.operands.destination.toList ++ i.operands.sources ↔ .register reg ∈ types) := by
  cases h with
  | instruction m types operands hform =>
    obtain ⟨hjump, hreg⟩ := hform.jump hi
    exact ⟨⟨none, m, types, rfl, hjump⟩, fun reg hne => (hreg reg hne).trans (by simp)⟩
  | labelled label m types operands hform =>
    obtain ⟨hjump, hreg⟩ := hform.jump hi
    exact ⟨⟨some label, m, types, rfl, hjump⟩, fun reg hne => (hreg reg hne).trans (by simp)⟩

/-- A line with the tokens of a jump is accepted as one. -/
theorem JumpLine.lineForm (h : JumpLine types) :
    ∃ i, LineForm types (.instruction i) ∧ i.mnemonic.isJump = true := by
  obtain ⟨label, m, rest, rfl, hjump⟩ := h
  obtain ⟨hm, operands, hform⟩ := hjump.operandForm
  cases label with
  | none => exact ⟨_, .instruction m rest operands hform, hm⟩
  | some label => exact ⟨_, .labelled label m rest operands hform, hm⟩

end Forms

/-- The registers of a line are treated like those of other instructions if and only if the line is
no jump that names a vector register. -/
theorem jump_registers_scalar_iff (tokens : List Token) :
    JumpRegistersScalar tokens ↔
      ¬(JumpLine (tokens.map Token.token_type) ∧ NamesVector (tokens.map Token.token_type)) := by
  have hform : ∀ i, parseLine tokens = .ok (.instruction i) →
      LineForm (tokens.map Token.token_type) (.instruction i) := by
    intro i h
    refine parseLine_ok ?_ h
    rintro rfl
    cases h
  constructor
  · rintro h ⟨hjump, hvector⟩
    -- The line is accepted, so it has not been rejected.
    obtain ⟨i, hi, -⟩ := hjump.lineForm
    obtain ⟨errors, herrors, -⟩ := h.rejected hjump hvector
    rw [parseLine_of_lineForm hi] at herrors
    cases herrors
  · intro h
    refine ⟨fun i hi hjump reg hreg hne => ?_, fun hjump hvector => absurd ⟨hjump, hvector⟩ h,
      fun i hi hjump => ?_⟩
    · obtain ⟨hline, hregs⟩ := (hform i hi).jump hjump
      by_contra hscalar
      exact h ⟨hline, reg, (hregs reg hne).mp hreg, hne, by simpa using hscalar⟩
    · obtain ⟨types, hoperands⟩ := (hform i hi).operandForm
      exact hoperands.checked hjump

/-- A jump that writes a vector register is accepted. -/
theorem jump_names_vector : ¬∀ tokens, JumpRegistersScalar tokens := by
  intro h
  have hscalar := (h [⟨.mnemonic ⟨.JAL, false⟩, 1⟩, ⟨.register ⟨1, .VECTOR⟩, 5⟩, ⟨.comma, 7⟩,
    ⟨.immediate 5, 9⟩]).accepted ⟨none, ⟨.JAL, false⟩, .jtype ⟨⟨1, .VECTOR⟩, 5⟩⟩
    (by decide +kernel) (by decide) ⟨1, .VECTOR⟩ (by decide) (by decide)
  exact absurd hscalar (by decide)

end SmolGpu.As
