import SmolGpu.As.Translation
import SmolGpu.ComputeCore.Simt

/-!
# Emitted words in the hardware

What the decoder makes of the word that is emitted for an instruction of an accepted program.

The word has the opcode of the mnemonic's name, with or without the `s.` prefix
(`opcode_translateInstruction`). So it is a scalar instruction exactly if it is a jump, and the
prefix is lost (`scalar_agreement_iff`). A `jalr` to a label has the label's position in its
immediate, which the decoder extends by its sign, so the jump lands exactly if the position is below
2048 (`label_jump_lands_iff`). A store loses the low five bits of its offset
(`store_round_trip_iff`).
-/

namespace SmolGpu.As

open Sim Sim.Instructions

/-! ## Scalar instructions -/

section Scalar

variable {program : Program} {i : Instruction} {w : InstructionBits}

/-- An emitted word has the opcode of its mnemonic's name. -/
theorem opcode_translateInstruction {types : List TokenType}
    (hform : OperandForm i.mnemonic types i.operands)
    (h : translateInstruction program i = .ok w) :
    opcode w = (nameToDeterminant i.mnemonic.name).opcode.bits.setWidth 7 := by
  obtain ⟨label, m, operands⟩ := i
  simp only at hform ⊢
  cases hform with
  | halt hm | itype _ _ _ hm | load _ _ _ hm =>
    -- `halt` has value-initialised operands, which are those of an I-type instruction.
    obtain ⟨-, rfl⟩ := createItypeInstruction_eq_ok.mp h
    exact opcode_word12 _
  | rtype rd rs1 rs2 hm =>
    obtain ⟨-, rfl⟩ := createRtypeInstruction_eq_ok.mp h
    exact opcode_word12 _
  | store rs1 rs2 offset hm =>
    obtain ⟨-, rfl⟩ := createStypeInstruction_eq_ok.mp h
    exact opcode_word12 _
  | utype rd imm20 hm =>
    obtain ⟨-, rfl⟩ := createUtypeInstruction_eq_ok.mp h
    exact opcode_word20 _
  | jal rd immediate hm =>
    obtain ⟨-, rfl⟩ := createJtypeInstruction_eq_ok.mp h
    exact opcode_immJ _
  | jalr rd rs1 value hm =>
    -- The constructor has the opcode of `jalr` built in.
    obtain ⟨-, rfl⟩ := createItypeInstruction_eq_ok.mp h
    rw [hm]
    exact opcode_word12 _
  | jalrLabel rd label_name hm =>
    unfold translateInstruction at h
    simp only at h
    cases hlookup : program.label_mappings.lookup label_name with
    | none =>
      rw [hlookup] at h
      cases h
    | some index =>
      rw [hlookup] at h
      obtain ⟨-, rfl⟩ := createItypeInstruction_eq_ok.mp h
      rw [hm]
      exact opcode_word12 _

/-- Of the instructions other than `halt`, the `sx` ones, and the branches, the jumps have an opcode
with the scalar bit, and none has the opcode of an `sx` instruction. -/
theorem opcode_scalarBit {m : Mnemonic} (hbranch : m.isBranch = false)
    (hname : m.name ∉ [.HALT, .SX_SLT, MnemonicName.SX_SLTI]) :
    ((nameToDeterminant m.name).opcode.bits.setWidth 7).getLsbD 6 = m.isJump ∧
      (nameToDeterminant m.name).opcode.bits.setWidth 7 ≠ OPCODE_SX_SLT ∧
        (nameToDeterminant m.name).opcode.bits.setWidth 7 ≠ OPCODE_SX_SLTI := by
  obtain ⟨name, has_s_prefix⟩ := m
  revert hbranch hname
  cases has_s_prefix <;> cases name <;> decide

/-- The emitted words that the decoder takes for scalar instructions are the jumps. -/
theorem decoded_scalar_iff {types : List TokenType}
    (hform : OperandForm i.mnemonic types i.operands)
    (hname : i.mnemonic.name ∉ [.HALT, .SX_SLT, MnemonicName.SX_SLTI])
    (h : translateInstruction program i = .ok w) :
    (decode w).decoded_scalar_instruction = i.mnemonic.isJump := by
  have hop := opcode_translateInstruction hform h
  obtain ⟨hbit, hslt, hslti⟩ := opcode_scalarBit hform.isBranch hname
  have hsx : ¬IsSx w := by
    rintro (hw | hw)
    · exact hslt (hop.symm.trans hw)
    · exact hslti (hop.symm.trans hw)
  rw [Bool.eq_iff_iff, decode_scalar_iff, scalarBit_eq, hop, hbit]
  exact and_iff_left hsx

/-- In the machine code of an accepted program, the decoder's scalar flag of an instruction other
than `halt` and the `sx` ones is what the mnemonic says if and only if the mnemonic has no `s.`
prefix or is a jump. -/
theorem scalar_agreement_iff {lines : List (List Char)} {words : List InstructionBits} {k : ℕ}
    (h : parseProgram lines = some (.ok program)) (hwords : translateToBinary program = .ok words)
    (hi : program.instructions[k]? = some i) (hw : words[k]? = some w)
    (hname : i.mnemonic.name ∉ [.HALT, .SX_SLT, MnemonicName.SX_SLTI]) :
    (decode w).decoded_scalar_instruction = i.mnemonic.isScalar ↔
      i.mnemonic.has_s_prefix = false ∨ i.mnemonic.isJump = true := by
  obtain ⟨types, hform⟩ := (parseProgram_ok h).2.2.operandForm hi
  obtain ⟨w', hplace, htranslated⟩ := translateToBinary_getElem? hwords hi
  rw [hw] at hplace
  obtain rfl := Option.some.inj hplace
  have hvector : i.mnemonic.isVectorScalar = false := by
    simp only [List.mem_cons, List.not_mem_nil, or_false, not_or] at hname
    simp [Mnemonic.isVectorScalar, hname.2.1, hname.2.2]
  rw [decoded_scalar_iff hform hname htranslated]
  unfold Mnemonic.isScalar
  rw [hvector, hform.isBranch]
  -- What is left is an identity of Booleans: `j = (p || j)` just if `p` is false or `j` is true.
  cases i.mnemonic.has_s_prefix <;> cases i.mnemonic.isJump <;> simp

/-- `addi x5, x6, 1` is a vector instruction. -/
theorem scalar_agreement_iff_addi :
    (decode 0x00130293#32).decoded_scalar_instruction = (Mnemonic.mk .ADDI false).isScalar ↔
      Mnemonic.has_s_prefix ⟨.ADDI, false⟩ = false ∨
        (Mnemonic.mk .ADDI false).isJump = true := by
  have haccepted : parseProgram ["addi x5, x6, 1".toList] = some (.ok ⟨1, 1,
      [⟨none, ⟨.ADDI, false⟩, .itype ⟨⟨5, .VECTOR⟩, ⟨6, .VECTOR⟩, 1⟩⟩], []⟩) := by
    decide +kernel
  exact @scalar_agreement_iff _ _ _ _ _ 0 haccepted rfl rfl rfl (by decide)

/-- `s.addi s5, s0, 1` is emitted as `addi x5, x0, 1`. -/
theorem scalar_prefix_lost :
    ¬∀ lines program words, parseProgram lines = some (.ok program) →
      translateToBinary program = .ok words → ∀ (k : ℕ) i w, program.instructions[k]? = some i →
        words[k]? = some w → i.mnemonic.name ∉ [.HALT, .SX_SLT, MnemonicName.SX_SLTI] →
          (decode w).decoded_scalar_instruction = i.mnemonic.isScalar := by
  intro h
  have haccepted : parseProgram ["s.addi s5, s0, 1".toList] = some (.ok ⟨1, 1,
      [⟨none, ⟨.ADDI, true⟩, .itype ⟨⟨5, .SCALAR⟩, ⟨0, .SCALAR⟩, 1⟩⟩], []⟩) := by
    decide +kernel
  have hscalar := h _ _ [0x00100293#32] haccepted rfl 0 _ _ rfl rfl (by decide)
  exact absurd hscalar (by decide)

end Scalar

/-! ## Jumps to labels -/

section Labels

variable {program : Program} {k : ℕ} {label : Option (List Char)} {m : Mnemonic} {rd rs1 : Register}
  {label_name : List Char} {T : ℕ} (a : WarpArch T)

/-- Behind a `jalr` over `x0`, a warp whose scalar register 0 is zero goes on at the immediate. -/
theorem nextPc_ofJalr (hzero : a.scalar 0 = 0) (rd : Register) (imm : IData) :
    a.nextPc (.ofJalr rd .zero imm) = signExtend (imm.setWidth 12) := by
  have hresult : a.result (.ofJalr rd .zero imm) (Fin.last T) =
      a.scalar 0 + signExtend (imm.setWidth 12) := by
    unfold WarpArch.result WarpArch.operand1
    rw [Fin.lastCases_last]
    rfl
  calc a.nextPc (.ofJalr rd .zero imm)
      = a.result (.ofJalr rd .zero imm) (Fin.last T) := rfl
    _ = a.scalar 0 + signExtend (imm.setWidth 12) := hresult
    _ = signExtend (imm.setWidth 12) := by
        rw [hzero]
        exact BitVec.zero_add _

/-- The word of a `jalr` to a label that has a position. -/
theorem emitsAt_jalr_iff {index : IData} {w : InstructionBits}
    (hi : program.instructions[k]? = some ⟨label, m, .jalr ⟨rd, rs1, .labelRef label_name⟩⟩)
    (hposition : program.position label_name = some index) (hrd : rd.validate = true) :
    EmitsAt program k w ↔ index < 4096 ∧
      w = word12 Opcode.JALR.bits rd.bits Funct3.JALR.bits Register.zero.bits index := by
  have hzero : Register.zero.validate = true := by decide
  have hlookup : program.label_mappings.lookup label_name = some index := hposition
  rw [emitsAt_iff hi]
  unfold translateInstruction
  simp only [hlookup]
  unfold jalr
  rw [createItypeInstruction_eq_ok]
  simp [hrd, hzero]

/-- The jump to a label with the index `n` goes on at `n` exactly if `n` is below 2048. From there
on the immediate is negative, and from 4096 on there is no word. -/
theorem jalr_lands_iff {n : ℕ}
    (hi : program.instructions[k]? = some ⟨label, m, .jalr ⟨rd, rs1, .labelRef label_name⟩⟩)
    (hposition : program.position label_name = some (BitVec.ofNat 32 n))
    (hrd : rd.validate = true) (hzero : a.scalar 0 = 0) :
    (∃ w, EmitsAt program k w ∧ (a.nextPc (decode w)).toNat = n) ↔ n < 2048 := by
  have hvalid : Register.zero.validate = true := by decide
  have hindex : (BitVec.ofNat 32 n).toNat = n % 2 ^ 32 := BitVec.toNat_ofNat n 32
  have hpc : (a.nextPc (.ofJalr rd .zero (BitVec.ofNat 32 n))).toNat =
      if n % 2 ^ 12 < 2048 then n % 2 ^ 12 else n % 2 ^ 12 + (2 ^ 32 - 2 ^ 12) := by
    have hlow : ((BitVec.ofNat 32 n).setWidth 12).toNat = n % 2 ^ 12 := by
      rw [BitVec.toNat_setWidth, hindex]
      omega
    rw [nextPc_ofJalr a hzero, signExtend_toNat, hlow]
  constructor
  · rintro ⟨w, hw, hlands⟩
    obtain ⟨hfits, rfl⟩ := (emitsAt_jalr_iff hi hposition hrd).mp hw
    have hnat : (BitVec.ofNat 32 n).toNat < 4096 := hfits
    rw [decode_jalr hrd hvalid, hpc] at hlands
    split_ifs at hlands
    · -- The immediate is positive, so the jump goes to `n` modulo 4096, and `n` is below 4096.
      omega
    · -- The immediate is negative, so the jump goes above any 12-bit number.
      omega
  · intro hn
    have hfits : BitVec.ofNat 32 n < 4096 := by
      show (BitVec.ofNat 32 n).toNat < 4096
      omega
    refine ⟨_, (emitsAt_jalr_iff hi hposition hrd).mpr ⟨hfits, rfl⟩, ?_⟩
    rw [decode_jalr hrd hvalid, hpc, if_pos (by omega)]
    omega

/-- In an accepted program, the jump to a declared label goes on at the number of the instructions
in front of the declaration if and only if this number is below 2048. -/
theorem label_jump_lands_iff {lines earlier later : List (List Char)} {line : List Char}
    (h : parseProgram lines = some (.ok program)) (hlines : lines = earlier ++ line :: later)
    (hlabel : labelOf line = some label_name)
    (hi : program.instructions[k]? = some ⟨label, m, .jalr ⟨rd, rs1, .labelRef label_name⟩⟩)
    (hrd : rd.validate = true) (hzero : a.scalar 0 = 0) :
    (∃ w, EmitsAt program k w ∧ (a.nextPc (decode w)).toNat = instructionCount earlier) ↔
      instructionCount earlier < 2048 :=
  jalr_lands_iff a hi
    ((parseProgram_ok h).2.2.declared earlier line later label_name hlines hlabel) hrd hzero

/-- The jump to a label on the first line goes on at 0. -/
theorem label_jump_lands_iff_first :
    (∃ w, EmitsAt ⟨1, 1, [⟨some ['L'], ⟨.HALT, false⟩, .default⟩,
        ⟨none, ⟨.JALR, false⟩, .jalr ⟨⟨1, .VECTOR⟩, .zero, .labelRef ['L']⟩⟩], [(['L'], 0)]⟩ 1 w ∧
      ((WarpArch.mk (T := 1) 1 (fun _ => 0) fun _ _ => 0).nextPc (decode w)).toNat =
        instructionCount []) ↔ instructionCount [] < 2048 := by
  have haccepted : parseProgram ["L: halt".toList, "jalr x1, L".toList] = some (.ok ⟨1, 1,
      [⟨some ['L'], ⟨.HALT, false⟩, .default⟩,
        ⟨none, ⟨.JALR, false⟩, .jalr ⟨⟨1, .VECTOR⟩, .zero, .labelRef ['L']⟩⟩], [(['L'], 0)]⟩) := by
    decide +kernel
  exact label_jump_lands_iff _ haccepted rfl (by decide +kernel) rfl (by decide) rfl

/-- An instruction. -/
def haltLine : List Char := "halt".toList

/-- A jump to itself. -/
def selfJumpLine : List Char := "L: jalr x1, L".toList

/-- What the line `halt` is parsed to. -/
theorem instructionOf_haltLine :
    instructionOf haltLine = some ⟨none, ⟨.HALT, false⟩, .default⟩ := by decide +kernel

/-- What the line of the jump to itself is parsed to. -/
theorem instructionOf_selfJumpLine : instructionOf selfJumpLine = some
    ⟨some ['L'], ⟨.JALR, false⟩, .jalr ⟨⟨1, .VECTOR⟩, .zero, .labelRef ['L']⟩⟩ := by
  decide +kernel

/-- The label that the line of the jump declares. -/
theorem labelOf_selfJumpLine : labelOf selfJumpLine = some ['L'] := by decide +kernel

/-- Any number of instructions and the jump behind them are accepted. -/
theorem selfJump_accepted (n : ℕ) :
    ∃ program, parseProgram (List.replicate n haltLine ++ [selfJumpLine]) = some (.ok program) := by
  have hmem : ∀ {line}, line ∈ List.replicate n haltLine ++ [selfJumpLine] →
      line = haltLine ∨ line = selfJumpLine := by
    intro line hline
    rcases List.mem_append.mp hline with hline | hline
    · exact .inl (List.eq_of_mem_replicate hline)
    · exact .inr (List.mem_singleton.mp hline)
  -- The first lines declare nothing, so that the last one cannot repeat anything.
  have hnone : labelOf haltLine = none ∧ blocksOf haltLine = none ∧ warpsOf haltLine = none := by
    decide +kernel
  have hwell : WellFormed (List.replicate n haltLine ++ [selfJumpLine]) := by
    refine ⟨fun line hline => ?_, fun line hline _ => ?_, ?_, ?_, ?_⟩
    · rcases hmem hline with rfl | rfl <;> decide +kernel
    · rcases hmem hline with rfl | rfl
      · exact ⟨.instruction ⟨none, ⟨.HALT, false⟩, .default⟩, by decide +kernel⟩
      · exact ⟨.instruction ⟨some ['L'], ⟨.JALR, false⟩,
          .jalr ⟨⟨1, .VECTOR⟩, .zero, .labelRef ['L']⟩⟩, by decide +kernel⟩
    · rw [List.filterMap_append, List.filterMap_replicate_of_none hnone.1, List.nil_append]
      decide +kernel
    · rw [List.filterMap_append, List.filterMap_replicate_of_none hnone.2.1, List.nil_append]
      decide +kernel
    · rw [List.filterMap_append, List.filterMap_replicate_of_none hnone.2.2, List.nil_append]
      decide +kernel
  refine hwell.accepted fun line hline => Option.isSome_iff_exists.mp ?_
  rcases hmem hline with rfl | rfl <;> decide +kernel

/-- The jump behind 2048 instructions leaves the program. -/
theorem label_jump_misses :
    ¬∀ (T : ℕ) (a : WarpArch T) lines program earlier line later (k : ℕ) label m rd rs1 label_name,
      parseProgram lines = some (.ok program) → lines = earlier ++ line :: later →
        labelOf line = some label_name →
          program.instructions[k]? = some ⟨label, m, .jalr ⟨rd, rs1, .labelRef label_name⟩⟩ →
            rd.validate = true → a.scalar 0 = 0 →
              ∃ w, EmitsAt program k w ∧
                (a.nextPc (decode w)).toNat = instructionCount earlier := by
  intro h
  have hcount : instructionCount (List.replicate 2048 haltLine) = 2048 := by
    unfold instructionCount
    rw [List.filterMap_replicate_of_some instructionOf_haltLine, List.length_replicate]
  obtain ⟨program, haccepted⟩ := selfJump_accepted 2048
  have hsource := (parseProgram_ok haccepted).2.2
  have hi := hsource.getElem?_of_line instructionOf_selfJumpLine
  have hposition := hsource.declared _ _ _ _ rfl labelOf_selfJumpLine
  have hlands := h 1 ⟨0, fun _ => 0, fun _ _ => 0⟩ _ program _ _ _ _ _ _ _ _ _ haccepted rfl
    labelOf_selfJumpLine hi (by decide) rfl
  rw [jalr_lands_iff _ hi hposition (by decide) rfl, hcount] at hlands
  omega

end Labels

/-! ## Stores -/

section Stores

variable {label : Option (List Char)} {rs1 rs2 : Register} {imm : IData}

/-- The tokens of `sw rs2, imm(rs1)`, behind a label if there is one. -/
def swTokens (label : Option (List Char)) (rs1 rs2 : Register) (imm : IData) : List TokenType :=
  (label.map TokenType.label).toList ++
    [.mnemonic ⟨.SW, false⟩, .register rs2, .comma, .immediate imm, .lparen, .register rs1, .rparen]

/-- If the tokens of `sw` parse, then to the store that they read. -/
theorem parseLine_sw {tokens : List Token} {val : Line}
    (htokens : tokens.map Token.token_type = swTokens label rs1 rs2 imm)
    (h : parseLine tokens = .ok val) :
    val = .instruction ⟨label, ⟨.SW, false⟩, .stype ⟨rs1, rs2, imm⟩⟩ := by
  obtain ⟨n1, type1⟩ := rs1
  obtain ⟨n2, type2⟩ := rs2
  obtain ⟨front, statement, rfl, hfront, hstatement⟩ := List.map_eq_append_iff.mp htokens
  simp only [List.map_eq_cons_iff, List.map_eq_nil_iff] at hstatement
  obtain ⟨⟨_, _⟩, _, rfl, rfl, ⟨_, _⟩, _, rfl, rfl, ⟨_, _⟩, _, rfl, rfl, ⟨_, _⟩, _, rfl, rfl,
    ⟨_, _⟩, _, rfl, rfl, ⟨_, _⟩, _, rfl, rfl, ⟨_, _⟩, _, rfl, rfl, rfl⟩ := hstatement
  -- With the types of the registers, the parser computes. It rejects scalar ones.
  cases label with
  | none =>
    obtain rfl := List.map_eq_nil_iff.mp hfront
    cases type1 <;> cases type2 <;> first | exact (Except.ok.inj h).symm | exact nomatch h
  | some label =>
    obtain ⟨⟨_, _⟩, _, rfl, rfl, hnil⟩ := List.map_eq_cons_iff.mp hfront
    obtain rfl := List.map_eq_nil_iff.mp hnil
    cases type1 <;> cases type2 <;> first | exact (Except.ok.inj h).symm | exact nomatch h

/-- The word of an `sw` line of an accepted program decodes to the store that the line reads if and
only if the low five bits of the offset are zero. -/
theorem sw_line_decode_iff {lines earlier later : List (List Char)} {line : List Char}
    {program : Program} (h : parseProgram lines = some (.ok program))
    (hlines : lines = earlier ++ line :: later)
    (hline : (lineTokens line).map Token.token_type = swTokens label rs1 rs2 imm)
    (hrs1 : rs1.validate = true) (hrs2 : rs2.validate = true) (himm : imm < 2048) :
    (∃ w, EmitsAt program (instructionCount earlier) w ∧ decode w = .ofStore rs1 rs2 imm) ↔
      imm.toNat % 32 = 0 := by
  obtain ⟨-, hwell, hsource⟩ := parseProgram_ok h
  have hne : lineTokens line ≠ [] := by
    intro hnil
    rw [hnil] at hline
    simp [swTokens] at hline
  have hmem : line ∈ lines := by
    rw [hlines]
    simp
  obtain ⟨val, hval⟩ := hwell.parses line hmem hne
  -- The line is the `sw` of its tokens, so its word is that of the store constructor.
  have hinstr : instructionOf line = some ⟨label, ⟨.SW, false⟩, .stype ⟨rs1, rs2, imm⟩⟩ := by
    unfold instructionOf lineOf
    rw [if_neg hne, hval, parseLine_sw hline hval]
  subst hlines
  simp only [emitsAt_iff (hsource.getElem?_of_line hinstr)]
  exact createStypeInstruction_decode_iff .SW hrs1 hrs2 himm

/-- For valid registers and an offset below 2048, the words of the three store constructors and of
an accepted `sw` line decode to a store with the same registers and offset if and only if the low
five bits of the offset are zero. -/
theorem store_round_trip_iff (hrs1 : rs1.validate = true) (hrs2 : rs2.validate = true)
    (himm : imm < 2048) :
    (∀ constructor ∈ [sb, sh, sw],
      (∃ w, constructor rs1 rs2 imm = .ok w ∧ decode w = .ofStore rs1 rs2 imm) ↔
        imm.toNat % 32 = 0) ∧
      ∀ lines earlier line later program label, parseProgram lines = some (.ok program) →
        lines = earlier ++ line :: later →
          (lineTokens line).map Token.token_type = swTokens label rs1 rs2 imm →
            ((∃ w, EmitsAt program (instructionCount earlier) w ∧
              decode w = .ofStore rs1 rs2 imm) ↔ imm.toNat % 32 = 0) := by
  constructor
  · intro constructor hconstructor
    simp only [List.mem_cons, List.not_mem_nil, or_false] at hconstructor
    rcases hconstructor with rfl | rfl | rfl
    · exact createStypeInstruction_decode_iff .SB hrs1 hrs2 himm
    · exact createStypeInstruction_decode_iff .SH hrs1 hrs2 himm
    · exact createStypeInstruction_decode_iff .SW hrs1 hrs2 himm
  · intro lines earlier line later program label h hlines hline
    exact sw_line_decode_iff h hlines hline hrs1 hrs2 himm

/-- `sw x5, 32(x6)` keeps its offset. -/
theorem store_round_trip_iff_aligned :
    (∀ constructor ∈ [sb, sh, sw],
      (∃ w, constructor ⟨6, .VECTOR⟩ ⟨5, .VECTOR⟩ 32 = .ok w ∧
        decode w = .ofStore ⟨6, .VECTOR⟩ ⟨5, .VECTOR⟩ 32) ↔ (32#32).toNat % 32 = 0) ∧
      ∀ lines earlier line later program label, parseProgram lines = some (.ok program) →
        lines = earlier ++ line :: later →
          (lineTokens line).map Token.token_type =
              swTokens label ⟨6, .VECTOR⟩ ⟨5, .VECTOR⟩ 32 →
            ((∃ w, EmitsAt program (instructionCount earlier) w ∧
              decode w = .ofStore ⟨6, .VECTOR⟩ ⟨5, .VECTOR⟩ 32) ↔ (32#32).toNat % 32 = 0) :=
  store_round_trip_iff (by decide) (by decide) (by decide)

/-- `sw x5, 4(x6)` is emitted as a store of the same register to the offset 0. -/
theorem store_offset_lost :
    ¬∀ rs1 rs2 imm, rs1.validate = true → rs2.validate = true → imm < 2048#32 →
      (∀ constructor ∈ [sb, sh, sw],
        ∃ w, constructor rs1 rs2 imm = .ok w ∧ decode w = .ofStore rs1 rs2 imm) ∧
      ∀ lines earlier line later program label, parseProgram lines = some (.ok program) →
        lines = earlier ++ line :: later →
          (lineTokens line).map Token.token_type = swTokens label rs1 rs2 imm →
            ∃ w, EmitsAt program (instructionCount earlier) w ∧
              decode w = .ofStore rs1 rs2 imm := by
  intro h
  have hsw := (h ⟨6, .VECTOR⟩ ⟨5, .VECTOR⟩ 4 (by decide) (by decide) (by decide)).1 sw (by simp)
  rw [sw, createStypeInstruction_decode_iff .SW (by decide) (by decide) (by decide)] at hsw
  exact absurd hsw (by decide)

end Stores

end SmolGpu.As
