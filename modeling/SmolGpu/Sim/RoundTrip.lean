import SmolGpu.Sim.ScalarForms

/-!
# Decoding what the builders build

The decoder reads back the operation and the operands that a constructor of `sim::instructions` was
given. A constructor of a six-bit class builds the vector form, and `make_scalar` turns it into the
scalar form, which decodes to the same fields.

Stores are the exception. Their immediate belongs in two parts around the second source register,
and the builder sets it as one field on top of that register, so that a store decodes to its
operands only if the low five bits of the immediate, which the decoder takes from the place of the
destination, are zero (`decode_store_iff`).
-/

namespace SmolGpu

open Sim Sim.Instructions BitField

/-! ## The decoder's fields for each kind of instruction -/

/-- The number of a register, in the five bits of an address port. -/
def Sim.Register.address (reg : Register) : RegAddress := reg.register_number.setWidth 5

namespace Decoded

section Kinds

variable (operation : AluInstruction) (rd rs1 rs2 : Register) (imm : IData)

/-- A vector operation on two registers. -/
def ofRtype : Decoded :=
  { default with
    decoded_reg_write_enable := true
    decoded_rd_address := rd.address
    decoded_rs1_address := rs1.address
    decoded_rs2_address := rs2.address
    decoded_alu_instruction := operation }

/-- A vector operation on a register and a sign-extended immediate. -/
def ofItype : Decoded :=
  { default with
    decoded_reg_write_enable := true
    decoded_immediate := signExtend (imm.setWidth 12)
    decoded_rd_address := rd.address
    decoded_rs1_address := rs1.address
    decoded_alu_instruction := operation }

/-- A vector load. -/
def ofLoad : Decoded :=
  { ofItype .ADDI rd rs1 imm with
    decoded_mem_read_enable := true
    decoded_reg_input_mux := .lsuOut }

/-- A vector store to the given offset. -/
def ofStore : Decoded :=
  { default with
    decoded_mem_write_enable := true
    decoded_immediate := imm
    decoded_rs1_address := rs1.address
    decoded_rs2_address := rs2.address }

/-- A vector `lui`. -/
def ofLui : Decoded :=
  { default with
    decoded_reg_write_enable := true
    decoded_reg_input_mux := .immediate
    decoded_immediate := imm <<< 12
    decoded_rd_address := rd.address }

/-- A `jalr`. -/
def ofJalr : Decoded :=
  { ofItype .JALR rd rs1 imm with
    decoded_reg_input_mux := .pcPlus1
    decoded_scalar_instruction := true }

end Kinds

/-- The same instruction on scalars. -/
def scalar (d : Decoded) : Decoded := { d with decoded_scalar_instruction := true }

/-- The `sx` instruction that gathers the results of an operation. -/
def gathering (d : Decoded) : Decoded := { d with decoded_reg_input_mux := .vectorToScalar }

end Decoded

/-! ## The value of a sign-extended immediate -/

/-- The sign of a 12-bit immediate. -/
theorem getLsbD_eleven (x : BitVec 12) : x.getLsbD 11 = decide (2048 ≤ x.toNat) := by
  have h := BitVec.msb_eq_decide x
  rw [BitVec.msb_eq_getLsbD_last] at h
  exact h

/-- An immediate keeps its value below 2048 and loses 4096 from there on. -/
theorem signExtend_toNat (x : BitVec 12) :
    (signExtend x).toNat = if x.toNat < 2048 then x.toNat else x.toNat + (2 ^ 32 - 2 ^ 12) := by
  have hx := x.isLt
  have hlow : (0#20 ++ x).toNat = x.toNat := by
    rw [BitVec.toNat_append]
    simp
  have hhigh : (BitVec.allOnes 20 ++ x).toNat = x.toNat + (2 ^ 32 - 2 ^ 12) := by
    rw [BitVec.toNat_append, ← Nat.shiftLeft_add_eq_or_of_lt hx, Nat.shiftLeft_eq,
      BitVec.toNat_allOnes]
    omega
  unfold signExtend
  rw [getLsbD_eleven]
  -- Of the four combinations of the sign bit and the comparison, two do not occur.
  split_ifs with h h' h'
  · simp at h
    omega
  · exact hhigh
  · exact hlow
  · simp at h
    omega

/-! ## Words in the two layouts -/

section Words

variable {rd rs1 rs2 : Register} {imm : IData}

/-- An opcode fits its seven bits. -/
theorem Sim.Opcode.bits_lt (opcode : Opcode) : opcode.bits.toNat < 2 ^ 7 := by
  cases opcode <;> decide

/-- A `funct3` fits its three bits. -/
theorem Sim.Funct3.bits_lt (funct3 : Funct3) : funct3.bits.toNat < 2 ^ 3 := by
  cases funct3 <;> decide

/-- The number of a valid register fits its five bits. -/
theorem Sim.Register.bits_lt {reg : Register} (h : reg.validate = true) :
    reg.bits.toNat < 2 ^ 5 := by
  have hlt : reg.register_number < 32 := of_decide_eq_true h
  exact hlt

/-- The fields of a word that has a `funct3` and a first source register. -/
theorem fields_of_word12 (opcode : Opcode) (funct3 : Funct3) (upper : IData)
    (hrd : rd.validate = true) (hrs1 : rs1.validate = true) :
    let w := word12 opcode.bits rd.bits funct3.bits rs1.bits upper
    SmolGpu.opcode w = opcode.bits.setWidth 7 ∧ SmolGpu.rd w = rd.address ∧
      SmolGpu.funct3 w = funct3.bits.setWidth 3 ∧ SmolGpu.rs1 w = rs1.address ∧
      immI w = upper.setWidth 12 :=
  word12_fields upper opcode.bits_lt (Register.bits_lt hrd) funct3.bits_lt (Register.bits_lt hrs1)

/-- A vector word of a class other than the stores decodes to the same fields in its scalar form,
under the scalar flag. -/
theorem decode_forms {w : InstructionT} {d : Decoded} {o : BitVec 6} (hop : opcode w = 0#1 ++ o)
    (hclass : o ∈ sixBitOpcodes) (hstore : o ≠ OPCODE_S)
    (hd : inst w = o → decodeInst w Decoded.default = d) :
    decode w = d ∧ decode (makeScalar w) = d.scalar := by
  have hinst : inst w = o := by
    rw [inst_eq, hop]
    exact BitVec.setWidth_append_eq_right
  have hvector : scalarBit w = false := by
    rw [scalarBit_eq, hop, BitVec.getLsbD_append]
    rfl
  -- Both forms are read by the six-bit classes, from the same fields.
  rw [decode_of_vector hvector, decode_makeScalar (hinst ▸ hclass) (hinst ▸ hstore), hd hinst]
  exact ⟨rfl, rfl⟩

/-- A value of five bits below a `funct7`, as an R-type word has them at bit 20. -/
theorem upper_fields (funct7 : Funct7) {low : IData} (hlow : low.toNat < 2 ^ 5) :
    ((low ||| funct7.bits <<< 5).setWidth 12).setWidth 5 = low.setWidth 5 ∧
      ((low ||| funct7.bits <<< 5).setWidth 12).extractLsb' 5 7 = funct7.bits.setWidth 7 := by
  rw [BitVec.setWidth_eq_extractLsb' (w := 5) (by decide),
    BitVec.setWidth_eq_extractLsb' (w := 12) (by decide), extract_extract (by decide),
    extract_extract (by decide), BitVec.extractLsb'_or, BitVec.extractLsb'_or]
  constructor
  · -- The `funct7` starts above the value.
    rw [extract_shiftLeft_below (by decide), BitVec.or_zero]
    exact (BitVec.setWidth_eq_extractLsb' (by decide)).symm
  · -- The value ends below the `funct7`.
    rw [extract_of_lt hlow (by decide), BitVec.zero_or]
    exact extract_shiftLeft_self (by decide)

/-- What an R-type word has at bit 20 is the second source register below the `funct7`. -/
theorem rtype_upper (funct7 : Funct7) (hrs2 : rs2.validate = true) :
    ((rs2.bits ||| funct7.bits <<< 5).setWidth 12).setWidth 5 = rs2.address ∧
      ((rs2.bits ||| funct7.bits <<< 5).setWidth 12).extractLsb' 5 7 = funct7.bits.setWidth 7 :=
  upper_fields funct7 (Register.bits_lt hrs2)

/-- A word of the R-type class decodes to the operation that its `funct3` and `funct7` select. -/
theorem decode_rtype {funct3 : Funct3} {funct7 : Funct7} {operation : AluInstruction}
    (hsel : ∀ d, decodeR (funct3.bits.setWidth 3) (funct7.bits.setWidth 7) d =
      { d with decoded_alu_instruction := operation })
    (hrd : rd.validate = true) (hrs1 : rs1.validate = true) (hrs2 : rs2.validate = true) :
    let w := word12 Opcode.RTYPE.bits rd.bits funct3.bits rs1.bits (rs2.bits ||| funct7.bits <<< 5)
    decode w = .ofRtype operation rd rs1 rs2 ∧
      decode (makeScalar w) = (Decoded.ofRtype operation rd rs1 rs2).scalar := by
  intro w
  obtain ⟨hop, hrd', hf3, hrs1', himm⟩ := fields_of_word12 .RTYPE funct3
    (rs2.bits ||| funct7.bits <<< 5) hrd hrs1
  obtain ⟨hrs2', hf7⟩ := rtype_upper funct7 hrs2
  apply decode_forms (o := OPCODE_R) hop (by decide) (by decide)
  intro hinst
  unfold decodeInst
  rw [if_pos hinst, hf3, funct7_eq, himm, hf7, hsel, hrd', hrs1', rs2_eq, himm, hrs2']
  rfl

/-- A word of the I-type class decodes to the operation that its `funct3` selects, with the upper
seven bits of the immediate for a shift to the right. -/
theorem decode_itype {funct3 : Funct3} {operation : AluInstruction}
    (hsel : ∀ d, decodeI (funct3.bits.setWidth 3) ((imm.setWidth 12).extractLsb' 5 7) d =
      { d with decoded_alu_instruction := operation })
    (hrd : rd.validate = true) (hrs1 : rs1.validate = true) :
    let w := word12 Opcode.ITYPE.bits rd.bits funct3.bits rs1.bits imm
    decode w = .ofItype operation rd rs1 imm ∧
      decode (makeScalar w) = (Decoded.ofItype operation rd rs1 imm).scalar := by
  intro w
  obtain ⟨hop, hrd', hf3, hrs1', himm⟩ := fields_of_word12 .ITYPE funct3 imm hrd hrs1
  apply decode_forms (o := OPCODE_I) hop (by decide) (by decide)
  intro hinst
  have hne : OPCODE_I ≠ OPCODE_R := by decide
  unfold decodeInst
  rw [hinst, if_neg hne, if_pos rfl, hf3, funct7_eq, himm, hsel, hrd', hrs1']
  rfl

/-- A load word decodes to a load, whatever its `funct3`. -/
theorem decode_load (funct3 : Funct3) (hrd : rd.validate = true) (hrs1 : rs1.validate = true) :
    let w := word12 Opcode.LOAD.bits rd.bits funct3.bits rs1.bits imm
    decode w = .ofLoad rd rs1 imm ∧ decode (makeScalar w) = (Decoded.ofLoad rd rs1 imm).scalar := by
  intro w
  obtain ⟨hop, hrd', hf3, hrs1', himm⟩ := fields_of_word12 .LOAD funct3 imm hrd hrs1
  apply decode_forms (o := OPCODE_LOAD) hop (by decide) (by decide)
  intro hinst
  have hne : OPCODE_LOAD ≠ OPCODE_R ∧ OPCODE_LOAD ≠ OPCODE_I := by decide
  unfold decodeInst
  rw [hinst, if_neg hne.1, if_neg hne.2, if_pos rfl, hrd', hrs1', himm]
  rfl

/-- A 20-bit value in front of twelve zeros is the value shifted. -/
theorem setWidth_append_zero {imm : IData} (h : imm < 1048576) :
    imm.setWidth 20 ++ 0#12 = imm <<< 12 := by
  have hnat : imm.toNat < 1048576 := h
  apply BitVec.eq_of_toNat_eq
  rw [BitVec.toNat_append, BitVec.toNat_shiftLeft, BitVec.toNat_setWidth, BitVec.toNat_zero,
    Nat.or_zero, Nat.shiftLeft_eq, Nat.shiftLeft_eq]
  omega

/-- A `lui` word decodes to `lui`. -/
theorem decode_lui (hrd : rd.validate = true) (himm : imm < 1048576) :
    let w := word20 Opcode.LUI.bits rd.bits imm
    decode w = .ofLui rd imm ∧ decode (makeScalar w) = (Decoded.ofLui rd imm).scalar := by
  intro w
  obtain ⟨hop, hrd', hu⟩ : opcode w = 0#1 ++ OPCODE_U ∧ SmolGpu.rd w = rd.address ∧
      immU w = imm.setWidth 20 := word20_fields imm Opcode.LUI.bits_lt (Register.bits_lt hrd)
  apply decode_forms (o := OPCODE_U) hop (by decide) (by decide)
  intro hinst
  have hne : OPCODE_U ≠ OPCODE_R ∧ OPCODE_U ≠ OPCODE_I ∧ OPCODE_U ≠ OPCODE_LOAD ∧
      OPCODE_U ≠ OPCODE_S := by decide
  unfold decodeInst
  rw [hinst, if_neg hne.1, if_neg hne.2.1, if_neg hne.2.2.1, if_neg hne.2.2.2, if_pos rfl, hu,
    setWidth_append_zero himm, hrd']
  rfl

/-- A `jalr` word decodes to `jalr`. -/
theorem decode_jalr (hrd : rd.validate = true) (hrs1 : rs1.validate = true) :
    decode (word12 Opcode.JALR.bits rd.bits Funct3.JALR.bits rs1.bits imm) =
      .ofJalr rd rs1 imm := by
  obtain ⟨hop, hrd', hf3, hrs1', himm⟩ := fields_of_word12 .JALR .JALR imm hrd hrs1
  have hop' : Opcode.JALR.bits.setWidth 7 = OPCODE_JALR := rfl
  -- The other seven-bit opcodes come first in the decoder's chain, and are not this one.
  unfold decode
  simp only
  rw [hop, hop', if_neg (by decide), if_neg (by decide), if_neg (by decide), if_neg (by decide),
    if_neg (by decide), if_pos rfl, hrd', hrs1', himm]
  rfl

/-- An `sx.slt` word decodes to the gathered comparison of two registers. -/
theorem decode_sxSlt (hrd : rd.validate = true) (hrs1 : rs1.validate = true)
    (hrs2 : rs2.validate = true) :
    decode (word12 Opcode.SX_SLT.bits rd.bits Funct3.SLT.bits rs1.bits
      (rs2.bits ||| Funct7.SLT.bits <<< 5)) = (Decoded.ofRtype .SLT rd rs1 rs2).gathering := by
  obtain ⟨hop, hrd', hf3, hrs1', himm⟩ := fields_of_word12 .SX_SLT .SLT
    (rs2.bits ||| Funct7.SLT.bits <<< 5) hrd hrs1
  rw [decode_sx_slt hop, hrd', hrs1', rs2_eq, himm, (rtype_upper .SLT hrs2).1]
  rfl

/-- An `sx.slti` word decodes to the gathered comparison of a register and an immediate. -/
theorem decode_sxSlti (hrd : rd.validate = true) (hrs1 : rs1.validate = true) :
    decode (word12 Opcode.SX_SLTI.bits rd.bits Funct3.SLTI.bits rs1.bits imm) =
      (Decoded.ofItype .SLTI rd rs1 imm).gathering := by
  obtain ⟨hop, hrd', hf3, hrs1', himm⟩ := fields_of_word12 .SX_SLTI .SLTI imm hrd hrs1
  rw [decode_sx_slti hop, hrd', hrs1', himm]
  rfl

/-! ## Stores -/

/-- A store word decodes to a store of the registers, with the second one and the immediate merged
where they overlap. -/
theorem decode_stype (funct3 : Funct3) (upper : IData) (hrs1 : rs1.validate = true) :
    decode (word12 Opcode.STYPE.bits 0 funct3.bits rs1.bits upper) =
      { Decoded.default with
        decoded_mem_write_enable := true
        decoded_immediate := signExtend ((upper.setWidth 12).extractLsb' 5 7 ++ 0#5)
        decoded_rs1_address := rs1.address
        decoded_rs2_address := (upper.setWidth 12).setWidth 5 } := by
  have hzero : (0 : IData).toNat < 2 ^ 5 := by decide
  obtain ⟨hop, hrd', hf3, hrs1', himm⟩ := word12_fields upper Opcode.STYPE.bits_lt hzero
    funct3.bits_lt (Register.bits_lt hrs1)
  -- The opcode has bit 6 clear, so that it is looked for among the six-bit ones.
  have hop' : opcode (word12 Opcode.STYPE.bits 0 funct3.bits rs1.bits upper) = 0#1 ++ OPCODE_S :=
    hop
  have hvector : scalarBit (word12 Opcode.STYPE.bits 0 funct3.bits rs1.bits upper) = false := by
    rw [scalarBit_eq, hop', BitVec.getLsbD_append]
    rfl
  have hinst : inst (word12 Opcode.STYPE.bits 0 funct3.bits rs1.bits upper) = OPCODE_S := by
    rw [inst_eq, hop']
    exact BitVec.setWidth_append_eq_right
  have hne : OPCODE_S ≠ OPCODE_R ∧ OPCODE_S ≠ OPCODE_I ∧ OPCODE_S ≠ OPCODE_LOAD := by decide
  rw [decode_of_vector hvector]
  unfold decodeInst
  rw [hinst, if_neg hne.1, if_neg hne.2.1, if_neg hne.2.2, if_pos rfl, immS_eq, funct7_eq, rs2_eq,
    himm, hrd', hrs1']
  rfl

/-- Seven bits in front of five zeros are the seven bits times 32. -/
theorem append_zero_toNat (x : BitVec 7) : (x ++ 0#5).toNat = 32 * x.toNat := by
  rw [BitVec.toNat_append, BitVec.toNat_zero, Nat.or_zero, Nat.shiftLeft_eq]
  omega

/-- The immediate that a store word decodes to has its low five bits clear. -/
theorem stype_immediate (x : BitVec 7) : (signExtend (x ++ 0#5)).toNat % 32 = 0 := by
  rw [signExtend_toNat, append_zero_toNat]
  split_ifs
  · omega
  · omega

/-- With an offset below 2048 that leaves the low five bits clear, the two fields of a store do not
meet, and the immediate is the offset. -/
theorem stype_upper (hrs2 : rs2.validate = true) (himm : imm < 2048) (hlow : imm.toNat % 32 = 0) :
    ((rs2.bits ||| imm).setWidth 12).setWidth 5 = rs2.address ∧
      signExtend (((rs2.bits ||| imm).setWidth 12).extractLsb' 5 7 ++ 0#5) = imm := by
  have hnat : imm.toNat < 2048 := himm
  have hupper : (rs2.bits ||| imm).setWidth 12 = (rs2.bits ||| imm).extractLsb' 0 12 :=
    BitVec.setWidth_eq_extractLsb' (by decide)
  constructor
  · have hzero : imm.extractLsb' 0 5 = 0#5 := by
      apply BitVec.eq_of_toNat_eq
      rw [BitVec.extractLsb'_toNat, Nat.shiftRight_zero]
      exact hlow
    -- The offset has no bit where the register is.
    rw [BitVec.setWidth_eq_extractLsb' (by decide), hupper, extract_extract (by decide),
      BitVec.extractLsb'_or, hzero, BitVec.or_zero]
    exact (BitVec.setWidth_eq_extractLsb' (by decide)).symm
  · -- The register has no bit above its five, which leaves the offset's.
    rw [hupper, extract_extract (by decide), BitVec.extractLsb'_or,
      extract_of_lt (Register.bits_lt hrs2) (by decide), BitVec.zero_or]
    apply BitVec.eq_of_toNat_eq
    have hval : (imm.extractLsb' 5 7 ++ 0#5).toNat = imm.toNat := by
      rw [append_zero_toNat, BitVec.extractLsb'_toNat, Nat.shiftRight_eq_div_pow]
      omega
    rw [signExtend_toNat, hval, if_pos hnat]

/-- A store word decodes to the registers and the offset it was built from if and only if the low
five bits of the offset are zero. The builder merges these bits into the second source register, and
the decoder takes them from the place of the destination, which is empty. -/
theorem decode_store_iff (funct3 : Funct3) (hrs1 : rs1.validate = true)
    (hrs2 : rs2.validate = true) (himm : imm < 2048) :
    decode (word12 Opcode.STYPE.bits 0 funct3.bits rs1.bits (rs2.bits ||| imm)) =
      .ofStore rs1 rs2 imm ↔ imm.toNat % 32 = 0 := by
  rw [decode_stype funct3 _ hrs1]
  constructor
  · intro h
    -- The decoded immediate is a multiple of 32, and it is the offset.
    have himm' := congrArg Decoded.decoded_immediate h
    dsimp only [Decoded.ofStore] at himm'
    rw [← himm']
    exact stype_immediate _
  · intro h
    -- The fields do not meet, and the empty place of the destination is what the low bits are.
    obtain ⟨hrs2', himm'⟩ := stype_upper hrs2 himm h
    rw [hrs2', himm']
    rfl

/-- With an offset below 2048, the S-type builder returns a word, and it decodes to the store that
it was built from if and only if the low five bits of the offset are zero. -/
theorem createStypeInstruction_decode_iff (funct3 : Funct3) (hrs1 : rs1.validate = true)
    (hrs2 : rs2.validate = true) (himm : imm < 2048) :
    (∃ w, createStypeInstruction .STYPE funct3 rs1 rs2 imm = .ok w ∧
      decode w = .ofStore rs1 rs2 imm) ↔ imm.toNat % 32 = 0 := by
  have hfits : imm < 4096 := by
    have hnat : imm.toNat < 2048 := himm
    show imm.toNat < 4096
    omega
  have hbuilt : ∀ w, createStypeInstruction .STYPE funct3 rs1 rs2 imm = .ok w ↔
      w = word12 Opcode.STYPE.bits 0 funct3.bits rs1.bits (rs2.bits ||| imm) := fun w => by
    rw [createStypeInstruction_eq_ok]
    exact and_iff_right ⟨hrs1, hrs2, hfits⟩
  simp only [hbuilt, exists_eq_left]
  exact decode_store_iff funct3 hrs1 hrs2 himm

end Words

/-! ## The constructors -/

/-- A builder accepts exactly the operands that fit, and `P` holds of the word that it returns. -/
def Builds (built : Except Failure InstructionBits) (fits : Prop) (P : InstructionBits → Prop) :
    Prop :=
  ((∃ w, built = .ok w) ↔ fits) ∧ ∀ w, built = .ok w → P w

/-- A builder that returns one word under a condition builds what holds of that word. -/
theorem Builds.of_eq_ok {built : Except Failure InstructionBits} {fits : Prop}
    {P : InstructionBits → Prop} {v : InstructionBits}
    (h : ∀ w, built = .ok w ↔ fits ∧ w = v) (hv : fits → P v) : Builds built fits P := by
  refine ⟨⟨?_, fun hfits => ⟨v, (h v).mpr ⟨hfits, rfl⟩⟩⟩, ?_⟩
  · rintro ⟨w, hw⟩
    exact ((h w).mp hw).1
  · intro w hw
    obtain ⟨hfits, rfl⟩ := (h w).mp hw
    exact hv hfits

/-- The R-type constructors and their operations. -/
def rtypeConstructors :
    List ((Register → Register → Register → Except Failure InstructionBits) × AluInstruction) :=
  [(add, .ADD), (sub, .SUB), (sll, .SLL), (slt, .SLT), (xor_, .XOR), (srl, .SRL), (sra, .SRA),
    (or_, .OR), (and_, .AND)]

/-- The I-type constructors that do not shift and their operations. -/
def itypeConstructors :
    List ((Register → Register → IData → Except Failure InstructionBits) × AluInstruction) :=
  [(addi, .ADDI), (slti, .SLTI), (xori, .XORI), (ori, .ORI), (andi, .ANDI)]

/-- An R-type constructor sets a `funct3` and a `funct7` that select its operation. -/
theorem rtypeConstructors_spec : ∀ p ∈ rtypeConstructors, ∃ f3 f7,
    p.1 = createRtypeInstruction .RTYPE f3 f7 ∧
      ∀ d, decodeR (f3.bits.setWidth 3) (f7.bits.setWidth 7) d =
        { d with decoded_alu_instruction := p.2 } := by
  intro p hp
  simp only [rtypeConstructors, List.mem_cons, List.not_mem_nil, or_false] at hp
  rcases hp with rfl | rfl | rfl | rfl | rfl | rfl | rfl | rfl | rfl <;>
    exact ⟨_, _, rfl, fun _ => rfl⟩

/-- An I-type constructor sets a `funct3` that selects its operation. -/
theorem itypeConstructors_spec : ∀ p ∈ itypeConstructors, ∃ f3,
    p.1 = createItypeInstruction .ITYPE f3 ∧
      ∀ f7 d, decodeI (f3.bits.setWidth 3) f7 d = { d with decoded_alu_instruction := p.2 } := by
  intro p hp
  simp only [itypeConstructors, List.mem_cons, List.not_mem_nil, or_false] at hp
  rcases hp with rfl | rfl | rfl | rfl | rfl <;> exact ⟨_, rfl, fun _ _ => rfl⟩

/-- Decoding undoes encoding: the words of the R-type constructors, the I-type ones, `lw`, and
`lui`, in both forms, and of `jalr` and the `sx` instructions. -/
theorem constructors_decode :
    (∀ p ∈ rtypeConstructors, ∀ rd rs1 rs2,
      Builds (p.1 rd rs1 rs2)
        (rd.validate = true ∧ rs1.validate = true ∧ rs2.validate = true) fun w =>
          decode w = .ofRtype p.2 rd rs1 rs2 ∧
            decode (makeScalar w) = (Decoded.ofRtype p.2 rd rs1 rs2).scalar) ∧
    (∀ p ∈ itypeConstructors, ∀ rd rs1 imm,
      Builds (p.1 rd rs1 imm) (rd.validate = true ∧ rs1.validate = true ∧ imm < 4096) fun w =>
        decode w = .ofItype p.2 rd rs1 imm ∧
          decode (makeScalar w) = (Decoded.ofItype p.2 rd rs1 imm).scalar) ∧
    (∀ rd rs1 imm,
      Builds (lw rd rs1 imm) (rd.validate = true ∧ rs1.validate = true ∧ imm < 4096) fun w =>
        decode w = .ofLoad rd rs1 imm ∧
          decode (makeScalar w) = (Decoded.ofLoad rd rs1 imm).scalar) ∧
    (∀ rd imm,
      Builds (lui rd imm) (rd.validate = true ∧ imm < 1048576) fun w =>
        decode w = .ofLui rd imm ∧ decode (makeScalar w) = (Decoded.ofLui rd imm).scalar) ∧
    (∀ rd rs1 imm,
      Builds (jalr rd rs1 imm) (rd.validate = true ∧ rs1.validate = true ∧ imm < 4096) fun w =>
        decode w = .ofJalr rd rs1 imm) ∧
    (∀ rd rs1 rs2,
      Builds (sxSlt rd rs1 rs2)
        (rd.validate = true ∧ rs1.validate = true ∧ rs2.validate = true) fun w =>
          decode w = (Decoded.ofRtype .SLT rd rs1 rs2).gathering) ∧
    ∀ rd rs1 imm,
      Builds (sxSlti rd rs1 imm) (rd.validate = true ∧ rs1.validate = true ∧ imm < 4096) fun w =>
        decode w = (Decoded.ofItype .SLTI rd rs1 imm).gathering := by
  refine ⟨fun p hp rd rs1 rs2 => ?_, fun p hp rd rs1 imm => ?_, fun rd rs1 imm => ?_,
    fun rd imm => ?_, fun rd rs1 imm => ?_, fun rd rs1 rs2 => ?_, fun rd rs1 imm => ?_⟩
  · -- The members of a table share one constructor, and differ in their function codes.
    obtain ⟨f3, f7, hp, hsel⟩ := rtypeConstructors_spec p hp
    rw [hp]
    exact .of_eq_ok (fun _ => createRtypeInstruction_eq_ok)
      fun h => decode_rtype hsel h.1 h.2.1 h.2.2
  · obtain ⟨f3, hp, hsel⟩ := itypeConstructors_spec p hp
    rw [hp]
    exact .of_eq_ok (fun _ => createItypeInstruction_eq_ok) fun h => decode_itype (hsel _) h.1 h.2.1
  · exact .of_eq_ok (fun _ => createItypeInstruction_eq_ok) fun h => decode_load .LW h.1 h.2.1
  · exact .of_eq_ok (fun _ => createUtypeInstruction_eq_ok) fun h => decode_lui h.1 h.2
  · exact .of_eq_ok (fun _ => createItypeInstruction_eq_ok) fun h => decode_jalr h.1 h.2.1
  · exact .of_eq_ok (fun _ => createRtypeInstruction_eq_ok)
      fun h => decode_sxSlt h.1 h.2.1 h.2.2
  · exact .of_eq_ok (fun _ => createItypeInstruction_eq_ok) fun h => decode_sxSlti h.1 h.2.1

end SmolGpu
