import SmolGpu.Sim.Words

/-!
# Scalar forms of the vector instructions

The six-bit opcodes name a class of instructions, and bit 6 of the word selects its scalar form
(`make_scalar`). The decoder tests the seven-bit opcodes first. Each of these has bit 6 set, so a
vector form is never taken for one of them (`decode_of_vector`). The scalar form of a class is not
either, unless the class's opcode under bit 6 is itself a seven-bit opcode: `OPCODE_S` is the one
class of which that holds, as its scalar form has the opcode of the branches
(`scalar_mem_sevenBitOpcodes`).
-/

namespace SmolGpu

open Sim BitField

/-- The opcodes that `decoder` matches on seven bits. -/
def sevenBitOpcodes : List (BitVec 7) :=
  [OPCODE_HALT, OPCODE_SX_SLT, OPCODE_SX_SLTI, OPCODE_B, OPCODE_J, OPCODE_JALR]

/-- The classes that `decoder` matches on six bits. -/
def sixBitOpcodes : List (BitVec 6) :=
  [OPCODE_R, OPCODE_I, OPCODE_LOAD, OPCODE_S, OPCODE_U, OPCODE_AUIPC]

/-! ## Fields in terms of others -/

section Fields

variable (w : InstructionT)

/-- An opcode is the scalar bit above the six-bit opcode. -/
theorem opcode_eq : opcode w = BitVec.ofBool (scalarBit w) ++ inst w := by
  apply BitVec.eq_of_getLsbD_eq
  intro i hi
  unfold opcode inst scalarBit
  rw [BitVec.getLsbD_append, BitVec.getLsbD_extractLsb', BitVec.getLsbD_extractLsb']
  split_ifs with h
  · simp [h, hi]
  · have h6 : i = 6 := by omega
    simp [h6]

/-- The scalar flag is the top bit of the seven-bit opcode. -/
theorem scalarBit_eq : scalarBit w = (opcode w).getLsbD 6 := by
  simp [scalarBit, opcode]

/-- The six-bit opcode is the rest of the seven-bit one. -/
theorem inst_eq : inst w = (opcode w).setWidth 6 := by
  unfold inst opcode
  rw [BitVec.setWidth_eq_extractLsb' (by decide), extract_extract (by decide)]

/-- The second register has the low five bits of the I-type immediate. -/
theorem rs2_eq : rs2 w = (immI w).setWidth 5 := by
  unfold rs2 immI
  rw [BitVec.setWidth_eq_extractLsb' (by decide), extract_extract (by decide)]

/-- `funct7` has the high seven bits of the I-type immediate. -/
theorem funct7_eq : funct7 w = (immI w).extractLsb' 5 7 := by
  unfold funct7 immI
  rw [extract_extract (by decide)]

/-- The S-type immediate takes the place of `funct7` and the destination. -/
theorem immS_eq : immS w = funct7 w ++ rd w := rfl

end Fields

/-! ## Words that the six-bit opcodes decide -/

/-- A word that no seven-bit opcode matches is decoded by its six-bit opcode. -/
theorem decode_of_not_mem {w : InstructionT} (h : opcode w ∉ sevenBitOpcodes) :
    decode w = decodeInst w { Decoded.default with
      decoded_scalar_instruction := scalarBit w } := by
  simp only [sevenBitOpcodes, List.mem_cons, List.not_mem_nil, or_false, not_or] at h
  obtain ⟨h1, h2, h3, h4, h5, h6⟩ := h
  unfold decode
  simp only
  rw [if_neg h1, if_neg h2, if_neg h3, if_neg h4, if_neg h5, if_neg h6]

/-- Every seven-bit opcode has the scalar bit. -/
theorem scalarBit_of_mem {w : InstructionT} (h : opcode w ∈ sevenBitOpcodes) :
    scalarBit w = true := by
  have hall : ∀ o ∈ sevenBitOpcodes, o.getLsbD 6 = true := by decide
  rw [scalarBit_eq]
  exact hall _ h

/-- A word without the scalar bit is decoded by its six-bit opcode. -/
theorem decode_of_vector {w : InstructionT} (h : scalarBit w = false) :
    decode w = decodeInst w Decoded.default := by
  have hmem : opcode w ∉ sevenBitOpcodes := fun hmem => by
    simp [scalarBit_of_mem hmem] at h
  rw [decode_of_not_mem hmem, h]
  rfl

/-- Under the scalar bit, stores are the one class whose opcode is matched before the classes. -/
theorem scalar_mem_sevenBitOpcodes {o : BitVec 6} (h : o ∈ sixBitOpcodes) :
    BitVec.ofBool true ++ o ∈ sevenBitOpcodes ↔ o = OPCODE_S := by
  revert o
  decide

/-- A word of any class but the stores' is decoded by its class, in the scalar form as well. -/
theorem decode_of_class {w : InstructionT} (hclass : inst w ∈ sixBitOpcodes)
    (hstore : inst w ≠ OPCODE_S) : decode w = decodeInst w { Decoded.default with
      decoded_scalar_instruction := scalarBit w } := by
  refine decode_of_not_mem fun hmem => ?_
  have hscalar : scalarBit w = true := scalarBit_of_mem hmem
  rw [opcode_eq, hscalar, scalar_mem_sevenBitOpcodes hclass] at hmem
  exact hstore hmem

/-- The fields with another scalar flag. -/
def Decoded.withScalar (b : Bool) (d : Decoded) : Decoded :=
  { d with decoded_scalar_instruction := b }

/-- Decoding the function codes of an R-type word commutes with setting the scalar flag. -/
theorem decodeR_withScalar (f3 : BitVec 3) (f7 : BitVec 7) (d : Decoded) (b : Bool) :
    decodeR f3 f7 (d.withScalar b) = (decodeR f3 f7 d).withScalar b := by
  unfold decodeR
  simp only [apply_ite (Decoded.withScalar b)]
  rfl

/-- Decoding the function codes of an I-type word commutes with setting the scalar flag. -/
theorem decodeI_withScalar (f3 : BitVec 3) (f7 : BitVec 7) (d : Decoded) (b : Bool) :
    decodeI f3 f7 (d.withScalar b) = (decodeI f3 f7 d).withScalar b := by
  unfold decodeI
  simp only [apply_ite (Decoded.withScalar b)]
  rfl

/-- The six-bit opcodes leave the scalar flag as it is. -/
theorem decodeInst_withScalar (w : InstructionT) (d : Decoded) (b : Bool) :
    decodeInst w (d.withScalar b) = (decodeInst w d).withScalar b := by
  unfold decodeInst
  -- The flag moves into every branch, and on through the two inner cases.
  simp only [apply_ite (Decoded.withScalar b), ← decodeR_withScalar, ← decodeI_withScalar]
  rfl

/-- The six-bit classes do not touch the scalar flag. -/
theorem decodeInst_default_scalar (w : InstructionT) :
    (decodeInst w Decoded.default).decoded_scalar_instruction = false := by
  refine decodeInst_cases ?_ ?_ ?_ ?_ ?_ ?_ ?_ <;> intros <;> rfl

/-- The six-bit opcodes are no branches. -/
theorem decodeInst_default_branch (w : InstructionT) :
    (decodeInst w Decoded.default).decoded_branch = false := by
  refine decodeInst_cases ?_ ?_ ?_ ?_ ?_ ?_ ?_ <;> intros <;> rfl

/-- The scalar instructions are the words with the scalar bit other than the two `sx` ones. -/
theorem decode_scalar_iff (w : InstructionT) :
    (decode w).decoded_scalar_instruction = true ↔ scalarBit w = true ∧ ¬IsSx w := by
  -- Any other opcode of seven bits has the scalar bit.
  have hother : ∀ {o}, opcode w = o → o ∈ sevenBitOpcodes →
      o ≠ OPCODE_SX_SLT ∧ o ≠ OPCODE_SX_SLTI → scalarBit w = true ∧ ¬IsSx w := by
    rintro o rfl hmem ⟨hslt, hslti⟩
    exact ⟨scalarBit_of_mem hmem, fun hsx => hsx.elim hslt hslti⟩
  refine decode_cases (fun h => ?_) (fun h => ?_) (fun h => ?_) (fun _ h => ?_) (fun h => ?_)
    (fun h => ?_) fun h1 h2 h3 h4 h5 h6 => ?_
  · have hboth := hother h (by decide) (by decide)
    exact iff_of_true hboth.1 hboth
  · exact iff_of_false (by simp) fun hboth => hboth.2 (.inl h)
  · exact iff_of_false (by simp) fun hboth => hboth.2 (.inr h)
  · have hboth := hother h (by decide) (by decide)
    exact iff_of_true hboth.1 hboth
  · exact iff_of_true rfl (hother h (by decide) (by decide))
  · exact iff_of_true rfl (hother h (by decide) (by decide))
  · have hsx : ¬IsSx w := fun hsx => hsx.elim h2 h3
    have hflag : decodeInst w (initial w) =
        (decodeInst w Decoded.default).withScalar (scalarBit w) := decodeInst_withScalar _ _ _
    rw [hflag]
    exact (and_iff_left hsx).symm

/-! ## `make_scalar` -/

section MakeScalar

variable (w : InstructionT)

/-- Bit 6 is in no field above the opcode. -/
theorem makeScalar_extract {s n : ℕ} (hs : 7 ≤ s) (hw : s + n ≤ 32) :
    (makeScalar w).extractLsb' s n = w.extractLsb' s n := by
  have hone : (1#32).toNat < 2 ^ 1 := by decide
  unfold makeScalar
  rw [BitVec.extractLsb'_or, extract_shiftLeft_above hone (by omega) hw]
  simp

/-- `make_scalar` sets the scalar bit. -/
theorem scalarBit_makeScalar : scalarBit (makeScalar w) = true := by
  simp [scalarBit, makeScalar]

/-- `make_scalar` keeps the six-bit opcode. -/
theorem inst_makeScalar : inst (makeScalar w) = inst w := by
  unfold inst makeScalar
  rw [BitVec.extractLsb'_or, extract_shiftLeft_below (by decide)]
  simp

/-- The scalar form has the fields of the vector form, so its class is decoded in the same way. -/
theorem decodeInst_makeScalar (d : Decoded) : decodeInst (makeScalar w) d = decodeInst w d := by
  have hrd : rd (makeScalar w) = rd w := makeScalar_extract w (by decide) (by decide)
  have hf3 : funct3 (makeScalar w) = funct3 w := makeScalar_extract w (by decide) (by decide)
  have hrs1 : rs1 (makeScalar w) = rs1 w := makeScalar_extract w (by decide) (by decide)
  have himm : immI (makeScalar w) = immI w := makeScalar_extract w (by decide) (by decide)
  have hu : immU (makeScalar w) = immU w := makeScalar_extract w (by decide) (by decide)
  unfold decodeInst
  simp only [inst_makeScalar, immS_eq, rs2_eq, funct7_eq, hrd, hf3, hrs1, himm, hu]

/-- The scalar form of any class but the stores' is decoded like its vector form. -/
theorem decode_makeScalar {w : InstructionT} (hclass : inst w ∈ sixBitOpcodes)
    (hstore : inst w ≠ OPCODE_S) :
    decode (makeScalar w) =
      { decodeInst w Decoded.default with decoded_scalar_instruction := true } := by
  rw [← inst_makeScalar] at hclass hstore
  rw [decode_of_class hclass hstore, scalarBit_makeScalar]
  calc decodeInst (makeScalar w) (Decoded.default.withScalar true)
      = (decodeInst (makeScalar w) Decoded.default).withScalar true := decodeInst_withScalar _ _ _
    _ = (decodeInst w Decoded.default).withScalar true := by rw [decodeInst_makeScalar]

/-- The scalar form of a store is decoded as a branch. -/
theorem decode_makeScalar_store {w : InstructionT} (h : inst w = OPCODE_S) :
    (decode (makeScalar w)).decoded_branch = true := by
  have hop : opcode (makeScalar w) = OPCODE_B := by
    rw [opcode_eq, scalarBit_makeScalar, inst_makeScalar, h]
    decide
  unfold decode
  simp only [hop]
  rw [if_neg (by decide), if_neg (by decide), if_neg (by decide), if_pos trivial, decodeBranch_eq]

end MakeScalar

/-! ## Duality -/

/-- The decoder reads `w` as a vector instruction, and `w` with bit 6 set as the same instruction on
scalars. -/
def Dual (w : InstructionT) : Prop :=
  (decode w).decoded_scalar_instruction = false ∧
    decode (makeScalar w) = { decode w with decoded_scalar_instruction := true }

/-- Whether a word has two forms is decidable from its fields. -/
instance (w : InstructionT) : Decidable (Dual w) := inferInstanceAs (Decidable (_ ∧ _))

/-- Every class has scalar forms that mean the same as its vector forms, except the stores. -/
theorem scalar_dual_iff {w : InstructionT} (hclass : inst w ∈ sixBitOpcodes)
    (hvector : scalarBit w = false) : Dual w ↔ inst w ≠ OPCODE_S := by
  unfold Dual
  rw [decode_of_vector hvector]
  refine ⟨fun h hstore => ?_, fun hstore => ⟨decodeInst_default_scalar w, ?_⟩⟩
  · -- A store is no branch, and its scalar form is one.
    have hbranch := congrArg Decoded.decoded_branch h.2
    rw [decode_makeScalar_store hstore] at hbranch
    exact absurd (hbranch.trans (decodeInst_default_branch w)) (by decide)
  · exact decode_makeScalar hclass hstore

/-- `lw x5, 4(x6)` and `s.lw s5, 4(s6)`. -/
theorem scalar_dual_iff_lw : Dual 0x00432283#32 ↔ inst 0x00432283#32 ≠ OPCODE_S :=
  scalar_dual_iff (by decide) (by decide)

/-- `sw x5, 0(x6)` is a store, and the word with bit 6 set a branch. -/
theorem scalar_store_not_dual :
    ¬∀ w, inst w ∈ sixBitOpcodes → scalarBit w = false → Dual w := by
  intro h
  exact absurd (h 0x00532023#32 (by decide) (by decide)) (by decide)

end SmolGpu
