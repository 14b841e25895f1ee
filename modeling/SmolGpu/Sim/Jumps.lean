import SmolGpu.Alu
import SmolGpu.Sim.RoundTrip

/-!
# Jumps

`jal`, from the builder to the target that the ALU computes. `set_imm21` scatters the immediate over
the word, and the decoder gathers it. Neither has a place for bit 0, so the offset is rounded down
to an even number. But the program counter counts words, and so half the targets cannot be reached
(`jal_round_trip_iff`).
-/

namespace SmolGpu

open Sim Sim.Instructions BitField

/-- A `jal` with the given offset. -/
def Decoded.ofJal (rd : Register) (offset : DataT) : Decoded :=
  { Decoded.default with
    decoded_reg_write_enable := true
    decoded_reg_input_mux := .pcPlus1
    decoded_scalar_instruction := true
    decoded_immediate := offset
    decoded_rd_address := rd.address
    decoded_alu_instruction := .JAL }

/-- The value of a 21-bit immediate, extended by its sign. -/
def jumpOffset (imm : IData) : DataT := (imm.setWidth 21).signExtend 32

section Words

variable {rd : Register} {imm : IData}

/-- Above the registers, a J-type word is its scattered immediate. -/
theorem extract_jtype (opcode : Opcode) (hrd : rd.validate = true) {s n : ℕ} (hs : 12 ≤ s)
    (hn : s + n ≤ 32) :
    (opcode.bits ||| rd.bits <<< 7 ||| immJBits imm).extractLsb' s n =
      (immJBits imm).extractLsb' s n := by
  rw [BitVec.extractLsb'_or, BitVec.extractLsb'_or, extract_of_lt opcode.bits_lt (by omega),
    extract_shiftLeft_above (Register.bits_lt hrd) (by omega) hn]
  simp

/-- The scattered immediate is above the destination register. -/
theorem rd_jtype (opcode : Opcode) :
    SmolGpu.rd (opcode.bits ||| rd.bits <<< 7 ||| immJBits imm) = rd.address := by
  have himm : (immJBits imm).extractLsb' 7 5 = 0#5 := by
    unfold immJBits
    rw [BitVec.extractLsb'_append_eq_of_add_le (by decide)]
    rfl
  unfold SmolGpu.rd
  rw [BitVec.extractLsb'_or, BitVec.extractLsb'_or, extract_of_lt opcode.bits_lt (by decide),
    extract_shiftLeft_self (by decide), himm]
  simp [Register.address, Register.bits]

/-- The decoder gathers what `set_imm21` scatters, which leaves out bit 0. -/
theorem immJ_immJBits (imm : IData) : immJ (immJBits imm) = imm.extractLsb' 1 20 ++ 0#1 := by
  have h31 : (immJBits imm).extractLsb' 31 1 = imm.extractLsb' 20 1 := by
    unfold immJBits
    rw [BitVec.extractLsb'_append_eq_of_le (by decide),
      BitVec.extractLsb'_append_eq_of_le (by decide),
      BitVec.extractLsb'_append_eq_of_le (by decide)]
    exact BitVec.extractLsb'_append_eq_left
  have h12 : (immJBits imm).extractLsb' 12 8 = imm.extractLsb' 12 8 := by
    unfold immJBits
    rw [BitVec.extractLsb'_append_eq_of_le (by decide)]
    exact BitVec.extractLsb'_append_eq_right
  have h20 : (immJBits imm).extractLsb' 20 1 = imm.extractLsb' 11 1 := by
    unfold immJBits
    rw [BitVec.extractLsb'_append_eq_of_le (by decide),
      BitVec.extractLsb'_append_eq_of_le (by decide)]
    exact BitVec.extractLsb'_append_eq_right
  have h21 : (immJBits imm).extractLsb' 21 10 = imm.extractLsb' 1 10 := by
    unfold immJBits
    rw [BitVec.extractLsb'_append_eq_of_le (by decide),
      BitVec.extractLsb'_append_eq_of_le (by decide),
      BitVec.extractLsb'_append_eq_of_le (by decide)]
    exact BitVec.extractLsb'_append_eq_right
  unfold immJ
  rw [h31, h12, h20, h21]
  -- The four parts are adjacent.
  rw [BitVec.extractLsb'_append_extractLsb'_eq_extractLsb' (by decide),
    BitVec.extractLsb'_append_extractLsb'_eq_extractLsb' (by decide),
    BitVec.extractLsb'_append_extractLsb'_eq_extractLsb' (by decide)]

/-- A `jal` word decodes to a `jal` whose offset has bit 0 cleared. -/
theorem decode_jtype (hrd : rd.validate = true) :
    decode (Opcode.JTYPE.bits ||| rd.bits <<< 7 ||| immJBits imm) =
      .ofJal rd ((imm.extractLsb' 1 20 ++ 0#1).signExtend 32) := by
  have hop : opcode (Opcode.JTYPE.bits ||| rd.bits <<< 7 ||| immJBits imm) = OPCODE_J :=
    opcode_immJ imm
  have himm : immJ (Opcode.JTYPE.bits ||| rd.bits <<< 7 ||| immJBits imm) =
      imm.extractLsb' 1 20 ++ 0#1 := by
    rw [← immJ_immJBits]
    unfold immJ
    rw [extract_jtype .JTYPE hrd (by decide) (by decide),
      extract_jtype .JTYPE hrd (by decide) (by decide),
      extract_jtype .JTYPE hrd (by decide) (by decide),
      extract_jtype .JTYPE hrd (by decide) (by decide)]
  -- The other seven-bit opcodes come first in the decoder's chain, and are not this one.
  unfold decode
  simp only
  rw [hop, if_neg (by decide), if_neg (by decide), if_neg (by decide), if_neg (by decide),
    if_pos rfl, himm, rd_jtype .JTYPE, signExtend21_eq]
  rfl

/-- An even immediate is what the word keeps of it. -/
theorem extract_append_zero_iff (imm : IData) :
    imm.extractLsb' 1 20 ++ 0#1 = imm.setWidth 21 ↔ imm.toNat % 2 = 0 := by
  have hwidth : imm.setWidth 21 = imm.extractLsb' 1 20 ++ imm.extractLsb' 0 1 := by
    rw [BitVec.extractLsb'_append_extractLsb'_eq_extractLsb' (by decide)]
    exact BitVec.setWidth_eq_extractLsb' (by decide)
  have hbit : (imm.extractLsb' 0 1).toNat = imm.toNat % 2 := by
    rw [BitVec.extractLsb'_toNat, Nat.shiftRight_zero, pow_one]
  rw [hwidth, BitVec.append_right_inj, ← BitVec.toNat_inj, hbit, BitVec.toNat_zero]
  exact eq_comm

/-- A sign extension keeps the signed number, and so it is injective. -/
theorem signExtend_inj {x y : BitVec 21} : x.signExtend 32 = y.signExtend 32 ↔ x = y := by
  rw [← BitVec.toInt_inj, BitVec.toInt_signExtend_of_le (by decide),
    BitVec.toInt_signExtend_of_le (by decide), BitVec.toInt_inj]

end Words

/-- For a valid register and an immediate that `set_imm21` accepts, the word of `jal` decodes to a
`jal` with the same register and offset, so that the ALU computes the target, if and only if the
immediate is even. -/
theorem jal_round_trip_iff {rd : Register} {imm : IData} (hrd : rd.validate = true)
    (himm : imm < 2097152) (pc rs1 rs2 : DataT) :
    (∃ w, jal rd imm = .ok w ∧ decode w = .ofJal rd (jumpOffset imm) ∧
        aluResult (decode w).decoded_alu_instruction pc (decode w).decoded_immediate rs1 rs2 =
          pc + jumpOffset imm) ↔ imm.toNat % 2 = 0 := by
  have hbuilt : ∀ w, jal rd imm = .ok w ↔
      w = Opcode.JTYPE.bits ||| rd.bits <<< 7 ||| immJBits imm := fun w => by
    unfold jal
    rw [createJtypeInstruction_eq_ok]
    exact and_iff_right ⟨hrd, himm⟩
  simp only [hbuilt, exists_eq_left]
  rw [decode_jtype hrd, ← extract_append_zero_iff, ← signExtend_inj]
  constructor
  · rintro ⟨hdecode, -⟩
    exact congrArg Decoded.decoded_immediate hdecode
  · intro heven
    rw [heven]
    exact ⟨rfl, rfl⟩

/-- `jal x1, -2` jumps two words back. -/
theorem jal_round_trip_iff_back :
    (∃ w, jal ⟨1, .VECTOR⟩ 2097150 = .ok w ∧
        decode w = .ofJal ⟨1, .VECTOR⟩ (jumpOffset 2097150) ∧
          aluResult (decode w).decoded_alu_instruction 10 (decode w).decoded_immediate 0 0 =
            10 + jumpOffset 2097150) ↔ (2097150#32).toNat % 2 = 0 :=
  jal_round_trip_iff (by decide) (by decide) 10 0 0

/-- `jal x1, 3` jumps two words forward. -/
theorem jal_offset_lost :
    ¬∀ (rd : Register) (imm : IData) (pc rs1 rs2 : DataT), rd.validate = true → imm < 2097152 →
      ∃ w, jal rd imm = .ok w ∧ decode w = .ofJal rd (jumpOffset imm) ∧
        aluResult (decode w).decoded_alu_instruction pc (decode w).decoded_immediate rs1 rs2 =
          pc + jumpOffset imm := by
  intro h
  obtain ⟨w, hw, hdecode, -⟩ := h ⟨1, .VECTOR⟩ 3 0 0 0 (by decide) (by decide)
  obtain ⟨-, rfl⟩ := createJtypeInstruction_eq_ok.mp hw
  have himm := congrArg Decoded.decoded_immediate hdecode
  exact absurd himm (by decide)

end SmolGpu
