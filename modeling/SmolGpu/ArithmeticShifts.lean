import SmolGpu.Alu
import SmolGpu.Library.TwosComplement
import SmolGpu.Sim.RoundTrip

/-!
# Arithmetic shifts

`srai` and `sra`, from the builders to the result of the ALU. Two things are in the way of a shift
that replicates the sign. The `funct7` of `srai` is a part of the immediate that the decoder hands
to the shifter, so that the amount is 1024 too high and everything is shifted out. And `>>>` on the
unsigned `data_t` shifts in zeros (`arithmetic_shifts_iff`).
-/

namespace SmolGpu

open Sim Sim.Instructions

/-- The result of the ALU for a word, on the registers that the word reads. -/
def aluResultOf (w : InstructionT) (pc : DataT) (registers : RegAddress → DataT) : DataT :=
  let d := decode w
  aluResult d.decoded_alu_instruction pc d.decoded_immediate (registers d.decoded_rs1_address)
    (registers d.decoded_rs2_address)

variable {rd rs1 rs2 : Register} {k : IData} (pc : DataT) (registers : RegAddress → DataT)

/-- The amount of an `srai` and its `funct7` above it are one number. -/
theorem srai_upper (hk : k < 32) : (k ||| Funct7.SRAI.bits <<< 5).toNat = k.toNat + 1024 := by
  have hlt : k.toNat < 2 ^ 5 := hk
  have hor : (32 <<< 5 + k.toNat : ℕ) = 32 <<< 5 ||| k.toNat := Nat.shiftLeft_add_eq_or_of_lt hlt 32
  have hbits : (Funct7.SRAI.bits <<< 5).toNat = 32 <<< 5 := rfl
  rw [BitVec.toNat_or, hbits, Nat.or_comm, ← hor]
  omega

/-- The immediate that an `srai` is decoded to. -/
theorem srai_immediate (hk : k < 32) :
    (signExtend ((k ||| Funct7.SRAI.bits <<< 5).setWidth 12)).toNat = k.toNat + 1024 := by
  have hlt : k.toNat < 2 ^ 5 := hk
  have hlow : ((k ||| Funct7.SRAI.bits <<< 5).setWidth 12).toNat = k.toNat + 1024 := by
    rw [BitVec.toNat_setWidth, srai_upper hk]
    omega
  rw [signExtend_toNat, hlow, if_pos (by omega)]

/-- The words of `srai` shift everything out. -/
theorem srai_result {w : InstructionBits} (h : srai rd rs1 k = .ok w) :
    aluResultOf w pc registers = 0 := by
  obtain ⟨⟨hrd, hrs1, hk⟩, rfl⟩ := createItypeShiftInstruction_eq_ok.mp h
  have hlow : k.toNat < 2 ^ 5 := hk
  have hselects (d : Decoded) : decodeI (Funct3.SRAI.bits.setWidth 3)
      (((k ||| Funct7.SRAI.bits <<< 5).setWidth 12).extractLsb' 5 7) d =
        { d with decoded_alu_instruction := .SRAI } := by
    rw [(upper_fields .SRAI hlow).2]
    rfl
  have hdecode := (decode_itype hselects hrd hrs1).1
  unfold aluResultOf
  rw [hdecode]
  show registers rs1.address >>> signExtend ((k ||| Funct7.SRAI.bits <<< 5).setWidth 12) = 0
  have himm := srai_immediate hk
  rw [BitVec.ushiftRight_eq', himm]
  exact BitVec.ushiftRight_eq_zero (by omega)

/-- The words of `sra` shift in zeros. -/
theorem sra_result {w : InstructionBits} (h : sra rd rs1 rs2 = .ok w) :
    aluResultOf w pc registers =
      registers rs1.address >>> (registers rs2.address).toNat := by
  obtain ⟨⟨hrd, hrs1, hrs2⟩, rfl⟩ := createRtypeInstruction_eq_ok.mp h
  have hselects (d : Decoded) :
      decodeR (Funct3.SRA.bits.setWidth 3) (Funct7.SRA.bits.setWidth 7) d =
        { d with decoded_alu_instruction := .SRA } := rfl
  have hdecode := (decode_rtype hselects hrd hrs1 hrs2).1
  unfold aluResultOf
  rw [hdecode]
  rfl

/-- With an amount `k` below 32, the result of an `srai` is the quotient of the signed number by `2
^ k`, rounded down, if and only if the unsigned number is less than `2 ^ k`. The result of an `sra`
is the quotient if and only if the number is not negative or `k` is 0. -/
theorem arithmetic_shifts_iff (hrd : rd.validate = true) (hrs1 : rs1.validate = true)
    (hk : k < 32) :
    ((∃ w, srai rd rs1 k = .ok w ∧
        (aluResultOf w pc registers).toInt = (registers rs1.address).toInt / 2 ^ k.toNat) ↔
      (registers rs1.address).toNat < 2 ^ k.toNat) ∧
    (rs2.validate = true → registers rs2.address = k →
      ((∃ w, sra rd rs1 rs2 = .ok w ∧
          (aluResultOf w pc registers).toInt = (registers rs1.address).toInt / 2 ^ k.toNat) ↔
        (registers rs1.address).msb = false ∨ k = 0)) := by
  have hlt : k.toNat < 32 := hk
  constructor
  · -- The `srai` word gives zero, as its immediate has bit 10 of `funct7`.
    obtain ⟨w, hw⟩ : ∃ w, srai rd rs1 k = .ok w :=
      ⟨_, createItypeShiftInstruction_eq_ok.mpr ⟨⟨hrd, hrs1, hk⟩, rfl⟩⟩
    rw [hw]
    simp only [Except.ok.injEq, exists_eq_left']
    rw [srai_result pc registers hw, ← TwosComplement.toInt_ediv_eq_zero_iff hlt]
    exact eq_comm
  · -- The `sra` word shifts zeros in.
    intro hrs2 hamount
    obtain ⟨w, hw⟩ : ∃ w, sra rd rs1 rs2 = .ok w :=
      ⟨_, createRtypeInstruction_eq_ok.mpr ⟨⟨hrd, hrs1, hrs2⟩, rfl⟩⟩
    have hzero : k.toNat = 0 ↔ k = 0 := by
      rw [← BitVec.toNat_inj]
      rfl
    rw [hw]
    simp only [Except.ok.injEq, exists_eq_left']
    rw [sra_result pc registers hw, hamount, TwosComplement.toInt_ushiftRight_eq_iff, hzero]

/-- Shifts of 1 by 1. -/
theorem arithmetic_shifts_iff_one :
    ((∃ w, srai ⟨5, .VECTOR⟩ ⟨6, .VECTOR⟩ 1 = .ok w ∧
        (aluResultOf w 0 fun _ => 1).toInt = (1#32).toInt / 2 ^ (1#32).toNat) ↔
      (1#32).toNat < 2 ^ (1#32).toNat) ∧
    ((∃ w, sra ⟨5, .VECTOR⟩ ⟨6, .VECTOR⟩ ⟨7, .VECTOR⟩ = .ok w ∧
        (aluResultOf w 0 fun _ => 1).toInt = (1#32).toInt / 2 ^ (1#32).toNat) ↔
      (1#32).msb = false ∨ 1#32 = 0) := by
  have hiff := @arithmetic_shifts_iff ⟨5, .VECTOR⟩ ⟨6, .VECTOR⟩ ⟨7, .VECTOR⟩ 1 0 (fun _ => 1)
    (by decide) (by decide) (by decide)
  exact ⟨hiff.1, hiff.2 (by decide) rfl⟩

/-- Neither instruction halves -2, to which the shifts by 1 give 0 and 2147483647. -/
theorem arithmetic_shift_logical :
    ¬∀ (rd rs1 rs2 : Register) (k : IData) (pc : DataT) (registers : RegAddress → DataT),
      rd.validate = true → rs1.validate = true → rs2.validate = true → k < 32 →
        registers rs2.address = k →
          (∃ w, srai rd rs1 k = .ok w ∧
            (aluResultOf w pc registers).toInt = (registers rs1.address).toInt / 2 ^ k.toNat) ∧
          ∃ w, sra rd rs1 rs2 = .ok w ∧
            (aluResultOf w pc registers).toInt = (registers rs1.address).toInt / 2 ^ k.toNat := by
  intro h
  have hboth := h ⟨5, .VECTOR⟩ ⟨6, .VECTOR⟩ ⟨7, .VECTOR⟩ 1 0 (fun r => if r = 7 then 1 else -2)
    (by decide) (by decide) (by decide) (by decide) (by decide)
  obtain ⟨w, hw, hsra⟩ := hboth.2
  rw [sra_result _ _ hw] at hsra
  exact absurd hsra (by decide)

end SmolGpu
