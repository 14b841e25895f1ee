import SmolGpu.Alu
import SmolGpu.Decoder
import SmolGpu.Library.Loop
import Mathlib.Data.Fin.Tuple.Basic
import Mathlib.Logic.Function.Basic

/-!
# One instruction of a warp

What the core is for: a warp executes one instruction at a time on its architectural state, its
`pc`, its scalar registers, and the vector registers of its threads. `WarpArch.exec` is an
instruction in one step, with the words that its loads return as an argument. It knows no stages,
latches, or shared units. `WarpArch.address` and `WarpArch.storeData` are what its loads and stores
ask of memory.

The lanes are numbered as the core's: lane `i < T` is thread `i`, and lane `T` the scalar lane.
-/

namespace SmolGpu

/-- The architectural state of a warp of `T` threads. The first four vector registers read as zero,
the thread's id, the block's id, and the block's size. -/
@[ext]
structure WarpArch (T : ℕ) where
  pc : InstructionMemoryAddressT
  scalar : RegAddress → DataT
  vector : Fin T → RegAddress → DataT

namespace WarpArch

variable {T : ℕ} (d : Decoded) (loads : Fin (T + 1) → DataT) (a : WarpArch T)

/-- Thread `i` is enabled by the execution mask, scalar register 1. -/
def mask (i : Fin T) : Bool := (a.scalar 1).getLsbD i

/-- The lanes that take part in an instruction: the scalar lane in a scalar one, and in a vector one
the threads that are enabled. -/
def enabled : Fin (T + 1) → Bool :=
  Fin.lastCases d.decoded_scalar_instruction fun i => a.mask i && !d.decoded_scalar_instruction

/-- The first operand. -/
def operand1 : Fin (T + 1) → DataT :=
  Fin.lastCases (a.scalar d.decoded_rs1_address) fun i => a.vector i d.decoded_rs1_address

/-- The second operand. -/
def operand2 : Fin (T + 1) → DataT :=
  Fin.lastCases (a.scalar d.decoded_rs2_address) fun i => a.vector i d.decoded_rs2_address

/-- The ALU function of the instruction, applied to a lane's operands. -/
def result (l : Fin (T + 1)) : DataT :=
  aluResult d.decoded_alu_instruction a.pc d.decoded_immediate (a.operand1 d l) (a.operand2 d l)

/-- The address that a lane's load or store accesses. -/
def address (l : Fin (T + 1)) : DataMemoryAddressT := a.operand1 d l + d.decoded_immediate

/-- The word that a lane stores. -/
def storeData (l : Fin (T + 1)) : DataT := a.operand2 d l

/-- The word whose bit `i` is the lowest bit of `v i`. -/
def gather (v : Fin T → DataT) : DataT :=
  Fin.foldl T (fun w i => if (v i).getLsbD 0 then w ||| BitVec.twoPow 32 i else w) 0

/-- The comparison results of the enabled threads, a bit for each. -/
def comparisons : DataT := gather fun i => if a.mask i then a.result d i.castSucc else 0

/-- Where the warp goes on. -/
def nextPc : InstructionMemoryAddressT :=
  if d.decoded_scalar_instruction then
    if d.decoded_branch then
      if a.result d (Fin.last T) = 1 then a.pc + d.decoded_immediate else a.pc + 1
    else if d.decoded_alu_instruction = .JAL ∨ d.decoded_alu_instruction = .JALR then
      a.result d (Fin.last T)
    else a.pc + 1
  else a.pc + 1

/-- The value for the scalar destination register. -/
def scalarValue : DataT :=
  match d.decoded_reg_input_mux with
  | .aluOut => a.result d (Fin.last T)
  | .lsuOut => loads (Fin.last T)
  | .immediate => d.decoded_immediate
  | .pcPlus1 => a.pc + 1
  | .vectorToScalar => a.comparisons d

/-- The value for the destination register of thread `i`, if the instruction has one. -/
def vectorValue (i : Fin T) : Option DataT :=
  match d.decoded_reg_input_mux with
  | .aluOut => some (a.result d i.castSucc)
  | .lsuOut => some (loads i.castSucc)
  | .immediate => some d.decoded_immediate
  -- The register keeps its value: `reg_file.sv` has no case for one of these, and a no-op for the
  -- other.
  | .pcPlus1 | .vectorToScalar => none

/-- The instruction writes scalar register `r`. -/
def WritesScalar (r : RegAddress) : Prop :=
  d.decoded_reg_write_enable = true ∧
    (d.decoded_scalar_instruction = true ∨ d.decoded_reg_input_mux = .vectorToScalar) ∧
      r = d.decoded_rd_address ∧ 0 < r

/-- The instruction writes register `r` of the enabled threads. -/
def WritesVector (r : RegAddress) : Prop :=
  d.decoded_reg_write_enable = true ∧ d.decoded_scalar_instruction = false ∧
    r = d.decoded_rd_address ∧ 4 ≤ r

/-- Whether an instruction writes a scalar register is decidable from its fields. -/
instance (r : RegAddress) : Decidable (WritesScalar d r) := by
  unfold WritesScalar
  infer_instance

/-- Whether an instruction writes a vector register is decidable from its fields. -/
instance (r : RegAddress) : Decidable (WritesVector d r) := by
  unfold WritesVector
  infer_instance

/-- The warp after the instruction, when its loads return `loads`. A halt stops at its address. -/
def exec : WarpArch T where
  pc := if d.decoded_halt then a.pc else a.nextPc d
  scalar := fun r => if WritesScalar d r then a.scalarValue d loads else a.scalar r
  vector := fun i r =>
    if WritesVector d r ∧ a.mask i = true then (a.vectorValue d loads i).getD (a.vector i r)
    else a.vector i r

/-! ## The gathered word -/

/-- Bit `k` of the gathered word. -/
theorem getLsbD_gather (v : Fin T → DataT) (k : ℕ) :
    (gather v).getLsbD k = true ↔ k < 32 ∧ ∃ i : Fin T, (i : ℕ) = k ∧ (v i).getLsbD 0 = true := by
  -- After `m` threads the bits of these threads are gathered.
  have hloop := Loop.foldl_induction
    (fun (w : DataT) (i : Fin T) => if (v i).getLsbD 0 then w ||| BitVec.twoPow 32 i else w)
    (fun m w => w.getLsbD k = true ↔
      k < 32 ∧ ∃ i : Fin T, (i : ℕ) = k ∧ (i : ℕ) < m ∧ (v i).getLsbD 0 = true) 0 (by simp) ?_
  · simpa [gather] using hloop
  · intro m w hw
    have hsucc (i : Fin T) : (i : ℕ) < m + 1 ↔ (i : ℕ) < m ∨ i = m := by
      rw [Fin.ext_iff]
      omega
    simp only [hsucc]
    -- A thread with the bit adds its own place to the word, and any other thread nothing.
    by_cases hm : (v m).getLsbD 0 = true
    · rw [if_pos hm, BitVec.getLsbD_or, Bool.or_eq_true, hw, BitVec.getLsbD_twoPow]
      simp only [Bool.and_eq_true, decide_eq_true_eq]
      constructor
      · rintro (⟨hk, i, hi, him, hv⟩ | ⟨hk, hmk⟩)
        · exact ⟨hk, i, hi, .inl him, hv⟩
        · exact ⟨by omega, m, hmk, .inr rfl, hm⟩
      · rintro ⟨hk, i, hi, him | rfl, hv⟩
        · exact .inl ⟨hk, i, hi, him, hv⟩
        · exact .inr ⟨by omega, hi⟩
    · rw [if_neg hm, hw]
      refine and_congr_right fun _ => exists_congr fun i => and_congr_right fun _ => ?_
      constructor
      · exact fun ⟨him, hv⟩ => ⟨.inl him, hv⟩
      · rintro ⟨him | rfl, hv⟩
        · exact ⟨him, hv⟩
        · exact absurd hv hm

/-- The bit of lane `i` in the gathered word. -/
theorem getLsbD_gather_of_lt (v : Fin T → DataT) {i : Fin T} (hi : (i : ℕ) < 32) :
    (gather v).getLsbD i = (v i).getLsbD 0 := by
  rw [Bool.eq_iff_iff, getLsbD_gather]
  constructor
  · rintro ⟨-, k, hk, hv⟩
    rwa [← Fin.ext hk]
  · exact fun hv => ⟨hi, i, rfl, hv⟩

/-- The gathered word holds the lowest bits of the first 32 values. -/
theorem gather_eq_iff {v v' : Fin T → DataT} : gather v = gather v' ↔
    ∀ i : Fin T, (i : ℕ) < 32 → (v i).getLsbD 0 = (v' i).getLsbD 0 := by
  constructor
  · intro h i hi
    rw [← getLsbD_gather_of_lt v hi, h, getLsbD_gather_of_lt v' hi]
  · intro h
    refine BitVec.eq_of_getLsbD_eq fun k hk => ?_
    rw [Bool.eq_iff_iff, getLsbD_gather, getLsbD_gather]
    refine and_congr_right fun _ => exists_congr fun i => and_congr_right fun hi => ?_
    rw [h i (by omega)]

end WarpArch

end SmolGpu
