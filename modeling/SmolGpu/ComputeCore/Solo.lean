import SmolGpu.ComputeCore.Simt
import SmolGpu.RegFile
import SmolGpu.Library.SharedMemory

/-!
# A warp on its own

What a warp would do if it were alone with the memory: `Solo` is its architectural state together
with what each of its lanes has stored so far, and `Solo.step` the next instruction of its program,
whose loads return what the lane has stored or else what the memory held from the start. There is no
time in it, and no other warp. A core on which no two lanes race runs each of its warps like this,
which is what makes its results independent of all timing.
-/

namespace SmolGpu

open SharedMemory (Access)

namespace WarpArch

variable {T : ℕ} {d : Decoded} {a : WarpArch T} {loads loads' : Fin (T + 1) → DataT}

/-- The access of a lane in an instruction, if it takes part in a load or a store. -/
def access (d : Decoded) (a : WarpArch T) (l : Fin (T + 1)) :
    Option (Access DataMemoryAddressT DataT) :=
  if a.enabled d l then
    if d.decoded_mem_read_enable then some (.read (a.address d l))
    else if d.decoded_mem_write_enable then some (.write (a.address d l) (a.storeData d l))
    else none
  else none

/-- An instruction uses only the words that its enabled lanes loaded. -/
theorem exec_congr
    (hmux : d.decoded_reg_input_mux = .lsuOut → d.decoded_mem_read_enable = true)
    (h : ∀ l, d.decoded_mem_read_enable = true → a.enabled d l = true → loads l = loads' l) :
    a.exec d loads = a.exec d loads' := by
  refine WarpArch.ext rfl (funext fun r => ?_) (funext fun i => funext fun r => ?_)
  · unfold exec
    dsimp only
    split_ifs with hw
    · unfold scalarValue
      cases hm : d.decoded_reg_input_mux with
      | lsuOut =>
        -- The scalar register takes the word of the scalar lane, which then is enabled.
        have hscalar : d.decoded_scalar_instruction = true := by simpa [hm] using hw.2.1
        exact h _ (hmux hm) (by simpa [enabled] using hscalar)
      | aluOut | immediate | pcPlus1 | vectorToScalar => rfl
    · rfl
  · unfold exec
    dsimp only
    split_ifs with hw
    · unfold vectorValue
      cases hm : d.decoded_reg_input_mux with
      | lsuOut =>
        have hi : a.enabled d i.castSucc = true := by simp [enabled, hw.2, hw.1.2.1]
        rw [h _ (hmux hm) hi]
      | aluOut | immediate | pcPlus1 | vectorToScalar => rfl
    · rfl

/-- No instruction writes a special register. -/
theorem exec_vector_of_lt {r : RegAddress} (hr : ¬4 ≤ r) (i : Fin T) :
    (a.exec d loads).vector i r = a.vector i r :=
  if_neg fun hw => hr hw.1.2.2.2

end WarpArch

/-- A warp and what its lanes have stored. -/
@[ext]
structure Solo (T : ℕ) where
  arch : WarpArch T
  own : Fin (T + 1) → DataMemoryAddressT → Option DataT

namespace Solo

variable {T : ℕ}

/-- The warp at the start of its program: the registers are as after a reset. -/
def start (T : ℕ) (kernel_config : KernelConfig) (block_id warp_id : DataT) : Solo T where
  arch :=
    { pc := kernel_config.base_instructions_address
      scalar := scalarResetRegisters
      vector := fun i => specialRegisters (threadId T warp_id i) block_id
        (kernel_config.num_warps_per_block * BitVec.ofNat 32 T) fun _ => 0 }
  own := fun _ _ => none

section Step

variable (mem : DataMemoryAddressT → DataT) (program : InstructionMemoryAddressT → InstructionT)
  (d : Decoded) (p : Solo T)

/-- The words that an instruction loads, when the memory held `mem` at the start. -/
def loads (l : Fin (T + 1)) : DataT :=
  (p.own l (p.arch.address d l)).getD (mem (p.arch.address d l))

/-- What lane `l` has stored, after an instruction. -/
def stored (l : Fin (T + 1)) : DataMemoryAddressT → Option DataT :=
  match p.arch.access d l with
  | some e => e.record (p.own l)
  | none => p.own l

/-- The warp after an instruction. -/
def exec : Solo T where
  arch := p.arch.exec d (p.loads mem d)
  own := p.stored d

/-- The instruction that the warp executes next. -/
def instruction : Decoded := decode (program p.arch.pc)

/-- The warp after its next instruction. -/
def step : Solo T := p.exec mem (p.instruction program)

/-- The warp after `k` instructions. -/
def after : ℕ → Solo T
  | 0 => p
  | k + 1 => (after k).step mem program

/-- The first `k` instructions of the warp, each with its address. -/
def executed (k : ℕ) : List (InstructionMemoryAddressT × InstructionT) :=
  (List.range k).map fun j =>
    ((p.after mem program j).arch.pc, program (p.after mem program j).arch.pc)

/-- The warp stops after `k` instructions: the last of them is its first halt. -/
def Stops (k : ℕ) : Prop :=
  ∃ j, k = j + 1 ∧ ((p.after mem program j).instruction program).decoded_halt = true ∧
    ∀ i < j, ((p.after mem program i).instruction program).decoded_halt = false

end Step

variable {mem : DataMemoryAddressT → DataT} {program : InstructionMemoryAddressT → InstructionT}
  {p : Solo T}

/-- What a warp has executed after one more instruction. -/
theorem executed_succ (k : ℕ) : p.executed mem program (k + 1) = p.executed mem program k ++
    [((p.after mem program k).arch.pc, program (p.after mem program k).arch.pc)] := by
  simp [executed, List.range_succ]

/-- The special registers stay as they are at the start. -/
theorem after_vector_of_lt {r : RegAddress} (hr : ¬4 ≤ r) (i : Fin T) (k : ℕ) :
    (p.after mem program k).arch.vector i r = p.arch.vector i r := by
  induction k with
  | zero => rfl
  | succ k ih =>
    rw [← ih]
    exact WarpArch.exec_vector_of_lt hr i

/-- A warp stops after one number of instructions. -/
theorem Stops.unique {k k' : ℕ} (h : p.Stops mem program k) (h' : p.Stops mem program k') :
    k = k' := by
  obtain ⟨j, rfl, hj, hbefore⟩ := h
  obtain ⟨j', rfl, hj', hbefore'⟩ := h'
  rcases lt_trichotomy j j' with hlt | rfl | hlt
  · exact absurd ((hbefore' j hlt).symm.trans hj) (by simp)
  · rfl
  · exact absurd ((hbefore j' hlt).symm.trans hj') (by simp)

end Solo

end SmolGpu
