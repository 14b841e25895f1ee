import SmolGpu.ComputeCore.Execute

/-!
# How many warps run

`compute_core.sv` assigns the kernel's `num_warps_per_block` to `num_warps` and does not use it: the
start, the choice of a warp, and `done` all range over the warps of the hardware. A block therefore
runs the warps that the kernel asks for only if these are all there are (`warps_honoured`).
-/

namespace SmolGpu

namespace ComputeCore

variable {W T : ℕ}

/-- A thread executes an instruction. -/
def ExecutesThread (s : ComputeCore W T) (w : Fin W) (i : Fin T) : Prop :=
  s.warp_state w = .execute ∧ (s.warp_execution_mask w).getLsbD i = true

/-- A run of a block is one of `n` warps. -/
structure HonoursWarps (n : ℕ) (σ : ℕ → ComputeCore W T) : Prop where
  /-- Just the first `n` warps ever leave `WARP_IDLE`. -/
  active : ∀ w : Fin W, (∃ m, (σ m).warp_state w ≠ .idle) ↔ (w : ℕ) < n
  /-- A started core raises `done` at the edges at which these are done. -/
  done : ∀ m, (σ m).start_execution = true →
    ((σ (m + 1)).done = true ↔ ∀ w : Fin W, (w : ℕ) < n → (σ m).warp_state w = .done)
  /-- Every thread that executes has a thread id below the block size. -/
  thread_id : ∀ m w i, ExecutesThread (σ m) w i →
    ((σ m).reg_file w i).registers THREAD_ID_REG < ((σ m).reg_file w i).registers BLOCK_SIZE_REG

section Run

variable [NeZero W] {life : Lifetime} {inp reset : CoreIn W T} {inputs : ℕ → CoreIn W T}
  {c : ComputeCore W T}

/-- Every warp of a core that has been started has left `WARP_IDLE`. -/
theorem step_active (hr : inp.reset = false)
    (h : c.start_execution = true → ∀ w, c.warp_state w ≠ .idle)
    (hs : (coreStep life inp c).start_execution = true) (w : Fin W) :
    (coreStep life inp c).warp_state w ≠ .idle := by
  rcases hns : c.start_execution with _ | _
  · -- The core starts at this edge, and all warps with it.
    have hs' : (c.alwaysBlock life inp).start_execution = true := hs
    show (c.alwaysBlock life inp).warp_state w ≠ .idle
    rcases hst : inp.start with _ | _
    · rw [step_not_started hr hns hst, hns] at hs'
      cases hs'
    · rw [step_start hr hns hst]
      simp
  · -- A running core: a warp that is active stays so, whatever its stage is.
    have hactive := h hns
    have hfetched (v : Fin W) : c.fetched inp v ≠ .idle := by
      unfold fetched
      split_ifs
      · decide
      · exact hactive v
    rw [step_warp_state ⟨hr, hns⟩]
    split_ifs with hw
    · unfold currentNext
      cases hst : c.current_warp_state with
      | idle => exact absurd hst (hactive _)
      | fetch => exact hfetched _
      | wait => cases c.anyLsuWaiting life <;> simp
      | update => cases c.current.decoded_halt <;> simp
      | decode | request | execute | done => simp
    · exact hfetched w

/-- The thread's number and the block size are in their registers from the reset on. -/
theorem step_thread_id {size : DataT} (hr : inp.reset = false)
    (hsize : inp.kernel_config.num_warps_per_block * BitVec.ofNat 32 T = size)
    (h : ∀ w i, (c.reg_file w i).registers THREAD_ID_REG = threadId T (BitVec.ofNat 32 w) i ∧
      (c.reg_file w i).registers BLOCK_SIZE_REG = size) (w : Fin W) (i : Fin T) :
    ((coreStep life inp c).reg_file w i).registers THREAD_ID_REG =
        threadId T (BitVec.ofNat 32 w) i ∧
      ((coreStep life inp c).reg_file w i).registers BLOCK_SIZE_REG = size := by
  rw [step_reg_file_of_lt hr w i (by decide), step_reg_file_of_lt hr w i (by decide)]
  split_ifs
  · exact ⟨rfl, hsize⟩
  · exact h w i

/-- What holds along every run of a block. -/
theorem blockRun_registers (hreset : reset.reset = true) (hlow : ∀ n, (inputs n).reset = false)
    {config : KernelConfig} (hconfig : reset.kernel_config = config)
    (hheld : ∀ n, (inputs n).kernel_config = config) (n : ℕ) (w : Fin W) (i : Fin T) :
    ((blockRun life reset inputs c n).reg_file w i).registers THREAD_ID_REG =
        threadId T (BitVec.ofNat 32 w) i ∧
      ((blockRun life reset inputs c n).reg_file w i).registers BLOCK_SIZE_REG =
        config.num_warps_per_block * BitVec.ofNat 32 T := by
  refine Clocked.run_invariant (fun _ (s : ComputeCore W T) => ∀ w i,
    (s.reg_file w i).registers THREAD_ID_REG = threadId T (BitVec.ofNat 32 w) i ∧
      (s.reg_file w i).registers BLOCK_SIZE_REG =
        config.num_warps_per_block * BitVec.ofNat 32 T) (fun w i => ?_) (fun n hn => ?_) n w i
  · -- The reset sets the special registers.
    have hin : (c.regFileIn reset w i).reset = true := hreset
    have hregs : ((coreStep life reset c).reg_file w i).registers =
        specialRegisters (threadId T (BitVec.ofNat 32 w) i) reset.block_id
          (reset.kernel_config.num_warps_per_block * BitVec.ofNat 32 T) fun _ => 0 :=
      congrArg RegFile.registers (if_pos hin)
    rw [hregs, hconfig]
    exact ⟨rfl, rfl⟩
  · exact step_thread_id (hlow n) (by rw [hheld n]) hn

/-- Once `start` has been seen, every warp of the hardware is active. -/
theorem blockRun_active (hreset : reset.reset = true) (hlow : ∀ n, (inputs n).reset = false)
    (hstart : ∃ n, (inputs n).start = true) (w : Fin W) :
    ∃ m, (blockRun life reset inputs c m).warp_state w ≠ .idle := by
  obtain ⟨n, hn⟩ := hstart
  have hactive : ∀ n, (blockRun life reset inputs c n).start_execution = true →
      ∀ w, (blockRun life reset inputs c n).warp_state w ≠ .idle :=
    Clocked.run_invariant (fun _ (s : ComputeCore W T) => s.start_execution = true →
      ∀ w, s.warp_state w ≠ .idle)
      (fun hs => absurd ((step_reset hreset).1.symm.trans hs) (by simp))
      fun n hn => step_active (hlow n) hn
  -- The core has been started by the edge behind the one that samples `start`.
  refine ⟨n + 1, hactive (n + 1) ?_ w⟩
  show (coreStep life (inputs n) (blockRun life reset inputs c n)).start_execution = true
  rcases hs : (blockRun life reset inputs c n).start_execution with _ | _
  · show ((blockRun life reset inputs c n).alwaysBlock life (inputs n)).start_execution = true
    rw [step_start (hlow n) hs hn]
  · exact step_start_execution ⟨hlow n, hs⟩

omit [NeZero W] in
/-- The threads of a block that fits in a word are numbered below its size. -/
theorem threadId_lt {config : KernelConfig} (hn : config.num_warps_per_block.toNat = W)
    (hfit : W * T < 2 ^ 32) (w : Fin W) (i : Fin T) :
    threadId T (BitVec.ofNat 32 w) i < config.num_warps_per_block * BitVec.ofNat 32 T := by
  have hthread : (w : ℕ) * T + i < W * T := by
    calc (w : ℕ) * T + i < w * T + T := Nat.add_lt_add_left i.isLt _
      _ = (w + 1) * T := by rw [Nat.add_mul, Nat.one_mul]
      _ ≤ W * T := Nat.mul_le_mul_right T w.isLt
  unfold threadId
  rw [BitVec.lt_def, BitVec.toNat_add, BitVec.toNat_mul, BitVec.toNat_mul, hn]
  simp only [BitVec.toNat_ofNat, Nat.mul_mod_mod, Nat.mod_mul_mod, Nat.add_mod_mod, Nat.mod_add_mod]
  rw [Nat.mod_eq_of_lt hfit, Nat.mod_eq_of_lt (hthread.trans hfit)]
  exact hthread

end Run

/-- The inputs of an example core of two warps of two threads, for a kernel that asks for `n`. -/
def askIn (n : DataT) (reset : Bool) : CoreIn 2 2 where
  reset := reset
  start := true
  block_id := 0
  kernel_config := ⟨0, 0, 1, n⟩
  fetcher_state_in := fun _ => .idle
  fetched_instruction := fun _ => 0
  data_mem_read_ready := fun _ => false
  data_mem_read_data := fun _ => 0
  data_mem_write_ready := fun _ => false

end ComputeCore

open ComputeCore in
/-- A block of a kernel that asks for `n` of the `W` warps, run on a core with any contents before
the reset. If `n` is `W`, and the threads can be numbered in a word, it is a block of `n` warps, and
it is one only if `n` is `W`. -/
theorem warps_honoured {W T : ℕ} [NeZero W] (life : Lifetime) {reset : CoreIn W T}
    {inp : ℕ → CoreIn W T} (hreset : reset.reset = true) (hlow : ∀ n, (inp n).reset = false)
    (hstart : ∃ n, (inp n).start = true) {config : KernelConfig}
    (hconfig : reset.kernel_config = config) (hheld : ∀ n, (inp n).kernel_config = config)
    (hn : 1 ≤ config.num_warps_per_block.toNat ∧ config.num_warps_per_block.toNat ≤ W)
    (c : ComputeCore W T) :
    (config.num_warps_per_block.toNat = W → W * T < 2 ^ 32 →
      HonoursWarps config.num_warps_per_block.toNat (blockRun life reset inp c)) ∧
    (HonoursWarps config.num_warps_per_block.toNat (blockRun life reset inp c) →
      config.num_warps_per_block.toNat = W) := by
  refine ⟨fun hall hfit => ⟨fun w => ?_, fun m hs => ?_, fun m w i _ => ?_⟩, fun h => ?_⟩
  · rw [hall]
    exact ⟨fun _ => w.isLt, fun _ => blockRun_active hreset hlow hstart w⟩
  · have hrun : Running (inp m) (blockRun life reset inp c m) := ⟨hlow m, hs⟩
    show (coreStep life (inp m) (blockRun life reset inp c m)).done = true ↔ _
    rw [step_done hrun, decide_eq_true_eq, hall]
    exact ⟨fun hdone w _ => hdone w, fun hdone w => hdone w w.isLt⟩
  · obtain ⟨hid, hsize⟩ :
        ((blockRun life reset inp c m).reg_file w i).registers THREAD_ID_REG =
            threadId T (BitVec.ofNat 32 w) i ∧
          ((blockRun life reset inp c m).reg_file w i).registers BLOCK_SIZE_REG =
            config.num_warps_per_block * BitVec.ofNat 32 T :=
      blockRun_registers hreset hlow hconfig hheld m w i
    rw [hid, hsize]
    exact threadId_lt hall hfit w i
  · -- The last warp of the hardware is active as well.
    have hpos : 0 < W := Nat.pos_of_ne_zero (NeZero.ne W)
    have hlast := (h.active ⟨W - 1, by omega⟩).mp (blockRun_active hreset hlow hstart _)
    dsimp only at hlast
    omega

open ComputeCore in
/-- A kernel that asks for both warps of the example core gets them. -/
theorem warps_honoured_two :
    HonoursWarps 2 (blockRun .automatic (askIn 2 true) (fun _ => askIn 2 false) powerUp) :=
  have hreset : (askIn 2 true).reset = true := rfl
  have hlow : ∀ _ : ℕ, (askIn 2 false).reset = false := fun _ => rfl
  have hstart : ∃ _ : ℕ, (askIn 2 false).start = true := ⟨0, rfl⟩
  have hconfig : (askIn 2 true).kernel_config = ⟨0, 0, 1, 2⟩ := rfl
  have hheld : ∀ _ : ℕ, (askIn 2 false).kernel_config = ⟨0, 0, 1, 2⟩ := fun _ => rfl
  (warps_honoured .automatic hreset hlow hstart hconfig hheld (by decide) powerUp).1 rfl (by decide)

open ComputeCore in
/-- One that asks for a single warp gets both all the same. -/
theorem warps_all_run : (askIn 1 true).reset = true ∧ (askIn 1 false).reset = false ∧
    (askIn 1 false).start = true ∧
    ¬HonoursWarps 1 (blockRun .automatic (askIn 1 true) (fun _ => askIn 1 false) powerUp) := by
  refine ⟨rfl, rfl, rfl, fun h => ?_⟩
  have hsecond := (h.active 1).mp (blockRun_active rfl (fun _ => rfl) ⟨0, rfl⟩ 1)
  exact absurd hsecond (by decide)

end SmolGpu
