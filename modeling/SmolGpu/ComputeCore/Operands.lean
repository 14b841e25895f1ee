import SmolGpu.ComputeCore.Execute
import SmolGpu.ComputeCore.Lane

/-!
# What an instruction reads

The operands of an instruction are latched in `WARP_REQUEST`. The special vector registers are
assigned at every edge, but of the current warp only, so that those of a warp that has waited for
its turn may be out of date. The edge of `WARP_DECODE` comes in front of the one that reads them,
with the same current warp (`Invariant.of_request`), and brings them up to date. Scalar register 0
is zero from the reset on and never written (`ScalarZero.of_reachable`).

`SpecialReads` says that the operands which have been read of special registers are right. The edge
of `WARP_REQUEST` makes them so, if the registers are, and the ones up to `WARP_UPDATE` keep them.
-/

namespace SmolGpu

namespace ComputeCore

variable {W T : ℕ} [NeZero W] {life : Lifetime} {inp : CoreIn W T} {s : ComputeCore W T}

/-! ## Scalar register 0 -/

/-- Scalar register 0 of every warp is zero. -/
def ScalarZero (s : ComputeCore W T) : Prop := ∀ w, (s.scalar_reg_file w).registers 0 = 0

/-- A reset clears register 0. -/
theorem ScalarZero.of_reset (hr : inp.reset = true) : ScalarZero (coreStep life inp s) :=
  fun _ => scalarRegFileStep_zero (.inl hr)

/-- Register 0 keeps its zero. -/
theorem ScalarZero.step (h : ScalarZero s) : ScalarZero (coreStep life inp s) :=
  fun w => scalarRegFileStep_zero (.inr (h w))

/-- Register 0 is zero in every reachable state. -/
theorem ScalarZero.of_reachable (h : Clocked.Reachable (coreStep life) (AfterReset life) s) :
    ScalarZero s :=
  h.invariant (fun _ ⟨_, _, hr, hs⟩ => hs ▸ .of_reset hr) fun _ _ hz => hz.step

/-! ## The edges of `WARP_DECODE` and `WARP_REQUEST` -/

/-- A core with a busy warp was running at the edge before. -/
theorem Invariant.running_before (hi : Invariant s) (hr : inp.reset = false)
    (hbusy : ¬Parked (coreStep life inp s).current_warp_state) : Running inp s := by
  refine ⟨hr, ?_⟩
  by_contra hns
  have hns : s.start_execution = false := by simpa using hns
  refine hbusy ?_
  show Parked (s.alwaysBlock life inp).current_warp_state
  rcases hst : inp.start with _ | _
  · rw [step_not_started hr hns hst]
    exact .inl (hi.not_started hns _)
  · rw [step_start hr hns hst]
    exact .inr (.inl rfl)

/-- A warp is in `WARP_REQUEST` after the edge of its `WARP_DECODE`, for which it was the current
one. -/
theorem Invariant.of_request (hi : Invariant s) (hr : inp.reset = false)
    (hreq : (coreStep life inp s).current_warp_state = .request) :
    Running inp s ∧ s.current_warp_state = .decode ∧
      (coreStep life inp s).current_warp = s.current_warp := by
  have hbusy : ¬Parked (coreStep life inp s).current_warp_state := by simp [Parked, hreq]
  have hrun := hi.running_before hr hbusy
  obtain ⟨hcw, ⟨hst, -⟩ | ⟨-, hnext⟩ | ⟨-, hnext | hnext⟩ | ⟨-, hnext⟩⟩ :=
    hi.stage_before hrun hbusy
  · exact ⟨hrun, hst, hcw⟩
  · exact absurd (hnext.symm.trans hreq) (by decide)
  · exact absurd (hnext.symm.trans hreq) (by decide)
  · exact absurd (hnext.symm.trans hreq) (by decide)
  · exact absurd (hnext.symm.trans hreq) (by decide)

/-- In `WARP_REQUEST` the operands of the enabled threads are latched. -/
theorem step_reg_file_latches (life : Lifetime) (hr : inp.reset = false)
    (hreq : s.current_warp_state = .request)
    {l : Fin T} (hl : (s.warp_execution_mask s.current_warp).getLsbD l = true) :
    ((coreStep life inp s).reg_file s.current_warp l).rs1 =
        (s.reg_file s.current_warp l).registers s.current.decoded_rs1_address ∧
      ((coreStep life inp s).reg_file s.current_warp l).rs2 =
        (s.reg_file s.current_warp l).registers s.current.decoded_rs2_address := by
  have hst : s.warp_state s.current_warp = .request := hreq
  simp [coreStep, regFileStep, regFileIn, hr, hst, hl, current]

/-- In `WARP_REQUEST` the scalar operands are latched. -/
theorem step_scalar_reg_file_latches (life : Lifetime) (hr : inp.reset = false)
    (hreq : s.current_warp_state = .request) :
    ((coreStep life inp s).scalar_reg_file s.current_warp).rs1 =
        (s.scalar_reg_file s.current_warp).registers s.current.decoded_rs1_address ∧
      ((coreStep life inp s).scalar_reg_file s.current_warp).rs2 =
        (s.scalar_reg_file s.current_warp).registers s.current.decoded_rs2_address := by
  have hst : s.warp_state s.current_warp = .request := hreq
  simp [coreStep, scalarRegFileStep, scalarRegFileIn, hr, hst, current]

/-! ## The operands that have been read -/

/-- `value` is right for what is read from `address` of thread `l` of warp `w`, in a core that runs
block `b`. -/
structure SpecialValue (kernel_config : KernelConfig) (w : Fin W) (l : Fin T) (b : DataT)
    (address : RegAddress) (value : DataT) : Prop where
  /-- Register 0 is zero. -/
  zero : address = ZERO_REG → value = 0
  /-- `x1` is the number of the thread in its block. -/
  thread_id : address = THREAD_ID_REG → value = BitVec.ofNat 32 (w * T + l)
  /-- `x2` is the number of the block. -/
  block_id : address = BLOCK_ID_REG → value = b
  /-- `x3` is the number of the threads of a block. -/
  block_size : address = BLOCK_SIZE_REG →
    value = kernel_config.num_warps_per_block * BitVec.ofNat 32 T

/-- What the instruction of the current warp has read of special registers is right for block
`b`. -/
structure SpecialReads (kernel_config : KernelConfig) (b : DataT) (s : ComputeCore W T) : Prop where
  /-- The operands of the enabled threads are right. -/
  vector : ∀ l : Fin T, (s.warp_execution_mask s.current_warp).getLsbD l = true →
    SpecialValue kernel_config s.current_warp l b s.current.decoded_rs1_address
        (s.laneRs1 l.castSucc) ∧
      SpecialValue kernel_config s.current_warp l b s.current.decoded_rs2_address
        (s.laneRs2 l.castSucc)
  /-- Scalar register 0 is zero. -/
  scalar : (s.current.decoded_rs1_address = 0 → s.laneRs1 (Fin.last T) = 0) ∧
    (s.current.decoded_rs2_address = 0 → s.laneRs2 (Fin.last T) = 0)

/-- The special registers of thread `l` of warp `w`, for block `b`. -/
def specials (kernel_config : KernelConfig) (w : Fin W) (l : Fin T) (b : DataT) :
    RegAddress → DataT :=
  specialRegisters (threadId T (BitVec.ofNat 32 w) l) b
    (kernel_config.num_warps_per_block * BitVec.ofNat 32 T) fun _ => 0

omit [NeZero W] in
/-- A register that holds its special value is right. -/
theorem SpecialValue.of_specials {kernel_config : KernelConfig} {w : Fin W} {l : Fin T} {b : DataT}
    {address : RegAddress} {value : DataT}
    (h : ¬4 ≤ address → value = specials kernel_config w l b address) :
    SpecialValue kernel_config w l b address value := by
  have hid : threadId T (BitVec.ofNat 32 w) l = BitVec.ofNat 32 (w * T + l) := by
    rw [threadId, BitVec.ofNat_add, BitVec.ofNat_mul]
  constructor
  · rintro rfl
    rw [h (by decide)]
    rfl
  · rintro rfl
    rw [h (by decide), ← hid]
    rfl
  · rintro rfl
    rw [h (by decide)]
    rfl
  · rintro rfl
    rw [h (by decide)]
    rfl

/-- Every edge assigns the special registers of the current warp. -/
theorem step_reg_file_specials (hr : inp.reset = false) (l : Fin T) {r : RegAddress}
    (hlt : ¬4 ≤ r) : ((coreStep life inp s).reg_file s.current_warp l).registers r =
      specials inp.kernel_config s.current_warp l inp.block_id r := by
  rw [step_reg_file_of_lt hr _ _ hlt, if_pos rfl]
  exact specialRegisters_of_lt hlt

/-- The edge of `WARP_REQUEST` latches the operands. -/
theorem SpecialReads.of_request {kernel_config : KernelConfig} {b : DataT} (h : Running inp s)
    (hreq : s.current_warp_state = .request) (hzero : ScalarZero s)
    (hspecial : ∀ l r, ¬4 ≤ r → (s.reg_file s.current_warp l).registers r =
      specials kernel_config s.current_warp l b r) :
    SpecialReads kernel_config b (coreStep life inp s) := by
  obtain ⟨hcw, hcur, -⟩ := step_current_of_busy life h (.inl hreq)
  -- At this edge the register files latch the two operands.
  obtain ⟨hscalar1, hscalar2⟩ := step_scalar_reg_file_latches life h.reset hreq
  constructor
  · intro l hl
    rw [hcw, step_warp_execution_mask h.reset (by simp [hreq])] at hl
    obtain ⟨h1, h2⟩ := step_reg_file_latches life h.reset hreq hl
    unfold laneRs1 laneRs2
    rw [hcur, hcw, Fin.lastCases_castSucc, Fin.lastCases_castSucc, h1, h2]
    exact ⟨.of_specials (hspecial l _), .of_specials (hspecial l _)⟩
  · unfold laneRs1 laneRs2
    rw [hcur, hcw, Fin.lastCases_last, Fin.lastCases_last, hscalar1, hscalar2]
    constructor
    · intro haddress
      rw [haddress]
      exact hzero _
    · intro haddress
      rw [haddress]
      exact hzero _

/-- The edges of `WARP_WAIT` and `WARP_EXECUTE` keep the operands. -/
theorem SpecialReads.step {kernel_config : KernelConfig} {b : DataT}
    (hs : SpecialReads kernel_config b s) (h : Running inp s)
    (hst : s.current_warp_state = .wait ∨ s.current_warp_state = .execute) :
    SpecialReads kernel_config b (coreStep life inp s) := by
  obtain ⟨hcw, hcur, -⟩ := step_current_of_busy life h (.inr hst)
  have hreq : s.current_warp_state ≠ .request := by rcases hst with h | h <;> simp [h]
  have hup : s.current_warp_state ≠ .update := by rcases hst with h | h <;> simp [h]
  have hlane := step_laneRs_of_ne h.reset hreq hcw
  constructor
  · intro l hl
    rw [hcw, step_warp_execution_mask h.reset hup] at hl
    rw [hcur, hcw, (hlane _).1, (hlane _).2]
    exact hs.vector l hl
  · rw [hcur, (hlane _).1, (hlane _).2]
    exact hs.scalar

end ComputeCore

end SmolGpu
