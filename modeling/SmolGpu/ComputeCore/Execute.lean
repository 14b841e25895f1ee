import SmolGpu.ComputeCore.Exclusive
import SmolGpu.ComputeCore.Simt

/-!
# The stages of an instruction

How the core carries out `WarpArch.exec` over its stages. `Executing d a s` says where the core
stands with an instruction `d` that the current warp began in the architectural state `a`: which
latches, results, and requests are in place in which stage. `Executing.begin` puts it in place at
the edge of `WARP_DECODE`, `Executing.step` carries it over every edge up to `WARP_UPDATE`, and
`Executing.retire` reads `exec` off the edge that leaves `WARP_UPDATE`.

The operands of a load or store, the ALU results, and what the LSUs return are in registers that the
warps share. Nothing is said here of the lanes that the instruction does not enable: these keep what
an earlier instruction left in them.
-/

namespace SmolGpu

namespace ComputeCore

variable {W T : ℕ}

/-- The architectural state of warp `w`, with the special registers as `inp` determines them. -/
def arch (inp : CoreIn W T) (s : ComputeCore W T) (w : Fin W) : WarpArch T where
  pc := s.pc w
  scalar := (s.scalar_reg_file w).registers
  vector := fun i => specialRegisters (threadId T (BitVec.ofNat 32 w) i) inp.block_id
    (inp.kernel_config.num_warps_per_block * BitVec.ofNat 32 T) (s.reg_file w i).registers

/-- The result register of a lane's ALU. -/
def laneAluOut (s : ComputeCore W T) : Fin (T + 1) → DataT :=
  Fin.lastCases s.scalar_alu_out s.alu_out

/-- The special registers are the first four. -/
theorem specialRegisters_of_ge {thread_id block_id block_size : DataT}
    {registers : RegAddress → DataT} {r : RegAddress} (h : 4 ≤ r) :
    specialRegisters thread_id block_id block_size registers r = registers r := by
  have h0 : r ≠ ZERO_REG := by rintro rfl; exact absurd h (by decide)
  have h1 : r ≠ THREAD_ID_REG := by rintro rfl; exact absurd h (by decide)
  have h2 : r ≠ BLOCK_ID_REG := by rintro rfl; exact absurd h (by decide)
  have h3 : r ≠ BLOCK_SIZE_REG := by rintro rfl; exact absurd h (by decide)
  simp [specialRegisters, h0, h1, h2, h3]

/-- The special registers do not depend on what the register file holds for them. -/
theorem specialRegisters_of_lt {thread_id block_id block_size : DataT}
    {registers registers' : RegAddress → DataT} {r : RegAddress} (h : ¬4 ≤ r) :
    specialRegisters thread_id block_id block_size registers r =
      specialRegisters thread_id block_id block_size registers' r := by
  have hr : r = ZERO_REG ∨ r = THREAD_ID_REG ∨ r = BLOCK_ID_REG ∨ r = BLOCK_SIZE_REG := by
    unfold ZERO_REG THREAD_ID_REG BLOCK_ID_REG BLOCK_SIZE_REG
    bv_omega
  unfold specialRegisters
  rcases hr with rfl | rfl | rfl | rfl <;> simp

variable {life : Lifetime} {inp : CoreIn W T} {s : ComputeCore W T} {d : Decoded} {a : WarpArch T}

/-- The registers from 4 on are those of the register file. -/
theorem arch_vector_of_ge {w : Fin W} {i : Fin T} {r : RegAddress} (h : 4 ≤ r) :
    (arch inp s w).vector i r = (s.reg_file w i).registers r :=
  specialRegisters_of_ge h

/-- The mask register of a warp enables the threads of its architectural state. -/
theorem mask_eq {w : Fin W} (h : (s.scalar_reg_file w).registers = a.scalar) (i : Fin T) :
    (s.warp_execution_mask w).getLsbD i = a.mask i := by
  simp [warp_execution_mask, ScalarRegFile.warp_execution_mask, WarpArch.mask, h,
    EXECUTION_MASK_REG]

/-- The LSUs that are enabled are those of the architectural state. -/
theorem lsuEnable_eq (hd : s.current = d)
    (h : (s.scalar_reg_file s.current_warp).registers = a.scalar) (l : Fin (T + 1)) :
    s.lsuEnable l = a.enabled d l := by
  cases l using Fin.lastCases with
  | last => simp [lsuEnable, WarpArch.enabled, hd]
  | cast i =>
    simp only [lsuEnable, threadEnable, WarpArch.enabled, Fin.lastCases_castSucc, hd, mask_eq h]

variable [NeZero W]

/-! ## Register files and ALUs at an edge -/

section Edge

variable (hr : inp.reset = false)
include hr

/-- The vector registers of the current warp, in a stage that does not write a result. -/
theorem step_reg_file_registers (hst : s.current_warp_state ≠ .update) (i : Fin T) :
    ((coreStep life inp s).reg_file s.current_warp i).registers =
      (arch inp s s.current_warp).vector i := by
  have hst' : s.warp_state s.current_warp ≠ .update := hst
  simp only [coreStep, regFileStep, regFileIn, hr, arch, hst', if_false, decide_true, if_true,
    Bool.false_eq_true]
  split_ifs <;> rfl

/-- Outside UPDATE the registers from 4 on are kept. -/
theorem step_reg_file_of_ge (hst : s.current_warp_state ≠ .update) (w : Fin W) (i : Fin T)
    {r : RegAddress} (h : 4 ≤ r) :
    ((coreStep life inp s).reg_file w i).registers r = (s.reg_file w i).registers r := by
  by_cases hw : w = s.current_warp
  · subst hw
    rw [step_reg_file_registers hr hst, arch_vector_of_ge h]
  · rw [step_reg_file_of_ne hr hw]

/-- The special registers of the current warp are assigned at every edge. -/
theorem step_reg_file_of_lt (w : Fin W) (i : Fin T) {r : RegAddress}
    (hlt : ¬4 ≤ r) : ((coreStep life inp s).reg_file w i).registers r =
      if w = s.current_warp then (arch inp s w).vector i r else (s.reg_file w i).registers r := by
  split_ifs with hw
  · have hen : (s.regFileIn inp w i).enable = true := by simp [regFileIn, hw]
    exact regFileStep_special (i := s.regFileIn inp w i) hr hen hlt
  · rw [step_reg_file_of_ne hr hw]

/-- The operand latches of the lanes, in `WARP_REQUEST`. -/
theorem step_laneRs (hst : s.current_warp_state = .request)
    (hcw : (coreStep life inp s).current_warp = s.current_warp) (hd : s.current = d)
    (hscalar : (s.scalar_reg_file s.current_warp).registers = a.scalar)
    (hvector : ∀ i r, (s.reg_file s.current_warp i).registers r = a.vector i r)
    {l : Fin (T + 1)} (hl : a.enabled d l = true) :
    (coreStep life inp s).laneRs1 l = a.operand1 d l ∧
      (coreStep life inp s).laneRs2 l = a.operand2 d l := by
  have hst' : s.warp_state s.current_warp = .request := hst
  have hd' : s.decoder s.current_warp = d := hd
  unfold laneRs1 laneRs2
  rw [hcw]
  -- The scalar lane reads the scalar register file, a thread its own one under its mask bit.
  cases l using Fin.lastCases with
  | last =>
    simp [coreStep, scalarRegFileStep, scalarRegFileIn, hr, hst', hd', hscalar,
      WarpArch.operand1, WarpArch.operand2]
  | cast i =>
    have hmask : (s.warp_execution_mask s.current_warp).getLsbD i = true := by
      rw [mask_eq hscalar]
      simp only [WarpArch.enabled, Fin.lastCases_castSucc, Bool.and_eq_true] at hl
      exact hl.1
    simp [coreStep, regFileStep, regFileIn, hr, hst', hd', hvector, hmask,
      WarpArch.operand1, WarpArch.operand2]

/-- The operand latches of the lanes, in the other stages. -/
theorem step_laneRs_of_ne (hst : s.current_warp_state ≠ .request)
    (hcw : (coreStep life inp s).current_warp = s.current_warp) (l : Fin (T + 1)) :
    (coreStep life inp s).laneRs1 l = s.laneRs1 l ∧
      (coreStep life inp s).laneRs2 l = s.laneRs2 l := by
  have hst' : s.warp_state s.current_warp ≠ .request := hst
  unfold laneRs1 laneRs2
  rw [hcw]
  cases l using Fin.lastCases with
  | last => simp [coreStep, scalarRegFileStep, scalarRegFileIn, hr, hst']
  | cast i =>
    simp only [Fin.lastCases_castSucc, coreStep, regFileStep, regFileIn, hr, hst', if_false,
      Bool.false_eq_true, decide_true, if_true]
    split_ifs <;> exact ⟨rfl, rfl⟩

/-- The ALUs recompute the lanes that are enabled. -/
theorem step_laneAluOut (l : Fin (T + 1)) :
    (coreStep life inp s).laneAluOut l =
      if s.lsuEnable l then
        aluResult s.current.decoded_alu_instruction (s.pc s.current_warp)
          s.current.decoded_immediate (s.laneRs1 l) (s.laneRs2 l)
      else s.laneAluOut l := by
  unfold laneAluOut lsuEnable
  cases l using Fin.lastCases with
  | last => simp [coreStep, aluStep, aluIn, hr]
  | cast i => simp [coreStep, aluStep, aluIn, hr]

end Edge

/-! ## The invariant -/

/-- The current warp is in the middle of the instruction `d`, begun in the state `a`. -/
structure Executing (d : Decoded) (a : WarpArch T) (s : ComputeCore W T) : Prop where
  /-- The warp is past `WARP_DECODE`. -/
  stage : s.current_warp_state = .request ∨ s.current_warp_state = .wait ∨
    s.current_warp_state = .execute ∨ s.current_warp_state = .update
  /-- It has decoded the instruction. -/
  current : s.current = d
  /-- The instruction does not read and write. -/
  one_kind : ¬(d.decoded_mem_read_enable = true ∧ d.decoded_mem_write_enable = true)
  /-- The instructions that gather are the vector forms. -/
  gathers : d.decoded_reg_input_mux = .vectorToScalar → d.decoded_scalar_instruction = false
  /-- The warp is still at the instruction. -/
  pc : s.pc s.current_warp = a.pc
  /-- The scalar registers are as before it. -/
  scalar : (s.scalar_reg_file s.current_warp).registers = a.scalar
  /-- The vector registers are as before it, apart from the special ones. -/
  vector : ∀ i r, 4 ≤ r → (s.reg_file s.current_warp i).registers r = a.vector i r
  /-- The special registers are in place when the operands are read. -/
  special : s.current_warp_state = .request →
    ∀ i r, (s.reg_file s.current_warp i).registers r = a.vector i r
  /-- After `WARP_REQUEST` the enabled lanes have their operands. -/
  operands : s.current_warp_state ≠ .request → ∀ l, a.enabled d l = true →
    s.laneRs1 l = a.operand1 d l ∧ s.laneRs2 l = a.operand2 d l
  /-- After `WARP_WAIT` the enabled lanes have their results. -/
  results : s.current_warp_state = .execute ∨ s.current_warp_state = .update →
    ∀ l, a.enabled d l = true → s.laneAluOut l = a.result d l
  /-- After `WARP_EXECUTE` the warp knows where to go on, and what to gather. -/
  next_pc : s.current_warp_state = .update → s.next_pc s.current_warp = a.nextPc d
  /-- After `WARP_EXECUTE` the gathered word is in place. -/
  gathered : s.current_warp_state = .update → d.decoded_reg_input_mux = .vectorToScalar →
    s.vector_to_scalar_data s.current_warp = s.scalarWriteValue
  /-- The LSUs are as they should be in this stage. -/
  lane : ∀ l, s.LaneOk l
  /-- A lane that waits for memory asks for the access of the instruction. -/
  asking : ∀ l, (s.lsu l).lsu_state = .waiting →
    (d.decoded_mem_read_enable = true →
      (s.lsu l).mem_read_valid = true ∧ (s.lsu l).mem_read_address = a.address d l) ∧
    (d.decoded_mem_write_enable = true →
      (s.lsu l).mem_write_valid = true ∧ (s.lsu l).mem_write_address = a.address d l ∧
        (s.lsu l).mem_write_data = a.storeData d l)

omit [NeZero W] in
/-- While a warp executes, the LSUs enabled are those of its state before. -/
theorem Executing.lsuEnable (h : Executing d a s) (l : Fin (T + 1)) :
    s.lsuEnable l = a.enabled d l :=
  lsuEnable_eq h.current h.scalar l

/-- The edge of `WARP_DECODE` begins the instruction that was fetched. -/
theorem Executing.begin (life : Lifetime) (hrun : Running inp s)
    (hst : s.current_warp_state = .decode)
    (hidle : ∀ l, (s.lsu l).lsu_state = .idle) :
    (coreStep life inp s).current_warp = s.current_warp ∧
      (coreStep life inp s).current_warp_state = .request ∧
      Executing (decode (inp.fetched_instruction s.current_warp)) (arch inp s s.current_warp)
        (coreStep life inp s) := by
  have hcw : (coreStep life inp s).current_warp = s.current_warp := by
    rw [step_current_warp hrun, if_neg (by simp [hst])]
  have hnext : (coreStep life inp s).current_warp_state = .request := by
    unfold current_warp_state
    rw [hcw, step_warp_state_current hrun]
    simp [currentNext, hst]
  have hup : s.current_warp_state ≠ .update := by simp [hst]
  have hlsu (l : Fin (T + 1)) : ((coreStep life inp s).lsu l).lsu_state = .idle :=
    step_lsu_idle hrun.reset (hidle l) (by simp [hst])
  have hregs (i : Fin T) (r : RegAddress) :
      ((coreStep life inp s).reg_file (coreStep life inp s).current_warp i).registers r =
        (arch inp s s.current_warp).vector i r := by
    rw [hcw, step_reg_file_registers hrun.reset hup]
  refine ⟨hcw, hnext, .inl hnext, ?_, decode_one_kind _, fun h => (decode_vectorToScalar _ h).2.1,
    ?_, ?_, fun i r _ => hregs i r,
    fun _ => hregs, fun h => absurd hnext h, ?_, ?_, ?_, ?_, ?_⟩
  · -- The decoder takes the fetched word at this edge.
    unfold ComputeCore.current
    rw [hcw, step_decoder hrun.reset, if_pos (show s.warp_state s.current_warp = .decode from hst)]
  · rw [hcw, step_pc hrun, if_neg (by simp [hst])]
    rfl
  · rw [hcw, step_scalar_registers hrun.reset hup]
    rfl
  · simp [hnext]
  · simp [hnext]
  · simp [hnext]
  · intro l
    unfold LaneOk
    rw [hnext]
    exact hlsu l
  · intro l hl
    rw [hlsu] at hl
    cases hl

/-- The requests of the lanes at an edge of the instruction. -/
theorem Executing.asking_step (h : Executing d a s) (hr : inp.reset = false) {l : Fin (T + 1)}
    (hl : ((coreStep life inp s).lsu l).lsu_state = .waiting) :
    (d.decoded_mem_read_enable = true →
      ((coreStep life inp s).lsu l).mem_read_valid = true ∧
        ((coreStep life inp s).lsu l).mem_read_address = a.address d l) ∧
    (d.decoded_mem_write_enable = true →
      ((coreStep life inp s).lsu l).mem_write_valid = true ∧
        ((coreStep life inp s).lsu l).mem_write_address = a.address d l ∧
        ((coreStep life inp s).lsu l).mem_write_data = a.storeData d l) := by
  have hstep : (coreStep life inp s).lsu l = lsuStep (s.lsuIn inp l) (s.lsu l) := rfl
  rw [hstep] at hl ⊢
  rcases ha : (s.lsuIn inp l).active with _ | _
  · rw [lsuStep_of_not_active (i := s.lsuIn inp l) hr ha] at hl ⊢
    exact h.asking l hl
  have hd : s.current = d := h.current
  rcases lsuStep_waiting hr ha (by simpa [lsuIn, hd] using h.one_kind) hl with
    ⟨hreq, hread, hwrite⟩ | hsame
  · -- A lane requests in `WARP_WAIT` only, when its operands are in place.
    have hen : a.enabled d l = true := by
      rw [← h.lsuEnable]
      simp only [LsuIn.active, lsuIn, Bool.and_eq_true] at ha
      exact ha.1
    have hst : s.current_warp_state ≠ .request := by
      intro hst
      have hlane := h.lane l
      simp only [LaneOk, hst] at hlane
      rw [hlane] at hreq
      cases hreq
    obtain ⟨h1, h2⟩ := h.operands hst l hen
    have haddr : offsetAddress (s.lsuIn inp l) = a.address d l := by
      simp only [offsetAddress, lsuIn, WarpArch.address, h1, hd]
    have hdata : (s.lsuIn inp l).rs2 = a.storeData d l := h2
    have hrd : (s.lsuIn inp l).decoded_mem_read_enable = d.decoded_mem_read_enable := by
      rw [← hd, lsuIn]
    have hwr : (s.lsuIn inp l).decoded_mem_write_enable = d.decoded_mem_write_enable := by
      rw [← hd, lsuIn]
    rw [haddr, hrd] at hread
    rw [haddr, hdata, hwr] at hwrite
    exact ⟨hread, hwrite⟩
  · rw [hsame] at hl ⊢
    exact h.asking l hl

omit [NeZero W] in
/-- The next `pc` that the core selects is that of the instruction. -/
theorem Executing.nextPc_eq (h : Executing d a s)
    (hst : s.current_warp_state = .execute ∨ s.current_warp_state = .update) :
    s.nextPc = a.nextPc d := by
  unfold ComputeCore.nextPc WarpArch.nextPc
  simp only [h.current, h.pc]
  by_cases hd : d.decoded_scalar_instruction = true
  · have halu : s.scalar_alu_out = a.result d (Fin.last T) := by
      have := h.results hst (Fin.last T) (by simpa [WarpArch.enabled] using hd)
      simpa [laneAluOut] using this
    rw [halu]
    split_ifs <;> simp_all
  · simp [hd]

/-- The results stay in place when they are computed again. -/
theorem Executing.laneAluOut_step (life : Lifetime) (h : Executing d a s) (hr : inp.reset = false)
    (hst : s.current_warp_state = .execute) (l : Fin (T + 1)) :
    (coreStep life inp s).laneAluOut l = s.laneAluOut l := by
  rw [step_laneAluOut hr, h.lsuEnable]
  split_ifs with hl
  · obtain ⟨h1, h2⟩ := h.operands (by simp [hst]) l hl
    rw [h.results (.inl hst) l hl, h.current, h.pc, h1, h2]
    rfl
  · rfl

/-- Every edge before `WARP_UPDATE` keeps the instruction going. -/
theorem Executing.step (life : Lifetime) (h : Executing d a s) (hrun : Running inp s)
    (hup : s.current_warp_state ≠ .update) :
    (coreStep life inp s).current_warp = s.current_warp ∧
      (coreStep life inp s).current_warp_state = s.currentNext life inp ∧
      Executing d a (coreStep life inp s) := by
  have hst : s.current_warp_state = .request ∨ s.current_warp_state = .wait ∨
      s.current_warp_state = .execute := by
    rcases h.stage with hst | hst | hst | hst
    · exact .inl hst
    · exact .inr (.inl hst)
    · exact .inr (.inr hst)
    · exact absurd hst hup
  obtain ⟨hcw, hcur, hen⟩ : (coreStep life inp s).current_warp = s.current_warp ∧
      (coreStep life inp s).current = s.current ∧
      ∀ l, (coreStep life inp s).lsuEnable l = s.lsuEnable l := step_current_of_busy life hrun hst
  have hnext : (coreStep life inp s).current_warp_state = s.currentNext life inp := by
    unfold current_warp_state
    rw [hcw, step_warp_state_current hrun]
  refine ⟨hcw, hnext, ?_⟩
  have hone : ¬(s.current.decoded_mem_read_enable = true ∧
      s.current.decoded_mem_write_enable = true) := by
    rw [h.current]
    exact h.one_kind
  have hstage : (coreStep life inp s).current_warp_state = .wait ∨
      (coreStep life inp s).current_warp_state = .execute ∨
      (coreStep life inp s).current_warp_state = .update := by
    rw [hnext]
    unfold currentNext
    rcases hst with hst | hst | hst <;> rw [hst]
    · exact .inl rfl
    · cases s.anyLsuWaiting life
      · exact .inr (.inl rfl)
      · exact .inl rfl
    · exact .inr (.inr rfl)
  have hoperands (l : Fin (T + 1)) (hl : a.enabled d l = true) :
      (coreStep life inp s).laneRs1 l = a.operand1 d l ∧
        (coreStep life inp s).laneRs2 l = a.operand2 d l := by
    by_cases hreq : s.current_warp_state = .request
    · exact step_laneRs hrun.reset hreq hcw h.current h.scalar (h.special hreq) hl
    · -- Later edges keep the latches.
      obtain ⟨h1, h2⟩ := step_laneRs_of_ne hrun.reset hreq hcw l
      rw [h1, h2]
      exact h.operands hreq l hl
  have hupdate : (coreStep life inp s).current_warp_state = .update →
      s.current_warp_state = .execute := by
    intro hu
    rw [hnext] at hu
    unfold currentNext at hu
    rcases hst with hst | hst | hst
    · simp [hst] at hu
    · cases hany : s.anyLsuWaiting life <;> simp [hst, hany] at hu
    · exact hst
  refine ⟨.inr hstage, hcur.trans h.current, h.one_kind, h.gathers, ?_, ?_, ?_, ?_,
    fun _ => hoperands, ?_, ?_, ?_, fun l => (h.lane l).step_busy hrun hst hone,
    fun l => h.asking_step hrun.reset⟩
  · rw [hcw, step_pc hrun, if_neg (by simp [hup])]
    exact h.pc
  · rw [hcw, step_scalar_registers hrun.reset hup]
    exact h.scalar
  · intro i r hr
    rw [hcw, step_reg_file_of_ge hrun.reset hup _ _ hr]
    exact h.vector i r hr
  · intro hreq
    rcases hstage with hs | hs | hs <;> rw [hs] at hreq <;> cases hreq
  · -- The ALUs compute from the latches, which are in place from `WARP_WAIT` on.
    intro hlate l hl
    have hnreq : s.current_warp_state ≠ .request := by
      intro hreq
      rw [hnext] at hlate
      simp [currentNext, hreq] at hlate
    obtain ⟨h1, h2⟩ := h.operands hnreq l hl
    rw [step_laneAluOut hrun.reset, h.lsuEnable, if_pos hl, h.current, h.pc, h1, h2]
    rfl
  · intro hu
    have hexec := hupdate hu
    rw [hcw, step_next_pc hrun, if_pos ⟨rfl, hexec⟩]
    exact h.nextPc_eq (.inl hexec)
  · intro hu hmux
    have hexec := hupdate hu
    -- The gather reads the outputs before the edge, which recomputes them to the same values.
    rw [hcw, step_vector_to_scalar_data hrun, if_pos ⟨rfl, hexec⟩, h.current, if_pos hmux]
    have halu (i : Fin T) : (coreStep life inp s).alu_out i = s.alu_out i := by
      have := h.laneAluOut_step life hrun.reset hexec i.castSucc
      simpa [laneAluOut] using this
    simp only [scalarWriteValue, halu]

/-! ## The last edge -/

/-- The scalar registers of the current warp at the edge that leaves `WARP_UPDATE`. -/
theorem step_scalar_update (life : Lifetime) (hr : inp.reset = false)
    (hst : s.current_warp_state = .update)
    (r : RegAddress) :
    ((coreStep life inp s).scalar_reg_file s.current_warp).registers r =
      if WarpArch.WritesScalar s.current r then
        scalarRegInput (s.scalarRegFileIn inp s.current_warp)
      else (s.scalar_reg_file s.current_warp).registers r := by
  have hst' : s.warp_state s.current_warp = .update := hst
  -- The write-back of the register file, as the source states its condition.
  have hregs : ((coreStep life inp s).scalar_reg_file s.current_warp).registers =
      if s.current.decoded_reg_write_enable &&
          (s.current.decoded_scalar_instruction ||
            decide (s.current.decoded_reg_input_mux = .vectorToScalar)) &&
          decide (s.current.decoded_rd_address > 0) then
        Function.update (s.scalar_reg_file s.current_warp).registers s.current.decoded_rd_address
          (scalarRegInput (s.scalarRegFileIn inp s.current_warp))
      else (s.scalar_reg_file s.current_warp).registers := by
    have hreset : (s.scalarRegFileIn inp s.current_warp).reset = false := hr
    have hen : (s.scalarRegFileIn inp s.current_warp).enable = true := by simp [scalarRegFileIn]
    have hw : (s.scalarRegFileIn inp s.current_warp).warp_state = .update := hst'
    simp only [coreStep, scalarRegFileStep, hreset, hen, hw, if_true, Bool.false_eq_true, if_false]
    rfl
  rw [hregs]
  -- It is the same condition as that of `WritesScalar`, at the destination register.
  by_cases hc : s.current.decoded_reg_write_enable = true ∧
      (s.current.decoded_scalar_instruction = true ∨
        s.current.decoded_reg_input_mux = .vectorToScalar) ∧ 0 < s.current.decoded_rd_address
  · rw [if_pos (by simpa [and_assoc] using hc)]
    rcases eq_or_ne r s.current.decoded_rd_address with rfl | hne
    · have hwrites : WarpArch.WritesScalar s.current s.current.decoded_rd_address :=
        ⟨hc.1, hc.2.1, rfl, hc.2.2⟩
      rw [Function.update_self, if_pos hwrites]
    · have hother : ¬WarpArch.WritesScalar s.current r := fun h => hne h.2.2.1
      rw [Function.update_of_ne hne, if_neg hother]
  · have hnone : ¬WarpArch.WritesScalar s.current r := fun h =>
      hc ⟨h.1, h.2.1, h.2.2.1 ▸ h.2.2.2⟩
    rw [if_neg (by simpa [and_assoc] using hc), if_neg hnone]

/-- The vector registers of a thread of the current warp at the edge that leaves `WARP_UPDATE`. -/
theorem step_vector_update (life : Lifetime) (hr : inp.reset = false)
    (hst : s.current_warp_state = .update)
    (i : Fin T) {r : RegAddress} (hge : 4 ≤ r) :
    ((coreStep life inp s).reg_file s.current_warp i).registers r =
      if WarpArch.WritesVector s.current r ∧
          (s.warp_execution_mask s.current_warp).getLsbD i = true then
        (vectorRegInput (s.regFileIn inp s.current_warp i)).getD
          ((s.reg_file s.current_warp i).registers r)
      else (s.reg_file s.current_warp i).registers r := by
  have hspecial : (arch inp s s.current_warp).vector i r =
      (s.reg_file s.current_warp i).registers r := arch_vector_of_ge hge
  have hregs : ((coreStep life inp s).reg_file s.current_warp i).registers =
      if (s.warp_execution_mask s.current_warp).getLsbD i = true then
        if s.current.decoded_reg_write_enable && !s.current.decoded_scalar_instruction &&
            decide (s.current.decoded_rd_address ≥ 4) then
          writeRegister ((arch inp s s.current_warp).vector i) s.current.decoded_rd_address
            (vectorRegInput (s.regFileIn inp s.current_warp i))
        else (arch inp s s.current_warp).vector i
      else (arch inp s s.current_warp).vector i := by
    have hst' : (s.regFileIn inp s.current_warp i).warp_state = .update := hst
    have hreset : (s.regFileIn inp s.current_warp i).reset = false := hr
    have hen : (s.regFileIn inp s.current_warp i).enable = true := by simp [regFileIn]
    have hthread : (s.regFileIn inp s.current_warp i).thread_enable =
        (s.warp_execution_mask s.current_warp).getLsbD i := rfl
    simp only [coreStep, regFileStep, hreset, hen, hst', hthread, if_true, Bool.false_eq_true,
      if_false]
    by_cases hmask : (s.warp_execution_mask s.current_warp).getLsbD i = true
    · rw [if_pos hmask, if_pos hmask]
      rfl
    · rw [if_neg hmask, if_neg hmask]
      rfl
  rw [hregs]
  by_cases hmask : (s.warp_execution_mask s.current_warp).getLsbD i = true
  · rw [if_pos hmask]
    by_cases hc : s.current.decoded_reg_write_enable = true ∧
        s.current.decoded_scalar_instruction = false ∧ 4 ≤ s.current.decoded_rd_address
    · rw [if_pos (by simpa [and_assoc] using hc)]
      rcases eq_or_ne r s.current.decoded_rd_address with rfl | hne
      · -- The destination keeps its value when the mux selects none of the inputs.
        have hwrites : WarpArch.WritesVector s.current s.current.decoded_rd_address :=
          ⟨hc.1, hc.2.1, rfl, hc.2.2⟩
        rw [if_pos ⟨hwrites, hmask⟩]
        cases vectorRegInput (s.regFileIn inp s.current_warp i) with
        | none => exact hspecial
        | some v => exact Function.update_self _ _ _
      · have hother : ¬WarpArch.WritesVector s.current r := fun h => hne h.2.2.1
        rw [if_neg fun h => hother h.1]
        cases vectorRegInput (s.regFileIn inp s.current_warp i) with
        | none => exact hspecial
        | some v => exact (Function.update_of_ne hne _ _).trans hspecial
    · have hnone : ¬WarpArch.WritesVector s.current r := fun h =>
        hc ⟨h.1, h.2.1, h.2.2.1 ▸ h.2.2.2⟩
      rw [if_neg (by simpa [and_assoc] using hc), if_neg fun h => hnone h.1]
      exact hspecial
  · -- A thread that is masked off writes nothing.
    rw [if_neg hmask, if_neg fun h => hmask h.2]
    exact hspecial

omit [NeZero W] in
/-- What the lanes gather, when all threads are enabled. -/
theorem Executing.scalarWriteValue_eq (h : Executing d a s) (hst : s.current_warp_state = .update)
    (hd : d.decoded_scalar_instruction = false) (hmask : ∀ i, a.mask i = true) :
    s.scalarWriteValue = a.comparisons d := by
  refine WarpArch.gather_eq_iff.mpr fun i _ => ?_
  have halu := h.results (.inr hst) i.castSucc (by simp [WarpArch.enabled, hmask, hd])
  simp only [laneAluOut, Fin.lastCases_castSucc] at halu
  rw [if_pos (hmask i), halu]

omit [NeZero W] in
/-- The value that is selected for the scalar destination register. -/
theorem Executing.scalarValue (h : Executing d a s) (hst : s.current_warp_state = .update)
    (hscalar : d.decoded_scalar_instruction = true ∨ d.decoded_reg_input_mux = .vectorToScalar)
    (hsx : d.decoded_reg_input_mux = .vectorToScalar → ∀ i, a.mask i = true) :
    scalarRegInput (s.scalarRegFileIn inp s.current_warp) =
      a.scalarValue d fun l => (s.lsu l).lsu_out := by
  have hd : s.decoder s.current_warp = d := h.current
  unfold scalarRegInput WarpArch.scalarValue scalarRegFileIn
  dsimp only
  rw [hd]
  cases hmux : d.decoded_reg_input_mux with
  | aluOut =>
    have hlast := h.results (.inr hst) (Fin.last T)
      (by simpa [WarpArch.enabled, hmux] using hscalar)
    simpa [laneAluOut] using hlast
  | lsuOut => rfl
  | immediate => rfl
  | pcPlus1 => exact congrArg (· + 1) h.pc
  | vectorToScalar =>
    exact (h.gathered hst hmux).trans (h.scalarWriteValue_eq hst (h.gathers hmux) (hsx hmux))

omit [NeZero W] in
/-- The value that is selected for the destination register of an enabled thread. -/
theorem Executing.vectorValue (h : Executing d a s) (hst : s.current_warp_state = .update)
    (hvector : d.decoded_scalar_instruction = false) {i : Fin T} (hi : a.mask i = true) :
    vectorRegInput (s.regFileIn inp s.current_warp i) =
      a.vectorValue d (fun l => (s.lsu l).lsu_out) i := by
  have hd : s.decoder s.current_warp = d := h.current
  unfold vectorRegInput WarpArch.vectorValue regFileIn
  dsimp only
  rw [hd]
  cases d.decoded_reg_input_mux with
  | aluOut =>
    have hlane := h.results (.inr hst) i.castSucc (by simp [WarpArch.enabled, hi, hvector])
    simp only [laneAluOut, Fin.lastCases_castSucc] at hlane
    exact congrArg some hlane
  | lsuOut => rfl
  | immediate => rfl
  | pcPlus1 => rfl
  | vectorToScalar => rfl

/-- The edge that leaves `WARP_UPDATE` completes the instruction, with the words in the LSUs as what
its loads returned. -/
theorem Executing.retire (life : Lifetime) (h : Executing d a s) (hrun : Running inp s)
    (hst : s.current_warp_state = .update)
    (hsx : d.decoded_reg_input_mux = .vectorToScalar → ∀ i, a.mask i = true) :
    (coreStep life inp s).pc s.current_warp = (a.exec d fun l => (s.lsu l).lsu_out).pc ∧
      (∀ r, ((coreStep life inp s).scalar_reg_file s.current_warp).registers r =
        (a.exec d fun l => (s.lsu l).lsu_out).scalar r) ∧
      ∀ i r, 4 ≤ r → ((coreStep life inp s).reg_file s.current_warp i).registers r =
        (a.exec d fun l => (s.lsu l).lsu_out).vector i r := by
  have hd : s.decoder s.current_warp = d := h.current
  refine ⟨?_, fun r => ?_, fun i r hge => ?_⟩
  · -- The program counter, the scalar registers, and the vector registers: each is written under
    -- the condition of `WarpArch.exec`, with the value that the stages have left for it.
    rw [step_pc hrun, h.next_pc hst, h.pc, h.current]
    cases hh : d.decoded_halt <;> simp [hst, WarpArch.exec, hh]
  · rw [step_scalar_update life hrun.reset hst, h.scalar, h.current]
    unfold WarpArch.exec
    dsimp only
    split_ifs with hw
    · exact h.scalarValue hst hw.2.1 hsx
    · rfl
  · rw [step_vector_update life hrun.reset hst i hge, mask_eq h.scalar, h.vector i r hge, h.current]
    unfold WarpArch.exec
    dsimp only
    split_ifs with hw
    · rw [h.vectorValue hst hw.1.2.1 hw.2]
    · rfl

end ComputeCore

end SmolGpu
