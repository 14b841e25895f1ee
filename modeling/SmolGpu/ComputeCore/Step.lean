import SmolGpu.ComputeCore.Core

/-!
# One clock edge of a core, register by register

What `coreStep` does to each register of the always block, by the stage of the current warp. The
results below this module are proved from these equations and never unfold the always block. An edge
is `Running` when it takes the block's last branch: reset is low and the core has been started.
-/

namespace SmolGpu.ComputeCore

variable {W T : ℕ} [NeZero W] {life : Lifetime} {inp : CoreIn W T} {s : ComputeCore W T}

/-- The edge takes the branch of a started core. -/
structure Running (inp : CoreIn W T) (s : ComputeCore W T) : Prop where
  /-- The core is not reset. -/
  reset : inp.reset = false
  /-- The core has started. -/
  start : s.start_execution = true

/-- The state of a warp after the loop over the fetchers. -/
def fetched (inp : CoreIn W T) (s : ComputeCore W T) (w : Fin W) : WarpState :=
  if s.warp_state w = .fetch ∧ inp.fetcher_state_in w = .done then .decode else s.warp_state w

/-- The state the current warp moves to, by its stage. -/
def currentNext (life : Lifetime) (inp : CoreIn W T) (s : ComputeCore W T) : WarpState :=
  match s.current_warp_state with
  | .idle => .idle
  | .fetch => s.fetched inp s.current_warp
  | .decode => .request
  | .request => .wait
  | .wait => if s.anyLsuWaiting life then .wait else .execute
  | .execute => .update
  | .update => if s.current.decoded_halt then .done else .fetch
  | .done => .done

/-- While the core runs, the always block is its four parts one after the other. -/
theorem alwaysBlock_of_running (h : Running inp s) :
    s.alwaysBlock life inp =
      s.stageCase life (s.chooseWarp (s.doneCheck (s.fetchCheck inp s))) := by
  simp [alwaysBlock, h.reset, h.start]

/-! ## Reset and start -/

/-- A reset stops the core and sets its warps to idle. -/
theorem step_reset (h : inp.reset = true) :
    (coreStep life inp s).start_execution = false ∧ (coreStep life inp s).done = false ∧
      (coreStep life inp s).current_warp = 0 ∧
      (∀ w, (coreStep life inp s).warp_state w = .idle) := by
  simp [coreStep, alwaysBlock, resetBranch, h]

/-- A core that is reset has idle LSUs with no request out. -/
theorem step_reset_lsu (h : inp.reset = true) (l : Fin (T + 1)) :
    (coreStep life inp s).lsu l = Lsu.resetState := by
  simp [coreStep, lsuStep, lsuIn, h]

/-- A reset clears the decoders. -/
theorem step_reset_decoder (h : inp.reset = true) (w : Fin W) :
    (coreStep life inp s).decoder w = Decoded.default := by
  simp [coreStep, decoderStep, h]

/-- A core that waits for `start` and does not see it keeps the registers of the always block. -/
theorem step_not_started (hr : inp.reset = false) (hs : s.start_execution = false)
    (hst : inp.start = false) : s.alwaysBlock life inp = s := by
  simp [alwaysBlock, startBranch, hr, hs, hst]

/-- A start sets all warps to fetching. -/
theorem step_start (hr : inp.reset = false) (hs : s.start_execution = false)
    (hst : inp.start = true) :
    s.alwaysBlock life inp =
      { s with
        start_execution := true
        current_warp := 0
        warp_state := fun _ => .fetch
        pc := fun _ => inp.kernel_config.base_instructions_address
        next_pc := fun _ => inp.kernel_config.base_instructions_address } := by
  simp [alwaysBlock, startBranch, hr, hs, hst]

/-! ## A running edge -/

section Running

/-- Choosing a warp leaves `start_execution`. -/
@[simp] theorem chooseWarp_start_execution (n : ComputeCore W T) :
    (s.chooseWarp n).start_execution = n.start_execution := by
  unfold chooseWarp
  split_ifs <;> [split; skip] <;> rfl

/-- Choosing a warp leaves `done`. -/
@[simp] theorem chooseWarp_done (n : ComputeCore W T) : (s.chooseWarp n).done = n.done := by
  unfold chooseWarp
  split_ifs <;> [split; skip] <;> rfl

/-- Choosing a warp leaves the states of the warps. -/
@[simp] theorem chooseWarp_warp_state (n : ComputeCore W T) :
    (s.chooseWarp n).warp_state = n.warp_state := by
  unfold chooseWarp
  split_ifs <;> [split; skip] <;> rfl

/-- Choosing a warp leaves the program counters. -/
@[simp] theorem chooseWarp_pc (n : ComputeCore W T) : (s.chooseWarp n).pc = n.pc := by
  unfold chooseWarp
  split_ifs <;> [split; skip] <;> rfl

/-- Choosing a warp leaves the next program counters. -/
@[simp] theorem chooseWarp_next_pc (n : ComputeCore W T) :
    (s.chooseWarp n).next_pc = n.next_pc := by
  unfold chooseWarp
  split_ifs <;> [split; skip] <;> rfl

/-- Choosing a warp leaves the gathered bits. -/
@[simp] theorem chooseWarp_vector_to_scalar_data (n : ComputeCore W T) :
    (s.chooseWarp n).vector_to_scalar_data = n.vector_to_scalar_data := by
  unfold chooseWarp
  split_ifs <;> [split; skip] <;> rfl

/-- A running core stays started. -/
theorem step_start_execution (h : Running inp s) :
    (coreStep life inp s).start_execution = true := by
  show (s.alwaysBlock life inp).start_execution = true
  rw [alwaysBlock_of_running h]
  unfold stageCase
  split <;> simp [doneCheck, fetchCheck, h.start] <;> split <;> rfl

/-- `done` is set when all warps are done before the edge. -/
theorem step_done (h : Running inp s) :
    (coreStep life inp s).done = decide (∀ w, s.warp_state w = .done) := by
  show (s.alwaysBlock life inp).done = _
  rw [alwaysBlock_of_running h]
  unfold stageCase
  split <;> simp [doneCheck, fetchCheck] <;> split <;> simp

/-- The warps' states: the stage case moves the current warp and no other. -/
theorem step_warp_state (h : Running inp s) (w : Fin W) :
    (coreStep life inp s).warp_state w =
      if w = s.current_warp then s.currentNext life inp else s.fetched inp w := by
  show (s.alwaysBlock life inp).warp_state w = _
  rw [alwaysBlock_of_running h]
  unfold stageCase currentNext
  by_cases hw : w = s.current_warp
  · -- The stage case comes last: its assignment to the current warp wins.
    subst hw
    cases hst : s.current_warp_state <;> simp only [current_warp_state] at hst
    all_goals simp [fetchCheck, doneCheck, fetched, hst]
    all_goals split <;> simp [hst]
  · cases hst : s.current_warp_state
    all_goals simp [fetchCheck, doneCheck, fetched, hw]
    all_goals split <;> simp [hw]

/-- The current warp goes to the state that its stage assigns. -/
theorem step_warp_state_current (h : Running inp s) :
    (coreStep life inp s).warp_state s.current_warp = s.currentNext life inp := by
  rw [step_warp_state h, if_pos rfl]

/-- Any other warp leaves its state only when its fetch is done. -/
theorem step_warp_state_of_ne (h : Running inp s) {w : Fin W} (hw : w ≠ s.current_warp) :
    (coreStep life inp s).warp_state w = s.fetched inp w := by
  rw [step_warp_state h, if_neg hw]

/-- The current warp changes in `WARP_UPDATE` and `WARP_DONE` only, to the warp that is found. -/
theorem step_current_warp (h : Running inp s) :
    (coreStep life inp s).current_warp =
      if s.current_warp_state = .update ∨ s.current_warp_state = .done then
        s.foundWarp.getD s.current_warp
      else s.current_warp := by
  have hchoose (n : ComputeCore W T) (hn : n.current_warp = s.current_warp) :
      (s.chooseWarp n).current_warp =
        if s.current_warp_state = .update ∨ s.current_warp_state = .done then
          s.foundWarp.getD s.current_warp
        else s.current_warp := by
    unfold chooseWarp
    split_ifs
    · cases s.foundWarp <;> rfl
    · exact hn
  show (s.alwaysBlock life inp).current_warp = _
  rw [alwaysBlock_of_running h, ← hchoose (s.doneCheck (s.fetchCheck inp s)) rfl]
  unfold stageCase
  split <;> (try split) <;> rfl

/-- `pc` is written when the current warp leaves `WARP_UPDATE` without halting. -/
theorem step_pc (h : Running inp s) (w : Fin W) :
    (coreStep life inp s).pc w =
      if w = s.current_warp ∧ s.current_warp_state = .update ∧ s.current.decoded_halt = false then
        s.next_pc w
      else s.pc w := by
  show (s.alwaysBlock life inp).pc w = _
  rw [alwaysBlock_of_running h]
  unfold stageCase
  by_cases hw : w = s.current_warp
  · subst hw
    cases hst : s.current_warp_state <;> simp [fetchCheck, doneCheck] <;> split <;> simp_all
  · cases hst : s.current_warp_state <;> simp [fetchCheck, doneCheck, hw] <;> split <;> simp [hw]

/-- `next_pc` is written when the current warp is in `WARP_EXECUTE`. -/
theorem step_next_pc (h : Running inp s) (w : Fin W) :
    (coreStep life inp s).next_pc w =
      if w = s.current_warp ∧ s.current_warp_state = .execute then s.nextPc else s.next_pc w := by
  show (s.alwaysBlock life inp).next_pc w = _
  rw [alwaysBlock_of_running h]
  unfold stageCase
  by_cases hw : w = s.current_warp
  · subst hw
    cases hst : s.current_warp_state <;> simp [fetchCheck, doneCheck] <;> split <;> simp
  · cases hst : s.current_warp_state <;> simp [fetchCheck, doneCheck, hw] <;> split <;> simp

/-- `vector_to_scalar_data` is written when the current warp is in `WARP_EXECUTE`. -/
theorem step_vector_to_scalar_data (h : Running inp s) (w : Fin W) :
    (coreStep life inp s).vector_to_scalar_data w =
      if w = s.current_warp ∧ s.current_warp_state = .execute then
        if s.current.decoded_reg_input_mux = .vectorToScalar then s.scalarWriteValue else 0
      else s.vector_to_scalar_data w := by
  show (s.alwaysBlock life inp).vector_to_scalar_data w = _
  rw [alwaysBlock_of_running h]
  unfold stageCase
  by_cases hw : w = s.current_warp
  · subst hw
    cases hst : s.current_warp_state <;> simp [fetchCheck, doneCheck] <;> split <;> simp
  · cases hst : s.current_warp_state <;> simp [fetchCheck, doneCheck, hw] <;> split <;> simp

end Running

/-! ## The instances

Reset low is all that the decoders, register files, and units need: they do not look at
`start_execution`. -/

section Instances

variable (hr : inp.reset = false)
include hr

/-- A decoder takes the fetched word in DECODE and keeps its fields otherwise. -/
theorem step_decoder (w : Fin W) :
    (coreStep life inp s).decoder w =
      if s.warp_state w = .decode then decode (inp.fetched_instruction w) else s.decoder w := by
  simp [coreStep, decoderStep, hr]

/-- The scalar registers of a warp that is not current do not change. -/
theorem step_scalar_reg_file_of_ne {w : Fin W} (hw : w ≠ s.current_warp) :
    (coreStep life inp s).scalar_reg_file w = s.scalar_reg_file w := by
  simp [coreStep, scalarRegFileStep, scalarRegFileIn, hr, hw.symm]

/-- The vector registers of a warp that is not current do not change. -/
theorem step_reg_file_of_ne {w : Fin W} (hw : w ≠ s.current_warp) (i : Fin T) :
    (coreStep life inp s).reg_file w i = s.reg_file w i := by
  simp [coreStep, regFileStep, regFileIn, hr, hw.symm]

/-- The scalar registers of the current warp are written in `WARP_UPDATE` only. -/
theorem step_scalar_registers (hst : s.current_warp_state ≠ .update) (w : Fin W) :
    ((coreStep life inp s).scalar_reg_file w).registers = (s.scalar_reg_file w).registers := by
  by_cases hw : w = s.current_warp
  · -- In the other stages the register file latches operands, or does nothing.
    subst hw
    have hst' : s.warp_state s.current_warp ≠ .update := hst
    simp [coreStep, scalarRegFileStep, scalarRegFileIn, hr, hst']
  · rw [step_scalar_reg_file_of_ne hr hw]

/-- So are the masks of the warps. -/
theorem step_warp_execution_mask (hst : s.current_warp_state ≠ .update) (w : Fin W) :
    (coreStep life inp s).warp_execution_mask w = s.warp_execution_mask w := by
  unfold warp_execution_mask ScalarRegFile.warp_execution_mask
  rw [step_scalar_registers hr hst]

end Instances

/-! ## What a core looks at -/

/-- A core looks at the word for a lane only when its unit takes it. -/
theorem coreStep_congr_data {data : Fin (T + 1) → DataT}
    (h : ∀ l, inp.data_mem_read_ready l = true →
      s.current.decoded_mem_read_enable = true → (s.lsu l).lsu_state = .waiting →
        inp.data_mem_read_data l = data l) :
    coreStep life { inp with data_mem_read_data := data } s = coreStep life inp s := by
  have hlsu (l : Fin (T + 1)) :
      lsuStep (s.lsuIn { inp with data_mem_read_data := data } l) (s.lsu l) =
        lsuStep (s.lsuIn inp l) (s.lsu l) := lsuStep_congr_data (i := s.lsuIn inp l) (h l)
  have hblock : s.alwaysBlock life { inp with data_mem_read_data := data } =
      s.alwaysBlock life inp := rfl
  unfold coreStep
  simp only [hlsu, hblock]
  rfl

end SmolGpu.ComputeCore
