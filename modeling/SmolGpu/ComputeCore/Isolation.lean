import SmolGpu.ComputeCore.Execute
import SmolGpu.ComputeCore.Lane

/-!
# What a block can see of the ones before it

Two cores with any contents are reset and then sampled the same inputs. A reset does not clear the
operand latches, and neither does it clear `vector_to_scalar_data`, yet almost nothing of them gets
out: the lanes of enabled threads latch their operands anew and recompute their results before
anything reads them. The exception is the gather of an `sx` instruction, which also reads the ALU
outputs of the threads that are masked off. `SameState.step` is the edge of the two cores, and
`block_isolation` says of whole runs that the blocks are isolated just if every gather that is
written reads the same bits in both.
-/

namespace SmolGpu

namespace ComputeCore

variable {W T : ℕ}

/-- The same at the ports of the core and in the registers of the program. -/
structure SameView (c c' : ComputeCore W T) : Prop where
  /-- The cores are done at once. -/
  done : c.done = c'.done
  /-- They ask for the same reads. -/
  read_valid : ∀ l, (c.lsu l).mem_read_valid = (c'.lsu l).mem_read_valid
  /-- The addresses of the reads are the same. -/
  read_address : ∀ l, (c.lsu l).mem_read_address = (c'.lsu l).mem_read_address
  /-- They ask for the same writes. -/
  write_valid : ∀ l, (c.lsu l).mem_write_valid = (c'.lsu l).mem_write_valid
  /-- The addresses of the writes are the same. -/
  write_address : ∀ l, (c.lsu l).mem_write_address = (c'.lsu l).mem_write_address
  /-- The words of the writes are the same. -/
  write_data : ∀ l, (c.lsu l).mem_write_data = (c'.lsu l).mem_write_data
  /-- The program counters are the same. -/
  pc : c.pc = c'.pc
  /-- The scalar registers are the same. -/
  scalar : ∀ w, (c.scalar_reg_file w).registers = (c'.scalar_reg_file w).registers
  /-- The vector registers are the same. -/
  vector : ∀ w i, (c.reg_file w i).registers = (c'.reg_file w i).registers

/-- The instruction writes a gathered word to a register other than `s0`. -/
def Gathers (d : Decoded) : Prop :=
  d.decoded_reg_input_mux = .vectorToScalar ∧ WarpArch.WritesScalar d d.decoded_rd_address

/-- If `c` is about to gather for a register, the ALU outputs of the threads that are masked off
have the same lowest bits in both cores. -/
def SameStaleBits (c c' : ComputeCore W T) : Prop :=
  c.current_warp_state = .execute → Gathers c.current → ∀ i : Fin T, (i : ℕ) < 32 →
    (c.warp_execution_mask c.current_warp).getLsbD i = false →
      (c.alu_out i).getLsbD 0 = (c'.alu_out i).getLsbD 0

/-- Nothing that a reset leaves in the cores will get out at the next edge. A simulator that
initializes `any_lsu_waiting` only once has it as one more register. -/
structure Clean (life : Lifetime) (c c' : ComputeCore W T) : Prop where
  /-- No stale bit is about to be gathered. -/
  stale : SameStaleBits c c'
  /-- The flag is read in `WARP_WAIT` only. -/
  flag : life = .static → c.current_warp_state = .wait → c.any_lsu_waiting = c'.any_lsu_waiting

/-- The registers that are the same in the two cores whatever a reset leaves in them. The operand
latches, the ALU outputs and the gathered word are not among them. -/
structure SameState (c c' : ComputeCore W T) : Prop where
  /-- Both are started or neither is. -/
  start_execution : c.start_execution = c'.start_execution
  /-- Both are done or neither is. -/
  done : c.done = c'.done
  /-- The current warps are the same. -/
  current_warp : c.current_warp = c'.current_warp
  /-- The warps are in the same states. -/
  warp_state : c.warp_state = c'.warp_state
  /-- The program counters are the same. -/
  pc : c.pc = c'.pc
  /-- The decoded fields are the same. -/
  decoder : c.decoder = c'.decoder
  /-- The scalar registers are the same. -/
  scalar : ∀ w, (c.scalar_reg_file w).registers = (c'.scalar_reg_file w).registers
  /-- The vector registers are the same. -/
  vector : ∀ w i, (c.reg_file w i).registers = (c'.reg_file w i).registers
  /-- The LSUs are the same. -/
  lsu : c.lsu = c'.lsu
  /-- The current warp is in the middle of the same instruction. -/
  busy : ¬Parked c.current_warp_state → ∃ d a, Executing d a c ∧ Executing d a c'
  /-- A gathered word that is about to be written is the same. -/
  gathered : c.current_warp_state = .update → Gathers c.current →
    c.vector_to_scalar_data c.current_warp = c'.vector_to_scalar_data c'.current_warp

section Edge

variable [NeZero W] {life : Lifetime} {inp : CoreIn W T} {c : ComputeCore W T}

/-- Only `WARP_EXECUTE` leads to `WARP_UPDATE`. -/
theorem execute_of_step_update (hi : Invariant c) (hrun : Running inp c)
    (hup : (coreStep life inp c).current_warp_state = .update) :
    c.current_warp_state = .execute := by
  have hbusy : ¬Parked (coreStep life inp c).current_warp_state := by simp [Parked, hup]
  -- Of the stages that lead to a busy one, the others lead elsewhere.
  obtain ⟨-, ⟨-, hnext⟩ | ⟨-, hnext⟩ | ⟨-, hnext | hnext⟩ | ⟨hst, -⟩⟩ := hi.stage_before hrun hbusy
  · exact absurd (hnext.symm.trans hup) (by decide)
  · exact absurd (hnext.symm.trans hup) (by decide)
  · exact absurd (hnext.symm.trans hup) (by decide)
  · exact absurd (hnext.symm.trans hup) (by decide)
  · exact hst

/-- Two edges after the gather, the word is in the destination register. -/
theorem Executing.scalar_of_gathers {d : Decoded} {a : WarpArch T} (h : Executing d a c)
    (hrun : Running inp c) {inp' : CoreIn W T} (hr : inp'.reset = false)
    (hst : c.current_warp_state = .execute) (hgathers : Gathers d) :
    ((coreStep life inp' (coreStep life inp c)).scalar_reg_file c.current_warp).registers
      d.decoded_rd_address = c.scalarWriteValue := by
  obtain ⟨hcw, hnext, hex⟩ := h.step life hrun (by simp [hst])
  have hup : (coreStep life inp c).current_warp_state = .update := by
    rw [hnext, currentNext, hst]
  have hvalue := step_scalar_update life hr hup d.decoded_rd_address
  rw [hcw] at hvalue
  rw [hvalue, hex.current, if_pos hgathers.2]
  -- What is written is the word that was gathered at the first of the two edges.
  have hword := hex.gathered hup hgathers.1
  rw [hcw] at hword
  have hmux : ((coreStep life inp c).decoder c.current_warp).decoded_reg_input_mux =
      .vectorToScalar := by
    have hcur := hex.current
    unfold ComputeCore.current at hcur
    rw [hcw] at hcur
    rw [hcur]
    exact hgathers.1
  -- The ALU outputs stay in place between the gather and the write.
  have hsame : (coreStep life inp c).scalarWriteValue = c.scalarWriteValue := by
    refine WarpArch.gather_eq_iff.mpr fun i _ => ?_
    have halu := h.laneAluOut_step life hrun.reset hst i.castSucc
    simp only [laneAluOut, Fin.lastCases_castSucc] at halu
    rw [halu]
  rw [← hsame, ← hword]
  unfold SmolGpu.scalarRegInput scalarRegFileIn
  simp only [hmux]

end Edge

namespace SameState

variable {life : Lifetime} {inp : CoreIn W T} {c c' : ComputeCore W T}

/-- States that agree are one state to the warps. -/
theorem view (h : SameState c c') : SameView c c' := by
  constructor <;> simp [h.done, h.lsu, h.pc, h.scalar, h.vector]

/-- They are in one stage. -/
theorem stage (h : SameState c c') : c.current_warp_state = c'.current_warp_state := by
  unfold current_warp_state
  rw [h.warp_state, h.current_warp]

/-- The current warp has decoded one instruction. -/
theorem current (h : SameState c c') : c.current = c'.current := by
  unfold ComputeCore.current
  rw [h.decoder, h.current_warp]

/-- The warps have the same threads. -/
theorem mask (h : SameState c c') (w : Fin W) :
    c.warp_execution_mask w = c'.warp_execution_mask w := by
  unfold warp_execution_mask ScalarRegFile.warp_execution_mask
  rw [h.scalar]

/-- The same LSUs are enabled. -/
theorem lsuEnable (h : SameState c c') : c.lsuEnable = c'.lsuEnable := by
  funext l
  unfold ComputeCore.lsuEnable threadEnable
  rw [h.current, h.current_warp, h.mask]

/-- The fetchers take the warps to one state. -/
theorem fetched (h : SameState c c') (w : Fin W) : c.fetched inp w = c'.fetched inp w := by
  unfold ComputeCore.fetched
  rw [h.warp_state]

/-- One warp is chosen. -/
theorem foundWarp [NeZero W] (h : SameState c c') : c.foundWarp = c'.foundWarp := by
  unfold ComputeCore.foundWarp
  rw [h.warp_state, h.current_warp]

/-- The `WARP_WAIT` branches agree on whether an LSU is waiting. -/
theorem anyLsuWaiting (h : SameState c c')
    (hflag : life = .static → c.any_lsu_waiting = c'.any_lsu_waiting) :
    c.anyLsuWaiting life = c'.anyLsuWaiting life := by
  unfold ComputeCore.anyLsuWaiting
  rw [h.lsu]
  cases life with
  | automatic => rfl
  | static => rw [hflag rfl]

/-- So they agree on the stage that comes next. -/
theorem currentNext (h : SameState c c') (hflag : life = .static → c.current_warp_state = .wait →
    c.any_lsu_waiting = c'.any_lsu_waiting) :
    c.currentNext life inp = c'.currentNext life inp := by
  unfold ComputeCore.currentNext
  rw [← h.stage, ← h.current, h.fetched, h.current_warp]
  cases hst : c.current_warp_state with
  | wait => rw [h.anyLsuWaiting fun hlife => hflag hlife hst]
  | idle | fetch | decode | request | execute | update | done => rfl

/-- The requests depend on the operand latches only when a lane is about to ask. Then the
instruction has latched its operands in both cores. -/
theorem step_lsu [NeZero W] (h : SameState c c') (hi : Invariant c) :
    (coreStep life inp c).lsu = (coreStep life inp c').lsu := by
  funext l
  have hin : c'.lsuIn inp l =
      { c.lsuIn inp l with rs1 := c'.laneRs1 l, rs2 := c'.laneRs2 l } := by
    unfold lsuIn
    rw [h.current, h.stage, h.lsuEnable]
  show lsuStep (c.lsuIn inp l) (c.lsu l) = lsuStep (c'.lsuIn inp l) (c'.lsu l)
  rw [hin, ← h.lsu]
  -- A unit that is about to ask belongs to an enabled lane of the current instruction.
  refine lsuStep_congr fun hen hs => ?_
  have hst : c.current_warp_state = .wait := (hi.lane l).stage_of_waiting (.inl hs)
  obtain ⟨d, a, hex, hex'⟩ := h.busy (by simp [Parked, hst])
  have hl : a.enabled d l = true := by
    rw [← hex.lsuEnable]
    exact hen
  obtain ⟨h1, h2⟩ := hex.operands (by simp [hst]) l hl
  obtain ⟨h1', h2'⟩ := hex'.operands (by simp [← h.stage, hst]) l hl
  exact ⟨h1.trans h1'.symm, h2.trans h2'.symm⟩

section Step

variable [NeZero W]

omit [NeZero W] in
/-- The value selected for a scalar destination register. Only a gather needs the ALU outputs of
lanes that the instruction does not enable. -/
theorem scalarRegInput (h : SameState c c') (hst : c.current_warp_state = .update)
    (hwrites : WarpArch.WritesScalar c.current c.current.decoded_rd_address) :
    SmolGpu.scalarRegInput (c.scalarRegFileIn inp c.current_warp) =
      SmolGpu.scalarRegInput (c'.scalarRegFileIn inp c'.current_warp) := by
  by_cases hmux : c.current.decoded_reg_input_mux = .vectorToScalar
  · -- The gathered word: it is the same by assumption.
    have hmux' : c'.current.decoded_reg_input_mux = .vectorToScalar := h.current ▸ hmux
    have hgather := h.gathered hst ⟨hmux, hwrites⟩
    unfold SmolGpu.scalarRegInput scalarRegFileIn
    dsimp only
    rw [show (c.decoder c.current_warp).decoded_reg_input_mux = .vectorToScalar from hmux,
      show (c'.decoder c'.current_warp).decoded_reg_input_mux = .vectorToScalar from hmux']
    exact hgather
  · -- Any other value comes from the scalar lane, which is enabled.
    obtain ⟨d, a, hex, hex'⟩ := h.busy (by simp [Parked, hst])
    have hscalar := hwrites.2.1
    rw [hex.current] at hscalar hmux
    rw [hex.scalarValue hst hscalar fun hv => absurd hv hmux,
      hex'.scalarValue (h.stage ▸ hst) hscalar fun hv => absurd hv hmux, h.lsu]

/-- A clock edge keeps the scalar registers equal. -/
theorem step_scalar (h : SameState c c') (hr : inp.reset = false) (w : Fin W) :
    ((coreStep life inp c).scalar_reg_file w).registers =
      ((coreStep life inp c').scalar_reg_file w).registers := by
  by_cases hst : c.current_warp_state = .update
  · have hst' : c'.current_warp_state = .update := h.stage ▸ hst
    by_cases hw : w = c.current_warp
    · subst hw
      funext r
      have hleft := step_scalar_update life hr hst r
      have hright := step_scalar_update life hr hst' r
      rw [← h.current] at hright
      rw [hleft, h.current_warp, hright, ← h.current_warp, h.scalar]
      split_ifs with hwrites
      · obtain rfl : r = c.current.decoded_rd_address := hwrites.2.2.1
        rw [h.scalarRegInput hst hwrites, ← h.current_warp]
      · rfl
    · rw [step_scalar_reg_file_of_ne hr hw,
        step_scalar_reg_file_of_ne hr (h.current_warp ▸ hw), h.scalar]
  · rw [step_scalar_registers hr hst, step_scalar_registers hr (h.stage ▸ hst), h.scalar]

/-- A clock edge keeps the vector registers equal. -/
theorem step_vector (h : SameState c c') (hr : inp.reset = false) (w : Fin W) (i : Fin T) :
    ((coreStep life inp c).reg_file w i).registers =
      ((coreStep life inp c').reg_file w i).registers := by
  funext r
  by_cases hge : 4 ≤ r
  · by_cases hst : c.current_warp_state = .update
    · have hst' : c'.current_warp_state = .update := h.stage ▸ hst
      by_cases hw : w = c.current_warp
      · subst hw
        obtain ⟨d, a, hex, hex'⟩ := h.busy (by simp [Parked, hst])
        have hleft := step_vector_update life hr hst i hge
        have hright := step_vector_update life hr hst' i hge
        rw [← h.current, ← h.mask, ← h.current_warp, ← h.vector] at hright
        rw [hleft, hright]
        split_ifs with hwrites
        · -- The thread writes, so it is enabled and its value is that of the instruction.
          have hmask : a.mask i = true := by
            rw [← mask_eq hex.scalar]
            exact hwrites.2
          have hvector : d.decoded_scalar_instruction = false := hex.current ▸ hwrites.1.2.1
          have hvalue : vectorRegInput (c'.regFileIn inp c'.current_warp i) =
              a.vectorValue d (fun l => (c'.lsu l).lsu_out) i :=
            hex'.vectorValue (h.stage ▸ hst) hvector hmask
          rw [← h.current_warp] at hvalue
          rw [hex.vectorValue hst hvector hmask, hvalue, h.lsu]
        · rfl
      · rw [step_reg_file_of_ne hr hw, step_reg_file_of_ne hr (h.current_warp ▸ hw), h.vector]
    · rw [step_reg_file_of_ge hr hst w i hge, step_reg_file_of_ge hr (h.stage ▸ hst) w i hge,
        h.vector]
  · -- The four special registers.
    rw [step_reg_file_of_lt hr w i hge, step_reg_file_of_lt hr w i hge, h.current_warp, h.vector]
    split_ifs
    · exact specialRegisters_of_lt hge
    · rfl

omit [NeZero W] in
/-- The warps have one architectural state. -/
theorem arch_eq (h : SameState c c') (w : Fin W) : arch inp c w = arch inp c' w := by
  refine WarpArch.ext (congrFun h.pc w) (h.scalar w) (funext fun i => ?_)
  show specialRegisters _ _ _ (c.reg_file w i).registers =
    specialRegisters _ _ _ (c'.reg_file w i).registers
  rw [h.vector]

/-- The current warp is in the middle of the same instruction after the edge as well. -/
theorem step_busy (h : SameState c c') (hi : Invariant c) (hi' : Invariant c')
    (hrun : Running inp c) (hrun' : Running inp c')
    (hbusy : ¬Parked (coreStep life inp c).current_warp_state) :
    ∃ d a, Executing d a (coreStep life inp c) ∧ Executing d a (coreStep life inp c') := by
  by_cases hdec : c.current_warp_state = .decode
  · -- Both cores begin the instruction that is fetched for them.
    have hp : Parked c.current_warp_state := .inr (.inr (.inl hdec))
    have hdec' : c'.current_warp_state = .decode := h.stage ▸ hdec
    have hp' : Parked c'.current_warp_state := .inr (.inr (.inl hdec'))
    obtain ⟨-, -, hex⟩ := Executing.begin life hrun hdec (hi.idle_of_parked hp)
    obtain ⟨-, -, hex'⟩ := Executing.begin life hrun' hdec' (hi'.idle_of_parked hp')
    rw [← h.current_warp, ← h.arch_eq] at hex'
    exact ⟨_, _, hex, hex'⟩
  by_cases hup : c.current_warp_state = .update
  · -- The instruction ends.
    exact absurd (hi.parked_step hrun (.inl hup) _) hbusy
  by_cases hp : Parked c.current_warp_state
  · -- No instruction is under way, and none begins.
    refine absurd (hi.parked_step hrun (.inr ?_) _) hbusy
    rcases hp with hst | hst | hst | hst
    · exact .inl hst
    · exact .inr (.inl hst)
    · exact absurd hst hdec
    · exact .inr (.inr hst)
  · obtain ⟨d, a, hex, hex'⟩ := h.busy hp
    exact ⟨d, a, (hex.step life hrun hup).2.2, (hex'.step life hrun' (h.stage ▸ hup)).2.2⟩

omit [NeZero W] in
/-- The words that are gathered agree if the bits of the threads that are masked off do. -/
theorem scalarWriteValue_eq_iff (h : SameState c c') (hst : c.current_warp_state = .execute)
    (hmux : c.current.decoded_reg_input_mux = .vectorToScalar) :
    c.scalarWriteValue = c'.scalarWriteValue ↔ ∀ i : Fin T, (i : ℕ) < 32 →
      (c.warp_execution_mask c.current_warp).getLsbD i = false →
        (c.alu_out i).getLsbD 0 = (c'.alu_out i).getLsbD 0 := by
  obtain ⟨d, a, hex, hex'⟩ := h.busy (by simp [Parked, hst])
  -- The threads that are not masked off have computed the same results.
  have hresult (i : Fin T) (hon : (c.warp_execution_mask c.current_warp).getLsbD i = true) :
      c.alu_out i = c'.alu_out i := by
    have hvector : d.decoded_scalar_instruction = false := hex.gathers (hex.current ▸ hmux)
    have hen : a.enabled d i.castSucc = true := by
      rw [mask_eq hex.scalar] at hon
      simp [WarpArch.enabled, hon, hvector]
    have halu : c.laneAluOut i.castSucc = c'.laneAluOut i.castSucc :=
      (hex.results (.inl hst) _ hen).trans (hex'.results (.inl (h.stage ▸ hst)) _ hen).symm
    simpa [laneAluOut] using halu
  refine WarpArch.gather_eq_iff.trans (forall_congr' fun i => forall_congr' fun hi => ?_)
  rcases hon : (c.warp_execution_mask c.current_warp).getLsbD i with _ | _
  · exact ⟨fun hbit _ => hbit, fun hbit => hbit rfl⟩
  · exact ⟨fun _ hoff => absurd hoff (by simp), fun _ => by rw [hresult i hon]⟩

/-- An edge of two started cores. -/
theorem step_running (h : SameState c c') (hi : Invariant c) (hi' : Invariant c')
    (hrun : Running inp c) (hclean : Clean life c c') :
    SameState (coreStep life inp c) (coreStep life inp c') := by
  have hrun' : Running inp c' := ⟨hrun.reset, h.start_execution ▸ hrun.start⟩
  constructor
  · rw [step_start_execution hrun, step_start_execution hrun']
  · rw [step_done hrun, step_done hrun', h.warp_state]
  · rw [step_current_warp hrun, step_current_warp hrun', h.stage, h.foundWarp, h.current_warp]
  · funext w
    rw [step_warp_state hrun, step_warp_state hrun', h.currentNext hclean.flag, h.fetched,
      h.current_warp]
  · funext w
    rw [step_pc hrun, step_pc hrun', ← h.stage, ← h.current, ← h.current_warp, ← h.pc]
    split_ifs with hw
    · -- The current warp goes on where its instruction leads.
      obtain ⟨d, a, hex, hex'⟩ := h.busy (by simp [Parked, hw.2.1])
      have hnext := hex'.next_pc (h.stage ▸ hw.2.1)
      rw [← h.current_warp] at hnext
      rw [hw.1, hex.next_pc hw.2.1, hnext]
    · rfl
  · funext w
    rw [step_decoder hrun.reset, step_decoder hrun.reset, h.warp_state, h.decoder]
  · exact h.step_scalar hrun.reset
  · exact h.step_vector hrun.reset
  · exact h.step_lsu hi
  · exact h.step_busy hi hi' hrun hrun'
  · -- A word that is about to be written was gathered at this very edge.
    intro hup hgathers
    have hst := execute_of_step_update hi hrun hup
    have hst' : c'.current_warp_state = .execute := h.stage ▸ hst
    obtain ⟨hcw, hcur, -⟩ := step_current_of_busy life hrun (.inr (.inr hst))
    obtain ⟨hcw', -⟩ := step_current_of_busy life hrun' (.inr (.inr hst'))
    rw [hcur] at hgathers
    rw [hcw, hcw', step_vector_to_scalar_data hrun, step_vector_to_scalar_data hrun',
      if_pos (And.intro rfl hst), if_pos (And.intro rfl hst'),
      if_pos hgathers.1, if_pos (h.current ▸ hgathers.1)]
    exact (h.scalarWriteValue_eq_iff hst hgathers.1).mpr (hclean.stale hst hgathers)

/-- An edge of two cores that have not been started. -/
theorem step_waiting (h : SameState c c') (hi : Invariant c) (hr : inp.reset = false)
    (hns : c.start_execution = false) :
    SameState (coreStep life inp c) (coreStep life inp c') := by
  have hns' : c'.start_execution = false := h.start_execution ▸ hns
  -- Both cores wait for `start` or take it, and park all their warps.
  obtain ⟨hstart, hdone, hcw, hws, hpc, hparked⟩ :
      (c.alwaysBlock life inp).start_execution = (c'.alwaysBlock life inp).start_execution ∧
      (c.alwaysBlock life inp).done = (c'.alwaysBlock life inp).done ∧
      (c.alwaysBlock life inp).current_warp = (c'.alwaysBlock life inp).current_warp ∧
      (c.alwaysBlock life inp).warp_state = (c'.alwaysBlock life inp).warp_state ∧
      (c.alwaysBlock life inp).pc = (c'.alwaysBlock life inp).pc ∧
      ∀ w, Parked ((c.alwaysBlock life inp).warp_state w) := by
    rcases hst : inp.start with _ | _
    · rw [step_not_started hr hns hst, step_not_started hr hns' hst]
      exact ⟨h.start_execution, h.done, h.current_warp, h.warp_state, h.pc,
        fun w => .inl (hi.not_started hns w)⟩
    · rw [step_start hr hns hst, step_start hr hns' hst]
      exact ⟨rfl, h.done, rfl, rfl, rfl, fun _ => .inr (.inl rfl)⟩
  have hparked' : Parked (coreStep life inp c).current_warp_state := hparked _
  refine ⟨hstart, hdone, hcw, hws, hpc, ?_, h.step_scalar hr, h.step_vector hr, h.step_lsu hi,
    fun hbusy => absurd hparked' hbusy, fun hup => ?_⟩
  · funext w
    rw [step_decoder hr, step_decoder hr, h.warp_state, h.decoder]
  · rw [hup] at hparked'
    simp [Parked] at hparked'

/-- An edge with reset low. -/
theorem step (h : SameState c c') (hi : Invariant c) (hi' : Invariant c')
    (hr : inp.reset = false) (hclean : Clean life c c') :
    SameState (coreStep life inp c) (coreStep life inp c') := by
  rcases hs : c.start_execution with _ | _
  · exact h.step_waiting hi hr hs
  · exact h.step_running hi hi' ⟨hr, hs⟩ hclean

/-- An edge with reset high, whatever the cores held. -/
theorem of_reset (hr : inp.reset = true) :
    SameState (coreStep life inp c) (coreStep life inp c') := by
  have hcore : Invariant (coreStep life inp c) := .of_reset hr
  have hns : (coreStep life inp c).start_execution = false := (step_reset hr).1
  have hidle : (coreStep life inp c).current_warp_state = .idle := hcore.not_started hns _
  -- The reset assigns what the core holds; the operand latches are left out, and no busy stage
  -- reads them.
  constructor
  · rw [hns, (step_reset hr).1]
  · rw [(step_reset hr).2.1, (step_reset hr).2.1]
  · rw [(step_reset hr).2.2.1, (step_reset hr).2.2.1]
  · funext w
    rw [(step_reset hr).2.2.2, (step_reset hr).2.2.2]
  · simp [coreStep, alwaysBlock, resetBranch, hr]
  · funext w
    rw [step_reset_decoder hr, step_reset_decoder hr]
  · intro w
    simp [coreStep, scalarRegFileStep, scalarRegFileIn, hr]
  · intro w i
    simp [coreStep, regFileStep, regFileIn, hr]
  · funext l
    rw [step_reset_lsu hr, step_reset_lsu hr]
  · exact fun hbusy => absurd (.inl hidle) hbusy
  · exact fun hup => absurd (hidle.symm.trans hup) (by decide)

end Step

end SameState

/-! ## Two runs -/

section Run

variable [NeZero W] {life : Lifetime} {reset : CoreIn W T} {inp : ℕ → CoreIn W T}
  {c c' : ComputeCore W T}

/-- Two runs in which nothing gets out before edge `n`. -/
theorem SameState.run (hreset : reset.reset = true) (hlow : ∀ n, (inp n).reset = false) {n : ℕ}
    (hclean : ∀ m < n, Clean life (blockRun life reset inp c m) (blockRun life reset inp c' m)) :
    SameState (blockRun life reset inp c n) (blockRun life reset inp c' n) := by
  induction n with
  | zero => exact .of_reset hreset
  | succ n ih =>
    have hsame := ih fun m hm => hclean m (Nat.lt_succ_of_lt hm)
    exact hsame.step (.of_blockRun hreset n) (.of_blockRun hreset n) (hlow n)
      (hclean n (Nat.lt_succ_self n))

/-- If the cores look the same two edges later, the gather read the same bits. -/
theorem SameState.stale_of_view {inp inp' : CoreIn W T} (h : SameState c c')
    (hr : inp.reset = false) (hr' : inp'.reset = false) (hi : Invariant c)
    (hview : SameView (coreStep life inp' (coreStep life inp c))
      (coreStep life inp' (coreStep life inp c'))) : SameStaleBits c c' := by
  intro hst hgathers
  obtain ⟨d, a, hex, hex'⟩ := h.busy (by simp [Parked, hst])
  have hstart : c.start_execution = true := by
    by_contra hns
    have hidle := hi.not_started (by simpa using hns) c.current_warp
    exact absurd (hidle.symm.trans hst) (by decide)
  have hrun : Running inp c := ⟨hr, hstart⟩
  have hrun' : Running inp c' := ⟨hr, h.start_execution ▸ hstart⟩
  -- Two edges later the gathered words are in the registers, which are the same.
  refine (h.scalarWriteValue_eq_iff hst hgathers.1).mp ?_
  rw [hex.current] at hgathers
  rw [← hex.scalar_of_gathers hrun hr' hst hgathers,
    ← hex'.scalar_of_gathers hrun' hr' (h.stage ▸ hst) hgathers, hview.scalar, h.current_warp]

end Run

/-- An example core of one warp and one thread, in which an earlier block left `v` in an operand
latch. -/
def leftover (v : DataT) : ComputeCore 1 1 :=
  { powerUp with reg_file := fun _ _ => ⟨fun _ => 0, v, 0⟩ }

/-- The inputs of the example core at edge `n`: the block is `s.addi s1, s0, 0`, which masks the
thread off, and then `sx.slti s5, x0, 5`. -/
def leakIn (reset : Bool) (n : ℕ) : CoreIn 1 1 where
  reset := reset
  start := true
  block_id := 0
  kernel_config := ⟨0, 0, 1, 1⟩
  fetcher_state_in := fun _ => .done
  fetched_instruction := fun _ => if n < 5 then 0x000000D3 else 0x005002FD
  data_mem_read_ready := fun _ => false
  data_mem_read_data := fun _ => 0
  data_mem_write_ready := fun _ => false

end ComputeCore

open ComputeCore in
/-- Two cores with any contents are reset, and then sampled the same inputs. If no gather reads
what was left in the lanes of threads that are masked off, the ports and the registers of the
program are the same in both for good. With `any_lsu_waiting` initialized at each entry, they are
the same for good only if no gather does. -/
theorem block_isolation {W T : ℕ} [NeZero W] (life : Lifetime) {reset : CoreIn W T}
    {inp : ℕ → CoreIn W T} (hreset : reset.reset = true) (hlow : ∀ n, (inp n).reset = false)
    (c c' : ComputeCore W T) :
    ((∀ n, Clean life (blockRun life reset inp c n) (blockRun life reset inp c' n)) →
      ∀ n, SameView (blockRun life reset inp c n) (blockRun life reset inp c' n)) ∧
    (life = .automatic →
      (∀ n, SameView (blockRun life reset inp c n) (blockRun life reset inp c' n)) →
        ∀ n, Clean life (blockRun life reset inp c n) (blockRun life reset inp c' n)) := by
  refine ⟨fun hclean n => (SameState.run hreset hlow fun m _ => hclean m).view, ?_⟩
  rintro rfl hview n
  -- By strong induction: until edge `n`, the cores differ at most in what a gather does not read.
  induction n using Nat.strong_induction_on with
  | h n ih =>
    have hsame := SameState.run hreset hlow ih
    exact ⟨hsame.stale_of_view (hlow n) (hlow (n + 1)) (.of_blockRun hreset n) (hview (n + 2)),
      fun hlife => (nomatch hlife)⟩

open ComputeCore in
/-- The example block after two different ones. -/
theorem block_isolation_leftover :
    ((∀ n, Clean .automatic (blockRun .automatic (leakIn true 0) (leakIn false) (leftover 0) n)
        (blockRun .automatic (leakIn true 0) (leakIn false) (leftover 1) n)) →
      ∀ n, SameView (blockRun .automatic (leakIn true 0) (leakIn false) (leftover 0) n)
        (blockRun .automatic (leakIn true 0) (leakIn false) (leftover 1) n)) ∧
    ((∀ n, SameView (blockRun .automatic (leakIn true 0) (leakIn false) (leftover 0) n)
        (blockRun .automatic (leakIn true 0) (leakIn false) (leftover 1) n)) →
      ∀ n, Clean .automatic (blockRun .automatic (leakIn true 0) (leakIn false) (leftover 0) n)
        (blockRun .automatic (leakIn true 0) (leakIn false) (leftover 1) n)) :=
  have hreset : (leakIn true 0).reset = true := rfl
  have hlow : ∀ n, (leakIn false n).reset = false := fun _ => rfl
  have h := block_isolation .automatic hreset hlow (leftover 0) (leftover 1)
  ⟨h.1, h.2 rfl⟩

open ComputeCore in
/-- The block reads what the earlier one left: `s5` becomes 0 or 1 with it. -/
theorem block_leak : (leakIn true 0).reset = true ∧ (∀ n, (leakIn false n).reset = false) ∧
    ¬∀ n, SameView (blockRun .automatic (leakIn true 0) (leakIn false) (leftover 0) n)
      (blockRun .automatic (leakIn true 0) (leakIn false) (leftover 1) n) := by
  refine ⟨rfl, fun _ => rfl, fun h => ?_⟩
  -- At edge 13 the second instruction has written its destination.
  have hs5 := congrFun ((h 13).scalar 0) 5
  revert hs5
  decide +kernel

end SmolGpu
