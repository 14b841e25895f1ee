import SmolGpu.ComputeCore.Operands

/-!
# Special registers that are out of date

A core that is handed a block is reset while it still sees the id of the block before, so that the
`x2` of a warp holds that id until the warp becomes the current one. It is of no consequence:
`assignSpecials` puts the right values in place for all warps at once, and a core takes the same
edges with and without it (`coreStep_assignSpecials`), provided that the registers of the current
warp are right at the edge that reads them.
-/

namespace SmolGpu.ComputeCore

variable {W T : ℕ} {kernel_config : KernelConfig} {b : DataT}

/-- The special registers of every warp, assigned for block `b`. -/
def assignSpecials (kernel_config : KernelConfig) (b : DataT) (c : ComputeCore W T) :
    ComputeCore W T :=
  { c with
    reg_file := fun w l =>
      { c.reg_file w l with
        registers := specialRegisters (threadId T (BitVec.ofNat 32 w) l) b
          (kernel_config.num_warps_per_block * BitVec.ofNat 32 T) (c.reg_file w l).registers } }

/-- Assigning the special registers over others assigned before. -/
theorem specialRegisters_idem (thread_id block_id block_id' block_size block_size' : DataT)
    (registers : RegAddress → DataT) :
    specialRegisters thread_id block_id block_size
        (specialRegisters thread_id block_id' block_size' registers) =
      specialRegisters thread_id block_id block_size registers := by
  funext r
  by_cases hr : 4 ≤ r
  · rw [specialRegisters_of_ge hr, specialRegisters_of_ge hr, specialRegisters_of_ge hr]
  · exact specialRegisters_of_lt hr

/-- Assigning the special registers, and another one before or after. -/
theorem specialRegisters_writeRegister (thread_id block_id block_size : DataT)
    (registers : RegAddress → DataT) {r : RegAddress} (hr : 4 ≤ r) (value : Option DataT) :
    specialRegisters thread_id block_id block_size (writeRegister registers r value) =
      writeRegister (specialRegisters thread_id block_id block_size registers) r value := by
  cases value with
  | none => rfl
  | some v =>
    funext q
    show specialRegisters thread_id block_id block_size (Function.update registers r v) q =
      Function.update (specialRegisters thread_id block_id block_size registers) r v q
    by_cases hq : 4 ≤ q
    · rw [specialRegisters_of_ge hq]
      rcases eq_or_ne q r with rfl | hne
      · rw [Function.update_self, Function.update_self]
      · rw [Function.update_of_ne hne, Function.update_of_ne hne, specialRegisters_of_ge hq]
    · have hne : q ≠ r := fun heq => hq (heq ▸ hr)
      rw [Function.update_of_ne hne]
      exact specialRegisters_of_lt hq

section Step

variable [NeZero W] {life : Lifetime} {inp : CoreIn W T} {c : ComputeCore W T}

/-- The always block does not look at the vector registers. -/
theorem alwaysBlock_assignSpecials :
    (c.assignSpecials kernel_config b).alwaysBlock life inp =
      (c.alwaysBlock life inp).assignSpecials kernel_config b := by
  -- The two parts that look at registers look at none of the vector registers.
  have hchoose (n : ComputeCore W T) :
      (c.assignSpecials kernel_config b).chooseWarp (n.assignSpecials kernel_config b) =
        (c.chooseWarp n).assignSpecials kernel_config b := by
    unfold chooseWarp
    rw [show (c.assignSpecials kernel_config b).foundWarp = c.foundWarp from rfl]
    split_ifs with h h' h'
    · cases c.foundWarp <;> rfl
    · exact absurd h h'
    · exact absurd h' h
    · rfl
  have hstage (n : ComputeCore W T) :
      (c.assignSpecials kernel_config b).stageCase life (n.assignSpecials kernel_config b) =
        (c.stageCase life n).assignSpecials kernel_config b := by
    unfold stageCase
    rw [show (c.assignSpecials kernel_config b).current_warp_state = c.current_warp_state from rfl]
    cases c.current_warp_state with
    | idle | fetch | done | decode | request | execute => rfl
    | wait =>
      show (if c.anyLsuWaiting life then _ else _) = assignSpecials _ _ (if _ then _ else _)
      split_ifs <;> rfl
    | update =>
      show (if c.current.decoded_halt then _ else _) = assignSpecials _ _ (if _ then _ else _)
      split_ifs <;> rfl
  unfold alwaysBlock startBranch
  rw [show (c.assignSpecials kernel_config b).start_execution = c.start_execution from rfl]
  split_ifs
  · rfl
  · rfl
  · rfl
  · rw [← hstage, ← hchoose]
    rfl

/-- An edge of a register file that reads its special registers only if they are right. -/
theorem regFileStep_specials {i : RegFileIn} {s : RegFile} (hr : i.reset = false)
    (hread : i.enable = true → i.warp_state = .request → ∀ r, ¬4 ≤ r → s.registers r =
      specialRegisters i.thread_id i.block_id i.block_size (fun _ => 0) r) :
    regFileStep i { s with
        registers := specialRegisters i.thread_id i.block_id i.block_size s.registers } =
      { regFileStep i s with
        registers := specialRegisters i.thread_id i.block_id i.block_size
          (regFileStep i s).registers } := by
  rcases he : i.enable with _ | _
  · simp [regFileStep, hr, he]
  -- Where a special register is read, it is right already.
  have hoperand (hst : i.warp_state = .request) (r : RegAddress) :
      specialRegisters i.thread_id i.block_id i.block_size s.registers r = s.registers r := by
    by_cases hge : 4 ≤ r
    · exact specialRegisters_of_ge hge
    · rw [hread he hst r hge]
      exact specialRegisters_of_lt hge
  unfold regFileStep
  simp only [hr, he, Bool.false_eq_true, if_false, if_true, specialRegisters_idem]
  rcases ht : i.thread_enable with _ | _
  · simp [specialRegisters_idem]
  simp only [if_true, RegFile.mk.injEq]
  -- The registers, and the two operand latches.
  refine ⟨?_, ?_, ?_⟩
  · split_ifs with hst hwrite
    · rw [specialRegisters_writeRegister _ _ _ _
          (by simpa using (Bool.and_eq_true_iff.mp hwrite).2),
        specialRegisters_idem]
    · rw [specialRegisters_idem]
    · rw [specialRegisters_idem]
  · split_ifs with hst
    · exact hoperand hst _
    · rfl
  · split_ifs with hst
    · exact hoperand hst _
    · rfl

/-- A reset assigns the special registers of every warp, for the block that the core sees. -/
theorem coreStep_reset_assignSpecials (hr : inp.reset = true)
    (hconfig : inp.kernel_config = kernel_config) :
    (coreStep life inp c).assignSpecials kernel_config b =
      coreStep life { inp with block_id := b } c := by
  subst hconfig
  have hreg (w : Fin W) (l : Fin T) : { regFileStep (c.regFileIn inp w l) (c.reg_file w l) with
        registers := specialRegisters (threadId T (BitVec.ofNat 32 w) l) b
          (inp.kernel_config.num_warps_per_block * BitVec.ofNat 32 T)
          (regFileStep (c.regFileIn inp w l) (c.reg_file w l)).registers } =
      regFileStep (c.regFileIn { inp with block_id := b } w l) (c.reg_file w l) := by
    unfold regFileStep
    rw [if_pos (show (c.regFileIn inp w l).reset = true from hr),
      if_pos (show (c.regFileIn { inp with block_id := b } w l).reset = true from hr)]
    simp only [RegFile.mk.injEq, and_true]
    exact specialRegisters_idem _ _ _ _ _ _
  have hblock : c.alwaysBlock life inp = c.alwaysBlock life { inp with block_id := b } := rfl
  unfold assignSpecials coreStep
  simp only [hreg, hblock]
  rfl

/-- Any other edge is the same with the special registers assigned, if the current warp does not
read wrong ones at it. -/
theorem coreStep_assignSpecials (hr : inp.reset = false)
    (hconfig : inp.kernel_config = kernel_config) (hblock : inp.block_id = b)
    (hread : c.current_warp_state = .request → ∀ l r, ¬4 ≤ r →
      (c.reg_file c.current_warp l).registers r = specials kernel_config c.current_warp l b r) :
    coreStep life inp (c.assignSpecials kernel_config b) =
      (coreStep life inp c).assignSpecials kernel_config b := by
  subst hconfig hblock
  -- A register file assigns its special registers at the edge, and reads them in `WARP_REQUEST`
  -- only.
  have hreg (w : Fin W) (l : Fin T) : regFileStep (c.regFileIn inp w l)
        ((c.assignSpecials inp.kernel_config inp.block_id).reg_file w l) =
      { regFileStep (c.regFileIn inp w l) (c.reg_file w l) with
        registers := specialRegisters (threadId T (BitVec.ofNat 32 w) l) inp.block_id
          (inp.kernel_config.num_warps_per_block * BitVec.ofNat 32 T)
          (regFileStep (c.regFileIn inp w l) (c.reg_file w l)).registers } := by
    refine regFileStep_specials hr fun he hst r hlt => ?_
    have hw : c.current_warp = w := by simpa [regFileIn] using he
    subst hw
    exact hread hst l r hlt
  have halways : (c.assignSpecials inp.kernel_config inp.block_id).alwaysBlock life inp =
      (c.alwaysBlock life inp).assignSpecials inp.kernel_config inp.block_id :=
    alwaysBlock_assignSpecials
  unfold coreStep
  rw [halways]
  simp only [assignSpecials, ComputeCore.mk.injEq, true_and]
  exact ⟨rfl, funext fun w => funext fun l => hreg w l, rfl, rfl, rfl⟩

end Step

end SmolGpu.ComputeCore
