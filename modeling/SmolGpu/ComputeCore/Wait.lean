import SmolGpu.ComputeCore.Exclusive

/-!
# The wait for the LSUs

In `WARP_WAIT` the core looks whether an LSU is busy, through a flag that it declares with an
initial value of 0. If the flag is `static`, which is the default, it is initialized once and never
cleared. It is then set from the first edge on at which some instruction waited for memory
(`any_lsu_waiting_iff`), and no warp ever gets past `WARP_WAIT` again (`wait_present_iff`).
-/

namespace SmolGpu

namespace ComputeCore

variable {W T : ℕ}

/-- An LSU is in `LSU_REQUESTING` or `LSU_WAITING`. -/
def LsuBusy (s : ComputeCore W T) : Prop :=
  ∃ l, (s.lsu l).lsu_state = .requesting ∨ (s.lsu l).lsu_state = .waiting

/-- Whether an LSU is busy is decidable from their states. -/
instance (s : ComputeCore W T) : Decidable s.LsuBusy :=
  inferInstanceAs (Decidable (∃ l, (s.lsu l).lsu_state = .requesting ∨
    (s.lsu l).lsu_state = .waiting))

/-- The edge takes the `WARP_WAIT` branch. -/
structure Waits (inp : CoreIn W T) (s : ComputeCore W T) : Prop where
  /-- The core runs. -/
  running : Running inp s
  /-- The current warp is in `WARP_WAIT`. -/
  wait : s.current_warp_state = .wait

/-- Some edge before `n` took the `WARP_WAIT` branch while an LSU was busy. -/
def WaitedBefore (inp : ℕ → CoreIn W T) (σ : ℕ → ComputeCore W T) (n : ℕ) : Prop :=
  ∃ m < n, Waits (inp m) (σ m) ∧ (σ m).LsuBusy

/-- The edge moves the current warp out of `WARP_WAIT` exactly if no LSU is busy. -/
structure WaitsForLsus [NeZero W] (life : Lifetime) (inp : CoreIn W T) (s : ComputeCore W T) :
    Prop where
  execute : (coreStep life inp s).warp_state s.current_warp = .execute ↔ ¬s.LsuBusy
  wait : s.LsuBusy → (coreStep life inp s).warp_state s.current_warp = .wait

variable {life : Lifetime} {s : ComputeCore W T}

/-- The value of the flag in `WARP_WAIT`. -/
theorem anyLsuWaiting_iff : s.anyLsuWaiting life = true ↔
    life = .static ∧ s.any_lsu_waiting = true ∨ s.LsuBusy := by
  unfold anyLsuWaiting LsuBusy
  cases life <;> simp

variable [NeZero W] {inp : CoreIn W T}

/-- Choosing a warp leaves the flag. -/
theorem chooseWarp_any_lsu_waiting (n : ComputeCore W T) :
    (s.chooseWarp n).any_lsu_waiting = n.any_lsu_waiting := by
  unfold chooseWarp
  split_ifs <;> [split; skip] <;> rfl

/-- The `WARP_WAIT` branch writes the flag. -/
theorem Waits.step_any_lsu_waiting (h : Waits inp s) :
    (coreStep life inp s).any_lsu_waiting = s.anyLsuWaiting life := by
  show (s.alwaysBlock life inp).any_lsu_waiting = _
  rw [alwaysBlock_of_running h.running]
  unfold stageCase
  rw [h.wait]
  dsimp only
  split_ifs <;> rfl

/-- No other branch writes the flag, not even that of a reset. -/
theorem step_any_lsu_waiting_of_not (h : ¬Waits inp s) :
    (coreStep life inp s).any_lsu_waiting = s.any_lsu_waiting := by
  show (s.alwaysBlock life inp).any_lsu_waiting = _
  by_cases hrun : Running inp s
  · have hst : s.current_warp_state ≠ .wait := fun hst => h ⟨hrun, hst⟩
    have hchosen : (s.chooseWarp (s.doneCheck (s.fetchCheck inp s))).any_lsu_waiting =
        s.any_lsu_waiting := chooseWarp_any_lsu_waiting _
    rw [alwaysBlock_of_running hrun]
    unfold stageCase
    split
    case h_6 => exact absurd ‹_› hst
    case h_8 => split_ifs <;> exact hchosen
    all_goals exact hchosen
  · -- A reset, or a core that has not been started.
    unfold alwaysBlock
    split_ifs with hr hs
    · rfl
    · unfold startBranch
      split_ifs <;> rfl
    · exact absurd ⟨by simpa using hr, by simpa using hs⟩ hrun

/-- The state that the current warp moves to at a `WARP_WAIT` edge. -/
theorem Waits.step_warp_state (h : Waits inp s) :
    (coreStep life inp s).warp_state s.current_warp =
      if s.anyLsuWaiting life then .wait else .execute := by
  rw [step_warp_state_current h.running, currentNext, h.wait]

/-- A `static` flag is set exactly if it was set at first, or an instruction has waited for memory
since. -/
theorem any_lsu_waiting_iff (inputs : ℕ → CoreIn W T) (n : ℕ) :
    (Clocked.run (coreStep .static) inputs s n).any_lsu_waiting = true ↔
      s.any_lsu_waiting = true ∨
        WaitedBefore inputs (Clocked.run (coreStep .static) inputs s) n := by
  induction n with
  | zero => simp [WaitedBefore]
  | succ n ih =>
    have hbefore : WaitedBefore inputs (Clocked.run (coreStep .static) inputs s) (n + 1) ↔
        WaitedBefore inputs (Clocked.run (coreStep .static) inputs s) n ∨
          Waits (inputs n) (Clocked.run (coreStep .static) inputs s n) ∧
            (Clocked.run (coreStep .static) inputs s n).LsuBusy := by
      unfold WaitedBefore
      exact Nat.exists_lt_succ_right
    show (coreStep .static (inputs n) (Clocked.run (coreStep .static) inputs s n)).any_lsu_waiting =
      true ↔ _
    rw [hbefore, ← or_assoc, ← ih]
    by_cases hw : Waits (inputs n) (Clocked.run (coreStep .static) inputs s n)
    · rw [hw.step_any_lsu_waiting, anyLsuWaiting_iff]
      simp [hw]
    · rw [step_any_lsu_waiting_of_not hw]
      simp [hw]

/-- A `WARP_WAIT` edge does as it should unless the flag is left over. -/
theorem Waits.waitsForLsus_iff (h : Waits inp s) : WaitsForLsus life inp s ↔
    (life = .static → s.any_lsu_waiting = true → s.LsuBusy) := by
  have hnext : (coreStep life inp s).warp_state s.current_warp = _ := h.step_warp_state
  have hflag : s.anyLsuWaiting life = true ↔ _ := anyLsuWaiting_iff
  by_cases hbusy : s.LsuBusy
  · -- The flag is set, as it should be.
    rw [if_pos (hflag.mpr (.inr hbusy))] at hnext
    refine iff_of_true ⟨?_, fun _ => hnext⟩ fun _ _ => hbusy
    rw [hnext]
    simp [hbusy]
  · constructor
    · rintro ⟨hexecute, -⟩ hlife hset
      rw [hexecute.mpr hbusy, if_pos (hflag.mpr (.inl ⟨hlife, hset⟩))] at hnext
      exact nomatch hnext
    · intro hclear
      have hunset : ¬s.anyLsuWaiting life = true := fun hset =>
        (hflag.mp hset).elim (fun hleft => hbusy (hclear hleft.1 hleft.2)) hbusy
      rw [if_neg hunset] at hnext
      exact ⟨iff_of_true hnext hbusy, fun h => absurd h hbusy⟩

/-- The inputs of an example core of one warp and one thread, which is given `lw x5, 0(x0)` at every
fetch and whose memory answers at once. -/
def loadIn (reset : Bool) : CoreIn 1 1 where
  reset := reset
  start := true
  block_id := 0
  kernel_config := ⟨0, 0, 1, 1⟩
  fetcher_state_in := fun _ => .done
  fetched_instruction := fun _ => 0x00002283
  data_mem_read_ready := fun _ => true
  data_mem_read_data := fun _ => 0
  data_mem_write_ready := fun _ => true

/-- The example core after its reset. -/
def loadStart (life : Lifetime) : ComputeCore 1 1 := coreStep life (loadIn true) powerUp

/-- The state of the example is reachable. -/
theorem loadStart_reachable (life : Lifetime) :
    Clocked.Reachable (coreStep life) (AfterReset life) (loadStart life) :=
  .init ⟨loadIn true, powerUp, rfl, rfl⟩

end ComputeCore

open ComputeCore in
/-- At every edge, without a reset, of every run of a core at which the current warp is in
`WARP_WAIT`: it moves on exactly if no LSU is busy, if and only if the flag is initialized at each
entry of the branch, or no edge before has set it, or an LSU is busy now. -/
theorem wait_present_iff {W T : ℕ} [NeZero W] (life : Lifetime) {s : ComputeCore W T}
    (hs : Clocked.Reachable (coreStep life) (AfterReset life) s) (inp : ℕ → CoreIn W T) {n : ℕ}
    (hreset : (inp n).reset = false)
    (hwait : (Clocked.run (coreStep life) inp s n).current_warp_state = .wait) :
    WaitsForLsus life (inp n) (Clocked.run (coreStep life) inp s n) ↔
      (life = .static →
        s.any_lsu_waiting = true ∨ WaitedBefore inp (Clocked.run (coreStep life) inp s) n →
          (Clocked.run (coreStep life) inp s n).LsuBusy) := by
  have hi := Invariant.of_reachable (hs.run inp n)
  have hactive : (Clocked.run (coreStep life) inp s n).current_warp_state ≠ .idle := by simp [hwait]
  rw [Waits.waitsForLsus_iff ⟨⟨hreset, hi.started hactive⟩, hwait⟩]
  refine imp_congr_right fun hlife => ?_
  rw [hlife, any_lsu_waiting_iff]

open ComputeCore in
/-- The first edge at which the example core waits. -/
theorem wait_present_iff_first :
    WaitsForLsus .static (loadIn false)
        (Clocked.run (coreStep .static) (fun _ => loadIn false) (loadStart .static) 4) ↔
      (Lifetime.static = .static →
        (loadStart .static).any_lsu_waiting = true ∨ WaitedBefore (fun _ => loadIn false)
            (Clocked.run (coreStep .static) (fun _ => loadIn false) (loadStart .static)) 4 →
          (Clocked.run (coreStep .static) (fun _ => loadIn false) (loadStart .static) 4).LsuBusy) :=
  wait_present_iff .static (loadStart_reachable .static) (fun _ => loadIn false) rfl
    (by decide +kernel)

open ComputeCore in
/-- Two edges later the load is done, and a warp with a `static` flag still waits. -/
theorem wait_remembered :
    ¬∀ (life : Lifetime) (s : ComputeCore 1 1),
      Clocked.Reachable (coreStep life) (AfterReset life) s →
      ∀ (inp : ℕ → CoreIn 1 1) (n : ℕ), (inp n).reset = false →
        (Clocked.run (coreStep life) inp s n).current_warp_state = .wait →
          WaitsForLsus life (inp n) (Clocked.run (coreStep life) inp s n) := by
  intro h
  have hwaits := h .static _ (loadStart_reachable .static) (fun _ => loadIn false) 6 rfl
    (by decide +kernel)
  have hidle : ¬(Clocked.run (coreStep .static) (fun _ => loadIn false)
      (loadStart .static) 6).LsuBusy := by decide +kernel
  have hnext := hwaits.execute.mpr hidle
  exact absurd hnext (by decide +kernel)

end SmolGpu
