import SmolGpu.ComputeCore.Refinement

/-!
# What `sx.slt` and `sx.slti` gather

The two `sx` instructions compare in every thread and gather the outcomes into a scalar register.
The gather reads bit 0 of every lane's ALU output, but only the lanes of enabled threads are
recomputed, so the bit of a thread that is masked off is whatever an earlier instruction left in its
lane's output register. `IsRun.gathered` is the value that is written, and `sx_architectural_iff`
says when it is a function of the architectural state alone: always if no thread is masked off.
-/

namespace SmolGpu

namespace WarpArch

variable {T : ℕ}

/-- The comparison that an `sx` instruction makes in thread `i`, of two registers or of a register
and the immediate. -/
def compares (I : InstructionT) (a : WarpArch T) (i : Fin T) : Bool :=
  if opcode I = OPCODE_SX_SLT then a.vector i (rs1 I) < a.vector i (rs2 I)
  else a.vector i (rs1 I) < signExtend (immI I)

/-- The ALU function of an `sx` instruction is its comparison. -/
theorem result_sx {I : InstructionT} (h : IsSx I) (a : WarpArch T) (i : Fin T) :
    a.result (decode I) i.castSucc = if compares I a i then 1 else 0 := by
  unfold result operand1 operand2 compares
  simp only [Fin.lastCases_castSucc]
  rcases h with h | h
  · rw [decode_sx_slt h]
    simp [aluResult, h]
  · have hne : opcode I ≠ OPCODE_SX_SLT := by
      rw [h]
      decide
    rw [decode_sx_slti h]
    simp [aluResult, hne]

end WarpArch

namespace ComputeCore

variable {W T : ℕ}

/-- The current warp is about to execute an instruction: it is in `WARP_DECODE`, all LSUs are idle,
and no other warp is past `WARP_DECODE`. -/
structure Ready (s : ComputeCore W T) : Prop where
  /-- The current warp is in `WARP_DECODE`. -/
  decode : s.warp_state s.current_warp = .decode
  /-- The LSUs are idle. -/
  idle : ∀ l, (s.lsu l).lsu_state = .idle
  /-- No other warp is past `WARP_DECODE`. -/
  parked : ∀ w, w ≠ s.current_warp → Parked (s.warp_state w)

/-- The registers of the program are the same in the two cores. The ALU outputs, operand latches,
LSUs, decoded fields, and other intermediate registers may differ. -/
structure SameArch (s s' : ComputeCore W T) : Prop where
  /-- The current warps are the same. -/
  current_warp : s.current_warp = s'.current_warp
  /-- The program counters are the same. -/
  pc : s.pc = s'.pc
  /-- The scalar registers are the same. -/
  scalar : ∀ w, (s.scalar_reg_file w).registers = (s'.scalar_reg_file w).registers
  /-- The vector registers are the same. -/
  vector : ∀ w i, (s.reg_file w i).registers = (s'.reg_file w i).registers

/-- The inputs of a core that is given the word `I` for warp `w`, with the kernel and block inputs
held and everything else left open. -/
structure Gives (I : InstructionT) (kernel_config : KernelConfig) (block_id : DataT) (w : Fin W)
    (inp : ℕ → CoreIn W T) : Prop where
  /-- There is no reset. -/
  reset : ∀ n, (inp n).reset = false
  /-- The kernel configuration is held. -/
  kernel_config : ∀ n, (inp n).kernel_config = kernel_config
  /-- The block id is held. -/
  block_id : ∀ n, (inp n).block_id = block_id
  /-- The fetched word is `I`. -/
  instruction : (inp 0).fetched_instruction w = I

/-- The value of `rd` when the `sx` instruction `I` of warp `w` has finished in both runs, one edge
after it reached `WARP_UPDATE`, is the same in both, and has the comparison of each enabled thread
in its bit. -/
def SxArchitectural (I : InstructionT) (w : Fin W) (a : WarpArch T) (σ σ' : ℕ → ComputeCore W T)
    (n n' : ℕ) : Prop :=
  ((σ (n + 1)).scalar_reg_file w).registers (rd I) =
      ((σ' (n' + 1)).scalar_reg_file w).registers (rd I) ∧
    (rd I ≠ 0 → ∀ i : Fin T, a.mask i = true →
      (((σ (n + 1)).scalar_reg_file w).registers (rd I)).getLsbD i =
        WarpArch.compares I a i)

section Run

variable [NeZero W] {life : Lifetime} {inp : ℕ → CoreIn W T} {σ : ℕ → ComputeCore W T} {w : Fin W}

/-- The lane of a thread that is masked off is not recomputed by a vector instruction. -/
theorem IsRun.stale (h : IsRun life inp σ) {n : ℕ} (hcw : (σ 0).current_warp = w)
    (hdec : (σ 0).warp_state w = .decode) (hidle : ∀ l, ((σ 0).lsu l).lsu_state = .idle)
    (hreach : Reaches σ w n) {i : Fin T} (hi : (arch (inp 0) (σ 0) w).mask i = false) (m : ℕ)
    (hm : m ≤ n) : (σ m).alu_out i = (σ 0).alu_out i := by
  induction m with
  | zero => rfl
  | succ m ih =>
    have hoff : (σ m).lsuEnable i.castSucc = false := by
      rcases m with _ | m
      · -- The instruction before this one may still be decoded, but the mask is that of the warp.
        have hmask := mask_eq (s := σ 0) (a := arch (inp 0) (σ 0) w) (w := w) rfl i
        rw [hi] at hmask
        simp only [lsuEnable, threadEnable, Fin.lastCases_castSucc, hcw, hmask, Bool.false_and]
      · obtain ⟨-, -, hex⟩ := h.executing hcw hdec hidle hreach m (by omega)
        rw [hex.lsuEnable]
        simp [WarpArch.enabled, hi]
    have hkeep : (σ (m + 1)).laneAluOut i.castSucc = (σ m).laneAluOut i.castSucc := by
      rw [h.step m, step_laneAluOut (h.reset m), hoff]
      rfl
    have hkeep : (σ (m + 1)).alu_out i = (σ m).alu_out i := by simpa [laneAluOut] using hkeep
    rw [hkeep, ih (by omega)]

/-- The scalar registers of a warp after its `sx` instruction. -/
theorem IsRun.gathered (h : IsRun life inp σ) {n : ℕ} (hcw : (σ 0).current_warp = w)
    (hdec : (σ 0).warp_state w = .decode) (hidle : ∀ l, ((σ 0).lsu l).lsu_state = .idle)
    (hreach : Reaches σ w n) (hsx : IsSx ((inp 0).fetched_instruction w)) (r : RegAddress) :
    ((σ (n + 1)).scalar_reg_file w).registers r =
      if r = rd ((inp 0).fetched_instruction w) ∧ 0 < r then
        WarpArch.gather fun i =>
          if (arch (inp 0) (σ 0) w).mask i then
            (arch (inp 0) (σ 0) w).result (decode ((inp 0).fetched_instruction w)) i.castSucc
          else (σ 0).alu_out i
      else ((σ 0).scalar_reg_file w).registers r := by
  obtain ⟨hrun, hcwn, hst, hex⟩ := h.retiring hcw hdec hidle hreach
  have hmux := hsx.decode
  obtain ⟨-, hvec, hwrite, -⟩ := decode_vectorToScalar _ hmux
  have hwrites : WarpArch.WritesScalar (σ n).current r ↔
      r = rd ((inp 0).fetched_instruction w) ∧ 0 < r := by
    rw [hex.current, WarpArch.WritesScalar, hwrite, hmux, hsx.decode_rd]
    simp
  have hscalar := step_scalar_update life hrun.reset hst r
  rw [← h.step n, hcwn] at hscalar
  rw [hscalar]
  simp only [hwrites]
  congr 1
  · -- The value is the one gathered in `WARP_EXECUTE`, from the lanes as they are still.
    have hd : (σ n).decoder w = decode ((inp 0).fetched_instruction w) := by
      rw [← hex.current, ComputeCore.current, hcwn]
    have hvalue : scalarRegInput ((σ n).scalarRegFileIn (inp n) w) =
        (σ n).scalarWriteValue := by
      rw [← hex.gathered hst hmux, hcwn]
      simp only [scalarRegInput, scalarRegFileIn, hd, hmux]
    rw [hvalue]
    show WarpArch.gather (σ n).alu_out = _
    congr 1
    funext i
    split_ifs with hi
    · have halu := hex.results (.inr hst) i.castSucc (by simp [WarpArch.enabled, hi, hvec])
      simpa [laneAluOut] using halu
    · exact h.stale hcw hdec hidle hreach (by simpa using hi) n le_rfl
  · have hkeep := hex.scalar
    rw [hcwn] at hkeep
    rw [hkeep]
    rfl

end Run

/-- The same state and inputs give the same architectural state. -/
theorem SameArch.arch_eq {s s' : ComputeCore W T} (h : SameArch s s') {I : InstructionT}
    {kernel_config : KernelConfig} {block_id : DataT} {w : Fin W} {inp inp' : ℕ → CoreIn W T}
    (hinp : Gives I kernel_config block_id w inp) (hinp' : Gives I kernel_config block_id w inp') :
    arch (inp 0) s w = arch (inp' 0) s' w := by
  unfold arch
  rw [hinp.kernel_config, hinp'.kernel_config, hinp.block_id, hinp'.block_id, h.pc, h.scalar]
  simp only [h.vector]

/-- An example core of one warp and one thread, which is masked off and whose lane's ALU output is
`v`, decoding an instruction. -/
def masked (v : DataT) : ComputeCore 1 1 :=
  { decoding with
    scalar_reg_file := fun _ => ⟨fun _ => 0, 0, 0⟩
    alu_out := fun _ => v }

/-- The state of the example is ready for the gather. -/
theorem masked_ready (v : DataT) : Ready (masked v) :=
  ⟨rfl, fun _ => rfl, fun w hw => absurd (Subsingleton.elim w _) hw⟩

/-- The states of the example differ in nothing architectural. -/
theorem masked_sameArch (v v' : DataT) : SameArch (masked v) (masked v') :=
  ⟨rfl, rfl, fun _ => rfl, fun _ _ => rfl⟩

/-- The inputs of the example give the word. -/
theorem wordIn_gives (I : InstructionT) : Gives I ⟨0, 0, 1, 1⟩ 0 0 fun _ => wordIn I :=
  ⟨fun _ => rfl, fun _ => rfl, fun _ => rfl, rfl⟩

end ComputeCore

open ComputeCore in
/-- Two cores with the same registers of the program execute the same `sx` instruction in the same
warp. They agree on its result exactly if nothing is written, or the lanes of the threads that are
masked off hold ALU outputs with the same lowest bits. -/
theorem sx_architectural_iff {W T : ℕ} [NeZero W] (life : Lifetime) {I : InstructionT}
    (hsx : IsSx I) {s s' : ComputeCore W T} (hs : Ready s) (hs' : Ready s') (hsame : SameArch s s')
    {kernel_config : KernelConfig} {block_id : DataT} {inp inp' : ℕ → CoreIn W T}
    (hinp : Gives I kernel_config block_id s.current_warp inp)
    (hinp' : Gives I kernel_config block_id s.current_warp inp') {n n' : ℕ}
    (hn : Reaches (Clocked.run (coreStep life) inp s) s.current_warp n)
    (hn' : Reaches (Clocked.run (coreStep life) inp' s') s.current_warp n') :
    SxArchitectural I s.current_warp (arch (inp 0) s s.current_warp)
        (Clocked.run (coreStep life) inp s) (Clocked.run (coreStep life) inp' s') n n' ↔
      rd I = 0 ∨ ∀ i : Fin T, (i : ℕ) < 32 →
        (s.warp_execution_mask s.current_warp).getLsbD i = false →
          (s.alu_out i).getLsbD 0 = (s'.alu_out i).getLsbD 0 := by
  have hrun : IsRun life inp (Clocked.run (coreStep life) inp s) := ⟨hinp.reset, fun _ => rfl⟩
  have hrun' : IsRun life inp' (Clocked.run (coreStep life) inp' s') := ⟨hinp'.reset, fun _ => rfl⟩
  have hI : (inp 0).fetched_instruction s.current_warp = I := hinp.instruction
  have hI' : (inp' 0).fetched_instruction s.current_warp = I := hinp'.instruction
  have hcw' : s'.current_warp = s.current_warp := hsame.current_warp.symm
  have hvalue := hrun.gathered (w := s.current_warp) rfl hs.decode hs.idle hn (hI.symm ▸ hsx) (rd I)
  have hvalue' := hrun'.gathered hcw' (hcw' ▸ hs'.decode) hs'.idle hn' (hI'.symm ▸ hsx)
    (rd I)
  have ha : arch (inp' 0) s' s.current_warp = arch (inp 0) s s.current_warp :=
    (hsame.arch_eq hinp hinp').symm
  have hmask (i : Fin T) := mask_eq (s := s) (a := arch (inp 0) s s.current_warp) rfl i
  simp only [Clocked.run_zero, hI, true_and] at hvalue
  simp only [Clocked.run_zero, hI', ha, true_and] at hvalue'
  unfold SxArchitectural
  rw [hvalue, hvalue']
  rcases eq_or_ne (rd I) 0 with hzero | hne
  · -- Nothing is written to `s0`.
    simp [hzero, hsame.scalar]
  have hpos : 0 < rd I := by
    rw [BitVec.lt_def]
    exact Nat.pos_of_ne_zero fun h => hne (BitVec.eq_of_toNat_eq h)
  rw [if_pos hpos, if_pos hpos, WarpArch.gather_eq_iff]
  have hbits : rd I ≠ 0 → ∀ i : Fin T, (arch (inp 0) s s.current_warp).mask i = true →
      (WarpArch.gather fun i : Fin T =>
        if (arch (inp 0) s s.current_warp).mask i then
          (arch (inp 0) s s.current_warp).result (decode I) i.castSucc
        else s.alu_out i).getLsbD i = WarpArch.compares I (arch (inp 0) s s.current_warp) i := by
    intro _ i hi
    have hlt : (i : ℕ) < 32 := BitVec.lt_of_getLsbD hi
    rw [WarpArch.getLsbD_gather_of_lt _ hlt, if_pos hi, WarpArch.result_sx hsx]
    cases WarpArch.compares I (arch (inp 0) s s.current_warp) i <;> rfl
  simp only [hne, false_or]
  -- The lanes of enabled threads agree in any case, so the two values differ in stale bits only.
  constructor
  · rintro ⟨hsame, -⟩ i hi hoff
    rw [hmask i] at hoff
    have hi := hsame i hi
    rwa [hoff] at hi
  · intro hstale
    refine ⟨fun i hi => ?_, hbits⟩
    rcases hon : (arch (inp 0) s s.current_warp).mask i with _ | _
    · exact hstale i hi ((hmask i).trans hon)
    · rfl

open ComputeCore in
/-- `sx.slti s5, x0, 5` with the thread masked off, after two instructions that left an even number
in its lane. -/
theorem sx_architectural_iff_even : SxArchitectural 0x005002FD 0
    (arch (wordIn 0x005002FD) (masked 4) 0)
    (Clocked.run (coreStep .automatic) (fun _ => wordIn 0x005002FD) (masked 4))
    (Clocked.run (coreStep .automatic) (fun _ => wordIn 0x005002FD) (masked 6)) 4 4 :=
  (sx_architectural_iff .automatic (by decide)
    (masked_ready 4) (masked_ready 6) (masked_sameArch 4 6) (wordIn_gives _) (wordIn_gives _)
    ⟨by decide, by decide⟩ ⟨by decide, by decide⟩).mpr (.inr (by decide))

open ComputeCore in
/-- The same instruction after one that left 0 in the lane, and after one that left 1: the first
writes 0, and the second writes 1. -/
theorem sx_reads_stale_lane : Ready (masked 0) ∧ Ready (masked 1) ∧
    SameArch (masked 0) (masked 1) ∧
    Gives 0x005002FD ⟨0, 0, 1, 1⟩ 0 0 (fun _ => wordIn 0x005002FD) ∧
    Reaches (Clocked.run (coreStep .automatic) (fun _ => wordIn 0x005002FD) (masked 0)) 0 4 ∧
    Reaches (Clocked.run (coreStep .automatic) (fun _ => wordIn 0x005002FD) (masked 1)) 0 4 ∧
    ¬SxArchitectural 0x005002FD 0 (arch (wordIn 0x005002FD) (masked 0) 0)
      (Clocked.run (coreStep .automatic) (fun _ => wordIn 0x005002FD) (masked 0))
      (Clocked.run (coreStep .automatic) (fun _ => wordIn 0x005002FD) (masked 1)) 4 4 := by
  have hreach (v : DataT) (hv : v = 0 ∨ v = 1) : Reaches
      (Clocked.run (coreStep .automatic) (fun _ => wordIn 0x005002FD) (masked v)) 0 4 := by
    rcases hv with rfl | rfl <;> exact ⟨by decide, by decide⟩
  refine ⟨masked_ready 0, masked_ready 1, masked_sameArch 0 1, wordIn_gives _,
    hreach 0 (.inl rfl), hreach 1 (.inr rfl), fun h => ?_⟩
  have hrun (v : DataT) : IsRun .automatic (fun _ => wordIn 0x005002FD)
      (Clocked.run (coreStep .automatic) (fun _ => wordIn 0x005002FD) (masked v)) :=
    ⟨fun _ => rfl, fun _ => rfl⟩
  -- The bit gathered for the masked lane is the latch that the two states differ in.
  have hvalue (v : DataT) (hv : v = 0 ∨ v = 1) :=
    (hrun v).gathered (w := 0) rfl rfl (fun _ => rfl) (hreach v hv) (by decide) 5
  have heq := h.1
  rw [show rd 0x005002FD = (5 : RegAddress) by decide, hvalue 0 (.inl rfl),
    hvalue 1 (.inr rfl)] at heq
  revert heq
  decide

end SmolGpu
