import SmolGpu.ComputeCore.Execute

/-!
# An instruction, from `WARP_DECODE` to its end

`core_refines_simt` says that the multi-cycle core executes one SIMT instruction at a time: whatever
the memory and the other warps do, when the instruction that the current warp is decoding gets
through `WARP_UPDATE`, the warp's architectural state is the one that `WarpArch.exec` gives, and
that of every other warp is as it was.
-/

namespace SmolGpu

namespace ComputeCore

variable {W T : ℕ}

/-- Warp `w` reaches `WARP_UPDATE` at `n`, on the instruction that it is decoding at the start of
the run. -/
def Reaches (σ : ℕ → ComputeCore W T) (w : Fin W) (n : ℕ) : Prop :=
  (σ n).warp_state w = .update ∧ ∀ m < n, (σ m).warp_state w = .decode ∨
    (σ m).warp_state w = .request ∨ (σ m).warp_state w = .wait ∨ (σ m).warp_state w = .execute

/-- At edge `k` the LSU of lane `l` takes the word of memory's answer. -/
def Accepts (inp : ℕ → CoreIn W T) (σ : ℕ → ComputeCore W T) (l : Fin (T + 1)) (k : ℕ) : Prop :=
  ((σ k).lsu l).lsu_state = .waiting ∧ (inp k).data_mem_read_ready l = true

/-- The load of lane `l` returned `word`: the word of the one answer that its LSU took before
`n`. -/
def Returned (inp : ℕ → CoreIn W T) (σ : ℕ → ComputeCore W T) (l : Fin (T + 1)) (n : ℕ)
    (word : DataT) : Prop :=
  ∃ k < n, Accepts inp σ l k ∧ (∀ k' < n, Accepts inp σ l k' → k' = k) ∧
    (inp k).data_mem_read_data l = word

/-- The core executes the instruction `I` of warp `w` in the edges up to `n`. -/
structure Executes (inp : ℕ → CoreIn W T) (σ : ℕ → ComputeCore W T) (w : Fin W) (I : InstructionT)
    (n : ℕ) : Prop where
  /-- The warp's state is that of the instruction, on the words that its loads returned. -/
  exec : ∃ loads : Fin (T + 1) → DataT,
    (∀ l, (decode I).decoded_mem_read_enable = true →
      (arch (inp 0) (σ 0) w).enabled (decode I) l = true → Returned inp σ l n (loads l)) ∧
    arch (inp 0) (σ (n + 1)) w = (arch (inp 0) (σ 0) w).exec (decode I) loads
  /-- The warp goes on to fetch, unless the instruction was a halt. -/
  warp_state : (σ (n + 1)).warp_state w = if (decode I).decoded_halt then .done else .fetch
  /-- The other warps' states are as they were. -/
  others : ∀ v, v ≠ w → (σ (n + 1)).pc v = (σ 0).pc v ∧
    (σ (n + 1)).scalar_reg_file v = (σ 0).scalar_reg_file v ∧
    ∀ i, (σ (n + 1)).reg_file v i = (σ 0).reg_file v i

/-! ## The run -/

section Run

variable [NeZero W] {life : Lifetime} {inp : ℕ → CoreIn W T} {σ : ℕ → ComputeCore W T} {w : Fin W}

/-- A core that runs without reset. -/
structure IsRun (life : Lifetime) (inp : ℕ → CoreIn W T) (σ : ℕ → ComputeCore W T) : Prop where
  /-- There is no reset. -/
  reset : ∀ n, (inp n).reset = false
  /-- Each state follows from the one before. -/
  step : ∀ n, σ (n + 1) = coreStep life (inp n) (σ n)

omit [NeZero W] in
/-- Before it reaches `WARP_UPDATE` the warp is not there. -/
theorem Reaches.ne_update {n m : ℕ} (h : Reaches σ w n) (hm : m < n) :
    (σ m).warp_state w ≠ .update := by
  intro hup
  rcases h.2 m hm with hx | hx | hx | hx <;> rw [hup] at hx <;> cases hx

omit [NeZero W] in
/-- On the way to `WARP_UPDATE` the warp does not fetch. -/
theorem Reaches.ne_fetch {n m : ℕ} (h : Reaches σ w n) (hm : m ≤ n) :
    (σ m).warp_state w ≠ .fetch := by
  intro hfetch
  rcases hm.lt_or_eq with hlt | rfl
  · rcases h.2 m hlt with hx | hx | hx | hx <;> rw [hfetch] at hx <;> cases hx
  · cases hfetch.symm.trans h.1

omit [NeZero W] in
/-- A warp in `WARP_DECODE` takes at least one edge. -/
theorem Reaches.pos {n : ℕ} (h : Reaches σ w n) (hdec : (σ 0).warp_state w = .decode) : 0 < n := by
  refine Nat.pos_of_ne_zero ?_
  rintro rfl
  cases hdec.symm.trans h.1

/-- A core whose warp gets anywhere from `WARP_DECODE` has been started. -/
theorem IsRun.started (h : IsRun life inp σ) {n : ℕ} (hdec : (σ 0).warp_state w = .decode)
    (hreach : Reaches σ w n) : (σ 0).start_execution = true := by
  by_contra hs
  have hs0 : (σ 0).start_execution = false := by simpa using hs
  -- A core that is not started keeps its warps where they are, or sends them to fetch.
  have hstay (m : ℕ) (hm : m ≤ n) :
      (σ m).start_execution = false ∧ (σ m).warp_state w = .decode := by
    induction m with
    | zero => exact ⟨hs0, hdec⟩
    | succ m ih =>
      obtain ⟨hsm, hwm⟩ := ih (by omega)
      rcases hst : (inp m).start with _ | _
      · have hkeep : (σ m).alwaysBlock life (inp m) = σ m := step_not_started (h.reset m) hsm hst
        refine ⟨?_, ?_⟩ <;> rw [h.step m]
        · show ((σ m).alwaysBlock life (inp m)).start_execution = false
          rw [hkeep, hsm]
        · show ((σ m).alwaysBlock life (inp m)).warp_state w = .decode
          rw [hkeep, hwm]
      · have hfetch : (σ (m + 1)).warp_state w = .fetch := by
          rw [h.step m]
          show ((σ m).alwaysBlock life (inp m)).warp_state w = .fetch
          rw [step_start (h.reset m) hsm hst]
        exact absurd hfetch (hreach.ne_fetch hm)
  cases (hstay n le_rfl).2.symm.trans hreach.1

/-- The current warp executes its instruction at every edge from the first one on. -/
theorem IsRun.executing (h : IsRun life inp σ) {n : ℕ} (hcw : (σ 0).current_warp = w)
    (hdec : (σ 0).warp_state w = .decode) (hidle : ∀ l, ((σ 0).lsu l).lsu_state = .idle)
    (hreach : Reaches σ w n) (m : ℕ) (hm : m < n) :
    Running (inp (m + 1)) (σ (m + 1)) ∧ (σ (m + 1)).current_warp = w ∧
      Executing (decode ((inp 0).fetched_instruction w)) (arch (inp 0) (σ 0) w) (σ (m + 1)) := by
  induction m with
  | zero =>
    have hrun : Running (inp 0) (σ 0) := ⟨h.reset 0, h.started hdec hreach⟩
    have hst : (σ 0).current_warp_state = .decode := by rw [current_warp_state, hcw, hdec]
    -- The first edge is that of `WARP_DECODE`, which begins the instruction.
    obtain ⟨hcw', -, hex⟩ := Executing.begin life hrun hst hidle
    rw [← h.step 0, hcw] at hcw' hex
    refine ⟨⟨h.reset 1, ?_⟩, hcw', hex⟩
    rw [h.step 0]
    exact step_start_execution hrun
  | succ m ih =>
    obtain ⟨hrun, hcwm, hex⟩ := ih (by omega)
    have hup : (σ (m + 1)).current_warp_state ≠ .update := by
      rw [current_warp_state, hcwm]
      exact hreach.ne_update hm
    obtain ⟨hcw', -, hex'⟩ := hex.step life hrun hup
    rw [← h.step (m + 1), hcwm] at hcw'
    rw [← h.step (m + 1)] at hex'
    refine ⟨⟨h.reset (m + 2), ?_⟩, hcw', hex'⟩
    rw [h.step (m + 1)]
    exact step_start_execution hrun

/-- What the core looks like when the warp has reached `WARP_UPDATE`. -/
theorem IsRun.retiring (h : IsRun life inp σ) {n : ℕ} (hcw : (σ 0).current_warp = w)
    (hdec : (σ 0).warp_state w = .decode) (hidle : ∀ l, ((σ 0).lsu l).lsu_state = .idle)
    (hreach : Reaches σ w n) :
    Running (inp n) (σ n) ∧ (σ n).current_warp = w ∧ (σ n).current_warp_state = .update ∧
      Executing (decode ((inp 0).fetched_instruction w)) (arch (inp 0) (σ 0) w) (σ n) := by
  obtain ⟨m, rfl⟩ := Nat.exists_eq_add_one_of_ne_zero (hreach.pos hdec).ne'
  obtain ⟨hrun, hcwm, hex⟩ := h.executing hcw hdec hidle hreach m (by omega)
  refine ⟨hrun, hcwm, ?_, hex⟩
  rw [current_warp_state, hcwm]
  exact hreach.1

/-- The LSU of a lane that loads: it takes memory's answer once. -/
def LoadHistory (inp : ℕ → CoreIn W T) (σ : ℕ → ComputeCore W T) (l : Fin (T + 1)) (m : ℕ) :
    Prop :=
  if ((σ m).lsu l).lsu_state = .done then Returned inp σ l m ((σ m).lsu l).lsu_out
  else ∀ k < m, ¬Accepts inp σ l k

/-- A clock edge of WAIT extends the history of a load. -/
theorem LoadHistory.step {l : Fin (T + 1)} {m : ℕ} (hist : LoadHistory inp σ l m)
    (hreset : (inp m).reset = false) (hstep : σ (m + 1) = coreStep life (inp m) (σ m))
    (hen : (σ m).lsuEnable l = true) (hrd : (σ m).current.decoded_mem_read_enable = true)
    (hwr : (σ m).current.decoded_mem_write_enable = false)
    (hup : (σ m).current_warp_state ≠ .update) : LoadHistory inp σ l (m + 1) := by
  have hlsu : (σ (m + 1)).lsu l = lsuStep ((σ m).lsuIn (inp m) l) ((σ m).lsu l) := by
    rw [hstep]
    rfl
  have hload := lsuStep_load (i := (σ m).lsuIn (inp m) l) (s := (σ m).lsu l) hreset hen hrd hwr hup
  rw [← hlsu] at hload
  unfold LoadHistory at hist ⊢
  by_cases hacc : Accepts inp σ l m
  · -- The answer comes at this edge, and none came before it.
    obtain ⟨hdone', hout⟩ := hload.1 hacc
    rw [if_neg (by rw [hacc.1]; decide)] at hist
    rw [if_pos hdone', hout]
    refine ⟨m, by omega, hacc, fun k hk hk' => ?_, rfl⟩
    by_contra hne
    exact hist k (by omega) hk'
  · obtain ⟨hiff, hout⟩ := hload.2 hacc
    by_cases hdone : ((σ m).lsu l).lsu_state = .done
    · -- The answer came earlier, and its word is still there.
      rw [if_pos hdone] at hist
      rw [if_pos (hiff.mpr hdone), hout]
      obtain ⟨k, hk, hk', huniq, hword⟩ := hist
      refine ⟨k, by omega, hk', fun k' hlt hacc' => ?_, hword⟩
      rcases Nat.lt_or_ge k' m with hlt' | hge
      · exact huniq k' hlt' hacc'
      · obtain rfl : k' = m := by omega
        exact absurd hacc' hacc
    · rw [if_neg hdone] at hist
      rw [if_neg fun h => hdone (hiff.mp h)]
      intro k hk hacc'
      rcases Nat.lt_or_ge k m with hlt | hge
      · exact hist k hlt hacc'
      · obtain rfl : k = m := by omega
        exact hacc hacc'

/-- What the LSU of a lane that loads holds in `WARP_UPDATE` is the word that its load returned. -/
theorem IsRun.returned (h : IsRun life inp σ) {n : ℕ} (hcw : (σ 0).current_warp = w)
    (hdec : (σ 0).warp_state w = .decode) (hidle : ∀ l, ((σ 0).lsu l).lsu_state = .idle)
    (hreach : Reaches σ w n) {l : Fin (T + 1)}
    (hrd : (decode ((inp 0).fetched_instruction w)).decoded_mem_read_enable = true)
    (hen : (arch (inp 0) (σ 0) w).enabled (decode ((inp 0).fetched_instruction w)) l = true) :
    Returned inp σ l n ((σ n).lsu l).lsu_out := by
  have hone := decode_one_kind ((inp 0).fetched_instruction w)
  have hwr : (decode ((inp 0).fetched_instruction w)).decoded_mem_write_enable = false := by
    simpa [hrd] using hone
  have hist (m : ℕ) (hm : m < n) : LoadHistory inp σ l (m + 1) := by
    induction m with
    | zero =>
      obtain ⟨-, -, hex⟩ := h.executing hcw hdec hidle hreach 0 hm
      have hst : (σ 0).current_warp_state = .decode := by rw [current_warp_state, hcw, hdec]
      have hidle' : ((σ 1).lsu l).lsu_state = .idle := by
        rw [h.step 0]
        exact step_lsu_idle (h.reset 0) (hidle l) (by simp [hst])
      -- No unit waits for memory at the edge of `WARP_DECODE`.
      unfold LoadHistory
      rw [if_neg (by rw [hidle']; decide)]
      intro k hk hacc
      obtain rfl : k = 0 := by omega
      rw [Accepts, hidle l] at hacc
      cases hacc.1
    | succ m ih =>
      obtain ⟨hrun, hcwm, hex⟩ := h.executing hcw hdec hidle hreach m (by omega)
      have hup : (σ (m + 1)).current_warp_state ≠ .update := by
        rw [current_warp_state, hcwm]
        exact hreach.ne_update hm
      refine (ih (by omega)).step hrun.reset (h.step (m + 1)) ?_ ?_ ?_ hup
      · rw [hex.lsuEnable, hen]
      · rw [hex.current, hrd]
      · rw [hex.current, hwr]
  -- In `WARP_UPDATE` the LSU of a lane that loads is done, so it has taken the answer.
  obtain ⟨-, -, hst, hex⟩ := h.retiring hcw hdec hidle hreach
  have hlane := hex.lane l
  have hact : (σ n).laneActive l = true := by
    simp [laneActive, hex.lsuEnable, hen, hex.current, hrd]
  simp only [LaneOk, hst, hact, if_true] at hlane
  obtain ⟨m, rfl⟩ := Nat.exists_eq_add_one_of_ne_zero (hreach.pos hdec).ne'
  have hm := hist m (by omega)
  unfold LoadHistory at hm
  rw [if_pos hlane] at hm
  exact hm

/-- The other warps wait while the instruction is executed. -/
theorem IsRun.others (h : IsRun life inp σ) {n : ℕ} (hcw : (σ 0).current_warp = w)
    (hdec : (σ 0).warp_state w = .decode) (hidle : ∀ l, ((σ 0).lsu l).lsu_state = .idle)
    (hreach : Reaches σ w n) {v : Fin W} (hv : v ≠ w) (m : ℕ) (hm : m ≤ n + 1) :
    (σ m).pc v = (σ 0).pc v ∧ (σ m).scalar_reg_file v = (σ 0).scalar_reg_file v ∧
      ∀ i, (σ m).reg_file v i = (σ 0).reg_file v i := by
  induction m with
  | zero => exact ⟨rfl, rfl, fun _ => rfl⟩
  | succ m ih =>
    have hm' : Running (inp m) (σ m) ∧ (σ m).current_warp = w := by
      rcases m with _ | m
      · exact ⟨⟨h.reset 0, h.started hdec hreach⟩, hcw⟩
      · obtain ⟨hrun, hcwm, -⟩ := h.executing hcw hdec hidle hreach m (by omega)
        exact ⟨hrun, hcwm⟩
    obtain ⟨hrun, hcwm⟩ := hm'
    obtain ⟨hpc, hscalar, hvector⟩ := ih (by omega)
    have hne : v ≠ (σ m).current_warp := hcwm ▸ hv
    rw [h.step m]
    refine ⟨?_, ?_, fun i => ?_⟩
    · rw [step_pc hrun, if_neg fun hc => hne hc.1, hpc]
    · rw [step_scalar_reg_file_of_ne hrun.reset hne, hscalar]
    · rw [step_reg_file_of_ne hrun.reset hne, hvector]

/-- A warp that reaches the end of its instruction has executed it. -/
theorem IsRun.executes (h : IsRun life inp σ) {n : ℕ} (hcw : (σ 0).current_warp = w)
    (hdec : (σ 0).warp_state w = .decode) (hidle : ∀ l, ((σ 0).lsu l).lsu_state = .idle)
    (hsx : IsSx ((inp 0).fetched_instruction w) →
      ∀ i, ((σ 0).warp_execution_mask w).getLsbD (i : Fin T) = true)
    (hreach : Reaches σ w n) : Executes inp σ w ((inp 0).fetched_instruction w) n := by
  obtain ⟨hrun, hcwm, hst, hex⟩ := h.retiring hcw hdec hidle hreach
  obtain ⟨hpc, hscalar, hvector⟩ := hex.retire life hrun hst fun hmux i => by
    have hfull := hsx (decode_vectorToScalar _ hmux).1 i
    rwa [mask_eq (a := arch (inp 0) (σ 0) w) rfl] at hfull
  rw [← h.step n, hcwm] at hpc hscalar hvector
  refine ⟨⟨fun l => ((σ n).lsu l).lsu_out, fun l hrd hen =>
    h.returned hcw hdec hidle hreach hrd hen, ?_⟩, ?_,
    fun v hv => h.others hcw hdec hidle hreach hv _ le_rfl⟩
  · refine WarpArch.ext hpc (funext hscalar) (funext fun i => funext fun r => ?_)
    by_cases hr : 4 ≤ r
    · rw [← hvector i r hr, arch_vector_of_ge hr]
    · -- The special registers read the same before and after the instruction, which never writes
      -- them.
      have hnone : ¬(WarpArch.WritesVector (decode ((inp 0).fetched_instruction w)) r ∧
          (arch (inp 0) (σ 0) w).mask i = true) := fun hw => hr hw.1.2.2.2
      rw [WarpArch.exec]
      dsimp only
      rw [if_neg hnone]
      exact specialRegisters_of_lt hr
  · rw [h.step n, step_warp_state hrun, if_pos hcwm.symm, currentNext, hst, hex.current]

end Run

/-- An example core of one warp and one thread, which is decoding its next instruction. -/
def decoding : ComputeCore 1 1 :=
  { powerUp with
    start_execution := true
    warp_state := fun _ => .decode
    scalar_reg_file := fun _ => ⟨scalarResetRegisters, 0, 0⟩ }

/-- The inputs of the example core, which is given the word `I` and whose memory does not answer. -/
def wordIn (I : InstructionT) : CoreIn 1 1 where
  reset := false
  start := true
  block_id := 0
  kernel_config := ⟨0, 0, 1, 1⟩
  fetcher_state_in := fun _ => .idle
  fetched_instruction := fun _ => I
  data_mem_read_ready := fun _ => false
  data_mem_read_data := fun _ => 0
  data_mem_write_ready := fun _ => false

end ComputeCore

open ComputeCore in
/-- From every state in which the LSUs are idle and the current warp decodes an instruction, other
than an `sx` with a thread masked off: if the warp reaches `WARP_UPDATE`, the edge after it leaves
the warp in the state that the instruction gives, and the other warps in theirs. -/
theorem core_refines_simt {W T : ℕ} [NeZero W] (life : Lifetime) {s : ComputeCore W T}
    (hdec : s.warp_state s.current_warp = .decode) (hidle : ∀ l, (s.lsu l).lsu_state = .idle)
    {inp : ℕ → CoreIn W T} (hreset : ∀ n, (inp n).reset = false)
    (hsx : IsSx ((inp 0).fetched_instruction s.current_warp) →
      ∀ i, (s.warp_execution_mask s.current_warp).getLsbD (i : Fin T) = true)
    {n : ℕ} (hreach : Reaches (Clocked.run (coreStep life) inp s) s.current_warp n) :
    Executes inp (Clocked.run (coreStep life) inp s) s.current_warp
      ((inp 0).fetched_instruction s.current_warp) n :=
  IsRun.executes ⟨hreset, fun _ => rfl⟩ rfl hdec hidle hsx hreach

open ComputeCore in
/-- `addi x5, x0, 7` on the example core gets to `WARP_UPDATE` in four edges. -/
theorem core_refines_simt_addi : Executes (fun _ => wordIn 0x00700293)
    (Clocked.run (coreStep .automatic) (fun _ => wordIn 0x00700293) decoding) 0 0x00700293 4 :=
  core_refines_simt .automatic (s := decoding) rfl (fun _ => rfl) (fun _ => rfl)
    (fun h => absurd h (by decide)) ⟨by decide, by decide⟩

end SmolGpu
