import SmolGpu.ComputeCore.Operands
import SmolGpu.Dispatcher.Cluster

/-!
# What the special registers hold

The block id in `x2` is an input of the core, which a core that is reset still sees from its
previous block, and the special registers of a warp are assigned only at the edges at which it is
the current one. `special_registers_right` says that an instruction reads the right values
nevertheless. A core keeps its block while one of its warps is at work (`IsRun.kept_of_busy`), so
that the id at the edge of `WARP_DECODE`, which assigns the registers, is that at the edge of
`WARP_REQUEST`, which reads them (`IsRun.special_of_request`), and at the edges that use what has
been read (`IsRun.special_reads`).
-/

namespace SmolGpu

namespace Cluster

variable {N W T : ℕ} [NeZero W]

/-! ## The start -/

section Start

variable {life : Lifetime} {s₀ : Cluster N W T} {inp : ℕ → ClusterIn N W T}

/-- The execution starts when `execution_start` is high, and goes on. -/
theorem step_start_execution {inp : ClusterIn N W T} {s : Cluster N W T} (hr : inp.reset = false)
    (h : inp.execution_start = true ∨ s.start_execution = true) :
    (clusterStep life inp s).start_execution = true := by
  rcases h with h | h <;> simp [clusterStep, hr, h]

/-- After the start the cluster stays started. -/
theorem start_execution_of_lt (hreset : ∀ n, (inp n).reset = false) {m n : ℕ} (hlt : m < n)
    (hm : (inp m).execution_start = true) :
    (Clocked.run (clusterStep life) inp s₀ n).start_execution = true := by
  induction n, hlt using Nat.le_induction with
  | base => exact step_start_execution (hreset m) (.inl hm)
  | succ n _ ih => exact step_start_execution (hreset n) (.inr ih)

/-- The kernel configuration is sampled at one edge at most. -/
theorem exists_sampled (life : Lifetime) (s₀ : Cluster N W T)
    (hreset : ∀ n, (inp n).reset = false) : ∃ kernel_config, ∀ n, (inp n).execution_start = true →
      (Clocked.run (clusterStep life) inp s₀ n).start_execution = false →
        (inp n).kernel_config = kernel_config := by
  by_cases h : ∃ m, (inp m).execution_start = true ∧
      (Clocked.run (clusterStep life) inp s₀ m).start_execution = false
  · obtain ⟨m, hm, hm'⟩ := h
    refine ⟨(inp m).kernel_config, fun n hn hn' => ?_⟩
    rcases lt_trichotomy m n with hlt | rfl | hlt
    · exact absurd ((start_execution_of_lt hreset hlt hm).symm.trans hn') (by simp)
    · rfl
    · exact absurd ((start_execution_of_lt hreset hlt hn).symm.trans hm') (by simp)
  · exact ⟨⟨0, 0, 0, 0⟩, fun n hn hn' => absurd ⟨n, hn, hn'⟩ h⟩

/-- A run from reset goes as one in which the sampled configuration is held. -/
theorem IsRun.of_inputs (h₀ : AfterReset life s₀) (hreset : ∀ n, (inp n).reset = false) :
    ∃ kernel_config, IsRun life kernel_config (Clocked.run (clusterStep life) inp s₀) := by
  obtain ⟨kernel_config, hsampled⟩ := exists_sampled life s₀ hreset
  refine ⟨kernel_config, h₀, fun n => ⟨{ inp n with kernel_config := kernel_config }, hreset n, rfl,
    ?_⟩⟩
  show clusterStep life (inp n) (Clocked.run (clusterStep life) inp s₀ n) = _
  by_cases hstart : (inp n).execution_start = true ∧
      (Clocked.run (clusterStep life) inp s₀ n).start_execution = false
  · rw [← hsampled n hstart.1 hstart.2]
  · have hskip : ((inp n).execution_start &&
        !(Clocked.run (clusterStep life) inp s₀ n).start_execution) = false := by
      simpa using hstart
    simp only [clusterStep, hskip, Bool.false_eq_true, if_false]
    rfl

end Start

section Run

variable {life : Lifetime} {kernel_config : KernelConfig} {σ : ℕ → Cluster N W T}

/-! ## Cores at work -/

/-- A core that is not being reset is in a state that it reaches after a reset. -/
theorem IsRun.core_reachable (h : IsRun life kernel_config σ) (n : ℕ) (i : Fin N) :
    Clocked.Reachable (coreStep life) (ComputeCore.AfterReset life) ((σ n).core i) ∨
      (σ n).dispatcher.core_reset i = true := by
  induction n with
  | zero => exact .inr (h.core_reset_zero i)
  | succ n ih =>
    obtain ⟨inp, hcore⟩ := h.core_step n i
    rw [hcore]
    rcases ih with hreach | hreset
    · exact .inl (hreach.step _)
    · exact .inl (.init ⟨coreIn inp (σ n) i, (σ n).core i, hreset, rfl⟩)

/-- A core executes only while the dispatcher has it started. -/
theorem IsRun.core_started (h : IsRun life kernel_config σ) (n : ℕ) {i : Fin N}
    (hr : (σ n).dispatcher.core_reset i = false) (hs : ((σ n).core i).start_execution = true) :
    (σ n).dispatcher.core_start i = true := by
  induction n with
  | zero => exact absurd ((h.core_reset_zero i).symm.trans hr) (by simp)
  | succ n ih =>
    obtain ⟨inp, hcore⟩ := h.core_step n i
    rw [hcore] at hs
    -- The core was not being reset, or else it would not have been started.
    have hr' : (σ n).dispatcher.core_reset i = false := by
      by_contra hreset
      have hreset : (coreIn inp (σ n) i).reset = true := Bool.of_not_eq_false hreset
      exact absurd ((ComputeCore.step_reset hreset).1.symm.trans hs) (by simp)
    have hstart : (σ n).dispatcher.core_start i = true := by
      by_contra hno
      have hno : (σ n).dispatcher.core_start i = false := by simpa using hno
      have hidle : ((σ n).core i).start_execution = false := by
        by_contra hidle
        exact absurd (hno.symm.trans (ih hr' (by simpa using hidle))) (by simp)
      have hkept : ((σ n).core i).alwaysBlock life (coreIn inp (σ n) i) = (σ n).core i :=
        ComputeCore.step_not_started hr' hidle hno
      have hs : (((σ n).core i).alwaysBlock life (coreIn inp (σ n) i)).start_execution = true := hs
      rw [hkept] at hs
      exact absurd (hidle.symm.trans hs) (by simp)
    rcases h.edge n with ⟨-, heq⟩ | ⟨-, he⟩
    · rw [heq]
      exact hstart
    · by_cases hfin : Dispatcher.Finishing (fun i => ((σ n).core i).done) (σ n).dispatcher i
      · exact absurd (hr.symm.trans (he.finished i hfin).1) (by simp)
      · exact (he.kept i hr' hfin).2.1.trans hstart

/-- A core is started only after the execution has been. -/
theorem IsRun.execution_started (h : IsRun life kernel_config σ) {n : ℕ} {i : Fin N} {b : DataT}
    (hb : (σ n).StartedOn i b) : (σ n).start_execution = true := by
  induction n with
  | zero =>
    have hst := hb.1
    rw [h.dispatcher_zero] at hst
    exact absurd hst (by simp [Dispatcher.resetState])
  | succ n ih =>
    obtain ⟨inp, hr, -, hstep⟩ := h.step n
    rw [hstep]
    apply step_start_execution hr
    right
    rcases h.edge n with ⟨-, heq⟩ | ⟨hs, -⟩
    · unfold StartedOn at hb
      rw [heq] at hb
      exact ih hb
    · exact hs

/-- A core whose current warp is at work runs a block, and keeps it over the next edge, with the
saved configuration. -/
theorem IsRun.kept_of_busy (h : IsRun life kernel_config σ) {n : ℕ} {i : Fin N}
    (hr : (σ n).dispatcher.core_reset i = false)
    (hidle : ((σ n).core i).current_warp_state ≠ .idle)
    (hdone : ((σ n).core i).current_warp_state ≠ .done) :
    ∃ b, (σ n).StartedOn i b ∧ (σ (n + 1)).StartedOn i b ∧
      (σ n).kernel_config_reg = kernel_config ∧ (σ (n + 1)).kernel_config_reg = kernel_config := by
  have hreach := (h.core_reachable n i).resolve_right (by simp [hr])
  have hstarted := (ComputeCore.Invariant.of_reachable hreach).started hidle
  have hb : (σ n).StartedOn i ((σ n).dispatcher.core_block_id i) :=
    ⟨h.core_started n hr hstarted, rfl⟩
  have hnot : ((σ n).core i).done = false := by
    by_contra hd
    have hwarps := ((h.doneOk n i).resolve_right (by simp [hr])).warps (by simpa using hd)
    exact hdone (hwarps _)
  obtain ⟨hb', -⟩ := (h.kept hb).2 hnot
  exact ⟨_, hb, hb', h.kernel_config_reg n (h.execution_started hb),
    h.kernel_config_reg (n + 1) (h.execution_started hb')⟩

/-! ## Reads -/

/-- A core that is not idle after an edge was not reset at it. -/
theorem IsRun.core_edge (h : IsRun life kernel_config σ) {n : ℕ} {i : Fin N} {w : Fin W}
    (hidle : ((σ (n + 1)).core i).warp_state w ≠ .idle) :
    (σ n).dispatcher.core_reset i = false ∧ ∃ env,
      (σ (n + 1)).core i = coreStep life (coreIn env (σ n) i) ((σ n).core i) := by
  obtain ⟨inp, hcore⟩ := h.core_step n i
  refine ⟨?_, inp, hcore⟩
  by_contra hreset
  have hreset : (coreIn inp (σ n) i).reset = true := Bool.of_not_eq_false hreset
  rw [hcore] at hidle
  exact hidle ((ComputeCore.step_reset hreset).2.2.2 w)

/-- When the operands are read, the special registers of the current warp are right for the block
that the core runs. -/
theorem IsRun.special_of_request (h : IsRun life kernel_config σ) {n : ℕ} {i : Fin N}
    (hr : (σ n).dispatcher.core_reset i = false)
    (hreq : ((σ n).core i).current_warp_state = .request) {b : DataT} (hb : (σ n).StartedOn i b)
    (l : Fin T) {r : RegAddress} (hlt : ¬4 ≤ r) :
    (((σ n).core i).reg_file ((σ n).core i).current_warp l).registers r =
      ComputeCore.specials kernel_config ((σ n).core i).current_warp l b r := by
  cases n with
  | zero => exact absurd ((h.core_reset_zero i).symm.trans hr) (by simp)
  | succ n =>
    have hidle : ((σ (n + 1)).core i).current_warp_state ≠ .idle := by simp [hreq]
    obtain ⟨hr', inp, hcore⟩ := h.core_edge hidle
    have hreach := (h.core_reachable n i).resolve_right (by simp [hr'])
    rw [hcore] at hreq ⊢
    -- The edge before is that of `WARP_DECODE`, which assigned the registers of the same warp.
    obtain ⟨-, hdecode, hcw⟩ := (ComputeCore.Invariant.of_reachable hreach).of_request hr' hreq
    obtain ⟨b', hb', hb'', hkc, -⟩ := h.kept_of_busy hr' (by simp [hdecode]) (by simp [hdecode])
    have hblock : (σ n).dispatcher.core_block_id i = b :=
      calc (σ n).dispatcher.core_block_id i = b' := hb'.2
        _ = (σ (n + 1)).dispatcher.core_block_id i := hb''.2.symm
        _ = b := hb.2
    rw [hcw, ← hkc, ← hblock]
    exact ComputeCore.step_reg_file_specials hr' l hlt

/-- Once the current warp has read its operands, they are right for the block that the core runs. -/
theorem IsRun.special_reads (h : IsRun life kernel_config σ) (n : ℕ) {i : Fin N}
    (hr : (σ n).dispatcher.core_reset i = false)
    (hread : ((σ n).core i).current_warp_state = .wait ∨
      ((σ n).core i).current_warp_state = .execute ∨
      ((σ n).core i).current_warp_state = .update) :
    ∃ b, (σ n).StartedOn i b ∧ (σ n).kernel_config_reg = kernel_config ∧
      ComputeCore.SpecialReads kernel_config b ((σ n).core i) := by
  induction n with
  | zero => exact absurd ((h.core_reset_zero i).symm.trans hr) (by simp)
  | succ n ih =>
    have hbusy : ¬ComputeCore.Parked ((σ (n + 1)).core i).current_warp_state := by
      rcases hread with hst | hst | hst <;> simp [ComputeCore.Parked, hst]
    have hidle : ((σ (n + 1)).core i).current_warp_state ≠ .idle := fun hst => hbusy (.inl hst)
    obtain ⟨hr', inp, hcore⟩ := h.core_edge hidle
    have hreach := (h.core_reachable n i).resolve_right (by simp [hr'])
    have hi := ComputeCore.Invariant.of_reachable hreach
    rw [hcore] at hread hbusy ⊢
    have hrun := hi.running_before hr' hbusy
    -- The warp was busy with the same instruction at the edge before, for the same block.
    have hkept (hne : ((σ n).core i).current_warp_state ≠ .idle)
        (hne' : ((σ n).core i).current_warp_state ≠ .done) := h.kept_of_busy hr' hne hne'
    have hcarry (hst : ((σ n).core i).current_warp_state = .wait ∨
        ((σ n).core i).current_warp_state = .execute) :
        ∃ b, (σ (n + 1)).StartedOn i b ∧ (σ (n + 1)).kernel_config_reg = kernel_config ∧
          ComputeCore.SpecialReads kernel_config b
            (coreStep life (coreIn inp (σ n) i) ((σ n).core i)) := by
      obtain ⟨b, hb, hb', -, hkc⟩ := hkept (by rcases hst with hst | hst <;> simp [hst])
        (by rcases hst with hst | hst <;> simp [hst])
      obtain ⟨c, hc, -, hreads⟩ := ih hr' (hst.imp_right .inl)
      have hsame : c = b := hc.2.symm.trans hb.2
      exact ⟨b, hb', hkc, (hsame ▸ hreads).step hrun hst⟩
    obtain ⟨-, ⟨-, hnext⟩ | ⟨hst, -⟩ | ⟨hst, -⟩ | ⟨hst, -⟩⟩ := hi.stage_before hrun hbusy
    · rw [hnext] at hread
      rcases hread with hst | hst | hst <;> cases hst
    · -- The edge at which the operands are read.
      obtain ⟨b, hb, hb', -, hkc⟩ := hkept (by simp [hst]) (by simp [hst])
      refine ⟨b, hb', hkc, .of_request hrun hst (.of_reachable hreach) ?_⟩
      exact fun l r hlt => h.special_of_request hr' hst hb l hlt
    · exact hcarry (.inl hst)
    · exact hcarry (.inr hst)

end Run

/-- Every warp of a core that is not being reset that has read its operands has read the right
values of special registers, and the units work on them. -/
def SpecialRegistersRight (s : Cluster N W T) : Prop :=
  ∀ (i : Fin N) (w : Fin W), s.dispatcher.core_reset i = false →
    ((s.core i).warp_state w = .wait ∨ (s.core i).warp_state w = .execute ∨
      (s.core i).warp_state w = .update) →
    (s.core i).current_warp = w ∧
      ∃ b, s.StartedOn i b ∧ ComputeCore.SpecialReads s.kernel_config_reg b (s.core i)

/-- The inputs of the example cluster, with `add x5, x2, x3` at every fetch. -/
def addingIn (reset : Bool) : ClusterIn 2 1 1 :=
  { answeringIn reset with
    env := fun i => { (answeringIn reset).env i with fetched_instruction := fun _ => 0x003102b3 } }

/-- The example cluster after six edges: both cores wait in their first instruction. -/
def adding : Cluster 2 1 1 :=
  Clocked.run (clusterStep .automatic) (fun _ => addingIn false)
    (clusterStep .automatic (addingIn true) powerUp) 6

end Cluster

open Cluster in
/-- In every run of the cluster from reset, for any program, configuration, and timing of the
fetchers and of the data memory, the instructions read the right values of special registers: the
vector operands `x0` to `x3` are 0, the number of the thread in its block, the block that the core
is started on, and the number of threads of a block, and the scalar operand `s0` is 0. -/
theorem special_registers_right {N W T : ℕ} [NeZero W] (life : Lifetime) {s₀ : Cluster N W T}
    (h₀ : AfterReset life s₀) {inp : ℕ → ClusterIn N W T} (hreset : ∀ n, (inp n).reset = false)
    (n : ℕ) : SpecialRegistersRight (Clocked.run (clusterStep life) inp s₀ n) := by
  obtain ⟨kernel_config, h⟩ := IsRun.of_inputs h₀ hreset
  intro i w hr hread
  have hreach := (h.core_reachable n i).resolve_right (by simp [hr])
  -- A warp that is not current is parked.
  have hcurrent : ((Clocked.run (clusterStep life) inp s₀ n).core i).current_warp = w := by
    by_contra hne
    have hparked := (ComputeCore.Invariant.of_reachable hreach).parked w fun heq => hne heq.symm
    rcases hread with hst | hst | hst <;> simp [ComputeCore.Parked, hst] at hparked
  rw [← hcurrent] at hread
  obtain ⟨b, hb, hkc, hreads⟩ := h.special_reads n hr hread
  exact ⟨hcurrent, b, hb, hkc.symm ▸ hreads⟩

open Cluster in
/-- The second core of the example cluster reads the number of its block, 1, and the number of
threads of a block. -/
theorem special_registers_right_adding : SpecialRegistersRight adding ∧
    adding.dispatcher.core_reset 1 = false ∧ (adding.core 1).warp_state 0 = .wait ∧
    adding.StartedOn 1 1 ∧ (adding.core 1).current.decoded_rs1_address = BLOCK_ID_REG :=
  ⟨special_registers_right .automatic ⟨addingIn true, powerUp, rfl, rfl⟩ (fun _ => rfl) 6,
    by decide +kernel, by decide +kernel, ⟨by decide +kernel, by decide +kernel⟩,
    by decide +kernel⟩

end SmolGpu
