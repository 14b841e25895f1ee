import SmolGpu.ComputeCore.Exclusive
import SmolGpu.Dispatcher.Completions

/-!
# The dispatcher and its cores

`src/gpu.sv` without its memories: the register that saves the kernel configuration when the
execution starts, the dispatcher, and the cores, whose reset, start, and block id are the
dispatcher's `core_reset`, `core_start`, and `core_block_id`. What the cores see of their fetchers
and of the data memory is an input, so that a result about all runs of a cluster covers every timing
of the memories.

`cluster_completion_safety` is what the dispatcher guarantees of the blocks. It rests on one delay:
a core is handed a block at the edge at which it is itself reset, so that the `core_done` that the
dispatcher sees next of it is of that block.
-/

namespace SmolGpu

/-- What a core sees of its fetchers and of the data memory at an edge. -/
structure CoreEnv (W T : ℕ) where
  fetcher_state_in : Fin W → FetcherState
  fetched_instruction : Fin W → InstructionT
  data_mem_read_ready : Fin (T + 1) → Bool
  data_mem_read_data : Fin (T + 1) → DataT
  data_mem_write_ready : Fin (T + 1) → Bool

/-- The inputs of the cluster at an edge. -/
structure ClusterIn (N W T : ℕ) where
  reset : Bool
  execution_start : Bool
  kernel_config : KernelConfig
  env : Fin N → CoreEnv W T

/-- The registers of the cluster. -/
structure Cluster (N W T : ℕ) where
  start_execution : Bool
  kernel_config_reg : KernelConfig
  dispatcher : Dispatcher N
  core : Fin N → ComputeCore W T

namespace Cluster

variable {N W T : ℕ} [NeZero W]

/-- The inputs of core `i`. -/
def coreIn (inp : ClusterIn N W T) (s : Cluster N W T) (i : Fin N) : CoreIn W T where
  reset := s.dispatcher.core_reset i
  start := s.dispatcher.core_start i
  block_id := s.dispatcher.core_block_id i
  kernel_config := s.kernel_config_reg
  fetcher_state_in := (inp.env i).fetcher_state_in
  fetched_instruction := (inp.env i).fetched_instruction
  data_mem_read_ready := (inp.env i).data_mem_read_ready
  data_mem_read_data := (inp.env i).data_mem_read_data
  data_mem_write_ready := (inp.env i).data_mem_write_ready

/-- The inputs of the dispatcher. -/
def dispatcherIn (inp : ClusterIn N W T) (s : Cluster N W T) : DispatcherIn N where
  reset := inp.reset
  start := s.start_execution
  kernel_config := s.kernel_config_reg
  core_done := fun i => (s.core i).done

end Cluster

open Cluster in
/-- One clock edge of the cluster. -/
def clusterStep {N W T : ℕ} [NeZero W] (life : Lifetime) (inp : ClusterIn N W T)
    (s : Cluster N W T) : Cluster N W T where
  start_execution :=
    if inp.reset then false
    else if inp.execution_start && !s.start_execution then true else s.start_execution
  kernel_config_reg :=
    if inp.reset then s.kernel_config_reg
    else if inp.execution_start && !s.start_execution then inp.kernel_config
    else s.kernel_config_reg
  dispatcher := dispatcherStep (dispatcherIn inp s) s.dispatcher
  core := fun i => coreStep life (coreIn inp s i) (s.core i)

namespace Cluster

variable {N W T : ℕ} [NeZero W] {life : Lifetime}

/-- The state after a clock edge with reset high, whatever the registers held before. -/
def AfterReset (life : Lifetime) (s : Cluster N W T) : Prop :=
  ∃ inp s₀, inp.reset = true ∧ s = clusterStep life inp s₀

/-- The inputs of a run after the reset: the kernel configuration is held. -/
structure Held (kernel_config : KernelConfig) (inp : ℕ → ClusterIn N W T) : Prop where
  /-- There is no reset. -/
  reset : ∀ n, (inp n).reset = false
  /-- The kernel configuration does not change. -/
  kernel_config : ∀ n, (inp n).kernel_config = kernel_config

/-- Core `i` is started on block `b`. -/
def StartedOn (s : Cluster N W T) (i : Fin N) (b : DataT) : Prop :=
  s.dispatcher.core_start i = true ∧ s.dispatcher.core_block_id i = b

/-- Core `i` is handed block `b` at edge `n`. -/
def Handed (σ : ℕ → Cluster N W T) (n : ℕ) (i : Fin N) (b : DataT) : Prop :=
  ¬(σ n).StartedOn i b ∧ (σ (n + 1)).StartedOn i b

/-- The dispatcher takes block `b` on core `i` as finished at edge `n`. -/
def Finished (σ : ℕ → Cluster N W T) (n : ℕ) (i : Fin N) (b : DataT) : Prop :=
  (σ n).start_execution = true ∧ (σ n).StartedOn i b ∧ ((σ n).core i).done = true

/-- What the dispatcher guarantees along a run from reset. -/
structure CompletionSafe (num_blocks : DataT) (σ : ℕ → Cluster N W T) : Prop where
  /-- A block is handed out at most once. -/
  once : ∀ m n i j b, Handed σ m i b → Handed σ n j b → m = n ∧ i = j
  /-- Blocks are handed out in increasing order, within an edge in the order of the cores. -/
  increasing : ∀ m n i j b c, Handed σ m i b → Handed σ n j c → m < n ∨ m = n ∧ i < j → b < c
  /-- No other block is handed out. -/
  lt : ∀ n i b, Handed σ n i b → b < num_blocks
  /-- A started core is not being reset, and keeps its block until it is seen to be done. -/
  kept : ∀ n i b, (σ n).StartedOn i b → (σ n).dispatcher.core_reset i = false ∧
    (((σ n).core i).done = false → (σ (n + 1)).StartedOn i b ∧
      (σ (n + 1)).dispatcher.core_reset i = false)
  /-- A block that is taken as finished was handed to the core. At the hand-over no warp of the core
  had begun, the core was not reset or given another block since, and all its warps are done. -/
  finished : ∀ n i b, Finished σ n i b → ∃ m < n, Handed σ m i b ∧
    (∀ w, ((σ (m + 1)).core i).warp_state w = .idle) ∧
    (∀ k, m < k → k ≤ n → (σ k).StartedOn i b ∧ (σ k).dispatcher.core_reset i = false) ∧
    ∀ w, ((σ n).core i).warp_state w = .done
  /-- When the execution is done, every block has been handed out once and has finished. -/
  done : ∀ n, (σ n).dispatcher.done = true → ∀ b < num_blocks,
    (∃! e : ℕ × Fin N, e.1 < n ∧ Handed σ e.1 e.2 b) ∧ ∃ m < n, ∃ i, Finished σ m i b

/-! ## The run -/

section Run

variable {kernel_config : KernelConfig} {inp : ℕ → ClusterIn N W T} {s₀ : Cluster N W T}
  {σ : ℕ → Cluster N W T}

/-- A run of the cluster from reset, with the kernel configuration held. -/
structure IsRun (life : Lifetime) (kernel_config : KernelConfig) (σ : ℕ → Cluster N W T) :
    Prop where
  init : AfterReset life (σ 0)
  step : ∀ n, ∃ inp, inp.reset = false ∧ inp.kernel_config = kernel_config ∧
    σ (n + 1) = clusterStep life inp (σ n)

/-- Cores and dispatcher under a held configuration run. -/
theorem IsRun.of_held (h₀ : AfterReset life s₀) (hinp : Held kernel_config inp) :
    IsRun life kernel_config (Clocked.run (clusterStep life) inp s₀) :=
  ⟨h₀, fun n => ⟨inp n, hinp.reset n, hinp.kernel_config n, rfl⟩⟩

/-- A run begins before the start. -/
theorem IsRun.start_zero (h : IsRun life kernel_config σ) : (σ 0).start_execution = false := by
  obtain ⟨inp, s, hr, hs⟩ := h.init
  rw [hs]
  simp [clusterStep, hr]

/-- A run begins with a dispatcher that is reset. -/
theorem IsRun.dispatcher_zero (h : IsRun life kernel_config σ) :
    (σ 0).dispatcher = Dispatcher.resetState := by
  obtain ⟨inp, s, hr, hs⟩ := h.init
  rw [hs]
  exact Dispatcher.step_reset hr

/-- Every core is being reset at first. -/
theorem IsRun.core_reset_zero (h : IsRun life kernel_config σ) (i : Fin N) :
    (σ 0).dispatcher.core_reset i = true := by
  rw [h.dispatcher_zero]
  rfl

/-- The cores step on what the dispatcher and the cluster's inputs give them. -/
theorem IsRun.core_step (h : IsRun life kernel_config σ) (n : ℕ) (i : Fin N) :
    ∃ inp, (σ (n + 1)).core i = coreStep life (coreIn inp (σ n) i) ((σ n).core i) := by
  obtain ⟨inp, -, -, hstep⟩ := h.step n
  rw [hstep]
  exact ⟨inp, rfl⟩

/-- While the execution runs, the saved configuration is the one that is held. -/
theorem IsRun.kernel_config_reg (h : IsRun life kernel_config σ) (n : ℕ)
    (hs : (σ n).start_execution = true) : (σ n).kernel_config_reg = kernel_config := by
  induction n with
  | zero => exact absurd (h.start_zero.symm.trans hs) (by simp)
  | succ n ih =>
    obtain ⟨inp, hr, hk, hstep⟩ := h.step n
    rw [hstep] at hs ⊢
    simp only [clusterStep, hr, Bool.false_eq_true, if_false] at hs ⊢
    split_ifs at hs ⊢
    · exact hk
    · exact ih hs

/-- The dispatcher of a run of the cluster runs as it does on its own, on the `start` and the
`core_done` that the cluster gives it. -/
theorem IsRun.dispatcher (h : IsRun life kernel_config σ) (n : ℕ) :
    (σ n).dispatcher = Dispatcher.trace kernel_config (fun k => (σ k).start_execution)
      (fun k i => ((σ k).core i).done) n := by
  induction n with
  | zero => exact h.dispatcher_zero
  | succ n ih =>
    obtain ⟨inp, hr, -, hstep⟩ := h.step n
    rw [Dispatcher.trace_succ, ← ih, hstep]
    show dispatcherStep (dispatcherIn inp (σ n)) (σ n).dispatcher = _
    unfold dispatcherIn
    rcases hs : (σ n).start_execution with _ | _
    -- Before the start the saved configuration may differ, but a dispatcher that is stopped does
    -- not read it.
    · rw [Dispatcher.step_stopped hr rfl, Dispatcher.step_stopped rfl rfl]
    · rw [hr, h.kernel_config_reg n hs]

/-- The blocks that have finished before edge `n`. -/
def finishedBlocks (kernel_config : KernelConfig) (σ : ℕ → Cluster N W T) (n : ℕ) : Finset ℕ :=
  Dispatcher.finishedBlocks kernel_config (fun k => (σ k).start_execution)
    (fun k i => ((σ k).core i).done) n

/-- The dispatcher's ledger holds along a run. -/
theorem IsRun.ledger (h : IsRun life kernel_config σ) (n : ℕ) :
    Dispatcher.Ledger kernel_config.num_blocks (σ n).dispatcher
      (finishedBlocks kernel_config σ n) := by
  rw [h.dispatcher n]
  exact Dispatcher.ledger_trace _ _ _ n

/-- The finished blocks are those that a core has finished at an earlier edge. -/
theorem IsRun.mem_finishedBlocks (h : IsRun life kernel_config σ) {n : ℕ} {b : DataT} :
    b.toNat ∈ finishedBlocks kernel_config σ n ↔ ∃ m < n, ∃ i, Finished σ m i b := by
  unfold finishedBlocks Dispatcher.finishedBlocks
  simp only [Finset.mem_biUnion, Finset.mem_range]
  refine exists_congr fun m => and_congr_right fun _ => ?_
  rw [← h.dispatcher m]
  unfold Finished StartedOn
  split_ifs with hs
  · simp only [Dispatcher.mem_finishing, Dispatcher.Finishing, Bool.and_eq_true]
    refine exists_congr fun i => ⟨fun ⟨⟨hst, hd⟩, hid⟩ => ?_, fun ⟨_, ⟨hst, hid⟩, hd⟩ => ?_⟩
    · exact ⟨hs, ⟨hst, BitVec.eq_of_toNat_eq hid⟩, hd⟩
    · exact ⟨⟨hst, hd⟩, by rw [hid]⟩
  · simp [hs]

/-- What an edge of the run does to the dispatcher. -/
theorem IsRun.edge (h : IsRun life kernel_config σ) (n : ℕ) :
    (σ n).start_execution = false ∧ (σ (n + 1)).dispatcher = (σ n).dispatcher ∨
      (σ n).start_execution = true ∧ Dispatcher.Edge kernel_config.num_blocks
        (fun i => ((σ n).core i).done) (σ n).dispatcher (σ (n + 1)).dispatcher := by
  obtain ⟨inp, hr, -, hstep⟩ := h.step n
  have hl := h.ledger n
  have hd : (σ (n + 1)).dispatcher = dispatcherStep (dispatcherIn inp (σ n)) (σ n).dispatcher := by
    rw [hstep]
    rfl
  rw [hd]
  rcases hs : (σ n).start_execution with _ | _
  · exact .inl ⟨rfl, Dispatcher.step_stopped hr hs⟩
  · have hk : (dispatcherIn inp (σ n)).kernel_config = kernel_config := h.kernel_config_reg n hs
    refine .inr ⟨rfl, ?_⟩
    have he := Dispatcher.step_edge (dispatcherIn inp (σ n)) hr hs hl.flags
      (hk.symm ▸ hl.le_total)
    rw [hk] at he
    exact he

/-- A block is handed to a core that is being reset. -/
theorem IsRun.of_handed (h : IsRun life kernel_config σ) {n : ℕ} {i : Fin N} {b : DataT}
    (hb : Handed σ n i b) : (σ n).dispatcher.core_reset i = true ∧
      Dispatcher.Served (σ n).dispatcher (σ (n + 1)).dispatcher i := by
  obtain ⟨hnot, hst, hid⟩ := hb
  rcases h.edge n with ⟨-, heq⟩ | ⟨-, he⟩
  · rw [heq] at hst hid
    exact absurd ⟨hst, hid⟩ hnot
  · refine (he.running (h.ledger n).flags hst).resolve_right fun ⟨hst', _, hid'⟩ => ?_
    exact hnot ⟨hst', hid' ▸ hid⟩

/-- The count of the blocks handed out never falls. -/
theorem IsRun.blocks_dispatched_mono (h : IsRun life kernel_config σ) :
    Monotone fun n => (σ n).dispatcher.blocks_dispatched.toNat := by
  refine monotone_nat_of_le_succ fun n => ?_
  rcases h.edge n with ⟨-, heq⟩ | ⟨-, he⟩
  · rw [heq]
  · exact he.le

/-- The block handed out at an edge is one of those that the edge counts. -/
theorem IsRun.handed_bounds (h : IsRun life kernel_config σ) {n : ℕ} {i : Fin N} {b : DataT}
    (hb : Handed σ n i b) : (σ n).dispatcher.blocks_dispatched.toNat ≤ b.toNat ∧
      b.toNat < (σ (n + 1)).dispatcher.blocks_dispatched.toNat := by
  obtain ⟨-, hs⟩ := h.of_handed hb
  obtain ⟨-, -, hid⟩ := hb
  exact ⟨hid ▸ hs.ge, hid ▸ hs.lt⟩

/-- Blocks are handed out in the order of their numbers. -/
theorem IsRun.handed_lt (h : IsRun life kernel_config σ) {m n : ℕ} {i j : Fin N} {b c : DataT}
    (hb : Handed σ m i b) (hc : Handed σ n j c) (hlt : m < n ∨ m = n ∧ i < j) : b < c := by
  rcases hlt with hlt | ⟨rfl, hij⟩
  · -- At an earlier edge: the count has passed the block by the later one.
    have hb' := (h.handed_bounds hb).2
    have hc' := (h.handed_bounds hc).1
    have hmono := h.blocks_dispatched_mono (Nat.succ_le_of_lt hlt)
    rw [BitVec.lt_def]
    exact hb'.trans_le (hmono.trans hc')
  · -- Within an edge: the loop over the cores counts as it goes.
    obtain ⟨hri, hsi⟩ := h.of_handed hb
    obtain ⟨hrj, hsj⟩ := h.of_handed hc
    obtain ⟨-, -, hidi⟩ := hb
    obtain ⟨-, -, hidj⟩ := hc
    rcases h.edge m with ⟨-, heq⟩ | ⟨-, he⟩
    · have hlt := hsi.lt
      have hge := hsi.ge
      rw [heq] at hlt hge
      omega
    · rw [BitVec.lt_def, ← hidi, ← hidj]
      exact he.ordered i j hij hri hrj hsi hsj

/-- A core that is started on a block stays on it, without a reset, until it is done. -/
theorem IsRun.kept (h : IsRun life kernel_config σ) {n : ℕ} {i : Fin N} {b : DataT}
    (hb : (σ n).StartedOn i b) : (σ n).dispatcher.core_reset i = false ∧
      (((σ n).core i).done = false → (σ (n + 1)).StartedOn i b ∧
        (σ (n + 1)).dispatcher.core_reset i = false) := by
  have hr := (h.ledger n).flags.started i hb.1
  refine ⟨hr, fun hd => ?_⟩
  unfold StartedOn
  rcases h.edge n with ⟨-, heq⟩ | ⟨-, he⟩
  · rw [heq]
    exact ⟨hb, hr⟩
  · have hnf : ¬Dispatcher.Finishing (fun i => ((σ n).core i).done) (σ n).dispatcher i := by
      simp [Dispatcher.Finishing, hd]
    obtain ⟨hr', hst, hid⟩ := he.kept i hr hnf
    exact ⟨⟨hst.trans hb.1, hid.trans hb.2⟩, hr'⟩

/-- A core that is started on a block was handed it, and has been started on it since. -/
theorem IsRun.handed_of_startedOn (h : IsRun life kernel_config σ) {n : ℕ} {i : Fin N} {b : DataT}
    (hb : (σ n).StartedOn i b) :
    ∃ m < n, Handed σ m i b ∧ ∀ k, m < k → k ≤ n → (σ k).StartedOn i b := by
  induction n with
  | zero =>
    have hst := hb.1
    rw [h.dispatcher_zero] at hst
    exact absurd hst (by simp [Dispatcher.resetState])
  | succ n ih =>
    by_cases hn : (σ n).StartedOn i b
    · obtain ⟨m, hm, hm', hk⟩ := ih hn
      refine ⟨m, by omega, hm', fun k hmk hkn => ?_⟩
      rcases Nat.lt_or_ge n k with hlt | hge
      · obtain rfl : k = n + 1 := by omega
        exact hb
      · exact hk k hmk hge
    · -- This edge is the hand-over.
      refine ⟨n, by omega, ⟨hn, hb⟩, fun k hmk hkn => ?_⟩
      obtain rfl : k = n + 1 := by omega
      exact hb

/-- A core that is not being reset has been reset before. -/
theorem IsRun.doneOk (h : IsRun life kernel_config σ) (n : ℕ) (i : Fin N) :
    ComputeCore.DoneOk ((σ n).core i) ∨ (σ n).dispatcher.core_reset i = true := by
  induction n with
  | zero => exact .inr (h.core_reset_zero i)
  | succ n ih =>
    obtain ⟨inp, hcore⟩ := h.core_step n i
    rw [hcore]
    exact .inl (ComputeCore.DoneOk.step ih)

/-- A finished block was handed to its core after a reset, was kept, and left every warp done. -/
theorem IsRun.finished (h : IsRun life kernel_config σ) {n : ℕ} {i : Fin N} {b : DataT}
    (hb : Finished σ n i b) : ∃ m < n, Handed σ m i b ∧
      (∀ w, ((σ (m + 1)).core i).warp_state w = .idle) ∧
      (∀ k, m < k → k ≤ n → (σ k).StartedOn i b ∧ (σ k).dispatcher.core_reset i = false) ∧
      ∀ w, ((σ n).core i).warp_state w = .done := by
  obtain ⟨-, hst, hdone⟩ := hb
  obtain ⟨m, hmn, hm, hk⟩ := h.handed_of_startedOn hst
  refine ⟨m, hmn, hm, ?_, fun k hmk hkn => ⟨hk k hmk hkn, (h.kept (hk k hmk hkn)).1⟩, ?_⟩
  · -- The core is reset at the edge that hands it the block.
    obtain ⟨inp, hcore⟩ := h.core_step m i
    rw [hcore]
    exact (ComputeCore.step_reset (h.of_handed hm).1).2.2.2
  · have hr := (h.kept hst).1
    exact ((h.doneOk n i).resolve_right (by simp [hr])).warps hdone

/-- When the execution is done, every block has finished. -/
theorem IsRun.done (h : IsRun life kernel_config σ) {n : ℕ} (hd : (σ n).dispatcher.done = true)
    {b : DataT} (hb : b < kernel_config.num_blocks) : ∃ m < n, ∃ i, Finished σ m i b := by
  rw [← h.mem_finishedBlocks, (h.ledger n).done hd, Finset.mem_range]
  exact hb

/-- A block is handed out once. -/
theorem IsRun.once (h : IsRun life kernel_config σ) {m n : ℕ} {i j : Fin N} {b : DataT}
    (hm : Handed σ m i b) (hn : Handed σ n j b) : m = n ∧ i = j := by
  rcases lt_trichotomy m n with hlt | rfl | hlt
  · exact absurd (h.handed_lt hm hn (.inl hlt)) (BitVec.lt_irrefl b)
  · rcases lt_trichotomy i j with hlt | rfl | hlt
    · exact absurd (h.handed_lt hm hn (.inr ⟨rfl, hlt⟩)) (BitVec.lt_irrefl b)
    · exact ⟨rfl, rfl⟩
    · exact absurd (h.handed_lt hn hm (.inr ⟨rfl, hlt⟩)) (BitVec.lt_irrefl b)
  · exact absurd (h.handed_lt hn hm (.inl hlt)) (BitVec.lt_irrefl b)

end Run

/-- The registers when the simulator starts: all zero. -/
def powerUp : Cluster N W T where
  start_execution := false
  kernel_config_reg := ⟨0, 0, 0, 0⟩
  dispatcher := ⟨fun _ => false, fun _ => false, fun _ => 0, false, 0, 0, false⟩
  core := fun _ => ComputeCore.powerUp

/-- The inputs of an example cluster of two cores, started on three blocks of one warp, whose
memories answer every load and fetch at once, with a halt. -/
def answeringIn (reset : Bool) : ClusterIn 2 1 1 where
  reset := reset
  execution_start := true
  kernel_config := ⟨0, 0, 3, 1⟩
  env := fun _ => ⟨fun _ => .done, fun _ => 127, fun _ => true, fun _ => 0, fun _ => true⟩

/-- The inputs of the example cluster when core `i` gets a word at every `i + 1`-th edge only, so
that its cores finish apart. -/
def staggeredIn (n : ℕ) : ClusterIn 2 1 1 :=
  { answeringIn false with
    env := fun i => { (answeringIn false).env i with
      fetcher_state_in := fun _ => if (i + 1 : ℕ) ∣ n then .done else .idle } }

end Cluster

open Cluster in
/-- The dispatcher and its cores, from reset and with the kernel configuration held, for any timing
of the fetchers and of the data memory: blocks are handed out once each and in order, a core keeps
its block until it is seen to be done, a block is taken as finished only if all warps of its core
are done with that very block, and `done` says that all blocks have finished. -/
theorem cluster_completion_safety {N W T : ℕ} [NeZero W] (life : Lifetime)
    (kernel_config : KernelConfig) {s₀ : Cluster N W T} (h₀ : AfterReset life s₀)
    {inp : ℕ → ClusterIn N W T} (hinp : Held kernel_config inp) :
    CompletionSafe kernel_config.num_blocks (Clocked.run (clusterStep life) inp s₀) := by
  have h : IsRun life kernel_config (Clocked.run (clusterStep life) inp s₀) := .of_held h₀ hinp
  constructor
  · exact fun m n i j b => h.once
  · exact fun m n i j b c => h.handed_lt
  · intro n i b hb
    have hlt := (h.handed_bounds hb).2
    exact hlt.trans_le (h.ledger (n + 1)).le_total
  · exact fun n i b => h.kept
  · exact fun n i b => h.finished
  · intro n hd b hb
    obtain ⟨m, hmn, i, hfin⟩ := h.done hd hb
    obtain ⟨e, hem, he, -⟩ := h.finished hfin
    refine ⟨⟨(e, i), ⟨by omega, he⟩, fun e' he' => ?_⟩, m, hmn, i, hfin⟩
    obtain ⟨h1, h2⟩ := h.once he'.2 he
    exact Prod.ext h1 h2

open Cluster in
/-- Two cores that finish apart run the three blocks of the example, and the dispatcher gets
done. -/
theorem cluster_completion_safety_three :
    (Clocked.run (clusterStep .automatic) staggeredIn
        (clusterStep .automatic (answeringIn true) powerUp) 40).dispatcher.done = true ∧
      CompletionSafe 3 (Clocked.run (clusterStep .automatic) staggeredIn
        (clusterStep .automatic (answeringIn true) powerUp)) :=
  ⟨by decide +kernel, cluster_completion_safety .automatic ⟨0, 0, 3, 1⟩
    ⟨answeringIn true, powerUp, rfl, rfl⟩ ⟨fun _ => rfl, fun _ => rfl⟩⟩

end SmolGpu
