import SmolGpu.ComputeCore.Fetch
import SmolGpu.Gpu.Gpu

/-!
# The GPU as it is wired

`src/gpu.sv` with all its parts: the cores with their fetchers, the dispatcher, the data memory
controller, and the program memory controller, which stands between the fetchers and the instruction
ports and is instantiated with `WRITE_ENABLE` 0.

Since no fetcher is ever seen to be done, no core gets past its first fetches, whatever the memories
answer. So the GPU never asks for data, and a kernel that has blocks is never done
(`wired_gpu_hangs`).
-/

namespace SmolGpu

/-- The inputs of `gpu`. `M` and `P` are the numbers of channels to the data and to the instruction
memory. -/
structure GpuPorts (M P : ℕ) where
  reset : Bool
  execution_start : Bool
  kernel_config : KernelConfig
  instruction_mem_read_ready : Fin P → Bool
  instruction_mem_read_data : Fin P → InstructionT
  data_mem_read_ready : Fin M → Bool
  data_mem_read_data : Fin M → DataT
  data_mem_write_ready : Fin M → Bool

/-- The registers of `gpu` and of all its instances. -/
structure WiredGpu (N W T M P : ℕ) where
  gpu : Gpu N W T M
  fetcher_state_in : Fin N → Fin W → FetcherState
  fetcher : Fin N → Fin W → Fetcher
  program_memory_controller : MemController (N * W) P 32 32

namespace WiredGpu

variable {N W T M P : ℕ}

/-- The number of a fetcher, `fetcher_index + w`. -/
def fetcherIndex (i : Fin N) (w : Fin W) : Fin (N * W) := finProdFinEquiv (i, w)

/-- Core `i` with its fetchers. -/
def core (s : WiredGpu N W T M P) (i : Fin N) : FetchingCore W T where
  core := s.gpu.cluster.core i
  fetcher_state_in := s.fetcher_state_in i
  fetcher := s.fetcher i

/-- `execution_done`. -/
def execution_done (s : WiredGpu N W T M P) : Bool := s.gpu.cluster.dispatcher.done

/-- The inputs of core `i`. -/
def corePorts (s : WiredGpu N W T M P) (i : Fin N) : CorePorts W T where
  reset := s.gpu.cluster.dispatcher.core_reset i
  start := s.gpu.cluster.dispatcher.core_start i
  block_id := s.gpu.cluster.dispatcher.core_block_id i
  kernel_config := s.gpu.cluster.kernel_config_reg
  instruction_mem_read_ready := fun w =>
    s.program_memory_controller.consumer_read_ready (fetcherIndex i w)
  instruction_mem_read_data := fun w =>
    s.program_memory_controller.consumer_read_data (fetcherIndex i w)
  data_mem_read_ready := s.gpu.core_lsu_read_ready i
  data_mem_read_data := s.gpu.core_lsu_read_data i
  data_mem_write_ready := s.gpu.core_lsu_write_ready i

/-- What the GPU without its fetchers samples at an edge. -/
def gpuIn (ports : GpuPorts M P) (s : WiredGpu N W T M P) : GpuIn N W M where
  reset := ports.reset
  execution_start := ports.execution_start
  kernel_config := ports.kernel_config
  fetcher_state_in := s.fetcher_state_in
  fetched_instruction := fun i => (s.core i).fetched_instruction
  data_mem_read_ready := ports.data_mem_read_ready
  data_mem_read_data := ports.data_mem_read_data
  data_mem_write_ready := ports.data_mem_write_ready

/-- The inputs of the program memory controller. Nothing drives its write wires. -/
def programIn (ports : GpuPorts M P) (s : WiredGpu N W T M P) :
    MemControllerIn (N * W) P 32 32 where
  reset := ports.reset
  consumer_read_valid := fun x =>
    (s.core (finProdFinEquiv.symm x).1).instruction_mem_read_valid (finProdFinEquiv.symm x).2
  consumer_read_address := fun x =>
    (s.fetcher (finProdFinEquiv.symm x).1 (finProdFinEquiv.symm x).2).instruction_mem_read_address
  consumer_write_valid := fun _ => false
  consumer_write_address := fun _ => 0
  consumer_write_data := fun _ => 0
  mem_read_ready := ports.instruction_mem_read_ready
  mem_read_data := ports.instruction_mem_read_data
  mem_write_ready := fun _ => false

end WiredGpu

open WiredGpu in
/-- One clock edge of the GPU as it is wired. -/
def wiredGpuStep {N W T M P : ℕ} [NeZero N] [NeZero W] (life : Lifetime) (ports : GpuPorts M P)
    (s : WiredGpu N W T M P) : WiredGpu N W T M P where
  gpu := gpuStep life (gpuIn ports s) s.gpu
  fetcher_state_in := fun i => (s.core i).nextFetcherStateIn (corePorts s i)
  fetcher := fun i w => fetcherStep ((s.core i).fetcherIn (corePorts s i) w) (s.fetcher i w)
  program_memory_controller :=
    memControllerStep false (programIn ports s) s.program_memory_controller

namespace WiredGpu

variable {N W T M P : ℕ} [NeZero N] [NeZero W] {life : Lifetime} {ports : GpuPorts M P}
  {s : WiredGpu N W T M P}

/-- The registers when the simulator starts: all zero. -/
def powerUp : WiredGpu N W T M P where
  gpu := Gpu.powerUp
  fetcher_state_in := fun _ _ => .idle
  fetcher := fun _ _ => ⟨false, 0, .idle, 0⟩
  program_memory_controller := MemController.resetState

/-- Where a run starts: with all registers zero, or after three edges with reset high. -/
def Starts (life : Lifetime) (s : WiredGpu N W T M P) : Prop :=
  s = powerUp ∨ ∃ (ports : ℕ → GpuPorts M P) (s₀ : WiredGpu N W T M P),
    (∀ k < 3, (ports k).reset = true) ∧ s = Clocked.run (wiredGpuStep life) ports s₀ 3

/-- A core of the GPU runs as a core on its own. -/
theorem core_step (i : Fin N) :
    (wiredGpuStep life ports s).core i = fetchingCoreStep life (corePorts s i) (s.core i) := rfl

/-- The GPU without its fetchers runs as it does on its own. -/
theorem run_gpu (life : Lifetime) (ports : ℕ → GpuPorts M P) (s : WiredGpu N W T M P) (n : ℕ) :
    (Clocked.run (wiredGpuStep life) ports s n).gpu = Clocked.run (gpuStep life)
      (fun n => gpuIn (ports n) (Clocked.run (wiredGpuStep life) ports s n)) s.gpu n := by
  induction n with
  | zero => rfl
  | succ n ih =>
    show gpuStep life _ (Clocked.run (wiredGpuStep life) ports s n).gpu = _
    rw [ih]
    rfl

/-- A kernel is started where none is running. -/
theorem start_step (life : Lifetime) (s : WiredGpu N W T M P) (hr : ports.reset = false)
    (hstart : ports.execution_start = true) :
    (wiredGpuStep life ports s).gpu.cluster.start_execution = true ∧
      (wiredGpuStep life ports s).gpu.cluster.kernel_config_reg =
        if s.gpu.cluster.start_execution then s.gpu.cluster.kernel_config_reg
        else ports.kernel_config := by
  show (if ports.reset then false
      else if ports.execution_start && !s.gpu.cluster.start_execution then true
      else s.gpu.cluster.start_execution) = true ∧
    (if ports.reset then s.gpu.cluster.kernel_config_reg
      else if ports.execution_start && !s.gpu.cluster.start_execution then ports.kernel_config
      else s.gpu.cluster.kernel_config_reg) = _
  rw [hr, hstart]
  rcases s.gpu.cluster.start_execution with _ | _ <;> exact ⟨rfl, rfl⟩

/-! ## What holds between any two edges -/

/-- No core has got past its first fetches, and nothing is under way to the data memory. -/
structure Stuck (s : WiredGpu N W T M P) : Prop where
  /-- Every core is hung. -/
  hung : ∀ i, (s.core i).Hung
  /-- The invariant of every core. -/
  core : ∀ i, ComputeCore.Invariant (s.gpu.cluster.core i)
  /-- A core is done only with its warps. -/
  done : ∀ i, ComputeCore.DoneOk (s.gpu.cluster.core i)
  /-- No request is on its way to the data memory. -/
  requests : ∀ x, s.gpu.lsu_read_valid x = false ∧ s.gpu.lsu_write_valid x = false
  /-- The data memory's controller has been reset. -/
  controller : s.gpu.data_memory_controller = MemController.resetState
  /-- No block is counted. -/
  blocks_done : s.gpu.cluster.dispatcher.blocks_done = 0

/-- A stuck GPU has no core that is done. -/
theorem Stuck.not_done (h : Stuck s) (i : Fin N) : (s.gpu.cluster.core i).done = false := by
  by_contra hdone
  have hwarp := (h.done i).warps (by simpa using hdone) 0
  rcases (h.hung i).not_fetched 0 with hst | hst
  · exact absurd (hst.symm.trans hwarp) (by decide)
  · exact absurd (hst.symm.trans hwarp) (by decide)

omit [NeZero W] in
/-- The LSUs are idle, with their requests down. -/
theorem Stuck.lsu (h : Stuck s) (i : Fin N) (l : Fin (T + 1)) :
    ((s.gpu.cluster.core i).lsu l).mem_read_valid = false ∧
      ((s.gpu.cluster.core i).lsu l).mem_write_valid = false := by
  have hparked : ComputeCore.Parked (s.gpu.cluster.core i).current_warp_state :=
    ((h.hung i).not_fetched _).imp id fun hst => .inl hst
  have hidle := (h.core i).idle_of_parked hparked l
  have hcons := (h.core i).consistent l
  constructor
  · by_contra hvalid
    exact absurd (hidle.symm.trans (hcons.read_valid.mp (by simpa using hvalid)).1) (by decide)
  · by_contra hvalid
    exact absurd (hidle.symm.trans (hcons.write_valid.mp (by simpa using hvalid)).1) (by decide)

/-- What an edge without reset does to `execution_done`. -/
theorem Stuck.execution_done_step (h : Stuck s) (hr : ports.reset = false) :
    (wiredGpuStep life ports s).execution_done =
      if s.gpu.cluster.start_execution = true ∧ 0 = s.gpu.cluster.kernel_config_reg.num_blocks
      then true else s.execution_done := by
  show (dispatcherStep (Cluster.dispatcherIn (Gpu.clusterIn (gpuIn ports s) s.gpu) s.gpu.cluster)
      s.gpu.cluster.dispatcher).done = _
  rw [(Dispatcher.step_of_no_core_done hr h.not_done).2, h.blocks_done]
  rfl

/-- A stuck GPU stays stuck. -/
theorem Stuck.step (h : Stuck s) : Stuck (wiredGpuStep life ports s) := by
  refine ⟨fun i => ?_, fun i => (h.core i).step, fun i => .step (.inl (h.done i)),
    fun x => h.lsu _ _, ?_, ?_⟩
  · rw [core_step]
    exact (h.hung i).step
  · show memControllerStep true (Gpu.controllerIn (gpuIn ports s) s.gpu) _ = _
    rw [h.controller]
    exact MemController.step_resetState (fun j => (h.requests j).1) fun j => (h.requests j).2
  · show (dispatcherStep (Cluster.dispatcherIn (Gpu.clusterIn (gpuIn ports s) s.gpu) s.gpu.cluster)
      s.gpu.cluster.dispatcher).blocks_done = 0
    rcases hr : ports.reset with _ | _
    · rw [(Dispatcher.step_of_no_core_done hr h.not_done).1]
      exact h.blocks_done
    · rw [Dispatcher.step_reset hr]
      rfl

/-- The GPU is stuck from the power-up on. -/
theorem stuck_powerUp : Stuck (powerUp : WiredGpu N W T M P) := by
  have hsettled : Gpu.Settled (Gpu.powerUp : Gpu N W T M) := Gpu.settled_powerUp
  exact ⟨fun _ => ⟨fun _ => rfl, fun _ => .inl rfl⟩, hsettled.guarded.core, hsettled.guarded.done,
    hsettled.requests, hsettled.controller, rfl⟩

/-- After three edges with reset high. -/
theorem stuck_of_reset {ports : ℕ → GpuPorts M P} (hr : ∀ k < 3, (ports k).reset = true)
    (s₀ : WiredGpu N W T M P) : Stuck (Clocked.run (wiredGpuStep life) ports s₀ 3) := by
  obtain ⟨s₂, hs₂⟩ : ∃ s₂, s₂ = Clocked.run (wiredGpuStep life) ports s₀ 2 := ⟨_, rfl⟩
  have hsettled : Gpu.Settled (Clocked.run (wiredGpuStep life) ports s₀ 3).gpu := by
    rw [run_gpu]
    exact Gpu.settled_of_reset hr
  have hdispatcher (k : ℕ) (hk : k < 3) :
      (Clocked.run (wiredGpuStep life) ports s₀ (k + 1)).gpu.cluster.dispatcher =
        Dispatcher.resetState :=
    Dispatcher.step_reset (hr k hk)
  have hrun : Clocked.run (wiredGpuStep life) ports s₀ 3 = wiredGpuStep life (ports 2) s₂ := by
    rw [hs₂]
    rfl
  refine ⟨fun i => ?_, hsettled.guarded.core, hsettled.guarded.done, hsettled.requests,
    hsettled.controller, ?_⟩
  · -- The cores are reset one edge after the dispatcher.
    rw [hrun, core_step]
    refine .of_reset ?_
    show s₂.gpu.cluster.dispatcher.core_reset i = true
    rw [hs₂, hdispatcher 1 (by omega)]
    rfl
  · rw [hdispatcher 2 (by omega)]
    rfl

/-- A reset does not free the GPU. -/
theorem Starts.stuck (h : s.Starts life) : Stuck s := by
  rcases h with rfl | ⟨ports, s₀, hr, rfl⟩
  · exact stuck_powerUp
  · exact stuck_of_reset hr s₀

/-- Every run of the GPU is stuck. -/
theorem Starts.stuck_run (h : s.Starts life) (ports : ℕ → GpuPorts M P) (n : ℕ) :
    Stuck (Clocked.run (wiredGpuStep life) ports s n) := by
  induction n with
  | zero => exact h.stuck
  | succ n ih => exact ih.step

/-- A kernel with blocks is not done. -/
structure Unfinished (s : WiredGpu N W T M P) : Prop where
  /-- A kernel that has been started has blocks. -/
  config : s.gpu.cluster.start_execution = true →
    s.gpu.cluster.kernel_config_reg.num_blocks ≠ 0
  /-- `execution_done` is low. -/
  not_done : s.execution_done = false

omit [NeZero N] [NeZero W] in
/-- A GPU that is not started has not finished. -/
theorem unfinished_of_not_started (h : s.gpu.cluster.start_execution = false)
    (hdone : s.execution_done = false) : Unfinished s :=
  ⟨fun hs => absurd (h.symm.trans hs) (by simp), hdone⟩

/-- A reset leaves the kernel unfinished. -/
theorem Starts.unfinished (h : s.Starts life) : Unfinished s := by
  rcases h with rfl | ⟨ports, s₀, hr, rfl⟩
  · exact unfinished_of_not_started rfl rfl
  · obtain ⟨s₂, hs₂⟩ : ∃ s₂, s₂ = Clocked.run (wiredGpuStep life) ports s₀ 2 := ⟨_, rfl⟩
    have hrun : Clocked.run (wiredGpuStep life) ports s₀ 3 = wiredGpuStep life (ports 2) s₂ := by
      rw [hs₂]
      rfl
    rw [hrun]
    refine unfinished_of_not_started (if_pos (hr 2 (by omega))) ?_
    show (dispatcherStep _ _).done = false
    rw [Dispatcher.step_reset (hr 2 (by omega))]
    rfl

/-- A stuck GPU does not finish its kernel. -/
theorem Unfinished.step (h : Unfinished s) (hstuck : Stuck s)
    (hblocks : ports.kernel_config.num_blocks ≠ 0) : Unfinished (wiredGpuStep life ports s) := by
  rcases hr : ports.reset with _ | _
  · constructor
    · intro hs
      have hs : (if ports.reset then false
          else if ports.execution_start && !s.gpu.cluster.start_execution then true
          else s.gpu.cluster.start_execution) = true := hs
      show (if ports.reset then s.gpu.cluster.kernel_config_reg
        else if ports.execution_start && !s.gpu.cluster.start_execution then ports.kernel_config
        else s.gpu.cluster.kernel_config_reg).num_blocks ≠ 0
      rw [hr, if_neg (by simp)] at hs ⊢
      split_ifs at hs ⊢
      · exact hblocks
      · exact h.config hs
    · rw [hstuck.execution_done_step hr, if_neg fun hzero => h.config hzero.1 hzero.2.symm]
      exact h.not_done
  · refine unfinished_of_not_started (if_pos hr) ?_
    show (dispatcherStep _ _).done = false
    rw [Dispatcher.step_reset hr]
    rfl

end WiredGpu

open WiredGpu in
/-- The GPU as it is wired, from a reset or from the zeros that the simulator starts with. If every
kernel that it is given has a block, then, whatever its memories answer and however often it is
reset or started, `execution_done` is low between any two edges, no channel asks the data memory for
anything, and every warp of every core is idle or fetching. -/
theorem wired_gpu_hangs {N W T M P : ℕ} [NeZero N] [NeZero W] (life : Lifetime)
    {s : WiredGpu N W T M P} (h₀ : s.Starts life) {ports : ℕ → GpuPorts M P}
    (hblocks : ∀ n, (ports n).kernel_config.num_blocks ≠ 0) (n : ℕ) :
    (Clocked.run (wiredGpuStep life) ports s n).execution_done = false ∧
      (∀ κ k, (Clocked.run (wiredGpuStep life) ports s n).gpu.data_memory_controller.memValid κ k =
        false) ∧
      ∀ i w, ((Clocked.run (wiredGpuStep life) ports s n).core i).core.warp_state w = .idle ∨
        ((Clocked.run (wiredGpuStep life) ports s n).core i).core.warp_state w = .fetch := by
  have hstuck := h₀.stuck_run ports n
  have hunfinished : Unfinished (Clocked.run (wiredGpuStep life) ports s n) := by
    induction n with
    | zero => exact h₀.unfinished
    | succ n ih => exact (ih (h₀.stuck_run ports n)).step (h₀.stuck_run ports n) (hblocks n)
  refine ⟨hunfinished.not_done, fun κ k => ?_, fun i w => (hstuck.hung i).not_fetched w⟩
  rw [hstuck.controller]
  cases κ with
  | read => rfl
  | write => rfl

/-- Ports with a kernel of one block started and all memories answering at once, the instruction
memory with a halt. -/
def WiredGpu.answeringPorts (M P : ℕ) : GpuPorts M P where
  reset := false
  execution_start := true
  kernel_config := ⟨0, 0, 1, 1⟩
  instruction_mem_read_ready := fun _ => true
  instruction_mem_read_data := fun _ => 127
  data_mem_read_ready := fun _ => true
  data_mem_read_data := fun _ => 0
  data_mem_write_ready := fun _ => true

open WiredGpu in
/-- A GPU of two cores of one warp and one thread, on a kernel that halts at once. -/
theorem wired_gpu_hangs_halt :
    (Clocked.run (wiredGpuStep .automatic) (fun _ => answeringPorts 1 1)
        (powerUp : WiredGpu 2 1 1 1 1) 50).execution_done = false ∧
      (∀ κ k, (Clocked.run (wiredGpuStep .automatic) (fun _ => answeringPorts 1 1)
        (powerUp : WiredGpu 2 1 1 1 1) 50).gpu.data_memory_controller.memValid κ k = false) ∧
      ∀ i w, ((Clocked.run (wiredGpuStep .automatic) (fun _ => answeringPorts 1 1)
          (powerUp : WiredGpu 2 1 1 1 1) 50).core i).core.warp_state w = .idle ∨
        ((Clocked.run (wiredGpuStep .automatic) (fun _ => answeringPorts 1 1)
          (powerUp : WiredGpu 2 1 1 1 1) 50).core i).core.warp_state w = .fetch :=
  wired_gpu_hangs .automatic (.inl rfl) (fun _ => by decide) 50

end SmolGpu
