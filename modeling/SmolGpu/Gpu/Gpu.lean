import SmolGpu.ComputeCore.Lane
import SmolGpu.Dispatcher.Cluster
import Mathlib.Logic.Equiv.Fin.Basic

/-!
# The GPU and its data memory

`src/gpu.sv` around the cluster: the data memory controller, and between it and the LSUs the
registers of `g_lsu_connect`, which delay both directions by a cycle. The fetchers and the program
memory stay inputs, so that what is proved here holds for any programs and any timing of their
words. The registers of `g_lsu_connect` have no reset.

`Settled` is the state that a run starts from. Three edges with reset high lead to it from anywhere
(`settled_of_reset`), and the registers are in it when the simulator starts (`settled_powerUp`).
`Guarded` is what the dispatcher makes of it for the lanes: a core is reset only when none of its
lanes is at work.
-/

namespace SmolGpu

/-- The inputs of the GPU at an edge, and what its fetchers hold. `M` is `DATA_MEM_NUM_CHANNELS`. -/
structure GpuIn (N W M : ℕ) where
  reset : Bool
  execution_start : Bool
  kernel_config : KernelConfig
  fetcher_state_in : Fin N → Fin W → FetcherState
  fetched_instruction : Fin N → Fin W → InstructionT
  data_mem_read_ready : Fin M → Bool
  data_mem_read_data : Fin M → DataT
  data_mem_write_ready : Fin M → Bool

/-- The registers of the GPU. -/
structure Gpu (N W T M : ℕ) where
  cluster : Cluster N W T
  lsu_read_valid : Fin (N * (T + 1)) → Bool
  lsu_read_address : Fin (N * (T + 1)) → DataMemoryAddressT
  lsu_write_valid : Fin (N * (T + 1)) → Bool
  lsu_write_address : Fin (N * (T + 1)) → DataMemoryAddressT
  lsu_write_data : Fin (N * (T + 1)) → DataT
  core_lsu_read_ready : Fin N → Fin (T + 1) → Bool
  core_lsu_read_data : Fin N → Fin (T + 1) → DataT
  core_lsu_write_ready : Fin N → Fin (T + 1) → Bool
  data_memory_controller : MemController (N * (T + 1)) M 32 32

namespace Gpu

variable {N W T M : ℕ}

/-- `lsu_index = i * NUM_LSUS_PER_CORE + j`. -/
def lsuIndex (i : Fin N) (j : Fin (T + 1)) : Fin (N * (T + 1)) := finProdFinEquiv (i, j)

/-- The number is that of the source. -/
theorem lsuIndex_val (i : Fin N) (j : Fin (T + 1)) :
    (lsuIndex i j : ℕ) = i * (T + 1) + j := by
  show (j : ℕ) + (T + 1) * i = i * (T + 1) + j
  rw [Nat.add_comm, Nat.mul_comm]

/-- The LSU with a given number. -/
def lsu (s : Gpu N W T M) (x : Fin (N * (T + 1))) : Lsu :=
  (s.cluster.core (finProdFinEquiv.symm x).1).lsu (finProdFinEquiv.symm x).2

/-- The LSU with the number of a core's lane is the lane's. -/
@[simp] theorem lsu_lsuIndex (s : Gpu N W T M) (i : Fin N) (j : Fin (T + 1)) :
    s.lsu (lsuIndex i j) = (s.cluster.core i).lsu j := by
  simp [lsu, lsuIndex]

/-- The inputs of the cluster. -/
def clusterIn (inp : GpuIn N W M) (s : Gpu N W T M) : ClusterIn N W T where
  reset := inp.reset
  execution_start := inp.execution_start
  kernel_config := inp.kernel_config
  env := fun i =>
    { fetcher_state_in := inp.fetcher_state_in i
      fetched_instruction := inp.fetched_instruction i
      data_mem_read_ready := s.core_lsu_read_ready i
      data_mem_read_data := s.core_lsu_read_data i
      data_mem_write_ready := s.core_lsu_write_ready i }

/-- The inputs of the data memory controller. -/
def controllerIn (inp : GpuIn N W M) (s : Gpu N W T M) :
    MemControllerIn (N * (T + 1)) M 32 32 where
  reset := inp.reset
  consumer_read_valid := s.lsu_read_valid
  consumer_read_address := s.lsu_read_address
  consumer_write_valid := s.lsu_write_valid
  consumer_write_address := s.lsu_write_address
  consumer_write_data := s.lsu_write_data
  mem_read_ready := inp.data_mem_read_ready
  mem_read_data := inp.data_mem_read_data
  mem_write_ready := inp.data_mem_write_ready

end Gpu

open Gpu in
/-- One clock edge of the GPU. -/
def gpuStep {N W T M : ℕ} [NeZero N] [NeZero W] (life : Lifetime) (inp : GpuIn N W M)
    (s : Gpu N W T M) : Gpu N W T M where
  cluster := clusterStep life (clusterIn inp s) s.cluster
  lsu_read_valid := fun x => (s.lsu x).mem_read_valid
  lsu_read_address := fun x => (s.lsu x).mem_read_address
  lsu_write_valid := fun x => (s.lsu x).mem_write_valid
  lsu_write_address := fun x => (s.lsu x).mem_write_address
  lsu_write_data := fun x => (s.lsu x).mem_write_data
  core_lsu_read_ready := fun i j => s.data_memory_controller.consumer_read_ready (lsuIndex i j)
  core_lsu_read_data := fun i j => s.data_memory_controller.consumer_read_data (lsuIndex i j)
  core_lsu_write_ready := fun i j => s.data_memory_controller.consumer_write_ready (lsuIndex i j)
  data_memory_controller :=
    memControllerStep true (controllerIn inp s) s.data_memory_controller

namespace Gpu

variable {N W T M : ℕ} [NeZero N] [NeZero W] {life : Lifetime} {inp : GpuIn N W M}
  {s : Gpu N W T M}

/-- The registers when the simulator starts: all zero. -/
def powerUp : Gpu N W T M where
  cluster := Cluster.powerUp
  lsu_read_valid := fun _ => false
  lsu_read_address := fun _ => 0
  lsu_write_valid := fun _ => false
  lsu_write_address := fun _ => 0
  lsu_write_data := fun _ => 0
  core_lsu_read_ready := fun _ _ => false
  core_lsu_read_data := fun _ _ => 0
  core_lsu_write_ready := fun _ _ => false
  data_memory_controller := MemController.resetState

/-! ## The dispatcher and the lanes -/

/-- A core is reset only when none of its lanes is at work. -/
structure Guarded (s : Cluster N W T) : Prop where
  /-- The invariant of every core. -/
  core : ∀ i, ComputeCore.Invariant (s.core i)
  /-- A core is done only with its warps. -/
  done : ∀ i, ComputeCore.DoneOk (s.core i)
  /-- Before the dispatcher starts, no core has started. -/
  not_started : s.dispatcher.start_execution = false → ∀ i, s.dispatcher.core_start i = false ∧
    (s.core i).start_execution = false
  /-- A core that is being reset has idle LSUs, and no warp about to ask. -/
  reset : ∀ i, s.dispatcher.core_reset i = true → (∀ l, ((s.core i).lsu l).lsu_state = .idle) ∧
    (s.core i).current_warp_state ≠ .request

/-- A core none of whose warps is at work does not begin anything at the edge. -/
theorem quiet_step {c : ComputeCore W T} {inp : CoreIn W T} (hi : ComputeCore.Invariant c)
    (hr : inp.reset = false)
    (h : c.start_execution = false ∨ c.start_execution = true ∧ ∀ w, c.warp_state w = .done) :
    (∀ l, ((coreStep life inp c).lsu l).lsu_state = .idle) ∧
      (coreStep life inp c).current_warp_state ≠ .request := by
  rcases h with hs | ⟨hs, hdone⟩
  · -- A core that has not started sends its warps to fetch, at the most.
    have hidle := hi.not_started hs
    have hcur : c.current_warp_state = .idle := hidle _
    refine ⟨fun l => ComputeCore.step_lsu_idle hr (hi.idle_of_parked (.inl hcur) l)
      (by simp [hcur]), ?_⟩
    rcases hst : inp.start with _ | _
    · have hkeep : c.alwaysBlock life inp = c := ComputeCore.step_not_started hr hs hst
      show (c.alwaysBlock life inp).current_warp_state ≠ .request
      rw [hkeep, hcur]
      decide
    · show (c.alwaysBlock life inp).current_warp_state ≠ .request
      rw [ComputeCore.step_start hr hs hst]
      simp [ComputeCore.current_warp_state]
  · have hcur : c.current_warp_state = .done := hdone _
    have hrun : ComputeCore.Running inp c := ⟨hr, hs⟩
    refine ⟨fun l => ComputeCore.step_lsu_idle hr
      (hi.idle_of_parked (.inr (.inr (.inr hcur))) l) (by simp [hcur]), ?_⟩
    unfold ComputeCore.current_warp_state
    rw [ComputeCore.step_warp_state hrun]
    split_ifs
    · simp [ComputeCore.currentNext, hcur]
    · simp [ComputeCore.fetched, hdone]

omit [NeZero N] in
/-- A clock edge without a reset keeps the guard. -/
theorem Guarded.step {inp : ClusterIn N W T} {s : Cluster N W T} (h : Guarded s)
    (hr : inp.reset = false) : Guarded (clusterStep life inp s) := by
  have hcore (i : Fin N) : ComputeCore.Invariant ((clusterStep life inp s).core i) :=
    (h.core i).step
  refine ⟨hcore, fun i => ComputeCore.DoneOk.step (.inl (h.done i)), ?_, ?_⟩
  · -- A core is started by the dispatcher only.
    intro hns i
    have hsame : dispatcherStep (Cluster.dispatcherIn inp s) s.dispatcher = s.dispatcher :=
      Dispatcher.step_of_not_started hr hns
    have hns' : s.dispatcher.start_execution = false := hsame ▸ hns
    obtain ⟨hstart, hex⟩ := h.not_started hns' i
    refine ⟨(congrFun (congrArg Dispatcher.core_start hsame) i).trans hstart, ?_⟩
    show (coreStep life (Cluster.coreIn inp s i) (s.core i)).start_execution = false
    rcases hri : s.dispatcher.core_reset i with _ | _
    · have hkeep : (s.core i).alwaysBlock life (Cluster.coreIn inp s i) = s.core i :=
        ComputeCore.step_not_started hri hex hstart
      show ((s.core i).alwaysBlock life (Cluster.coreIn inp s i)).start_execution = false
      rw [hkeep, hex]
    · exact (ComputeCore.step_reset hri).1
  · intro i hi
    show (∀ l, ((coreStep life (Cluster.coreIn inp s i) (s.core i)).lsu l).lsu_state = .idle) ∧
      (coreStep life (Cluster.coreIn inp s i) (s.core i)).current_warp_state ≠ .request
    rcases hri : s.dispatcher.core_reset i with _ | _
    · have hquiet : (s.core i).start_execution = false ∨ (s.core i).start_execution = true ∧
          ∀ w, (s.core i).warp_state w = .done := by
        have hr' : (Cluster.dispatcherIn inp s).reset = false := hr
        rcases Dispatcher.core_reset_step hr' hi with h' | h' | h'
        · exact absurd (hri.symm.trans h') (by simp)
        · -- The dispatcher has seen the core's `done`.
          simp only [Dispatcher.Finishing, Bool.and_eq_true] at h'
          have hdone : (s.core i).done = true := h'.2
          rcases hs : (s.core i).start_execution with _ | _
          · exact .inl rfl
          · exact .inr ⟨rfl, (h.done i).warps hdone⟩
        · exact .inl (h.not_started h' i).2
      exact quiet_step (h.core i) hri hquiet
    · have hidle (w : Fin W) :
          (coreStep life (Cluster.coreIn inp s i) (s.core i)).warp_state w = .idle :=
        (ComputeCore.step_reset hri).2.2.2 w
      refine ⟨fun l => ?_, ?_⟩
      · rw [ComputeCore.step_reset_lsu hri]
        rfl
      · unfold ComputeCore.current_warp_state
        rw [hidle]
        decide

/-! ## Where a run starts -/

/-- Nothing is under way: no core has started, and no request or answer is on its way. -/
structure Settled (s : Gpu N W T M) : Prop where
  /-- The cluster is guarded. -/
  guarded : Guarded s.cluster
  /-- The LSUs are idle. -/
  idle : ∀ i l, ((s.cluster.core i).lsu l).lsu_state = .idle
  /-- No request is on its way to the controller. -/
  requests : ∀ x, s.lsu_read_valid x = false ∧ s.lsu_write_valid x = false
  /-- No answer is on its way from it. -/
  answers : ∀ i l, s.core_lsu_read_ready i l = false ∧ s.core_lsu_write_ready i l = false
  /-- The controller has been reset. -/
  controller : s.data_memory_controller = MemController.resetState

/-- Three edges with reset high settle the GPU, whatever its registers held: the first resets the
dispatcher, the second the cores, and the third empties the registers in front of the controller. -/
theorem settled_of_reset {inp : ℕ → GpuIn N W M} (hr : ∀ k < 3, (inp k).reset = true) :
    Settled (Clocked.run (gpuStep life) inp s 3) := by
  set s₁ := gpuStep life (inp 0) s with hs₁
  set s₂ := gpuStep life (inp 1) s₁ with hs₂
  set s₃ := gpuStep life (inp 2) s₂ with hs₃
  show Settled s₃
  -- At every one of the edges the dispatcher and the controller are reset.
  have hcontroller (k : ℕ) (hk : k < 3) (t : Gpu N W T M) :
      (gpuStep life (inp k) t).data_memory_controller = MemController.resetState := by
    show memControllerStep true (controllerIn (inp k) t) t.data_memory_controller = _
    unfold memControllerStep
    rw [if_pos (show (controllerIn (inp k) t).reset = true from hr k hk)]
  have hdispatcher (k : ℕ) (hk : k < 3) (t : Gpu N W T M) :
      (gpuStep life (inp k) t).cluster.dispatcher = Dispatcher.resetState :=
    Dispatcher.step_reset (show (Cluster.dispatcherIn (clusterIn (inp k) t) t.cluster).reset = true
      from hr k hk)
  -- A core is reset one edge after the dispatcher.
  have hcore (k : ℕ) (t : Gpu N W T M) (ht : t.cluster.dispatcher = Dispatcher.resetState)
      (i : Fin N) : (Cluster.coreIn (clusterIn (inp k) t) t.cluster i).reset = true := by
    show t.cluster.dispatcher.core_reset i = true
    rw [ht]
    rfl
  have hd₁ := hdispatcher 0 (by omega) s
  have hd₂ := hdispatcher 1 (by omega) s₁
  -- With it, its LSUs drop their requests.
  have hlsu (k : ℕ) (t : Gpu N W T M) (ht : t.cluster.dispatcher = Dispatcher.resetState)
      (i : Fin N) (l : Fin (T + 1)) :
      ((gpuStep life (inp k) t).cluster.core i).lsu l = Lsu.resetState :=
    ComputeCore.step_reset_lsu (hcore k t ht i) l
  refine ⟨⟨fun i => .of_reset (hcore 2 s₂ hd₂ i), fun i => .step (.inr (hcore 2 s₂ hd₂ i)), ?_, ?_⟩,
    ?_, ?_, ?_, hcontroller 2 (by omega) s₂⟩
  · -- After the third edge no core has been started,
    intro _ i
    refine ⟨?_, (ComputeCore.step_reset (hcore 2 s₂ hd₂ i)).1⟩
    rw [hs₃, hdispatcher 2 (by omega) s₂]
    rfl
  · -- a core that is being reset is quiet,
    intro i _
    refine ⟨fun l => ?_, ?_⟩
    · rw [hs₃, hlsu 2 s₂ hd₂]
      rfl
    · unfold ComputeCore.current_warp_state
      have hidle (w : Fin W) : (coreStep life (Cluster.coreIn (clusterIn (inp 2) s₂) s₂.cluster i)
          (s₂.cluster.core i)).warp_state w = .idle :=
        (ComputeCore.step_reset (hcore 2 s₂ hd₂ i)).2.2.2 w
      show (coreStep life (Cluster.coreIn (clusterIn (inp 2) s₂) s₂.cluster i)
        (s₂.cluster.core i)).warp_state _ ≠ .request
      rw [hidle]
      decide
  · -- all LSUs are idle,
    intro i l
    rw [hs₃, hlsu 2 s₂ hd₂]
    rfl
  · -- the registers in front of the controller hold what the LSUs asked for at the third edge,
    -- which is nothing,
    intro x
    have hx : s₂.lsu x = Lsu.resetState := hlsu 1 s₁ hd₁ _ _
    show (s₂.lsu x).mem_read_valid = false ∧ (s₂.lsu x).mem_write_valid = false
    rw [hx]
    exact ⟨rfl, rfl⟩
  · -- and those behind it hold the controller's answers, which it has taken back.
    intro i l
    show s₂.data_memory_controller.consumer_read_ready (lsuIndex i l) = false ∧
      s₂.data_memory_controller.consumer_write_ready (lsuIndex i l) = false
    rw [hs₂, hcontroller 1 (by omega) s₁]
    exact ⟨rfl, rfl⟩

/-- The simulator starts with nothing under way, and needs no reset. -/
theorem settled_powerUp : Settled (powerUp : Gpu N W T M) := by
  have hidle (l : Fin (T + 1)) : ((ComputeCore.powerUp : ComputeCore W T).lsu l).lsu_state =
      .idle := rfl
  have hcore : ComputeCore.Invariant (ComputeCore.powerUp : ComputeCore W T) := by
    constructor
    · exact fun _ _ => rfl
    · exact fun _ _ => .inl rfl
    · intro w
      simp [ComputeCore.powerUp, Decoded.default]
    · exact fun l => .of_parked (.inl rfl) (hidle l)
    · intro l
      constructor <;> simp [ComputeCore.powerUp, Lsu.resetState]
  refine ⟨⟨fun _ => hcore, fun _ => .of_not_done rfl, fun _ _ => ⟨rfl, rfl⟩, ?_⟩,
    fun _ l => hidle l, fun _ => ⟨rfl, rfl⟩, fun _ _ => ⟨rfl, rfl⟩, rfl⟩
  intro i hi
  cases hi

end Gpu

end SmolGpu
