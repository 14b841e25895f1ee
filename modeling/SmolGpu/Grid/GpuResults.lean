import SmolGpu.Grid.PowerUp
import SmolGpu.Grid.Refinement

/-!
# What the GPU computes

A run of the GPU with its data memory is, edge by edge, a run of the cluster with its memories
(`refines_run`), in which the memory controller and the registers around it are part of the timing.
So what holds of every timing of the cluster holds of the GPU: when the dispatcher is done, the
memory is what the grid makes of the one at the start. It makes no difference how many cores and
memory channels there are, how long memory takes and which of the channels it answers first.
-/

namespace SmolGpu

open SharedMemory (Access)

namespace Gpu

variable {N W T M : ℕ} [NeZero N] [NeZero W]

/-- Where a run starts: with all registers zero, or after three edges with reset high. -/
def Starts (life : Lifetime) (g : Gpu N W T M) : Prop :=
  g = powerUp ∨ ∃ (inp : ℕ → GpuIn N W M) (g₀ : Gpu N W T M),
    (∀ k < 3, (inp k).reset = true) ∧ g = Clocked.run (gpuStep life) inp g₀ 3

variable {life : Lifetime} {g : Gpu N W T M}

/-- A GPU that starts with a reset is settled. -/
theorem Starts.settled (h : Starts life g) : Settled g := by
  rcases h with rfl | ⟨inp, g₀, hr, rfl⟩
  · exact settled_powerUp
  · exact settled_of_reset hr

/-- The cluster starts as one does on its own. -/
theorem Starts.cluster (h : Starts life g) :
    g.cluster = .powerUp ∨ ClusterSystem.Starts life g.cluster := by
  have hsettled := h.settled
  rcases h with rfl | ⟨inp, g₀, hr, hg⟩
  · exact .inl rfl
  · obtain ⟨g₂, hg₂⟩ : ∃ g₂, g₂ = Clocked.run (gpuStep life) inp g₀ 2 := ⟨_, rfl⟩
    have hlast : g.cluster = clusterStep life (clusterIn (inp 2) g₂) g₂.cluster := by
      rw [hg, hg₂]
      rfl
    refine .inr ⟨⟨clusterIn (inp 2) g₂, g₂.cluster, hr 2 (by omega), hlast⟩, fun i l => ?_⟩
    exact (hsettled.guarded.core i).access_eq_none (by rw [hsettled.idle]; decide)

end Gpu

namespace GpuSystem

variable {N W T M : ℕ} [NeZero N] [NeZero W] {G : Grid} {g : GpuSystem N W T M}

/-- The GPU of a run runs as it does on its own. -/
theorem isRun (h : Gpu.Settled g.gpu) (life : Lifetime) (G : Grid) (t : ℕ → GpuTiming N W M) :
    Gpu.IsRun life (fun n => gpuIn G (t n) (run life G t g n)) fun n => (run life G t g n).gpu :=
  ⟨h, fun _ => rfl, fun _ => rfl⟩

/-- The timing of a run as the cluster sees it. -/
def clusterTimings (life : Lifetime) (G : Grid) (t : ℕ → GpuTiming N W M) (g : GpuSystem N W T M)
    (n : ℕ) : ClusterTiming N W T :=
  clusterTiming G (t n) (run life G t g n)

omit [NeZero W] in
/-- Nothing is on its way in a GPU that is settled. -/
theorem refines_of_settled (h : Gpu.Settled g.gpu) :
    Refines g (ClusterSystem.init g.gpu.cluster g.mem) :=
  ⟨rfl, rfl, fun i l => ⟨.quiet, h.laneIs i l, rfl⟩⟩

/-- A run of the GPU is a run of the cluster with its memories. -/
theorem refines_run (h : Gpu.Settled g.gpu) (life : Lifetime) (G : Grid) (t : ℕ → GpuTiming N W M)
    (n : ℕ) : Refines (run life G t g n) (ClusterSystem.run life G (clusterTimings life G t g)
      (ClusterSystem.init g.gpu.cluster g.mem) n) := by
  have hrun := isRun h life G t
  induction n with
  | zero => exact refines_of_settled h
  | succ n ih => exact ih.step life G (t n) (hrun.guarded n) (hrun.owned n)

/-- What a channel asks memory for is an access that the grid makes. -/
theorem makes_of_access {life : Lifetime} {g : Gpu N W T M} {mem₀ : DataMemoryAddressT → DataT}
    (h₀ : g.Starts life) (t : ℕ → GpuTiming N W M) (hrace : G.RaceFree mem₀ W T)
    (hsx : G.FullMaskSx mem₀ W T) {n : ℕ} {k : Fin M} {e : Access DataMemoryAddressT DataT}
    (he : (run life G t ⟨g, mem₀⟩ n).gpu.data_memory_controller.access k = some e) :
    ∃ x : Agent W T, G.Makes mem₀ x e := by
  have href := refines_run (g := ⟨g, mem₀⟩) h₀.settled life G t n
  have hpending := href.pending ((isRun (g := ⟨g, mem₀⟩) h₀.settled life G t).owned n) he
  have hmade {c : Cluster N W T} (hc : ClusterSystem.Starts life c) (t' : ℕ → ClusterTiming N W T)
      (m : ℕ) {x : Fin N × Fin (T + 1)}
      (hx : (ClusterSystem.run life G t' (.init c mem₀) m).pending x = some e) :
      ∃ x : Agent W T, G.Makes mem₀ x e :=
    ⟨_, (ClusterSystem.Runs.run hc t' hrace hsx m).makes_of_pending
      ((ClusterSystem.isRun hc G t' mem₀).jobs m) hx⟩
  rcases h₀.cluster with hzero | hstarts
  · rw [hzero] at hpending
    rcases ClusterSystem.run_powerUp_cases life G mem₀ (clusterTimings life G t ⟨g, mem₀⟩) n with
      ⟨c, hrun, hc, -⟩ | ⟨c, t', m, hc, hrun⟩
    · -- The cores have not been started.
      rw [hrun] at hpending
      have haccess := ClusterSystem.access_of_pending hpending
      exact absurd (haccess.symm.trans (hc.access _ _)) (by simp)
    · rw [hrun] at hpending
      exact hmade hc t' m hpending
  · exact hmade hstarts _ n hpending

/-- When the dispatcher is done, the memory is what the grid makes of it. -/
theorem computes_of_done {life : Lifetime} {g : Gpu N W T M} {mem₀ : DataMemoryAddressT → DataT}
    (h₀ : g.Starts life) (t : ℕ → GpuTiming N W M) (hrace : G.RaceFree mem₀ W T)
    (hsx : G.FullMaskSx mem₀ W T) {n : ℕ}
    (hdone : (run life G t ⟨g, mem₀⟩ n).gpu.cluster.dispatcher.done = true) :
    G.Computes mem₀ W T (run life G t ⟨g, mem₀⟩ n).mem := by
  have href := refines_run (g := ⟨g, mem₀⟩) h₀.settled life G t n
  rw [← href.cluster] at hdone
  rw [← href.mem]
  rcases h₀.cluster with hzero | hstarts
  · rw [hzero] at hdone ⊢
    exact ClusterSystem.computes_of_done_powerUp _ hrace hsx hdone
  · exact ClusterSystem.computes_of_done hstarts _ hrace hsx hdone

/-- The example timing: memory answers every channel at every second edge. -/
def alternating (N M n : ℕ) : GpuTiming N 1 M where
  execution_start := true
  fetcher_state_in := fun _ _ => .done
  fetched_instruction := fun _ _ => 0
  serve := if 2 ∣ n then List.finRange M else []
  data_mem_read_ready := fun _ => false
  data_mem_read_data := fun _ => 0
  data_mem_write_ready := fun _ => false

/-- A GPU after three edges with reset high. -/
def scatterReset (N M : ℕ) [NeZero N] : Gpu N 1 1 M :=
  Clocked.run (gpuStep .automatic) (fun n =>
    { gpuIn ClusterSystem.scatter (alternating N M n) ⟨(Gpu.powerUp : Gpu N 1 1 M), fun _ => 9⟩ with
      reset := true }) Gpu.powerUp 3

/-- The example's GPU starts with a reset. -/
theorem scatterReset_starts (N M : ℕ) [NeZero N] : (scatterReset N M).Starts .automatic :=
  .inr ⟨_, _, fun _ _ => rfl, rfl⟩

end GpuSystem

open GpuSystem in
/-- Two GPUs that run one kernel, each from a reset or from the zeros that the simulator starts
with, until `execution_done`: they may have different numbers of cores and of data memory channels,
and memories that answer at different times and in different orders. If the lanes of the kernel do
not race and no thread is masked off for an `sx`, both leave the memory that the grid makes of the
one at the start. -/
theorem gpu_computes_kernel {N N' W T M M' : ℕ} [NeZero N] [NeZero N'] [NeZero W]
    (life life' : Lifetime) (G : Grid) (mem₀ : DataMemoryAddressT → DataT)
    (hrace : G.RaceFree mem₀ W T) (hsx : G.FullMaskSx mem₀ W T) {g : Gpu N W T M}
    {g' : Gpu N' W T M'} (h₀ : g.Starts life) (h₀' : g'.Starts life') {t : ℕ → GpuTiming N W M}
    {t' : ℕ → GpuTiming N' W M'} {n n' : ℕ}
    (hdone : (run life G t ⟨g, mem₀⟩ n).gpu.cluster.dispatcher.done = true)
    (hdone' : (run life' G t' ⟨g', mem₀⟩ n').gpu.cluster.dispatcher.done = true) :
    G.Computes mem₀ W T (run life G t ⟨g, mem₀⟩ n).mem ∧
      (run life G t ⟨g, mem₀⟩ n).mem = (run life' G t' ⟨g', mem₀⟩ n').mem := by
  have hcomputes := computes_of_done h₀ t hrace hsx hdone
  exact ⟨hcomputes, hcomputes.unique (computes_of_done h₀' t' hrace hsx hdone')⟩

open GpuSystem in
/-- The example grid on a GPU of two cores and one memory channel as the simulator starts it, and on
one of one core and two channels after a reset. -/
theorem gpu_computes_kernel_scatter :
    ClusterSystem.scatter.Computes (fun _ => 9) 1 1 (run .automatic ClusterSystem.scatter
        (alternating 2 1) ⟨(Gpu.powerUp : Gpu 2 1 1 1), fun _ => 9⟩ 60).mem ∧
      (run .automatic ClusterSystem.scatter (alternating 2 1)
          ⟨(Gpu.powerUp : Gpu 2 1 1 1), fun _ => 9⟩ 60).mem =
        (run .automatic ClusterSystem.scatter (alternating 1 2)
          ⟨scatterReset 1 2, fun _ => 9⟩ 80).mem :=
  gpu_computes_kernel .automatic .automatic ClusterSystem.scatter (fun _ => 9)
    ClusterSystem.scatter_raceFree ClusterSystem.scatter_fullMaskSx (.inl rfl)
    (scatterReset_starts 1 2) (by decide +kernel) (by decide +kernel)

end SmolGpu
