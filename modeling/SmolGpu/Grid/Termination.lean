import SmolGpu.ComputeCore.Progress
import SmolGpu.Gpu.Progress
import SmolGpu.Grid.GpuResults

/-!
# Every kernel that stops is computed

A kernel whose warps all stop on their own, and whose lanes do not race, is computed by the GPU in
the end, if fetchers and memory answer again and again. A core that were kept started for ever would
run one block for ever, and begin no more instructions after as many as its warps execute on their
own; then its LSUs would come to rest, and the core would be done. So every core is done with each
of its blocks, and the dispatcher hands out all of them.

The host does not learn of it for certain: `execution_done` rises only if the dispatcher never sees
two cores finish at one edge, and otherwise stays low for ever.
-/

namespace SmolGpu

open Filter

namespace ClusterSystem

variable {N W T : ℕ} [NeZero W] {life : Lifetime} {G : Grid} {mem₀ : DataMemoryAddressT → DataT}
  {c : Cluster N W T} {t : ℕ → ClusterTiming N W T} {i : Fin N}

/-- The inputs of core `i` at edge `n` of a run. -/
def coreInAt (life : Lifetime) (G : Grid) (t : ℕ → ClusterTiming N W T) (s : ClusterSystem N W T)
    (i : Fin N) (n : ℕ) : CoreIn W T :=
  Cluster.coreIn (clusterIn G (t n) ((run life G t s n).serve (t n))) (run life G t s n).cluster i

/-- A core of the grid takes the steps of a core on its own inputs. -/
theorem run_core (life : Lifetime) (G : Grid) (t : ℕ → ClusterTiming N W T)
    (s : ClusterSystem N W T) (i : Fin N) (n : ℕ) : (run life G t s (n + 1)).cluster.core i =
      coreStep life (coreInAt life G t s i n) ((run life G t s n).cluster.core i) := by
  have hcluster : (run life G t s (n + 1)).cluster =
      clusterStep life (clusterIn G (t n) ((run life G t s n).serve (t n)))
        ((run life G t s n).serve (t n)).cluster := rfl
  rw [hcluster, serve_cluster]
  rfl

/-- The execution has started after the edge at which it is started. -/
theorem start_execution_of_start {s : ClusterSystem N W T} {m n : ℕ}
    (hm : (t m).execution_start = true) (hmn : m < n) :
    (run life G t s n).cluster.start_execution = true := by
  induction n, hmn using Nat.le_induction with
  | base => exact Cluster.step_start_execution rfl (.inl hm)
  | succ n _ ih =>
    refine Cluster.step_start_execution rfl (.inr ?_)
    rw [serve_cluster]
    exact ih

/-- After the start of a core none of its warps is idle. -/
theorem awake (h₀ : Starts life c) (G : Grid) (mem₀ : DataMemoryAddressT → DataT)
    (t : ℕ → ClusterTiming N W T) (i : Fin N) (n : ℕ) :
    ComputeCore.Awake ((run life G t (init c mem₀) n).cluster.core i) ∨
      (run life G t (init c mem₀) n).cluster.dispatcher.core_reset i = true := by
  induction n with
  | zero => exact .inr ((isRun h₀ G t mem₀).core_reset_zero i)
  | succ n ih =>
    rw [run_core]
    refine .inl ?_
    rcases ih with hawake | hr
    · exact hawake.step
    · exact .of_reset hr

/-- A core that is kept started takes all edges as such. -/
theorem employed (h₀ : Starts .automatic c) (t : ℕ → ClusterTiming N W T)
    (hstart : ∀ᶠ n in atTop,
      (run .automatic G t (init c mem₀) n).cluster.dispatcher.core_start i = true) :
    ∀ᶠ n in atTop, ComputeCore.Employed (coreInAt .automatic G t (init c mem₀) i n)
      ((run .automatic G t (init c mem₀) n).cluster.core i)
      ((run .automatic G t (init c mem₀) (n + 1)).cluster.core i) := by
  have hrun := isRun h₀ G t mem₀
  filter_upwards [hstart] with n hn
  have hr := (hrun.kept ⟨hn, rfl⟩).1
  have hno : ¬(run .automatic G t (init c mem₀) n).cluster.dispatcher.core_reset i = true := by
    rw [hr]
    simp
  exact ⟨run_core .automatic G t _ i n, hr, hn,
    .of_reachable ((hrun.core_reachable n i).resolve_right hno),
    (awake h₀ G mem₀ t i n).resolve_right hno⟩

/-- If its warps stop on their own, it begins no more instructions at last. -/
theorem not_decode (h₀ : Starts life c) (t : ℕ → ClusterTiming N W T) (hrace : G.RaceFree mem₀ W T)
    (hsx : G.FullMaskSx mem₀ W T)
    (hstops : ∀ b < G.kernel_config.num_blocks, ∀ w : Fin W, ∃ k, G.Stops mem₀ T b w k)
    (hstart : ∀ᶠ n in atTop,
      (run life G t (init c mem₀) n).cluster.dispatcher.core_start i = true) :
    ∀ᶠ n in atTop,
      ((run life G t (init c mem₀) n).cluster.core i).current_warp_state ≠ .decode := by
  have hrun := isRun h₀ G t mem₀
  obtain ⟨b, hb⟩ := hrun.exists_startedOn hstart
  have hlt : b < G.kernel_config.num_blocks := by
    obtain ⟨n, hn⟩ := hb.exists
    exact (hrun.jobs n).lt_num_blocks hn
  -- The number of instructions that a warp has begun goes up to that of those it executes on its
  -- own.
  have hconst : ∀ᶠ n in atTop, ∀ w : Fin W, (executed life G t (init c mem₀) (n + 1) b w).length =
      (executed life G t (init c mem₀) n b w).length := by
    rw [eventually_all]
    intro w
    obtain ⟨k, hk⟩ := hstops b hlt w
    refine Eventually.const_of_ge (f := fun n => (executed life G t (init c mem₀) n b w).length)
      (B := k) ?_ (.of_forall fun n => ?_)
    · filter_upwards [hb] with n hn
      obtain ⟨_, ht⟩ := (Runs.run h₀ t hrace hsx n).started i b hn
      exact ht.length_begun_le hk
    · show _ ≤ (executed life G t (init c mem₀) n b w ++ _).length
      rw [List.length_append]
      omega
  filter_upwards [hb, hconst] with n hn hsame hdec
  have hsame := hsame ((run life G t (init c mem₀) n).cluster.core i).current_warp
  have hlength : (executed life G t (init c mem₀) (n + 1) b
      ((run life G t (init c mem₀) n).cluster.core i).current_warp).length =
        (executed life G t (init c mem₀) n b _).length +
          ((run life G t (init c mem₀) n).begins G b _).length := List.length_append
  rw [begins_of_startedOn (hrun.jobs n) hn, if_pos ⟨rfl, hdec⟩, List.length_singleton] at hlength
  omega

/-- So the LSUs of all cores begin no more accesses at last. -/
theorem not_requesting (h₀ : Starts .automatic c) (t : ℕ → ClusterTiming N W T)
    (hrace : G.RaceFree mem₀ W T) (hsx : G.FullMaskSx mem₀ W T)
    (hstops : ∀ b < G.kernel_config.num_blocks, ∀ w : Fin W, ∃ k, G.Stops mem₀ T b w k) :
    ∀ᶠ n in atTop, ∀ i l, (((run .automatic G t (init c mem₀) n).cluster.core i).lsu l).lsu_state ≠
      .requesting := by
  have hrun := isRun h₀ G t mem₀
  rw [eventually_all]
  intro i
  refine Eventually.of_succ (P := fun n => ∀ l,
    (((run .automatic G t (init c mem₀) n).cluster.core i).lsu l).lsu_state ≠ .requesting) ?_
  rcases hrun.core_decided i with hstop | hstart
  · filter_upwards [Eventually.succ hstop] with n hn l
    rw [(hrun.quiet_step hn l).1]
    decide
  · have hemployed := employed h₀ t hstart
    have hdec := not_decode h₀ t hrace hsx hstops hstart
    filter_upwards [hemployed, ComputeCore.Employed.not_request hemployed hdec] with n hn hno l hreq
    rw [hn.step] at hreq
    refine hno ((ComputeCore.lsu_edge hn.invariant fun hr => ?_).request hreq)
    exact absurd (hn.reset.symm.trans hr) (by simp)

/-- If the LSUs come to rest, every core is done with its blocks at last. -/
theorem all_stop (h₀ : Starts .automatic c) (t : ℕ → ClusterTiming N W T)
    (hrace : G.RaceFree mem₀ W T) (hsx : G.FullMaskSx mem₀ W T)
    (hstops : ∀ b < G.kernel_config.num_blocks, ∀ w : Fin W, ∃ k, G.Stops mem₀ T b w k)
    (hlsu : ∀ᶠ n in atTop, ∀ i, ¬((run .automatic G t (init c mem₀) n).cluster.core i).LsuBusy)
    (hfetch : ∀ i w, ∃ᶠ n in atTop, ((t n).env i).fetcher_state_in w = .done) (i : Fin N) :
    ∀ᶠ n in atTop,
      (run .automatic G t (init c mem₀) n).cluster.dispatcher.core_start i = false := by
  have hrun := isRun h₀ G t mem₀
  refine (hrun.core_decided i).resolve_right fun hstart => ?_
  have hdone := ComputeCore.Employed.done (employed h₀ t hstart)
    (not_decode h₀ t hrace hsx hstops hstart) (hlsu.mono fun n hn => hn i) (hfetch i)
  obtain ⟨b, hb⟩ := hrun.exists_startedOn hstart
  obtain ⟨n, hn, hn', hfin⟩ := (hb.and ((Eventually.succ hb).and hdone)).exists
  exact hrun.not_startedOn_of_finished ⟨hrun.execution_started hn, hn, hfin⟩ n.lt_succ_self hn'

end ClusterSystem

namespace GpuSystem

variable {N W T M : ℕ}

/-- The execution is started some time, and fetchers and memory answer again and again. -/
structure Fair (t : ℕ → GpuTiming N W M) : Prop where
  /-- The execution is started. -/
  start : ∃ n, (t n).execution_start = true
  /-- Every fetcher reports again and again that it is done. -/
  fetch : ∀ i w, ∃ᶠ n in atTop, (t n).fetcher_state_in i w = .done
  /-- Every channel is answered again and again. -/
  serve : ∀ k, ∃ᶠ n in atTop, k ∈ (t n).serve

/-- Memory is ready for a channel that asks when it is the channel's turn. -/
theorem memReady_of_mem {G : Grid} {t : GpuTiming N W M} {g : GpuSystem N W T M}
    {κ : MemController.Kind} {k : Fin M} (hv : g.gpu.data_memory_controller.memValid κ k = true)
    (hk : k ∈ t.serve) : (gpuIn G t g).memReady κ k = true := by
  cases κ with
  | read => exact (if_pos hv).trans (decide_eq_true hk)
  | write => exact (if_pos hv).trans (decide_eq_true hk)

variable [NeZero N] [NeZero W] {G : Grid} {mem₀ : DataMemoryAddressT → DataT} {g : Gpu N W T M}
  {t : ℕ → GpuTiming N W M}

section Joins

variable {a b : ℕ} {t' : ℕ → ClusterTiming N W T} {c' : Cluster N W T}
  (hj : ClusterSystem.Joins .automatic G mem₀ (clusterTimings .automatic G t ⟨g, mem₀⟩)
    g.cluster a t' c' b)
include hj

/-- The GPU goes on as a cluster that was reset does. -/
theorem run_of_joins (h₀ : g.Starts .automatic) (n : ℕ) :
    (run .automatic G t ⟨g, mem₀⟩ (n + a)).gpu.cluster =
        (ClusterSystem.run .automatic G t' (ClusterSystem.init c' mem₀) (n + b)).cluster ∧
      (run .automatic G t ⟨g, mem₀⟩ (n + a)).mem =
        (ClusterSystem.run .automatic G t' (ClusterSystem.init c' mem₀) (n + b)).mem := by
  have href := refines_run (g := ⟨g, mem₀⟩) h₀.settled .automatic G t (n + a)
  rw [← hj.run n]
  exact ⟨href.cluster.symm, href.mem.symm⟩

/-- Its LSUs come to rest, since memory answers them. -/
theorem not_busy_of_joins (hM : 0 < M) (hrace : G.RaceFree mem₀ W T) (hsx : G.FullMaskSx mem₀ W T)
    (hstops : ∀ b < G.kernel_config.num_blocks, ∀ w : Fin W, ∃ k, G.Stops mem₀ T b w k)
    (h₀ : g.Starts .automatic) (hfair : Fair t) :
    ∀ᶠ n in atTop, ∀ i, ¬((ClusterSystem.run .automatic G t'
      (ClusterSystem.init c' mem₀) n).cluster.core i).LsuBusy := by
  -- No core makes a request any more, so no lane has one for the controller.
  have hquiet : ∀ᶠ n in atTop, ∀ i l,
      ((run .automatic G t ⟨g, mem₀⟩ n).gpu.laneLsu i l).lsu_state ≠ .requesting := by
    rw [← Eventually.shift_iff a]
    have hrequesting := ClusterSystem.not_requesting hj.starts t' hrace hsx hstops
    rw [← Eventually.shift_iff b] at hrequesting
    filter_upwards [hrequesting] with n hn i l
    unfold Gpu.laneLsu
    rw [(run_of_joins hj h₀ n).1]
    exact hn i l
  -- So the controller answers every request it holds, and every LSU becomes idle.
  have hbusy := (isRun (g := ⟨g, mem₀⟩) h₀.settled .automatic G t).not_busy hM hquiet
    fun k κ hvalid => ((hfair.serve k).and_eventually hvalid).mono
      fun n hn => memReady_of_mem hn.2 hn.1
  rw [← Eventually.shift_iff b]
  rw [← Eventually.shift_iff a] at hbusy
  filter_upwards [hbusy] with n hn
  rw [← (run_of_joins hj h₀ n).1]
  exact hn

/-- So every core is done with its blocks at last. -/
theorem all_stop_of_joins (hM : 0 < M) (hrace : G.RaceFree mem₀ W T) (hsx : G.FullMaskSx mem₀ W T)
    (hstops : ∀ b < G.kernel_config.num_blocks, ∀ w : Fin W, ∃ k, G.Stops mem₀ T b w k)
    (h₀ : g.Starts .automatic) (hfair : Fair t) (i : Fin N) :
    ∀ᶠ n in atTop, (ClusterSystem.run .automatic G t'
      (ClusterSystem.init c' mem₀) n).cluster.dispatcher.core_start i = false := by
  have hlsu := not_busy_of_joins hj hM hrace hsx hstops h₀ hfair
  refine ClusterSystem.all_stop hj.starts t' hrace hsx hstops hlsu (fun i w => ?_) i
  rw [← Eventually.frequently_shift_iff b]
  have hoften := (Eventually.frequently_shift_iff a).mpr (hfair.fetch i w)
  refine hoften.mono fun n hn => ?_
  rw [hj.timing n]
  exact hn

/-- Both finish their blocks apart, or neither does. -/
theorem finishApart_of_joins (h₀ : g.Starts .automatic) :
    Cluster.FinishApart (fun n => (ClusterSystem.run .automatic G t'
        (ClusterSystem.init c' mem₀) n).cluster) ↔
      Cluster.FinishApart fun n => (run .automatic G t ⟨g, mem₀⟩ n).gpu.cluster := by
  have hbefore (n : ℕ) (hn : n < a) (i : Fin N) :
      (run .automatic G t ⟨g, mem₀⟩ n).gpu.cluster.dispatcher.core_start i = false := by
    rw [← (refines_run (g := ⟨g, mem₀⟩) h₀.settled .automatic G t n).cluster]
    exact hj.before n hn i
  exact ⟨fun h => h.join (fun n => (run_of_joins hj h₀ n).1.symm) hbefore,
    fun h => h.join (fun n => (run_of_joins hj h₀ n).1) hj.before'⟩

end Joins

/-- So the memory is what the grid makes of it from some edge on, and whether the dispatcher is done
depends on how the cores finish. -/
theorem eventually_computes (hM : 0 < M) (hrace : G.RaceFree mem₀ W T) (hsx : G.FullMaskSx mem₀ W T)
    (hstops : ∀ b < G.kernel_config.num_blocks, ∀ w : Fin W, ∃ k, G.Stops mem₀ T b w k)
    (h₀ : g.Starts .automatic) (hfair : Fair t) :
    (∀ᶠ n in atTop, G.Computes mem₀ W T (run .automatic G t ⟨g, mem₀⟩ n).mem) ∧
      ∀ᶠ n in atTop, ((run .automatic G t ⟨g, mem₀⟩ n).gpu.cluster.dispatcher.done = true ↔
        Cluster.FinishApart fun n => (run .automatic G t ⟨g, mem₀⟩ n).gpu.cluster) := by
  -- The run goes on as one that begins with a reset, in which all cores stop.
  obtain ⟨a, t', c', b, hj⟩ := ClusterSystem.exists_joins .automatic G mem₀ h₀.cluster
    (t := clusterTimings .automatic G t ⟨g, mem₀⟩) hfair.start
  have hrun := ClusterSystem.isRun hj.starts G t' mem₀
  obtain ⟨m, hm⟩ := hfair.start
  have hstart : (ClusterSystem.run .automatic G t' (ClusterSystem.init c' mem₀)
      (m + 1 + b)).cluster.start_execution = true := by
    rw [← hj.run (m + 1)]
    exact ClusterSystem.start_execution_of_start (m := m) hm (by omega)
  have hstop := all_stop_of_joins hj hM hrace hsx hstops h₀ hfair
  constructor
  · -- So all blocks finish,
    have hfinished := hrun.all_finished (NeZero.pos N) hstart hstop
    rw [← Eventually.shift_iff b] at hfinished
    rw [← Eventually.shift_iff a]
    filter_upwards [hfinished] with n hn
    rw [(run_of_joins hj h₀ n).2]
    exact ClusterSystem.computes_of_finished hj.starts t' hrace hsx hn
  · -- and the dispatcher is done if it has counted all of them.
    have hdone := hrun.done_iff (NeZero.pos N) hstart hstop
    rw [← Eventually.shift_iff b] at hdone
    rw [← Eventually.shift_iff a]
    filter_upwards [hdone] with n hn
    rw [(run_of_joins hj h₀ n).1, ← finishApart_of_joins hj h₀]
    exact hn

/-- The example timing is fair. -/
theorem alternating_fair (N M : ℕ) : Fair (alternating N M) := by
  refine ⟨⟨0, rfl⟩, fun _ _ => .of_forall fun _ => rfl, fun k => ?_⟩
  refine frequently_atTop.mpr fun n => ⟨2 * n, by omega, ?_⟩
  show k ∈ if 2 ∣ 2 * n then List.finRange M else []
  rw [if_pos (Nat.dvd_mul_right 2 n)]
  exact List.mem_finRange k

/-- The warps of the example grid stop. -/
theorem scatter_stops : ∀ b < ClusterSystem.scatter.kernel_config.num_blocks, ∀ w : Fin 1,
    ∃ k, ClusterSystem.scatter.Stops (fun _ => 9) 1 b w k := by
  intro b hb w
  have hb : b = 0 ∨ b = 1 := by
    have hlt : b < 2 := hb
    bv_omega
  obtain rfl : w = 0 := Subsingleton.elim w 0
  refine ⟨2, 1, rfl, ?_, fun i hi => ?_⟩
  · rcases hb with rfl | rfl <;> decide +kernel
  · obtain rfl : i = 0 := by omega
    rcases hb with rfl | rfl <;> decide +kernel

end GpuSystem

open GpuSystem in
/-- A GPU that runs a kernel whose lanes do not race, with no thread masked off for an `sx` and all
of whose warps stop on their own, from a reset or from the zeros that the simulator starts with,
where `any_lsu_waiting` is automatic: a static one is never cleared, and keeps every warp in
`WARP_WAIT` once an LSU was busy there. If the execution is started, and fetchers and memory answer
again and again, the memory is what the grid makes of it from some edge on, whatever the timing.
`execution_done` is high from some edge on if the dispatcher never sees two cores finish at one
edge, and never otherwise. -/
theorem gpu_terminates {N W T M : ℕ} [NeZero N] [NeZero W] (hM : 0 < M) (G : Grid)
    (mem₀ : DataMemoryAddressT → DataT) (hrace : G.RaceFree mem₀ W T) (hsx : G.FullMaskSx mem₀ W T)
    (hstops : ∀ b < G.kernel_config.num_blocks, ∀ w : Fin W, ∃ k, G.Stops mem₀ T b w k)
    {g : Gpu N W T M} (h₀ : g.Starts .automatic) {t : ℕ → GpuTiming N W M} (hfair : Fair t) :
    ∀ᶠ n in atTop, G.Computes mem₀ W T (run .automatic G t ⟨g, mem₀⟩ n).mem ∧
      ((run .automatic G t ⟨g, mem₀⟩ n).gpu.cluster.dispatcher.done = true ↔
        Cluster.FinishApart fun n => (run .automatic G t ⟨g, mem₀⟩ n).gpu.cluster) := by
  obtain ⟨hcomputes, hdone⟩ := eventually_computes hM hrace hsx hstops h₀ hfair
  exact hcomputes.and hdone

open GpuSystem in
/-- The example grid on a GPU of two cores and one memory channel. -/
theorem gpu_terminates_scatter : ∀ᶠ n in atTop,
    ClusterSystem.scatter.Computes (fun _ => 9) 1 1 (run .automatic ClusterSystem.scatter
        (alternating 2 1) ⟨(Gpu.powerUp : Gpu 2 1 1 1), fun _ => 9⟩ n).mem ∧
      ((run .automatic ClusterSystem.scatter (alternating 2 1)
          ⟨(Gpu.powerUp : Gpu 2 1 1 1), fun _ => 9⟩ n).gpu.cluster.dispatcher.done = true ↔
        Cluster.FinishApart fun n => (run .automatic ClusterSystem.scatter (alternating 2 1)
          ⟨(Gpu.powerUp : Gpu 2 1 1 1), fun _ => 9⟩ n).gpu.cluster) :=
  gpu_terminates (by decide) ClusterSystem.scatter (fun _ => 9) ClusterSystem.scatter_raceFree
    ClusterSystem.scatter_fullMaskSx scatter_stops (.inl rfl) (alternating_fair 2 1)

end SmolGpu
