import SmolGpu.Grid.Blocks

/-!
# What a cluster computes

A kernel whose lanes do not race has one result, which is that of its warps on their own. A cluster
arrives at it whatever the number of its cores, wherever and in which order its blocks run, and in
whatever order the memory performs the accesses of cores that run at the same time.
-/

namespace SmolGpu

open SharedMemory (Access ofGroup)

namespace ClusterSystem

variable {N W T : ℕ} [NeZero W] {life : Lifetime} {G : Grid} {mem₀ : DataMemoryAddressT → DataT}
  {c : Cluster N W T}

/-- A block that the dispatcher takes as finished has done, and left behind, what it does on its
own. -/
theorem finished_block (h₀ : Starts life c) (t : ℕ → ClusterTiming N W T)
    (hrace : G.RaceFree mem₀ W T) (hsx : G.FullMaskSx mem₀ W T) {m n : ℕ} {i : Fin N} {b : DataT}
    (hm : Cluster.Finished (fun n => (run life G t (init c mem₀) n).cluster) m i b)
    (hmn : m < n) (w : Fin W) : ∃ k, G.Stops mem₀ T b w k ∧
      executed life G t (init c mem₀) n b w = CoreSystem.soloExecuted T (G.block b) mem₀ w k ∧
      ∀ l, SharedMemory.own (history life G t (init c mem₀) n) (b, w, l) =
        (G.warpAt mem₀ T b w k).own l := by
  have hrun := isRun h₀ G t mem₀
  induction n, hmn using Nat.le_induction with
  | base =>
    -- The accesses of the edge itself are of lanes that are not done.
    obtain ⟨-, hstarted, hdone⟩ := id hm
    have hserve := (Runs.run h₀ t hrace hsx m).serve (hrun.jobs m) hrace (t m)
    obtain ⟨k, ht⟩ := hserve.started i b (by rw [serve_cluster]; exact hstarted)
    have hdone' : (((run life G t (init c mem₀) m).serve (t m)).alone G mem₀
        (history life G t (init c mem₀) (m + 1)) i b).core.done = true := by
      show (((run life G t (init c mem₀) m).serve (t m)).cluster.core i).done = true
      rw [serve_cluster]
      exact hdone
    obtain ⟨hstops, hbegun, -, -, hown⟩ := ht.finished hdone' w
    have hdecode :
        ¬((run life G t (init c mem₀) m).core (run life G t (init c mem₀) m).mem i).Begins w := by
      rintro ⟨-, hdec⟩
      have hwarp : ((run life G t (init c mem₀) m).cluster.core i).warp_state w = .decode := hdec
      have hall := ((hrun.finished hm).choose_spec).2.2.2.2 w
      exact absurd (hwarp.symm.trans hall) (by decide)
    refine ⟨k w, hstops, ?_, fun l => ?_⟩
    · show executed life G t (init c mem₀) m b w ++ _ = _
      rw [begins_of_startedOn (hrun.jobs m) hstarted, if_neg hdecode, List.append_nil]
      exact hbegun
    · rw [← SharedMemory.own_ofGroup]
      exact hown l
  | succ n hmn ih =>
    obtain ⟨k, hstops, hbegun, hown⟩ := ih
    have hnone : (run life G t (init c mem₀) n).begins G b w = [] :=
      begins_of_not_startedOn (fun j => hrun.not_startedOn_of_finished hm hmn) w
    refine ⟨k, hstops, ?_, fun l => ?_⟩
    · show executed life G t (init c mem₀) n b w ++ _ = _
      rw [hnone, List.append_nil]
      exact hbegun
    · have hsame := congrArg (SharedMemory.own · (w, l))
        (ofGroup_history_of_finished h₀ t hrace hsx hm hmn)
      simp only [SharedMemory.own_ofGroup] at hsame
      exact hsame.trans (hown l)

/-- When all blocks have finished, the memory is what the grid makes of it. -/
theorem computes_of_finished (h₀ : Starts life c) (t : ℕ → ClusterTiming N W T)
    (hrace : G.RaceFree mem₀ W T) (hsx : G.FullMaskSx mem₀ W T) {n : ℕ}
    (hfinished : ∀ b < G.kernel_config.num_blocks, ∃ m < n, ∃ i,
      Cluster.Finished (fun n => (run life G t (init c mem₀) n).cluster) m i b) :
    G.Computes mem₀ W T (run life G t (init c mem₀) n).mem := by
  have hruns := Runs.run h₀ t hrace hsx n
  have hblock (b : DataT) (hb : b < G.kernel_config.num_blocks) (w : Fin W) :
      ∃ k, G.Stops mem₀ T b w k ∧ ∀ l,
        SharedMemory.own (history life G t (init c mem₀) n) (b, w, l) =
          (G.warpAt mem₀ T b w k).own l := by
    obtain ⟨m, hmn, i, hfin⟩ := hfinished b hb
    obtain ⟨k, hk, -, hown⟩ := finished_block h₀ t hrace hsx hfin hmn w
    exact ⟨k, hk, hown⟩
  have hfree := hrace.raceFree hruns.made
  rw [hruns.mem]
  refine ⟨fun b hb w => (hblock b hb w).imp fun k hk => hk.1, ?_, fun x hx => ?_⟩
  · intro b hb w l k hk x v hv
    obtain ⟨k', hk', hown⟩ := hblock b hb w
    obtain rfl := Solo.Stops.unique hk hk'
    exact (hfree.after_eq mem₀ x).1 (b, w, l) v ((congrFun (hown l) x).trans hv)
  · refine (hfree.after_eq mem₀ x).2 fun ⟨b, w, l⟩ => ?_
    rw [Option.eq_none_iff_forall_ne_some]
    intro v hv
    -- A word at `x` is one of a block of the grid.
    obtain ⟨e, he, -, -⟩ := SharedMemory.exists_of_own hv
    have hb : b < G.kernel_config.num_blocks := (hruns.made _ he).1
    obtain ⟨k, hk, hown⟩ := hblock b hb w
    exact absurd ((congrFun (hown l) x).symm.trans hv) (by rw [hx b hb w l k hk]; simp)

/-- They have when the dispatcher is done. -/
theorem computes_of_done (h₀ : Starts life c) (t : ℕ → ClusterTiming N W T)
    (hrace : G.RaceFree mem₀ W T) (hsx : G.FullMaskSx mem₀ W T) {n : ℕ}
    (hdone : (run life G t (init c mem₀) n).cluster.dispatcher.done = true) :
    G.Computes mem₀ W T (run life G t (init c mem₀) n).mem :=
  computes_of_finished h₀ t hrace hsx fun _ hb => (isRun h₀ G t mem₀).done hdone hb

/-- An example grid of two blocks of a thread each: `sw x2, 0(x2)`, then a halt. -/
def scatter : Grid where
  program := fun a => if a = 0 then 0x00212023 else 127
  kernel_config := ⟨0, 0, 2, 1⟩

/-- Its blocks store their ids, each at its own address. -/
theorem scatter_makes {x : Agent 1 1} {e : Access DataMemoryAddressT DataT}
    (h : scatter.Makes (fun _ => 9) x e) : x.2 = (0, 0) ∧ e = .write x.1 x.1 := by
  obtain ⟨b, w, l⟩ := x
  obtain ⟨hlt, k, hk, he⟩ := h
  have hb : b = 0 ∨ b = 1 := by
    have hlt : b < 2 := hlt
    bv_omega
  obtain rfl : w = 0 := Subsingleton.elim w 0
  -- The first instruction is the store, the second one the halt, and there is no third.
  rcases k with _ | _ | k
  · have haccess : ∀ l : Fin 2, (scatter.warpAt (fun _ => 9) 1 b (0 : Fin 1) 0).arch.access
        (scatter.instructionAt (fun _ => 9) 1 b (0 : Fin 1) 0) l =
          if l = 0 then some (.write b b) else none := by
      rcases hb with rfl | rfl <;> decide +kernel
    have he := (haccess l).symm.trans he
    split_ifs at he with hl
    exact ⟨by rw [hl], (Option.some.inj he).symm⟩
  · have haccess : ∀ l : Fin 2, (scatter.warpAt (fun _ => 9) 1 b (0 : Fin 1) 1).arch.access
        (scatter.instructionAt (fun _ => 9) 1 b (0 : Fin 1) 1) l = none := by
      rcases hb with rfl | rfl <;> decide +kernel
    exact absurd ((haccess l).symm.trans he) (by simp)
  · have hhalt : (scatter.instructionAt (fun _ => 9) 1 b (0 : Fin 1) 1).decoded_halt = true := by
      rcases hb with rfl | rfl <;> decide +kernel
    exact absurd ((hk 1 (by omega)).symm.trans hhalt) (by simp)

/-- The warps of the example store at different addresses. -/
theorem scatter_raceFree : scatter.RaceFree (fun _ => 9) 1 1 := by
  intro x e y f he hf hne haddr
  obtain ⟨hx, rfl⟩ := scatter_makes he
  obtain ⟨hy, rfl⟩ := scatter_makes hf
  exact absurd (Prod.ext haddr (hx.trans hy.symm)) hne

/-- The example has no `sx` instruction. -/
theorem scatter_fullMaskSx : scatter.FullMaskSx (fun _ => 9) 1 1 := by
  intro b _ w k _ hsx
  refine absurd hsx ?_
  show ¬IsSx (if _ then _ else _)
  split_ifs <;> decide

/-- The example timing: every memory is ready at once, but core `i` gets a word at every `i + 1`-th
edge only. -/
def lagging (N n : ℕ) : ClusterTiming N 1 1 where
  execution_start := true
  env := fun i => ⟨fun _ => if (i + 1 : ℕ) ∣ n then .done else .idle, fun _ => 0, fun _ => true,
    fun _ => 0, fun _ => true⟩
  serve := (List.finRange N).flatMap fun i => (List.finRange 2).map fun l => (i, l)

/-- A cluster that has just been reset. -/
def scatterStart (N : ℕ) : Cluster N 1 1 :=
  clusterStep .automatic { clusterIn scatter (lagging N 0) (init Cluster.powerUp fun _ => 9) with
    reset := true } Cluster.powerUp

/-- The example's cluster starts with a reset. -/
theorem scatter_starts (N : ℕ) : Starts .automatic (scatterStart N) :=
  ⟨⟨_, _, rfl, rfl⟩, fun _ _ => congrArg Lsu.access
    (lsuStep_of_idle rfl rfl (show WarpState.idle ≠ .request by decide))⟩

end ClusterSystem

open ClusterSystem in
/-- Two runs of a kernel without races and with no thread masked off for an `sx`, each from a reset
until the dispatcher is done: the clusters may have different numbers of cores, and the timing of
the fetches and of the memory, and with it the placement and the order of the blocks, may be
different. Both leave the memory that the grid makes of the one at the start. -/
theorem cluster_schedule_independent {N N' W T : ℕ} [NeZero W] (life life' : Lifetime) (G : Grid)
    (mem₀ : DataMemoryAddressT → DataT) (hrace : G.RaceFree mem₀ W T)
    (hsx : G.FullMaskSx mem₀ W T) {c : Cluster N W T} {c' : Cluster N' W T} (h₀ : Starts life c)
    (h₀' : Starts life' c') {t : ℕ → ClusterTiming N W T} {t' : ℕ → ClusterTiming N' W T}
    {n n' : ℕ} (hdone : (run life G t (init c mem₀) n).cluster.dispatcher.done = true)
    (hdone' : (run life' G t' (init c' mem₀) n').cluster.dispatcher.done = true) :
    G.Computes mem₀ W T (run life G t (init c mem₀) n).mem ∧
      (run life G t (init c mem₀) n).mem = (run life' G t' (init c' mem₀) n').mem := by
  have hcomputes := computes_of_done h₀ t hrace hsx hdone
  exact ⟨hcomputes, hcomputes.unique (computes_of_done h₀' t' hrace hsx hdone')⟩

open ClusterSystem in
/-- The example grid leaves the same memory when one core runs both blocks, one after the other, as
when two cores run one each, at different speeds. -/
theorem cluster_schedule_independent_scatter :
    scatter.Computes (fun _ => 9) 1 1 (run .automatic scatter (lagging 1)
        (init (scatterStart 1) fun _ => 9) 48).mem ∧
      (run .automatic scatter (lagging 1) (init (scatterStart 1) fun _ => 9) 48).mem =
        (run .automatic scatter (lagging 2) (init (scatterStart 2) fun _ => 9) 48).mem :=
  cluster_schedule_independent .automatic .automatic scatter (fun _ => 9) scatter_raceFree
    scatter_fullMaskSx (scatter_starts 1) (scatter_starts 2) (by decide +kernel) (by decide +kernel)

end SmolGpu
