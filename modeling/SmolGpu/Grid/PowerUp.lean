import SmolGpu.Dispatcher.Progress
import SmolGpu.Grid.Results

/-!
# Runs without a reset

The simulator does not reset the GPU: it starts it with all registers zero. The dispatcher of such a
cluster resets the cores at the first edge at which it sees `start`, where one that has been reset
hands out the first blocks at once. From then on a cluster that was not reset runs as one that was
(`run_powerUp`), and computes the same.
-/

namespace SmolGpu

open SharedMemory (Access)

namespace ComputeCore

variable {W T : ℕ} [NeZero W] {life : Lifetime} {inp inp' : CoreIn W T} {c : ComputeCore W T}

/-- The registers of a core after a reset. The latches keep what they hold. -/
theorem coreStep_reset_eq (hr : inp.reset = true) : coreStep life inp c =
    { c.resetBranch with
      decoder := fun _ => Decoded.default
      scalar_reg_file := fun w => { c.scalar_reg_file w with registers := scalarResetRegisters }
      reg_file := fun w l =>
        { c.reg_file w l with
          registers := specialRegisters (threadId T (BitVec.ofNat 32 w) l) inp.block_id
            (inp.kernel_config.num_warps_per_block * BitVec.ofNat 32 T) fun _ => 0 }
      scalar_alu_out := 0
      alu_out := fun _ => 0
      lsu := fun _ => Lsu.resetState } := by
  simp [coreStep, alwaysBlock, decoderStep, scalarRegFileStep, scalarRegFileIn, regFileStep,
    regFileIn, aluStep, aluIn, lsuStep, lsuIn, hr]

/-- Only the last one of several resets counts. -/
theorem coreStep_reset_reset (hr : inp.reset = true) (hr' : inp'.reset = true) :
    coreStep life inp (coreStep life inp' c) = coreStep life inp c := by
  rw [coreStep_reset_eq hr, coreStep_reset_eq hr', coreStep_reset_eq hr]
  rfl

/-- A reset looks at the block id and the configuration only. -/
theorem coreStep_reset_congr (hr : inp.reset = true) (hr' : inp'.reset = true)
    (hblock : inp.block_id = inp'.block_id) (hconfig : inp.kernel_config = inp'.kernel_config) :
    coreStep life inp c = coreStep life inp' c := by
  rw [coreStep_reset_eq hr, coreStep_reset_eq hr', hblock, hconfig]

end ComputeCore

namespace Dispatcher

variable {N : ℕ}

/-- The registers when the simulator starts: all zero. -/
def powerUp : Dispatcher N := ⟨fun _ => false, fun _ => false, fun _ => 0, false, 0, 0, false⟩

/-- The dispatcher after its first edge with `start` high, if it has not been reset before. -/
def begun (N : ℕ) (total : DataT) : Dispatcher N :=
  { resetState with
    start_execution := true
    done := decide (0 = total) }

/-- Where no core is started, the second loop does nothing. -/
theorem finishLoop_of_not_started {s : Dispatcher N} {core_done : Fin N → Bool}
    (hs : ∀ i, s.core_start i = false) (n : Dispatcher N) :
    Fin.foldl N (finishCore core_done s) n = n := by
  have hno (i : Fin N) : ¬Finishing core_done s i := by simp [Finishing, hs]
  rw [finishLoop_spec]
  simp [hno]

/-- A dispatcher that has not been reset resets the cores before it hands out blocks. -/
theorem step_powerUp {inp : DispatcherIn N} (hr : inp.reset = false) (hs : inp.start = true) :
    dispatcherStep inp powerUp = begun N inp.kernel_config.num_blocks := by
  have hloop (n : Dispatcher N) :
      Fin.foldl N (dispatchCore inp.kernel_config.num_blocks powerUp) n = n := by
    refine Loop.foldl_induction (dispatchCore inp.kernel_config.num_blocks powerUp)
      (fun _ a => a = n) n rfl fun k a ha => ?_
    rw [ha]
    exact if_neg (by simp [powerUp])
  rw [dispatcherStep_of_start hr hs, hloop, finishLoop_of_not_started fun _ => rfl]
  unfold doneCheck startCheck begun
  by_cases h : (0 : DataT) = inp.kernel_config.num_blocks
  · rw [decide_eq_true h]
    exact if_pos h
  · rw [decide_eq_false h]
    exact if_neg h

/-- From there on it goes as one that has been reset. -/
theorem step_begun {inp inp' : DispatcherIn N} (hr : inp.reset = false) (hs : inp.start = true)
    (hr' : inp'.reset = false) (hs' : inp'.start = true)
    (hconfig : inp.kernel_config = inp'.kernel_config) :
    dispatcherStep inp (begun N inp.kernel_config.num_blocks) = dispatcherStep inp' resetState := by
  rw [dispatcherStep_of_start hr hs, dispatcherStep_of_start hr' hs',
    finishLoop_of_not_started fun _ => rfl, finishLoop_of_not_started fun _ => rfl, hconfig]
  have hchecks : doneCheck inp'.kernel_config.num_blocks (begun N inp'.kernel_config.num_blocks)
        (startCheck (begun N inp'.kernel_config.num_blocks)
          (begun N inp'.kernel_config.num_blocks)) =
      doneCheck inp'.kernel_config.num_blocks resetState (startCheck resetState resetState) := by
    unfold doneCheck startCheck begun
    by_cases h : (0 : DataT) = inp'.kernel_config.num_blocks
    · rw [decide_eq_true h]
      exact (if_pos h).trans (if_pos h).symm
    · rw [decide_eq_false h]
      exact (if_neg h).trans (if_neg h).symm
  rw [hchecks]
  rfl

end Dispatcher

namespace Cluster

variable {N W T : ℕ} [NeZero W] {life : Lifetime} {inp : ClusterIn N W T} {c : Cluster N W T}

/-- The first edge of a cluster that has not been reset at which cores are reset and blocks are
handed out leads to the same state as the one of a cluster that has. -/
theorem step_begun {inp' : ClusterIn N W T} {c' : Cluster N W T} (hr : inp.reset = false)
    (hr' : inp'.reset = false) (hs : c.start_execution = true) (hs' : c'.start_execution = true)
    (hconfig : c.kernel_config_reg = c'.kernel_config_reg)
    (hd : c.dispatcher = Dispatcher.begun N c.kernel_config_reg.num_blocks)
    (hd' : c'.dispatcher = Dispatcher.resetState)
    (hcore : ∀ i inp₁ inp₂, inp₁.reset = true → inp₂.reset = true →
      inp₁.block_id = inp₂.block_id → inp₁.kernel_config = inp₂.kernel_config →
        coreStep life inp₁ (c.core i) = coreStep life inp₂ (c'.core i)) :
    clusterStep life inp c = clusterStep life inp' c' := by
  have hdispatcher : dispatcherStep (dispatcherIn inp c) c.dispatcher =
      dispatcherStep (dispatcherIn inp' c') c'.dispatcher := by
    rw [hd, hd']
    exact Dispatcher.step_begun (show (dispatcherIn inp c).reset = false from hr) hs hr' hs' hconfig
  -- Both dispatchers hold the cores in reset with the same block ids.
  have hcores (i : Fin N) : coreStep life (coreIn inp c i) (c.core i) =
      coreStep life (coreIn inp' c' i) (c'.core i) := by
    refine hcore i _ _ ?_ ?_ ?_ hconfig
    · show c.dispatcher.core_reset i = true
      rw [hd]
      rfl
    · show c'.dispatcher.core_reset i = true
      rw [hd']
      rfl
    · show c.dispatcher.core_block_id i = c'.dispatcher.core_block_id i
      rw [hd, hd']
      rfl
  unfold clusterStep
  rw [hdispatcher]
  simp [hr, hr', hs, hs', hconfig, hcores]

/-- Without a start the dispatcher keeps its state. -/
theorem step_dispatcher_of_stopped (hr : inp.reset = false) (hs : c.start_execution = false) :
    (clusterStep life inp c).dispatcher = c.dispatcher :=
  Dispatcher.step_stopped (show (dispatcherIn inp c).reset = false from hr) hs

/-- No core has been started. -/
structure Dormant (c : Cluster N W T) : Prop where
  /-- The invariant of every core. -/
  core : ∀ i, ComputeCore.Invariant (c.core i)
  /-- No core has started. -/
  not_started : ∀ i, (c.core i).start_execution = false
  /-- The LSUs are idle. -/
  idle : ∀ i l, ((c.core i).lsu l).lsu_state = .idle

omit [NeZero W] in
/-- A dormant cluster accesses no memory. -/
theorem Dormant.access (h : Dormant c) (i : Fin N) (l : Fin (T + 1)) :
    ((c.core i).lsu l).access = none :=
  (h.core i).access_eq_none (by rw [h.idle]; decide)

/-- The cluster is dormant at the power-up. -/
theorem dormant_powerUp : Dormant (powerUp : Cluster N W T) := by
  refine ⟨fun i => ?_, fun _ => rfl, fun _ _ => rfl⟩
  have : NeZero N := ⟨by have := i.isLt; omega⟩
  exact (Gpu.settled_powerUp (N := N) (W := W) (T := T) (M := 1)).guarded.core i

/-- A cluster whose cores are being reset is dormant after the edge. -/
theorem Dormant.of_reset (hr : ∀ i, c.dispatcher.core_reset i = true) :
    Dormant (clusterStep life inp c) := by
  refine ⟨fun i => .of_reset (hr i), fun i => ?_, fun i l => ?_⟩
  · show (coreStep life (coreIn inp c i) (c.core i)).start_execution = false
    exact (ComputeCore.step_reset (hr i)).1
  · have hlsu : ((clusterStep life inp c).core i).lsu l = Lsu.resetState :=
      ComputeCore.step_reset_lsu (hr i) l
    rw [hlsu]
    rfl

/-- The dispatcher has to start a core. -/
theorem Dormant.step (h : Dormant c) (hstart : ∀ i, c.dispatcher.core_start i = false) :
    Dormant (clusterStep life inp c) := by
  refine ⟨fun i => (h.core i).step, fun i => ?_, fun i l => ?_⟩
  · show ((c.core i).alwaysBlock life (coreIn inp c i)).start_execution = false
    rcases hr : c.dispatcher.core_reset i with _ | _
    · have hkeep : (c.core i).alwaysBlock life (coreIn inp c i) = c.core i :=
        ComputeCore.step_not_started hr (h.not_started i) (hstart i)
      rw [hkeep]
      exact h.not_started i
    · show (coreStep life (coreIn inp c i) (c.core i)).start_execution = false
      exact (ComputeCore.step_reset hr).1
  · rcases hr : c.dispatcher.core_reset i with _ | _
    · exact (Gpu.quiet_step (h.core i) hr (.inl (h.not_started i))).1 l
    · have hlsu : ((clusterStep life inp c).core i).lsu l = Lsu.resetState :=
        ComputeCore.step_reset_lsu hr l
      rw [hlsu]
      rfl

end Cluster

namespace ClusterSystem

variable {N W T : ℕ} [NeZero W] {life : Lifetime} {G : Grid} {c : Cluster N W T}
  {mem₀ : DataMemoryAddressT → DataT} {t : ClusterTiming N W T}

/-- The memory performs nothing for a cluster none of whose cores has been started. -/
theorem step_of_dormant (h : c.Dormant) :
    clusterSystemStep life G t (init c mem₀) =
      init (clusterStep life (clusterIn G t (init c mem₀)) c) mem₀ := by
  have hserve : (init c mem₀).serve t = init c mem₀ := by
    have hnone : served t (init c mem₀) = [] := by
      refine List.filterMap_eq_nil_iff.mpr fun x _ => ?_
      have hpending : (init c mem₀).pending x = none := h.access x.1 x.2
      rw [hpending]
      rfl
    unfold serve
    rw [hnone]
    rfl
  unfold clusterSystemStep
  rw [hserve]
  unfold clock init
  simp only [ClusterSystem.mk.injEq, true_and]
  exact funext fun i => funext fun l => ite_self none

/-- The edge at which the execution starts. The cores and the dispatcher do not see it yet. -/
theorem step_start (life : Lifetime) (G : Grid) (mem₀ : DataMemoryAddressT → DataT) (h : c.Dormant)
    (hstart : c.start_execution = false) (hstop : ∀ i, c.dispatcher.core_start i = false)
    (ht : t.execution_start = true) :
    ∃ c' : Cluster N W T, c' = clusterStep life (clusterIn G t (init c mem₀)) c ∧
      clusterSystemStep life G t (init c mem₀) = init c' mem₀ ∧ c'.Dormant ∧
      c'.dispatcher = c.dispatcher ∧ c'.start_execution = true ∧
      c'.kernel_config_reg = G.kernel_config := by
  refine ⟨_, rfl, step_of_dormant h, h.step hstop, Cluster.step_dispatcher_of_stopped rfl hstart,
    Cluster.step_start_execution rfl (.inl ht), ?_⟩
  show (if false then c.kernel_config_reg else if t.execution_start && !c.start_execution then
    G.kernel_config else c.kernel_config_reg) = G.kernel_config
  simp [ht, hstart]

section Run

variable {t : ℕ → ClusterTiming N W T} {m n : ℕ}

/-- Before the execution starts nothing happens. -/
theorem run_waiting (life : Lifetime) (G : Grid) (mem₀ : DataMemoryAddressT → DataT)
    (hbefore : ∀ k < m, (t k).execution_start = false) (hn : n ≤ m) :
    ∃ c : Cluster N W T, run life G t (init .powerUp mem₀) n = init c mem₀ ∧ c.Dormant ∧
      c.start_execution = false ∧ c.dispatcher = .powerUp := by
  induction n with
  | zero => exact ⟨_, rfl, Cluster.dormant_powerUp, rfl, rfl⟩
  | succ n ih =>
    obtain ⟨c, hrun, hc, hstart, hd⟩ := ih (by omega)
    have hstop (i : Fin N) : c.dispatcher.core_start i = false := by rw [hd]; rfl
    have hlow : (t n).execution_start = false := hbefore n (by omega)
    refine ⟨clusterStep life (clusterIn G (t n) (init c mem₀)) c, ?_, hc.step hstop, ?_, ?_⟩
    · show clusterSystemStep life G (t n) (run life G t (init .powerUp mem₀) n) = _
      rw [hrun, step_of_dormant hc]
    · show (if false then false
        else if (t n).execution_start && !c.start_execution then true
        else c.start_execution) = false
      simp [hlow, hstart]
    · exact (Cluster.step_dispatcher_of_stopped rfl hstart).trans hd

/-- The edges at which the execution and the dispatcher start. -/
theorem run_begun (life : Lifetime) (G : Grid) (mem₀ : DataMemoryAddressT → DataT)
    (hm : (t m).execution_start = true) (hbefore : ∀ k < m, (t k).execution_start = false) :
    (∃ c : Cluster N W T, run life G t (init .powerUp mem₀) (m + 1) = init c mem₀ ∧ c.Dormant ∧
      c.dispatcher = .powerUp) ∧
    ∃ c : Cluster N W T, run life G t (init .powerUp mem₀) (m + 2) = init c mem₀ ∧ c.Dormant ∧
      c.start_execution = true ∧ c.kernel_config_reg = G.kernel_config ∧
      c.dispatcher = Dispatcher.begun N G.kernel_config.num_blocks := by
  -- Up to edge `m` nothing happens. This edge starts the cluster, and the next one the dispatcher.
  obtain ⟨c, hrun, hc, hstart, hd⟩ := run_waiting life G mem₀ hbefore le_rfl
  have hstop (i : Fin N) : c.dispatcher.core_start i = false := by rw [hd]; rfl
  obtain ⟨c₁, -, hstep₁, hdormant₁, hd₁, hstart₁, hconfig₁⟩ :=
    step_start life G mem₀ hc hstart hstop hm
  rw [hd] at hd₁
  have hrun₁ : run life G t (init .powerUp mem₀) (m + 1) = init c₁ mem₀ := by
    show clusterSystemStep life G (t m) (run life G t (init .powerUp mem₀) m) = _
    rw [hrun, hstep₁]
  have hstop₁ (i : Fin N) : c₁.dispatcher.core_start i = false := by rw [hd₁]; rfl
  refine ⟨⟨c₁, hrun₁, hdormant₁, hd₁⟩,
    clusterStep life (clusterIn G (t (m + 1)) (init c₁ mem₀)) c₁, ?_,
    hdormant₁.step hstop₁, Cluster.step_start_execution rfl (.inr hstart₁), ?_, ?_⟩
  · show clusterSystemStep life G (t (m + 1)) (run life G t (init .powerUp mem₀) (m + 1)) = _
    rw [hrun₁, step_of_dormant hdormant₁]
  · show (if false then c₁.kernel_config_reg else if _ && !c₁.start_execution then
      G.kernel_config else c₁.kernel_config_reg) = G.kernel_config
    simp [hstart₁, hconfig₁]
  · show dispatcherStep (Cluster.dispatcherIn (clusterIn G (t (m + 1)) (init c₁ mem₀)) c₁)
      c₁.dispatcher = Dispatcher.begun N G.kernel_config.num_blocks
    rw [hd₁, Dispatcher.step_powerUp rfl hstart₁, ← hconfig₁]
    rfl

/-- A run without a reset goes on as one with a reset does. -/
theorem run_powerUp (life : Lifetime) (G : Grid) (mem₀ : DataMemoryAddressT → DataT)
    (hm : (t m).execution_start = true) (hbefore : ∀ k < m, (t k).execution_start = false) :
    ∃ (c : Cluster N W T) (t' : ℕ → ClusterTiming N W T), Starts life c ∧
      (∀ n, t' (n + 2) = t (m + 3 + n)) ∧
      ∀ n, run life G t (init .powerUp mem₀) (m + 3 + n) = run life G t' (init c mem₀) (n + 2) := by
  obtain ⟨-, c₂, hrun, hc₂, hstart, hconfig, hd⟩ :=
    run_begun life G mem₀ hm hbefore
  -- The cluster that has been reset has the cores' latches in common with the one that has not.
  obtain ⟨s₀, hs₀⟩ : ∃ s₀ : Cluster N W T,
      s₀ = ⟨false, G.kernel_config, Dispatcher.resetState, c₂.core⟩ := ⟨_, rfl⟩
  obtain ⟨r, hr⟩ : ∃ r : ClusterIn N W T,
      r = { clusterIn G (t m) (init c₂ mem₀) with reset := true } := ⟨_, rfl⟩
  obtain ⟨c, hc⟩ : ∃ c, c = clusterStep life r s₀ := ⟨_, rfl⟩
  have hreset (i : Fin N) : s₀.dispatcher.core_reset i = true := by rw [hs₀]; rfl
  have hdormant : c.Dormant := hc ▸ .of_reset hreset
  have hcstart : c.start_execution = false := by
    rw [hc]
    exact if_pos (by rw [hr])
  have hcd : c.dispatcher = Dispatcher.resetState := by
    rw [hc]
    exact Dispatcher.step_reset (show (Cluster.dispatcherIn r s₀).reset = true by rw [hr]; rfl)
  obtain ⟨c₁, hc₁, hstep₁, hdormant₁, hd₁, hstart₁, hconfig₁⟩ :=
    step_start life G mem₀ hdormant hcstart (fun i => by rw [hcd]; rfl) hm
  rw [hcd] at hd₁
  have hcore (i : Fin N) (inp₁ inp₂ : CoreIn W T) (h₁ : inp₁.reset = true) (h₂ : inp₂.reset = true)
      (hblock : inp₁.block_id = inp₂.block_id) (hkc : inp₁.kernel_config = inp₂.kernel_config) :
      coreStep life inp₁ (c₂.core i) = coreStep life inp₂ (c₁.core i) := by
    have hfirst : c.core i = coreStep life (Cluster.coreIn r s₀ i) (c₂.core i) := by
      rw [hc, hs₀]
      rfl
    have hsecond : c₁.core i =
        coreStep life (Cluster.coreIn (clusterIn G (t m) (init c mem₀)) c i) (c.core i) := by
      rw [hc₁]
      rfl
    rw [hsecond, ComputeCore.coreStep_reset_reset h₂ (by
        show c.dispatcher.core_reset i = true
        rw [hcd]
        rfl), hfirst, ComputeCore.coreStep_reset_reset h₂ (hreset i),
      ComputeCore.coreStep_reset_congr h₁ h₂ hblock hkc]
  refine ⟨c, fun n => if n = 0 then t m else t (m + 1 + n), ⟨⟨r, s₀, by rw [hr], hc⟩,
    hdormant.access⟩, fun n => ?_, fun n => ?_⟩
  · show t (m + 1 + (n + 2)) = t (m + 3 + n)
    rw [show m + 1 + (n + 2) = m + 3 + n by omega]
  induction n with
  | zero =>
    show clusterSystemStep life G (t (m + 2)) (run life G t (init .powerUp mem₀) (m + 2)) =
      clusterSystemStep life G (t (m + 1 + 1)) (clusterSystemStep life G (t m) (init c mem₀))
    rw [hrun, step_of_dormant hc₂, hstep₁, step_of_dormant hdormant₁]
    congr 1
    exact Cluster.step_begun rfl rfl hstart hstart₁ (hconfig.trans hconfig₁.symm)
      (by rw [hd, hconfig]) hd₁ hcore
  | succ n ih =>
    have htime : m + 1 + (n + 2) = m + 3 + n := by omega
    show clusterSystemStep life G (t (m + 3 + n)) (run life G t (init .powerUp mem₀) (m + 3 + n)) =
      clusterSystemStep life G (t (m + 1 + (n + 2))) (run life G _ (init c mem₀) (n + 2))
    rw [ih, htime]

/-- A run, with a reset or without, goes on as one with a reset does, and starts no core before. -/
structure Joins (life : Lifetime) (G : Grid) (mem₀ : DataMemoryAddressT → DataT)
    (t : ℕ → ClusterTiming N W T) (c : Cluster N W T) (a : ℕ) (t' : ℕ → ClusterTiming N W T)
    (c' : Cluster N W T) (b : ℕ) : Prop where
  /-- The other run begins with a reset. -/
  starts : Starts life c'
  /-- From then on the timing is the same. -/
  timing : ∀ n, t' (n + b) = t (n + a)
  /-- From then on the states are the same. -/
  run : ∀ n, ClusterSystem.run life G t (init c mem₀) (n + a) =
    ClusterSystem.run life G t' (init c' mem₀) (n + b)
  /-- Until then no core of the one run is started. -/
  before : ∀ n < a, ∀ i,
    (ClusterSystem.run life G t (init c mem₀) n).cluster.dispatcher.core_start i = false
  /-- Until then no core of the other run is started. -/
  before' : ∀ n < b, ∀ i,
    (ClusterSystem.run life G t' (init c' mem₀) n).cluster.dispatcher.core_start i = false

/-- A start joins the run to one that begins with a reset. -/
theorem exists_joins (life : Lifetime) (G : Grid) (mem₀ : DataMemoryAddressT → DataT)
    {c : Cluster N W T} (h : c = .powerUp ∨ Starts life c)
    (hstart : ∃ n, (t n).execution_start = true) :
    ∃ a t' c' b, Joins life G mem₀ t c a t' c' b := by
  rcases h with rfl | h
  · obtain ⟨m, hm⟩ : ∃ m, m = Nat.find hstart := ⟨_, rfl⟩
    have hfirst : (t m).execution_start = true := hm ▸ Nat.find_spec hstart
    have hbefore : ∀ k < m, (t k).execution_start = false := fun k hk => by
      simpa using Nat.find_min hstart (hm ▸ hk)
    obtain ⟨c', t', h₀, htime, hsame⟩ := run_powerUp (N := N) (W := W) (T := T) life G mem₀ hfirst
      hbefore
    refine ⟨m + 3, t', c', 2, h₀, fun n => ?_, fun n => ?_, fun n hn i => ?_, fun n hn i => ?_⟩
    · rw [Nat.add_comm n (m + 3)]
      exact htime n
    · rw [Nat.add_comm n (m + 3)]
      exact hsame n
    · -- Until then the dispatcher waits, and resets the cores at the last edge.
      obtain ⟨⟨c₁, hrun₁, -, hd₁⟩, c₂, hrun₂, -, -, -, hd₂⟩ :=
        run_begun (N := N) (W := W) (T := T) life G mem₀ hfirst hbefore
      obtain hle | rfl | rfl : n ≤ m ∨ n = m + 1 ∨ n = m + 2 := by omega
      · obtain ⟨c, hrun, -, -, hd⟩ := run_waiting (N := N) (W := W) (T := T) life G mem₀ hbefore hle
        rw [hrun]
        show c.dispatcher.core_start i = false
        rw [hd]
        rfl
      · rw [hrun₁]
        show c₁.dispatcher.core_start i = false
        rw [hd₁]
        rfl
      · rw [hrun₂]
        show c₂.dispatcher.core_start i = false
        rw [hd₂]
        rfl
    · exact (isRun h₀ G t' mem₀).core_start_of_lt_two hn i
  · exact ⟨0, t, c, 0, h, fun _ => rfl, fun _ => rfl, fun n hn => absurd hn n.not_lt_zero,
      fun n hn => absurd hn n.not_lt_zero⟩

/-- Before the dispatcher has been started, the cores do nothing. From then on the run is one with a
reset. -/
theorem run_powerUp_cases (life : Lifetime) (G : Grid) (mem₀ : DataMemoryAddressT → DataT)
    (t : ℕ → ClusterTiming N W T) (n : ℕ) :
    (∃ c : Cluster N W T, run life G t (init .powerUp mem₀) n = init c mem₀ ∧ c.Dormant ∧
      (c.dispatcher.done = true → G.kernel_config.num_blocks = 0)) ∨
    ∃ (c : Cluster N W T) (t' : ℕ → ClusterTiming N W T) (k : ℕ), Starts life c ∧
      run life G t (init .powerUp mem₀) n = run life G t' (init c mem₀) k := by
  have hlow {c : Cluster N W T} (hd : c.dispatcher = .powerUp) :
      c.dispatcher.done = true → G.kernel_config.num_blocks = 0 := by
    rw [hd]
    exact fun h => absurd h Bool.false_ne_true
  by_cases hex : ∃ m, m < n ∧ (t m).execution_start = true
  · obtain ⟨hlt, hm⟩ := Nat.find_spec hex
    obtain ⟨m, hmin⟩ : ∃ m, m = Nat.find hex := ⟨_, rfl⟩
    rw [← hmin] at hlt hm
    have hbefore : ∀ k < m, (t k).execution_start = false := by
      intro k hk
      by_contra hstart
      exact Nat.find_min hex (hmin ▸ hk) ⟨by omega, by simpa using hstart⟩
    obtain ⟨⟨c₁, hrun₁, hc₁, hd₁⟩, c₂, hrun₂, hc₂, -, -, hd₂⟩ := run_begun life G mem₀ hm hbefore
    obtain rfl | rfl | hle : n = m + 1 ∨ n = m + 2 ∨ m + 3 ≤ n := by omega
    · exact .inl ⟨c₁, hrun₁, hc₁, hlow hd₁⟩
    · -- The dispatcher is done at once if there are no blocks.
      refine .inl ⟨c₂, hrun₂, hc₂, fun hdone => ?_⟩
      rw [hd₂] at hdone
      have hempty : 0 = G.kernel_config.num_blocks := of_decide_eq_true hdone
      exact hempty.symm
    · obtain ⟨k, rfl⟩ := Nat.exists_eq_add_of_le hle
      obtain ⟨c, t', h₀, -, hsame⟩ := run_powerUp life G mem₀ hm hbefore
      exact .inr ⟨c, t', k + 2, h₀, hsame k⟩
  · obtain ⟨c, hrun, hc, -, hd⟩ := run_waiting life G mem₀ (t := t) (m := n)
      (fun k hk => by simpa using fun hstart => hex ⟨k, hk, hstart⟩) le_rfl
    exact .inl ⟨c, hrun, hc, hlow hd⟩

/-- A run without a reset computes the same as one with a reset. -/
theorem computes_of_done_powerUp (t : ℕ → ClusterTiming N W T) (hrace : G.RaceFree mem₀ W T)
    (hsx : G.FullMaskSx mem₀ W T) {n : ℕ}
    (hdone : (run life G t (init .powerUp mem₀) n).cluster.dispatcher.done = true) :
    G.Computes mem₀ W T (run life G t (init .powerUp mem₀) n).mem := by
  rcases run_powerUp_cases life G mem₀ t n with ⟨c, hrun, -, hempty⟩ | ⟨c, t', k, h₀, hrun⟩
  · rw [hrun] at hdone ⊢
    exact Grid.computes_of_empty (hempty hdone)
  · rw [hrun] at hdone ⊢
    exact computes_of_done h₀ t' hrace hsx hdone

end Run

end ClusterSystem

end SmolGpu
