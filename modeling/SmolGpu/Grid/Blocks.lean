import SmolGpu.Gpu.Gpu
import SmolGpu.Grid.System

/-!
# Cores that run their blocks

A core that the dispatcher has started on a block runs it as a core would that is alone with a
memory of its own, in which only the block has stored (`alone`): what it reads is the same, since no
two lanes race, and special registers that are out of date are not read. So the relation of a single
core to the warps on their own (`CoreSystem.Tracks`) holds of every core at once, each with the
accesses and the instructions of its own block. `Runs` is this invariant. Both halves of an edge
keep it: `Runs.serve` and `Runs.clock`.
-/

namespace SmolGpu

open SharedMemory (Access ofGroup)

namespace Cluster

variable {N W T : ℕ} [NeZero W]

/-- The blocks of the started cores. -/
structure Jobs (num_blocks : DataT) (c : Cluster N W T) : Prop where
  /-- No block runs on two cores. -/
  unique : ∀ i j b, c.StartedOn i b → c.StartedOn j b → i = j
  /-- A block that runs has been handed out. -/
  lt : ∀ i b, c.StartedOn i b → b.toNat < c.dispatcher.blocks_dispatched.toNat
  /-- No more blocks are handed out than there are. -/
  le : c.dispatcher.blocks_dispatched.toNat ≤ num_blocks.toNat

omit [NeZero W] in
/-- A core is started on blocks of the kernel only. -/
theorem Jobs.lt_num_blocks {num_blocks : DataT} {c : Cluster N W T} (h : Jobs num_blocks c)
    {i : Fin N} {b : DataT} (hb : c.StartedOn i b) : b < num_blocks := by
  have hlt := h.lt i b hb
  have hle := h.le
  rw [BitVec.lt_def]
  omega

variable {life : Lifetime} {kernel_config : KernelConfig} {σ : ℕ → Cluster N W T}

/-- The jobs of the cores are right along a run. -/
theorem IsRun.jobs (h : IsRun life kernel_config σ) (n : ℕ) :
    Jobs kernel_config.num_blocks (σ n) := by
  refine ⟨fun i j b hi hj => ?_, fun i b hb => ?_, (h.ledger n).le_total⟩
  · obtain ⟨m, -, hm, -⟩ := h.handed_of_startedOn hi
    obtain ⟨m', -, hm', -⟩ := h.handed_of_startedOn hj
    exact (h.once hm hm').2
  · obtain ⟨m, hmn, hm, -⟩ := h.handed_of_startedOn hb
    have hlt := (h.handed_bounds hm).2
    have hmono := h.blocks_dispatched_mono (Nat.succ_le_of_lt hmn)
    exact hlt.trans_le hmono

/-- A block that has finished is not run again. -/
theorem IsRun.not_startedOn_of_finished (h : IsRun life kernel_config σ) {m n : ℕ} {i j : Fin N}
    {b : DataT} (hm : Finished σ m i b) (hlt : m < n) : ¬(σ n).StartedOn j b := by
  intro hb
  obtain ⟨hs, hi, hdone⟩ := hm
  obtain ⟨e, hem, he, -⟩ := h.handed_of_startedOn hi
  obtain ⟨e', -, he', hkept⟩ := h.handed_of_startedOn hb
  obtain ⟨rfl, rfl⟩ := h.once he he'
  -- The core is reset at the edge at which the dispatcher sees that it is done.
  have hstart := (hkept (m + 1) (by omega) (by omega)).1
  rcases h.edge m with ⟨hno, -⟩ | ⟨-, hedge⟩
  · exact absurd (hno.symm.trans hs) (by simp)
  · have hfin : Dispatcher.Finishing (fun i => ((σ m).core i).done) (σ m).dispatcher i := by
      simp [Dispatcher.Finishing, hi.1, hdone]
    exact absurd ((hedge.finished i hfin).2.symm.trans hstart) (by simp)

/-- The LSUs of a core that is not started are idle, and ask for nothing. -/
theorem IsRun.quiet_step (h : IsRun life kernel_config σ) {n : ℕ} {i : Fin N}
    (hs : (σ (n + 1)).dispatcher.core_start i = false) (l : Fin (T + 1)) :
    (((σ (n + 1)).core i).lsu l).lsu_state = .idle ∧
      (((σ (n + 1)).core i).lsu l).access = none := by
  obtain ⟨inp, hcore⟩ := h.core_step n i
  rw [hcore]
  rcases hr : (σ n).dispatcher.core_reset i with _ | _
  · have hi := ComputeCore.Invariant.of_reachable
      ((h.core_reachable n i).resolve_right (by simp [hr]))
    have hquiet : ((σ n).core i).start_execution = false ∨
        ((σ n).core i).start_execution = true ∧ ∀ w, ((σ n).core i).warp_state w = .done := by
      rcases hex : ((σ n).core i).start_execution with _ | _
      · exact .inl rfl
      · -- The core has been started, so the dispatcher has seen that it is done.
        have hstart := h.core_started n hr hex
        refine .inr ⟨rfl, ((h.doneOk n i).resolve_right (by simp [hr])).warps ?_⟩
        by_contra hnot
        have hkept := ((h.kept (b := (σ n).dispatcher.core_block_id i) ⟨hstart, rfl⟩).2
          (by simpa using hnot)).1
        exact absurd (hs.symm.trans hkept.1) (by simp)
    have hidle : ((coreStep life (coreIn inp (σ n) i) ((σ n).core i)).lsu l).lsu_state = .idle :=
      (Gpu.quiet_step hi hr hquiet).1 l
    exact ⟨hidle, hi.step.access_eq_none (by rw [hidle]; decide)⟩
  · rw [ComputeCore.step_reset_lsu hr]
    exact ⟨rfl, rfl⟩

end Cluster

namespace ClusterSystem

variable {N W T : ℕ} {G : Grid} {mem₀ : DataMemoryAddressT → DataT} {s : ClusterSystem N W T}
  {h : List (Agent W T × Access DataMemoryAddressT DataT)}
  {begun : DataT → Fin W → List (InstructionMemoryAddressT × InstructionT)}
  {x : Fin N × Fin (T + 1)} {e : Access DataMemoryAddressT DataT}

/-- Core `i`, as it would be if it ran block `b` alone. -/
def alone (G : Grid) (mem₀ : DataMemoryAddressT → DataT)
    (h : List (Agent W T × Access DataMemoryAddressT DataT)) (s : ClusterSystem N W T) (i : Fin N)
    (b : DataT) : CoreSystem W T where
  core := (s.cluster.core i).assignSpecials G.kernel_config b
  mem := SharedMemory.after mem₀ (ofGroup b h)
  reply := s.reply i

/-- Core `i` runs block `b`, whose warps have begun the instructions `begun`. -/
def RunsBlock (G : Grid) (mem₀ : DataMemoryAddressT → DataT)
    (h : List (Agent W T × Access DataMemoryAddressT DataT)) (s : ClusterSystem N W T) (i : Fin N)
    (b : DataT) (begun : Fin W → List (InstructionMemoryAddressT × InstructionT)) : Prop :=
  ∃ k, CoreSystem.Tracks (G.block b) mem₀ (s.alone G mem₀ h i b) (ofGroup b h) begun k

/-- Every started core runs its block, and the accesses `h` and the instructions `begun` are
theirs. -/
structure Runs (G : Grid) (mem₀ : DataMemoryAddressT → DataT) (s : ClusterSystem N W T)
    (h : List (Agent W T × Access DataMemoryAddressT DataT))
    (begun : DataT → Fin W → List (InstructionMemoryAddressT × InstructionT)) : Prop where
  /-- The memory is what the accesses leave. -/
  mem : s.mem = SharedMemory.after mem₀ h
  /-- The accesses are those of the kernel. -/
  made : ∀ e ∈ h, G.Makes mem₀ e.1 e.2
  /-- Every started core runs its block. -/
  started : ∀ i b, s.cluster.StartedOn i b → s.RunsBlock G mem₀ h i b (begun b)
  /-- The other cores ask for nothing. -/
  quiet : ∀ i, s.cluster.dispatcher.core_start i = false →
    ∀ l, ((s.cluster.core i).lsu l).access = none
  /-- A lane that asks for nothing has no answer on its way. -/
  reply : ∀ i l, ((s.cluster.core i).lsu l).access = none → s.reply i l = none
  /-- Nothing was done for a block that has not been handed out. -/
  fresh : ∀ b : DataT, s.cluster.dispatcher.blocks_dispatched.toNat ≤ b.toNat →
    ofGroup b h = [] ∧ begun b = fun _ => []

/-! ## The memory's half of an edge -/

/-- A pending access is that of its LSU. -/
theorem access_of_pending (hp : s.pending x = some e) :
    ((s.cluster.core x.1).lsu x.2).access = some e := by
  unfold pending CoreSystem.pending at hp
  split_ifs at hp
  exact hp

/-- A lane with an access pending belongs to a core that is started on its block. -/
theorem Runs.startedOn (hs : Runs G mem₀ s h begun) (hp : s.pending x = some e) :
    s.cluster.StartedOn x.1 (s.cluster.dispatcher.core_block_id x.1) := by
  refine ⟨?_, rfl⟩
  by_contra hno
  have hquiet := hs.quiet x.1 (by simpa using hno) x.2
  exact absurd ((access_of_pending hp).symm.trans hquiet) (by simp)

/-- An access that a lane asks for is one that its agent makes. -/
theorem Runs.makes_of_pending (hs : Runs G mem₀ s h begun)
    (hjobs : s.cluster.Jobs G.kernel_config.num_blocks) (hp : s.pending x = some e) :
    G.Makes mem₀ (s.agent x) e := by
  have hstarted := hs.startedOn hp
  obtain ⟨k, ht⟩ := hs.started x.1 _ hstarted
  exact ht.makes (hjobs.lt_num_blocks hstarted) hp

/-- The other lanes have the words that they had. -/
theorem reply_serveOne_of_ne {y : Fin N × Fin (T + 1)} (hne : y ≠ x) :
    (s.serveOne (x, e)).reply y.1 y.2 = s.reply y.1 y.2 := by
  show Function.update s.reply x.1 (Function.update (s.reply x.1) x.2 _) y.1 y.2 = _
  by_cases hcore : y.1 = x.1
  · have hlane : y.2 ≠ x.2 := fun heq => hne (Prod.ext hcore heq)
    rw [hcore, Function.update_self, Function.update_of_ne hlane]
  · rw [Function.update_of_ne hcore]

/-- The core itself is answered as if it were alone. -/
theorem alone_serveOne_self (hmem : s.mem = SharedMemory.after mem₀ h) {i : Fin N} {l : Fin (T + 1)}
    {b : DataT} {w : Fin W} (hfree : SharedMemory.RaceFree (h ++ [((b, w, l), e)])) :
    (s.serveOne ((i, l), e)).alone G mem₀ (h ++ [((b, w, l), e)]) i b =
      (s.alone G mem₀ h i b).serveOne (l, e) := by
  unfold alone CoreSystem.serveOne serveOne
  simp only [SharedMemory.ofGroup_append_self, SharedMemory.after_append_singleton,
    Function.update_self, hfree.word_ofGroup mem₀, hmem]

/-- Another core does not notice. -/
theorem alone_serveOne_of_ne {i j : Fin N} (hji : j ≠ i) {l : Fin (T + 1)} {b c : DataT}
    (hbc : b ≠ c) (w : Fin W) :
    (s.serveOne ((i, l), e)).alone G mem₀ (h ++ [((b, w, l), e)]) j c =
      s.alone G mem₀ h j c := by
  unfold alone serveOne
  simp only [SharedMemory.ofGroup_append_of_ne hbc, Function.update_of_ne hji]

/-- An access that a lane asks for is performed. -/
theorem Runs.serveOne (hs : Runs G mem₀ s h begun)
    (hjobs : s.cluster.Jobs G.kernel_config.num_blocks) (hrace : G.RaceFree mem₀ W T)
    (hp : s.pending x = some e) :
    Runs G mem₀ (s.serveOne (x, e)) (h ++ [(s.agent x, e)]) begun := by
  obtain ⟨i, l⟩ := x
  obtain ⟨b, hb⟩ : ∃ b, b = s.cluster.dispatcher.core_block_id i := ⟨_, rfl⟩
  have hstarted : s.cluster.StartedOn i b := hb ▸ hs.startedOn hp
  have hagent : s.agent (i, l) = (b, (s.cluster.core i).current_warp, l) := by rw [hb]; rfl
  obtain ⟨k, ht⟩ := hs.started i b hstarted
  have hp' : (s.alone G mem₀ h i b).pending l = some e := hp
  have hmakes : G.Makes mem₀ (b, (s.cluster.core i).current_warp, l) e :=
    hagent ▸ hs.makes_of_pending hjobs hp
  have hmade : ∀ f ∈ h ++ [((b, (s.cluster.core i).current_warp, l), e)],
      G.Makes mem₀ f.1 f.2 := by
    intro f hf
    rw [List.mem_append, List.mem_singleton] at hf
    rcases hf with hf | rfl
    · exact hs.made f hf
    · exact hmakes
  have hfree := hrace.raceFree hmade
  rw [hagent]
  refine ⟨?_, hmade, fun j c hj => ?_, hs.quiet, fun j l' hl' => ?_, fun c hc => ?_⟩
  · rw [SharedMemory.after_append_singleton, ← hs.mem]
    rfl
  · have hj : s.cluster.StartedOn j c := hj
    rcases eq_or_ne c b with rfl | hne
    · -- The core whose lane is served.
      obtain rfl := hjobs.unique j i c hj hstarted
      have hgroup := hfree.ofGroup c
      rw [SharedMemory.ofGroup_append_self] at hgroup
      refine ⟨k, ?_⟩
      rw [alone_serveOne_self hs.mem hfree, SharedMemory.ofGroup_append_self]
      exact ht.serveOne hp' hgroup
    · -- A core that runs another block.
      have hji : j ≠ i := by
        rintro rfl
        exact hne (hj.2.symm.trans hstarted.2)
      unfold RunsBlock
      rw [alone_serveOne_of_ne hji hne.symm, SharedMemory.ofGroup_append_of_ne hne.symm]
      exact hs.started j c hj
  · have hl' : ((s.cluster.core j).lsu l').access = none := hl'
    have hne : (j, l') ≠ (i, l) := by
      rintro ⟨⟩
      exact absurd ((access_of_pending hp).symm.trans hl') (by simp)
    exact (reply_serveOne_of_ne hne).trans (hs.reply j l' hl')
  · have hc : s.cluster.dispatcher.blocks_dispatched.toNat ≤ c.toNat := hc
    have hne : b ≠ c := by
      rintro rfl
      have hlt := hjobs.lt i b hstarted
      omega
    rw [SharedMemory.ofGroup_append_of_ne hne]
    exact hs.fresh c hc

/-- The other lanes go on asking for what they asked for. -/
theorem pending_serveOne_of_ne {y : Fin N × Fin (T + 1)} (hne : y ≠ x) :
    (s.serveOne (x, e)).pending y = s.pending y := by
  have hreply := reply_serveOne_of_ne (s := s) (e := e) hne
  show (if ((s.serveOne (x, e)).reply y.1 y.2).isSome then none else _) =
    if (s.reply y.1 y.2).isSome then none else _
  rw [hreply]
  rfl

/-- The accesses of an edge, one after the other. -/
theorem Runs.serveList (hs : Runs G mem₀ s h begun)
    (hjobs : s.cluster.Jobs G.kernel_config.num_blocks) (hrace : G.RaceFree mem₀ W T)
    (es : List ((Fin N × Fin (T + 1)) × Access DataMemoryAddressT DataT))
    (hp : ∀ e ∈ es, s.pending e.1 = some e.2) (hnodup : (es.map Prod.fst).Nodup) :
    Runs G mem₀ (es.foldl ClusterSystem.serveOne s)
      (h ++ es.map fun e => (s.agent e.1, e.2)) begun := by
  induction es generalizing s h with
  | nil => simpa using hs
  | cons e es ih =>
    -- The first access leaves the other lanes waiting for theirs.
    have hone := hs.serveOne hjobs hrace (hp e (by simp))
    rw [List.map_cons, List.nodup_cons] at hnodup
    have hlist : h ++ (e :: es).map (fun e => (s.agent e.1, e.2)) =
        h ++ [(s.agent e.1, e.2)] ++ es.map fun e => (s.agent e.1, e.2) := by
      simp
    rw [hlist]
    refine ih hone hjobs (fun f hf => ?_) hnodup.2
    have hne : f.1 ≠ e.1 := by
      intro heq
      exact hnodup.1 (heq ▸ List.mem_map_of_mem hf)
    exact (pending_serveOne_of_ne hne).trans (hp f (List.mem_cons_of_mem _ hf))

/-- What is served was pending. -/
theorem pending_of_mem_served {t : ClusterTiming N W T}
    {e : (Fin N × Fin (T + 1)) × Access DataMemoryAddressT DataT} (he : e ∈ served t s) :
    s.pending e.1 = some e.2 := by
  unfold served at he
  rw [List.mem_filterMap] at he
  obtain ⟨x, -, hx⟩ := he
  rw [Option.map_eq_some_iff] at hx
  obtain ⟨a, ha, rfl⟩ := hx
  exact ha

/-- The accesses of an edge are those of different lanes. -/
theorem nodup_served (t : ClusterTiming N W T) (s : ClusterSystem N W T) :
    ((served t s).map Prod.fst).Nodup :=
  SharedMemory.nodup_asked (List.nodup_dedup _) _

/-- The memory's half of an edge leaves the cluster alone. -/
@[simp] theorem serve_cluster (t : ClusterTiming N W T) (s : ClusterSystem N W T) :
    (s.serve t).cluster = s.cluster := by
  unfold serve
  generalize served t s = es
  induction es generalizing s with
  | nil => rfl
  | cons e es ih => exact ih (s.serveOne e)

/-- The memory's half of an edge. -/
theorem Runs.serve (hs : Runs G mem₀ s h begun)
    (hjobs : s.cluster.Jobs G.kernel_config.num_blocks) (hrace : G.RaceFree mem₀ W T)
    (t : ClusterTiming N W T) :
    Runs G mem₀ (s.serve t) (h ++ (served t s).map fun e => (s.agent e.1, e.2)) begun :=
  hs.serveList hjobs hrace (served t s) (fun _ he => pending_of_mem_served he) (nodup_served t s)

/-! ## The cluster's half of an edge -/

/-- While no core is started on a block, its warps begin nothing. -/
theorem begins_of_not_startedOn {b : DataT} (hb : ∀ i, ¬s.cluster.StartedOn i b) (w : Fin W) :
    s.begins G b w = [] := by
  unfold begins
  rw [List.map_eq_nil_iff, List.filter_eq_nil_iff]
  intro i _
  simp [hb i]

/-- The memory's half of an edge does not matter for what is begun at it. -/
theorem begins_serve (t : ClusterTiming N W T) (s : ClusterSystem N W T) (b : DataT) (w : Fin W) :
    (s.serve t).begins G b w = s.begins G b w := by
  unfold begins core CoreSystem.Begins
  rw [serve_cluster]
  rfl

/-- The warps of a block begin instructions on the core that runs it only. -/
theorem begins_of_startedOn (hjobs : s.cluster.Jobs G.kernel_config.num_blocks) {i : Fin N}
    {b : DataT} (hb : s.cluster.StartedOn i b) (w : Fin W) :
    s.begins G b w = if (s.core s.mem i).Begins w then
      [((s.cluster.core i).pc w, G.program ((s.cluster.core i).pc w))] else [] := by
  unfold begins
  -- The block has no other core, so the list has at most one entry.
  by_cases hw : (s.core s.mem i).Begins w
  · have hcores : (List.finRange N).filter (fun j => decide (s.cluster.StartedOn j b ∧
        (s.core s.mem j).Begins w)) = (List.finRange N).filter (· == i) := by
      refine List.filter_congr fun j _ => ?_
      rw [Bool.eq_iff_iff, decide_eq_true_eq, beq_iff_eq]
      constructor
      · exact fun hj => hjobs.unique j i b hj.1 hb
      · rintro rfl
        exact ⟨hb, hw⟩
    rw [hcores, List.filter_beq, List.count_eq_one_of_mem (List.nodup_finRange N)
      (List.mem_finRange i), if_pos hw]
    rfl
  · rw [if_neg hw, List.map_eq_nil_iff, List.filter_eq_nil_iff]
    intro j _
    rw [decide_eq_true_eq]
    rintro ⟨hj, hwj⟩
    obtain rfl := hjobs.unique j i b hj hb
    exact hw hwj

/-- They are those that the core begins when it is alone. -/
theorem begins_eq_alone (mem₀ : DataMemoryAddressT → DataT)
    (h : List (Agent W T × Access DataMemoryAddressT DataT))
    (hjobs : s.cluster.Jobs G.kernel_config.num_blocks) {i : Fin N} {b : DataT}
    (hb : s.cluster.StartedOn i b) (t : ClusterTiming N W T) (w : Fin W) :
    s.begins G b w = if (s.alone G mem₀ h i b).Begins w then
      [((s.alone G mem₀ h i b).core.pc w, (CoreSystem.coreIn (G.block b) (coreTiming t i)
        (s.alone G mem₀ h i b)).fetched_instruction w)] else [] := by
  rw [begins_of_startedOn hjobs hb]
  by_cases hw : (s.core s.mem i).Begins w
  · have hword : (CoreSystem.coreIn (G.block b) (coreTiming t i)
        (s.alone G mem₀ h i b)).fetched_instruction w = G.program ((s.cluster.core i).pc w) :=
      if_pos hw.2
    rw [hword, if_pos hw]
    exact (if_pos hw).symm
  · rw [if_neg hw]
    exact (if_neg hw).symm

section Clock

variable [NeZero W] {life : Lifetime} {t : ClusterTiming N W T}

/-- A started core that keeps its block takes the edge as if it were alone. -/
theorem alone_clock (life : Lifetime) (mem₀ : DataMemoryAddressT → DataT)
    (h : List (Agent W T × Access DataMemoryAddressT DataT)) (t : ClusterTiming N W T) {i : Fin N}
    {b : DataT} (hr : s.cluster.dispatcher.core_reset i = false)
    (hb : s.cluster.StartedOn i b) (hconfig : s.cluster.kernel_config_reg = G.kernel_config)
    (hread : (s.cluster.core i).current_warp_state = .request → ∀ l r, ¬4 ≤ r →
      ((s.cluster.core i).reg_file (s.cluster.core i).current_warp l).registers r =
        ComputeCore.specials G.kernel_config (s.cluster.core i).current_warp l b r) :
    (s.clock life G t).alone G mem₀ h i b =
      (s.alone G mem₀ h i b).clock life (G.block b) (coreTiming t i) := by
  obtain ⟨hstart, rfl⟩ := hb
  -- The core's inputs are those of a core that is alone with its block.
  have hin : Cluster.coreIn (clusterIn G t s) s.cluster i =
      CoreSystem.coreIn (G.block (s.cluster.dispatcher.core_block_id i)) (coreTiming t i)
        (s.alone G mem₀ h i (s.cluster.dispatcher.core_block_id i)) := by
    unfold Cluster.coreIn CoreSystem.coreIn
    rw [hr, hstart, hconfig]
    rfl
  -- Its registers are, too, but for special registers that are out of date, and these are not read.
  have hcore : ((s.clock life G t).cluster.core i).assignSpecials G.kernel_config
        (s.cluster.dispatcher.core_block_id i) =
      coreStep life (CoreSystem.coreIn (G.block (s.cluster.dispatcher.core_block_id i))
        (coreTiming t i) (s.alone G mem₀ h i (s.cluster.dispatcher.core_block_id i)))
        ((s.cluster.core i).assignSpecials G.kernel_config
          (s.cluster.dispatcher.core_block_id i)) := by
    rw [← hin]
    exact (ComputeCore.coreStep_assignSpecials hr hconfig rfl hread).symm
  unfold alone CoreSystem.clock
  rw [hcore]
  simp only [CoreSystem.mk.injEq, true_and]
  -- An answer stays on its way while its lane asks.
  refine ⟨rfl, funext fun l => ?_⟩
  have hlane := congrArg
    (fun c => if (ComputeCore.lsu c l).access.isSome then s.reply i l else none) hcore
  exact hlane

variable {σ : ℕ → Cluster N W T} {n : ℕ}

/-- A core that is handed a block runs it. -/
theorem Runs.handed (hs : Runs G mem₀ s h begun) (hrun : Cluster.IsRun life G.kernel_config σ)
    (hn : s.cluster = σ n) {i : Fin N} {b : DataT} (hb : Cluster.Handed σ n i b) :
    (s.clock life G t).RunsBlock G mem₀ h i b (begun b) := by
  -- The block is new, so nothing has been done for it.
  obtain ⟨hr, -⟩ := hrun.of_handed hb
  obtain ⟨hfresh, hnone⟩ := hs.fresh b (by rw [hn]; exact (hrun.handed_bounds hb).1)
  -- Blocks are handed out after the start only, when the configuration has been saved.
  have hstarted : (σ n).start_execution = true := by
    obtain ⟨hnot, hst, hid⟩ := hb
    rcases hrun.edge n with ⟨-, heq⟩ | ⟨hs, -⟩
    · rw [heq] at hst hid
      exact absurd ⟨hst, hid⟩ hnot
    · exact hs
  have hconfig : s.cluster.kernel_config_reg = G.kernel_config := by
    rw [hn]
    exact hrun.kernel_config_reg n hstarted
  -- The core is reset at this edge, and so starts the block like a core of its own.
  have hreset : (Cluster.coreIn (clusterIn G t s) s.cluster i).reset = true := by
    show s.cluster.dispatcher.core_reset i = true
    rw [hn, hr]
  have hcore : ((s.clock life G t).cluster.core i).assignSpecials G.kernel_config b =
      coreStep life { Cluster.coreIn (clusterIn G t s) s.cluster i with block_id := b }
        (s.cluster.core i) :=
    ComputeCore.coreStep_reset_assignSpecials hreset hconfig
  have hafter : CoreSystem.AfterReset life (G.block b)
      (((s.clock life G t).cluster.core i).assignSpecials G.kernel_config b) :=
    ⟨{ Cluster.coreIn (clusterIn G t s) s.cluster i with block_id := b }, s.cluster.core i, hreset,
      hconfig, rfl, hcore⟩
  have hreply : (s.clock life G t).reply i = fun _ => none := by
    funext l
    have hlsu : (((s.clock life G t).cluster.core i).lsu l) = Lsu.resetState :=
      ComputeCore.step_reset_lsu hreset l
    show (if (((s.clock life G t).cluster.core i).lsu l).access.isSome then _ else _) = none
    rw [hlsu]
    rfl
  refine ⟨fun _ => 0, ?_⟩
  unfold alone
  rw [hfresh, hnone, hreply]
  exact hafter.tracks

/-- The cluster's half of an edge. -/
theorem Runs.clock (hs : Runs G mem₀ s h begun) (hrun : Cluster.IsRun life G.kernel_config σ)
    (hn : s.cluster = σ n) (hn' : (s.clock life G t).cluster = σ (n + 1))
    (hsx : G.FullMaskSx mem₀ W T) :
    Runs G mem₀ (s.clock life G t) h fun b w => begun b w ++ s.begins G b w := by
  have hjobs : s.cluster.Jobs G.kernel_config.num_blocks := hn ▸ hrun.jobs n
  have hfresh {b : DataT} (hb : s.cluster.dispatcher.blocks_dispatched.toNat ≤ b.toNat)
      (w : Fin W) : s.begins G b w = [] := by
    refine begins_of_not_startedOn (fun i hi => ?_) w
    have hlt := hjobs.lt i b hi
    omega
  refine ⟨hs.mem, hs.made, fun i b hb => ?_, fun i hi l => ?_, fun i l hl => ?_, fun b hb => ?_⟩
  · rw [hn'] at hb
    by_cases hold : (σ n).StartedOn i b
    · -- The core keeps its block, and takes the edge as if it were alone.
      obtain ⟨hr, -⟩ := hrun.kept hold
      have hold' : s.cluster.StartedOn i b := hn ▸ hold
      have hclock := alone_clock life mem₀ h t (hn ▸ hr) hold'
        (hn ▸ hrun.kernel_config_reg n (hrun.execution_started hold))
        (hn ▸ fun hreq l r hlt => hrun.special_of_request hr hreq hold l hlt)
      obtain ⟨k, ht⟩ := hs.started i b hold'
      have hlt : b < G.kernel_config.num_blocks := hjobs.lt_num_blocks hold'
      obtain ⟨k', ht'⟩ := ht.clock life (coreTiming t i) fun w hw hinst =>
        ht.fullMask hlt hsx hw hinst
      refine ⟨k', ?_⟩
      simp only [begins_eq_alone mem₀ h hjobs hold' t]
      rw [hclock]
      exact ht'
    · -- The core is handed the block, none of whose warps has begun.
      have hhanded := hs.handed (t := t) hrun hn ⟨hold, hb⟩
      have hnone (w : Fin W) : s.begins G b w = [] :=
        hfresh (by rw [hn]; exact (hrun.handed_bounds ⟨hold, hb⟩).1) w
      simpa only [hnone, List.append_nil] using hhanded
  · rw [hn'] at hi ⊢
    exact (hrun.quiet_step hi l).2
  · show (if (((s.clock life G t).cluster.core i).lsu l).access.isSome then _ else _) = none
    rw [hl]
    rfl
  · rw [hn'] at hb
    have hmono := hrun.blocks_dispatched_mono (Nat.le_succ n)
    have hb' : s.cluster.dispatcher.blocks_dispatched.toNat ≤ b.toNat := hn ▸ hmono.trans hb
    obtain ⟨hgroup, hnone⟩ := hs.fresh b hb'
    refine ⟨hgroup, funext fun w => ?_⟩
    rw [hnone, hfresh hb' w]
    rfl

end Clock

/-! ## The run -/

section Run

variable [NeZero W] {life : Lifetime} {c : Cluster N W T} {t : ℕ → ClusterTiming N W T}

/-- At the start no core runs a block. -/
theorem Starts.runs (h₀ : Starts life c) (G : Grid) (mem₀ : DataMemoryAddressT → DataT) :
    Runs G mem₀ (init c mem₀) [] fun _ _ => [] := by
  have hstop (i : Fin N) : c.dispatcher.core_start i = false := by
    obtain ⟨inp, c₀, hr, hc⟩ := h₀.reset
    rw [hc]
    show (dispatcherStep (Cluster.dispatcherIn inp c₀) c₀.dispatcher).core_start i = false
    rw [Dispatcher.step_reset hr]
    rfl
  refine ⟨rfl, by simp, fun i b hb => ?_, fun i _ => h₀.quiet i, fun _ _ _ => rfl,
    fun _ _ => ⟨rfl, rfl⟩⟩
  have hst : c.dispatcher.core_start i = true := hb.1
  exact absurd ((hstop i).symm.trans hst) (by simp)

/-- The cluster of a run runs as it does on its own. -/
theorem isRun (h₀ : Starts life c) (G : Grid) (t : ℕ → ClusterTiming N W T)
    (mem₀ : DataMemoryAddressT → DataT) : Cluster.IsRun life G.kernel_config
      fun n => (ClusterSystem.run life G t (init c mem₀) n).cluster := by
  refine ⟨h₀.reset, fun n => ⟨clusterIn G (t n)
    ((ClusterSystem.run life G t (init c mem₀) n).serve (t n)), rfl, rfl, ?_⟩⟩
  show clusterStep life (clusterIn G (t n) _) (serve (t n) _).cluster = _
  rw [serve_cluster]
  rfl

/-- Without races, and with no thread masked off for an `sx`, every started core of a run runs its
block. -/
theorem Runs.run (h₀ : Starts life c) (t : ℕ → ClusterTiming N W T) (hrace : G.RaceFree mem₀ W T)
    (hsx : G.FullMaskSx mem₀ W T) (n : ℕ) :
    Runs G mem₀ (ClusterSystem.run life G t (init c mem₀) n) (history life G t (init c mem₀) n)
      (executed life G t (init c mem₀) n) := by
  have hrun := isRun h₀ G t mem₀
  induction n with
  | zero => exact h₀.runs G mem₀
  | succ n ih =>
    have hserve := ih.serve (hrun.jobs n) hrace (t n)
    have hclock := hserve.clock (t := t n) hrun (serve_cluster _ _) rfl hsx
    simp only [begins_serve] at hclock
    exact hclock

/-- The accesses of a block that has finished are over. -/
theorem ofGroup_history_of_finished (h₀ : Starts life c) (t : ℕ → ClusterTiming N W T)
    (hrace : G.RaceFree mem₀ W T) (hsx : G.FullMaskSx mem₀ W T) {m n : ℕ} {i : Fin N} {b : DataT}
    (hm : Cluster.Finished
      (fun n => (ClusterSystem.run life G t (init c mem₀) n).cluster) m i b) (hmn : m < n) :
    ofGroup b (history life G t (init c mem₀) (n + 1)) =
      ofGroup b (history life G t (init c mem₀) n) := by
  have hrun := isRun h₀ G t mem₀
  have hruns := Runs.run h₀ t hrace hsx n
  show List.filterMap _ (history life G t (init c mem₀) n ++ _) = _
  rw [List.filterMap_append]
  refine (congrArg _ ?_).trans (List.append_nil _)
  rw [List.filterMap_map, List.filterMap_eq_nil_iff]
  intro e he
  have hstarted := hruns.startedOn (pending_of_mem_served he)
  refine if_neg fun heq => ?_
  have heq :
      (ClusterSystem.run life G t (init c mem₀) n).cluster.dispatcher.core_block_id e.1.1 = b := heq
  rw [heq] at hstarted
  exact hrun.not_startedOn_of_finished hm hmn hstarted

end Run

end ClusterSystem

end SmolGpu
