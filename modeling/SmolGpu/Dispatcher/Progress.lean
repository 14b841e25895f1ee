import SmolGpu.Dispatcher.SpecialRegisters
import SmolGpu.Library.Eventually

/-!
# The dispatcher gets to the end

If every core that is given a block is done with it some time, all blocks are handed out and finish
(`IsRun.all_finished`): a core that is not started is being reset, and is given the next block, or
the blocks have run out. Whether `done` is ever set is another matter. It is if no two cores finish
in one cycle, and otherwise never (`IsRun.done_iff`), since a completion that is not counted is lost
for good.
-/

namespace SmolGpu

open Filter

namespace Dispatcher

variable {N : ℕ} {kernel_config : KernelConfig} {start : ℕ → Bool} {core_done : ℕ → Fin N → Bool}
  {m n : ℕ}

/-- Finished blocks stay finished. -/
theorem finishedBlocks_mono (hmn : m ≤ n) : finishedBlocks kernel_config start core_done m ⊆
    finishedBlocks kernel_config start core_done n :=
  Finset.biUnion_subset_biUnion_of_subset_left _ (Finset.range_mono hmn)

/-- The counter falls behind when two cores finish in a cycle, and does not catch up. -/
theorem blocks_done_lt (hs : start m = true)
    (htwo : 2 ≤ completions (core_done m) (trace kernel_config start core_done m)) (hmn : m < n) :
    (trace kernel_config start core_done n).blocks_done.toNat <
      (finishedBlocks kernel_config start core_done n).card := by
  -- An edge adds one to the counter, however many cores finish.
  have hinc (k : ℕ) : (trace kernel_config start core_done (k + 1)).blocks_done.toNat ≤
      (trace kernel_config start core_done k).blocks_done.toNat + 1 := by
    rw [blocks_done_succ]
    split_ifs
    · rw [BitVec.toNat_add]
      exact Nat.mod_le _ _
    · omega
  induction n, hmn using Nat.le_induction with
  | base =>
    have hledger := ledger_trace kernel_config start core_done m
    have hle := hledger.blocks_done_le
    have hnext := hinc m
    show (trace kernel_config start core_done (m + 1)).blocks_done.toNat <
      (finishedBlocks kernel_config start core_done (m + 1)).card
    rw [finishedBlocks_succ, if_pos hs, hledger.card_finish]
    omega
  | succ n hmn ih =>
    have hledger := ledger_trace kernel_config start core_done n
    have hnext := hinc n
    rw [finishedBlocks_succ]
    by_cases hcount : start n = true ∧
        0 < completions (core_done n) (trace kernel_config start core_done n)
    · rw [if_pos hcount.1, hledger.card_finish]
      omega
    · rw [blocks_done_succ, if_neg hcount]
      exact ih.trans_le (Finset.card_le_card Finset.subset_union_left)

/-- When `done` is set, the counter has been at the number of blocks. -/
theorem exists_blocks_done (h : (trace kernel_config start core_done n).done = true) :
    ∃ k < n, (trace kernel_config start core_done k).blocks_done = kernel_config.num_blocks := by
  induction n with
  | zero => cases h
  | succ n ih =>
    have hledger := ledger_trace kernel_config start core_done n
    have hbefore (hdone : (trace kernel_config start core_done n).done = true) :
        ∃ k < n + 1, (trace kernel_config start core_done k).blocks_done =
          kernel_config.num_blocks := by
      obtain ⟨k, hk, hreached⟩ := ih hdone
      exact ⟨k, by omega, hreached⟩
    rw [trace_succ] at h
    rcases hs : start n with _ | _
    · rw [hs, step_stopped rfl rfl] at h
      exact hbefore h
    · have he := step_edge ⟨false, true, kernel_config, core_done n⟩ rfl rfl hledger.flags
        hledger.le_total
      rw [hs, he.done] at h
      split_ifs at h with hreached
      · exact ⟨n, by omega, hreached⟩
      · exact hbefore h

/-- After that no core finishes any more. -/
theorem completions_of_blocks_done
    (h : (trace kernel_config start core_done m).blocks_done = kernel_config.num_blocks)
    (hmn : m ≤ n) : completions (core_done n) (trace kernel_config start core_done n) = 0 := by
  have hcount := (ledger_trace kernel_config start core_done m).blocks_done_le
  rw [h] at hcount
  have hledger := ledger_trace kernel_config start core_done n
  have hall := hledger.eq_range (hcount.trans (Finset.card_le_card (finishedBlocks_mono hmn)))
  have hcard : (finishedBlocks kernel_config start core_done n ∪ finishing (core_done n) _).card =
      _ + completions (core_done n) _ := hledger.card_finish
  rw [hledger.finishing_eq_empty hall, Finset.union_empty] at hcard
  omega

/-- So `done` is never set if two cores finish in a cycle. -/
theorem not_done_of_two (kernel_config : KernelConfig) (start : ℕ → Bool)
    (core_done : ℕ → Fin N → Bool) (hs : start m = true)
    (htwo : 2 ≤ completions (core_done m) (trace kernel_config start core_done m)) (n : ℕ) :
    (trace kernel_config start core_done n).done = false := by
  by_contra hdone
  obtain ⟨k, -, hreached⟩ := exists_blocks_done (by simpa using hdone)
  rcases Nat.lt_or_ge m k with hlt | hle
  · have hledger := ledger_trace kernel_config start core_done k
    have hbehind := blocks_done_lt hs htwo hlt
    have hle := hledger.card_le.trans hledger.le_total
    rw [hreached] at hbehind
    omega
  · have hnone := completions_of_blocks_done hreached hle
    omega

end Dispatcher

namespace Cluster

/-- The dispatcher never sees two cores finish at one edge. -/
def FinishApart {N W T : ℕ} (σ : ℕ → Cluster N W T) : Prop :=
  ∀ m i j b c, Finished σ m i b → Finished σ m j c → i = j

variable {N W T : ℕ} [NeZero W] {life : Lifetime} {kernel_config : KernelConfig}
  {σ : ℕ → Cluster N W T}

/-- An execution that has started goes on. -/
theorem IsRun.execution_persists (h : IsRun life kernel_config σ) {m n : ℕ}
    (hs : (σ m).start_execution = true) (hmn : m ≤ n) : (σ n).start_execution = true := by
  induction n, hmn using Nat.le_induction with
  | base => exact hs
  | succ n _ ih =>
    obtain ⟨inp, hr, -, hstep⟩ := h.step n
    rw [hstep]
    exact step_start_execution hr (.inr ih)

/-- The hand-overs come to an end. -/
theorem IsRun.no_handover (h : IsRun life kernel_config σ) :
    ∀ᶠ n in atTop, ∀ i b, ¬Handed σ n i b := by
  have hconst := Eventually.const_of_ge (f := fun n => (σ n).dispatcher.blocks_dispatched.toNat)
    (.of_forall fun n => (h.ledger n).le_total)
    (.of_forall fun n => h.blocks_dispatched_mono n.le_succ)
  filter_upwards [hconst] with n hn i b hb
  have hbounds := h.handed_bounds hb
  omega

/-- So a core is kept started at last, or stopped. -/
theorem IsRun.core_decided (h : IsRun life kernel_config σ) (i : Fin N) :
    (∀ᶠ n in atTop, (σ n).dispatcher.core_start i = false) ∨
      ∀ᶠ n in atTop, (σ n).dispatcher.core_start i = true := by
  have hkeep : ∀ᶠ n in atTop, (σ n).dispatcher.core_start i = false →
      (σ (n + 1)).dispatcher.core_start i = false := by
    filter_upwards [h.no_handover] with n hn hs
    by_contra hstart
    refine hn i _ ⟨fun hb => ?_, by simpa using hstart, rfl⟩
    exact absurd (hs.symm.trans hb.1) (by simp)
  exact (Eventually.or_not hkeep).imp_right fun hstart => hstart.mono fun _ hn => by simpa using hn

/-- A core that is kept started stays with one block at last. -/
theorem IsRun.exists_startedOn (h : IsRun life kernel_config σ) {i : Fin N}
    (hstart : ∀ᶠ n in atTop, (σ n).dispatcher.core_start i = true) :
    ∃ b, ∀ᶠ n in atTop, (σ n).StartedOn i b := by
  have hconst : ∀ᶠ n in atTop,
      (σ (n + 1)).dispatcher.core_block_id i = (σ n).dispatcher.core_block_id i := by
    filter_upwards [h.no_handover, Eventually.succ hstart] with n hn hnext
    by_contra hne
    refine hn i _ ⟨fun hb => ?_, hnext, rfl⟩
    exact hne hb.2.symm
  obtain ⟨b, hb⟩ := Eventually.exists_eq (v := fun n => (σ n).dispatcher.core_block_id i) hconst
  exact ⟨b, hstart.and hb⟩

/-- A core that is neither started nor being reset has found no block left. -/
theorem IsRun.spent (h : IsRun life kernel_config σ) {n : ℕ} {i : Fin N}
    (hs : (σ n).dispatcher.core_start i = false) (hr : (σ n).dispatcher.core_reset i = false) :
    (σ n).dispatcher.blocks_dispatched = kernel_config.num_blocks := by
  induction n with
  | zero => exact absurd ((h.core_reset_zero i).symm.trans hr) (by simp)
  | succ n ih =>
    rcases h.edge n with ⟨-, heq⟩ | ⟨-, he⟩
    · rw [heq] at hs hr ⊢
      exact ih hs hr
    · rcases hr' : (σ n).dispatcher.core_reset i with _ | _
      · by_cases hfin : Dispatcher.Finishing (fun i => ((σ n).core i).done) (σ n).dispatcher i
        · exact absurd ((he.finished i hfin).1.symm.trans hr) (by simp)
        · have hsame := (he.kept i hr' hfin).2.1
          have hspent := ih (hsame.symm.trans hs) hr'
          have hle := he.le
          have hle_total := he.le_total
          rw [hspent] at hle
          exact BitVec.eq_of_toNat_eq (by omega)
      · have hno : ¬Dispatcher.Served (σ n).dispatcher (σ (n + 1)).dispatcher i :=
          fun hsv => absurd (hs.symm.trans hsv.start) (by simp)
        exact ((he.served i hr').2.resolve_left hno).2

/-- If every core is done with its blocks some time, all blocks are handed out. -/
theorem IsRun.all_dispatched (h : IsRun life kernel_config σ) (hN : 0 < N) {m : ℕ}
    (hstart : (σ m).start_execution = true)
    (hstop : ∀ i, ∀ᶠ n in atTop, (σ n).dispatcher.core_start i = false) :
    ∀ᶠ n in atTop, (σ n).dispatcher.blocks_dispatched = kernel_config.num_blocks := by
  refine Eventually.of_succ
    (P := fun n => (σ n).dispatcher.blocks_dispatched = kernel_config.num_blocks) ?_
  filter_upwards [hstop ⟨0, hN⟩, Eventually.succ (hstop ⟨0, hN⟩), eventually_ge_atTop m]
    with n hnow hnext hmn
  rcases h.edge n with ⟨hs, -⟩ | ⟨-, he⟩
  · exact absurd (hs.symm.trans (h.execution_persists hstart hmn)) (by simp)
  · -- The first core is not being reset after the edge.
    refine h.spent hnext ?_
    rcases hr : (σ n).dispatcher.core_reset ⟨0, hN⟩ with _ | _
    · have hno : ¬Dispatcher.Finishing (fun i => ((σ n).core i).done) (σ n).dispatcher ⟨0, hN⟩ :=
        fun hfin => absurd (hnow.symm.trans hfin.start) (by simp)
      exact (he.kept _ hr hno).1
    · exact (he.served _ hr).1

/-- And all of them finish. -/
theorem IsRun.all_finished (h : IsRun life kernel_config σ) (hN : 0 < N) {m : ℕ}
    (hstart : (σ m).start_execution = true)
    (hstop : ∀ i, ∀ᶠ n in atTop, (σ n).dispatcher.core_start i = false) :
    ∀ᶠ n in atTop, ∀ b < kernel_config.num_blocks, ∃ k < n, ∃ i, Finished σ k i b := by
  filter_upwards [h.all_dispatched hN hstart hstop, eventually_all.mpr hstop] with n hall hnone b hb
  rw [← h.mem_finishedBlocks]
  refine ((h.ledger n).covered b.toNat ?_).resolve_right fun ⟨i, hi, _⟩ => ?_
  · rw [hall]
    exact hb
  · exact absurd ((hnone i).symm.trans hi) (by simp)

/-- The completions of an edge are the cores that finish at it. -/
theorem IsRun.completions_le_one (h : IsRun life kernel_config σ) (hapart : FinishApart σ) (k : ℕ) :
    Dispatcher.completions (fun i => ((σ k).core i).done)
        (Dispatcher.trace kernel_config (fun k => (σ k).start_execution)
          (fun k i => ((σ k).core i).done) k) ≤ 1 ∧
      ((σ k).start_execution = false →
        Dispatcher.completions (fun i => ((σ k).core i).done)
          (Dispatcher.trace kernel_config (fun k => (σ k).start_execution)
            (fun k i => ((σ k).core i).done) k) = 0) := by
  rw [← h.dispatcher k]
  have hfinished {i : Fin N}
      (hi : Dispatcher.Finishing (fun i => ((σ k).core i).done) (σ k).dispatcher i) :
      Finished σ k i ((σ k).dispatcher.core_block_id i) := by
    have hdone : ((σ k).core i).done = true := (Bool.and_eq_true_iff.mp hi).2
    exact ⟨h.execution_started ⟨hi.start, rfl⟩, ⟨hi.start, rfl⟩, hdone⟩
  refine ⟨Finset.card_le_one.mpr fun i hi j hj => ?_, fun hs => ?_⟩
  · rw [Finset.mem_filter] at hi hj
    exact hapart k i j _ _ (hfinished hi.2) (hfinished hj.2)
  · refine Finset.card_eq_zero.mpr (Finset.filter_eq_empty_iff.mpr fun i _ hi => ?_)
    exact absurd (hs.symm.trans (hfinished hi).1) (by simp)

/-- Two cores that finish at one edge are two completions. -/
theorem IsRun.two_le_completions (h : IsRun life kernel_config σ) {k : ℕ} {i j : Fin N}
    {b c : DataT} (hi : Finished σ k i b) (hj : Finished σ k j c) (hij : i ≠ j) :
    2 ≤ Dispatcher.completions (fun i => ((σ k).core i).done)
      (Dispatcher.trace kernel_config (fun k => (σ k).start_execution)
        (fun k i => ((σ k).core i).done) k) := by
  rw [← h.dispatcher k]
  have hmem {i : Fin N} {b : DataT} (hi : Finished σ k i b) :
      i ∈ ({i | Dispatcher.Finishing (fun i => ((σ k).core i).done) (σ k).dispatcher i} :
        Finset (Fin N)) := by
    rw [Finset.mem_filter]
    exact ⟨Finset.mem_univ i, Bool.and_eq_true_iff.mpr ⟨hi.2.1.1, hi.2.2⟩⟩
  exact Finset.one_lt_card.mpr ⟨i, hmem hi, j, hmem hj, hij⟩

/-- When all blocks have finished, `done` is set exactly if no two cores ever finished at one
edge. -/
theorem IsRun.done_iff (h : IsRun life kernel_config σ) (hN : 0 < N) {m : ℕ}
    (hstart : (σ m).start_execution = true)
    (hstop : ∀ i, ∀ᶠ n in atTop, (σ n).dispatcher.core_start i = false) :
    ∀ᶠ n in atTop, ((σ n).dispatcher.done = true ↔ FinishApart σ) := by
  refine Eventually.of_succ
    (P := fun n => (σ n).dispatcher.done = true ↔ FinishApart σ) ?_
  filter_upwards [h.all_finished hN hstart hstop, eventually_ge_atTop m] with n hall hmn
  rw [h.dispatcher (n + 1)]
  constructor
  · intro hdone k i j b c hi hj
    by_contra hij
    have hnever := Dispatcher.not_done_of_two (N := N) kernel_config
      (fun k => (σ k).start_execution) (fun k i => ((σ k).core i).done) hi.1
      (h.two_le_completions hi hj hij) (n + 1)
    exact absurd (hnever.symm.trans hdone) (by simp)
  · intro hapart
    have hcount := Dispatcher.blocks_done_eq_events kernel_config (fun k => (σ k).start_execution)
      (fun k i => ((σ k).core i).done) n fun k _ => h.completions_le_one hapart k
    have hcard := Dispatcher.events_eq_card kernel_config (fun k => (σ k).start_execution)
      (fun k i => ((σ k).core i).done) n fun k _ => (h.completions_le_one hapart k).2
    refine Dispatcher.done_of_blocks_done _ _ _ n (BitVec.eq_of_toNat_eq ?_)
      (h.execution_persists hstart hmn)
    -- All blocks have finished, and each has been counted.
    have hsub : Finset.range kernel_config.num_blocks.toNat ⊆ finishedBlocks kernel_config σ n := by
      intro b hb
      rw [Finset.mem_range] at hb
      have hlt := kernel_config.num_blocks.isLt
      have hb' : (BitVec.ofNat 32 b).toNat = b := by
        rw [BitVec.toNat_ofNat]
        exact Nat.mod_eq_of_lt (hb.trans hlt)
      have hmem := h.mem_finishedBlocks.mpr (hall (BitVec.ofNat 32 b) (by
        rw [BitVec.lt_def, hb']
        exact hb))
      rwa [hb'] at hmem
    have hle := Finset.card_le_card hsub
    have hge := (h.ledger n).card_le.trans (h.ledger n).le_total
    rw [Finset.card_range] at hle
    rw [hcount, hcard]
    exact le_antisymm hge hle

/-- No core is started at the first two edges. -/
theorem IsRun.core_start_of_lt_two (h : IsRun life kernel_config σ) {n : ℕ} (hn : n < 2)
    (i : Fin N) : (σ n).dispatcher.core_start i = false := by
  have hzero : (σ 0).dispatcher.core_start i = false := by
    rw [h.dispatcher_zero]
    rfl
  obtain rfl | rfl : n = 0 ∨ n = 1 := by omega
  · exact hzero
  · rcases h.edge 0 with ⟨-, heq⟩ | ⟨hs, -⟩
    · rw [heq]
      exact hzero
    · exact absurd (h.start_zero.symm.trans hs) (by simp)

omit [NeZero W] in
/-- Two runs that join finish their blocks apart alike, if no core is started before. -/
theorem FinishApart.join {σ' : ℕ → Cluster N W T} {a b : ℕ} (h : FinishApart σ)
    (hsame : ∀ n, σ (n + a) = σ' (n + b))
    (hbefore : ∀ n < b, ∀ i, (σ' n).dispatcher.core_start i = false) : FinishApart σ' := by
  intro m i j c d hi hj
  have hle : b ≤ m := by
    by_contra hlt
    exact absurd ((hbefore m (by omega) i).symm.trans hi.2.1.1) (by simp)
  obtain ⟨n, rfl⟩ := Nat.exists_eq_add_of_le' hle
  unfold Finished at hi hj
  rw [← hsame n] at hi hj
  exact h (n + a) i j c d hi hj

end Cluster

end SmolGpu
