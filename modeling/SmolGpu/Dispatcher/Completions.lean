import SmolGpu.Dispatcher.Ledger
import SmolGpu.Library.Clocked
import Mathlib.Algebra.BigOperators.Intervals

/-!
# Lost completions

The loop over the finished cores assigns `blocks_done <= blocks_done + 1` without blocking, so when
several cores finish in one cycle all of the assignments are of the same value, and `blocks_done`
goes up by one. A completion that arrives while `start` is low is not counted either.

`blocks_done_eq_events_iff` says that these are the only two ways to lose one: up to any cycle, the
counter is right and `done` comes on time exactly if no two cores finished in one cycle and none
finished while `start` was low.
-/

namespace SmolGpu.Dispatcher

variable {N : ℕ}

/-- The dispatcher after `n` edges from reset, with reset low and the kernel configuration held. -/
def trace (kernel_config : KernelConfig) (start : ℕ → Bool) (core_done : ℕ → Fin N → Bool) :
    ℕ → Dispatcher N :=
  Clocked.run dispatcherStep (fun k => ⟨false, start k, kernel_config, core_done k⟩) resetState

/-- The number of cores and cycles so far in which `core_start[i]` and `core_done[i]` were both
set. -/
def events (kernel_config : KernelConfig) (start : ℕ → Bool) (core_done : ℕ → Fin N → Bool)
    (n : ℕ) : ℕ :=
  ∑ k ∈ Finset.range n, completions (core_done k) (trace kernel_config start core_done k)

/-- No completion is lost by cycle `n`: the counter is the number of events, and if these are all
blocks, `done` is set at the edge of cycle `n` if `start` is high at it. -/
def NoLostCompletion (kernel_config : KernelConfig) (start : ℕ → Bool)
    (core_done : ℕ → Fin N → Bool) (n : ℕ) : Prop :=
  (trace kernel_config start core_done n).blocks_done.toNat =
      events kernel_config start core_done n ∧
    (events kernel_config start core_done n = kernel_config.num_blocks.toNat → start n = true →
      (trace kernel_config start core_done (n + 1)).done = true)

section

variable (kernel_config : KernelConfig) (start : ℕ → Bool) (core_done : ℕ → Fin N → Bool)

/-- The dispatcher after one more edge. -/
theorem trace_succ (n : ℕ) : trace kernel_config start core_done (n + 1) =
    dispatcherStep ⟨false, start n, kernel_config, core_done n⟩
      (trace kernel_config start core_done n) := rfl

/-- The completions of one more edge. -/
theorem events_succ (n : ℕ) : events kernel_config start core_done (n + 1) =
    events kernel_config start core_done n +
      completions (core_done n) (trace kernel_config start core_done n) :=
  Finset.sum_range_succ _ _

/-- The blocks that finish before cycle `n`, with `start` high. -/
def finishedBlocks (n : ℕ) : Finset ℕ :=
  (Finset.range n).biUnion fun k =>
    if start k then finishing (core_done k) (trace kernel_config start core_done k) else ∅

/-- The blocks finished at one more edge. -/
theorem finishedBlocks_succ (n : ℕ) : finishedBlocks kernel_config start core_done (n + 1) =
    finishedBlocks kernel_config start core_done n ∪
      if start n then finishing (core_done n) (trace kernel_config start core_done n) else ∅ := by
  rw [finishedBlocks, Finset.range_add_one, Finset.biUnion_insert, Finset.union_comm]
  rfl

/-- The books are kept along the whole run. -/
theorem ledger_trace (n : ℕ) : Ledger kernel_config.num_blocks
    (trace kernel_config start core_done n) (finishedBlocks kernel_config start core_done n) := by
  induction n with
  | zero => exact Ledger.reset
  | succ n ih =>
    rw [finishedBlocks_succ, trace_succ]
    exact Ledger.step ⟨false, start n, kernel_config, core_done n⟩ rfl ih

/-- An edge adds at most one to the counter, whatever number of cores finishes. -/
theorem blocks_done_succ (n : ℕ) :
    (trace kernel_config start core_done (n + 1)).blocks_done =
      if start n = true ∧ 0 < completions (core_done n) (trace kernel_config start core_done n)
      then (trace kernel_config start core_done n).blocks_done + 1
      else (trace kernel_config start core_done n).blocks_done := by
  have h := ledger_trace kernel_config start core_done n
  rw [trace_succ]
  rcases hs : start n with _ | _
  · rw [step_stopped rfl rfl]
    simp
  · have he := step_edge ⟨false, true, kernel_config, core_done n⟩ rfl rfl h.flags
      h.le_total
    rw [he.blocks_done]
    unfold completions
    simp only [Finset.card_pos, Finset.Nonempty, Finset.mem_filter, Finset.mem_univ, true_and]

/-- While the run keeps to the two conditions, the events are the blocks of the ledger. -/
theorem events_eq_card (n : ℕ) (h : ∀ k < n, start k = false →
    completions (core_done k) (trace kernel_config start core_done k) = 0) :
    events kernel_config start core_done n =
      (finishedBlocks kernel_config start core_done n).card := by
  induction n with
  | zero => rfl
  | succ n ih =>
    rw [events_succ, ih fun k hk => h k (by omega), finishedBlocks_succ]
    rcases hs : start n with _ | _
    · rw [if_neg (by simp), Finset.union_empty, h n (by omega) hs, Nat.add_zero]
    · rw [if_pos rfl, (ledger_trace kernel_config start core_done n).card_finish]

/-- The counter counts the events of a run in which at most one core finishes in a cycle, and none
while `start` is low. -/
theorem blocks_done_eq_events (n : ℕ)
    (h : ∀ k < n, completions (core_done k) (trace kernel_config start core_done k) ≤ 1 ∧
      (start k = false →
        completions (core_done k) (trace kernel_config start core_done k) = 0)) :
    (trace kernel_config start core_done n).blocks_done.toNat =
      events kernel_config start core_done n := by
  induction n with
  | zero => rfl
  | succ n ih =>
    have ih' := ih fun k hk => h k (by omega)
    have hn := h n (by omega)
    have hledger := ledger_trace kernel_config start core_done (n + 1)
    have hcard := events_eq_card kernel_config start core_done (n + 1) fun k hk => (h k hk).2
    have hle := hledger.card_le.trans hledger.le_total
    have htotal := kernel_config.num_blocks.isLt
    rw [events_succ] at hcard ⊢
    rw [blocks_done_succ]
    split_ifs with hc
    · -- One core finishes. The counter cannot wrap, since there are at most `num_blocks` events.
      rw [BitVec.toNat_add_of_lt, ih']
      · have : (1 : DataT).toNat = 1 := rfl
        omega
      · have : (1 : DataT).toNat = 1 := rfl
        omega
    · have hzero : completions (core_done n) (trace kernel_config start core_done n) = 0 := by
        rcases hs : start n with _ | _
        · exact hn.2 hs
        · exact Nat.eq_zero_of_not_pos fun hpos => hc ⟨hs, hpos⟩
      rw [ih', hzero, Nat.add_zero]

/-- `done` is set at the edge after the counter has reached the number of blocks. -/
theorem done_of_blocks_done (n : ℕ)
    (hn : (trace kernel_config start core_done n).blocks_done = kernel_config.num_blocks)
    (hs : start n = true) : (trace kernel_config start core_done (n + 1)).done = true := by
  have h := ledger_trace kernel_config start core_done n
  rw [trace_succ, hs]
  have he := step_edge ⟨false, true, kernel_config, core_done n⟩ rfl rfl h.flags
    h.le_total
  rw [he.done, if_pos hn]

end

/-- Completions are counted up to cycle `n` exactly if, in every cycle before it, at most one core
finished, and none if `start` was low. -/
theorem blocks_done_eq_events_iff (kernel_config : KernelConfig) (start : ℕ → Bool)
    (core_done : ℕ → Fin N → Bool) (n : ℕ) :
    (∀ m ≤ n, NoLostCompletion kernel_config start core_done m) ↔
      ∀ k < n, completions (core_done k) (trace kernel_config start core_done k) ≤ 1 ∧
        (start k = false →
          completions (core_done k) (trace kernel_config start core_done k) = 0) := by
  constructor
  · intro h k hk
    have hk0 := (h k hk.le).1
    have hk1 := (h (k + 1) hk).1
    rw [events_succ, blocks_done_succ] at hk1
    split_ifs at hk1 with hc
    · -- The counter went up by one, so not more than one event was to be counted.
      have hinc : ((trace kernel_config start core_done k).blocks_done + 1).toNat ≤
          (trace kernel_config start core_done k).blocks_done.toNat + 1 := by
        rw [BitVec.toNat_add]
        exact Nat.mod_le _ _
      exact ⟨by omega, fun hs => absurd (hs.symm.trans hc.1) (by simp)⟩
    · exact ⟨by omega, fun _ => by omega⟩
  · intro h m hm
    have hcount := blocks_done_eq_events kernel_config start core_done m
      fun k hk => h k (by omega)
    refine ⟨hcount, fun hall hs => ?_⟩
    exact done_of_blocks_done kernel_config start core_done m
      (BitVec.eq_of_toNat_eq (hcount.trans hall)) hs

/-- Two blocks on two cores that finish in the same cycle: the counter stands at one. -/
theorem lost_completion : ¬∀ (N : ℕ) (kernel_config : KernelConfig) (start : ℕ → Bool)
    (core_done : ℕ → Fin N → Bool) (n : ℕ), NoLostCompletion kernel_config start core_done n := by
  intro h
  have h2 := (h 2 ⟨0, 0, 2, 1⟩ (fun _ => true) (fun k _ => decide (k = 1)) 2).1
  exact absurd h2 (by decide)

end SmolGpu.Dispatcher
