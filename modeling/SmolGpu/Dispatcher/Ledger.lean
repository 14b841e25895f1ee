import SmolGpu.Dispatcher.Dispatcher
import Mathlib.Data.Finset.Image
import Mathlib.Data.Finset.Range

/-!
# The dispatcher's books

The dispatcher keeps two counters. What they are meant to count is the set `F` of the blocks that
have finished, which no register holds: `Ledger total s F` ties the registers to it. The blocks
below `blocks_dispatched` are finished or run on exactly one core each, and `blocks_done` counts at
most the finished ones. It may count fewer, so `done` is only sound: it says that all blocks have
finished, and not conversely.
-/

namespace SmolGpu.Dispatcher

variable {N : ℕ} {total : DataT} {s : Dispatcher N} {F : Finset ℕ}

/-- The registers of the dispatcher agree with the set `F` of the finished blocks. -/
structure Ledger (total : DataT) (s : Dispatcher N) (F : Finset ℕ) : Prop where
  /-- No core is both reset and started. -/
  flags : Flags s
  /-- No more blocks are dispatched than there are. -/
  le_total : s.blocks_dispatched.toNat ≤ total.toNat
  /-- A running block has been dispatched. -/
  running_lt : ∀ i, s.core_start i = true →
    (s.core_block_id i).toNat < s.blocks_dispatched.toNat
  /-- A running block has not finished. -/
  running : ∀ i, s.core_start i = true → (s.core_block_id i).toNat ∉ F
  /-- A block runs on one core only. -/
  inj : ∀ i j, s.core_start i = true → s.core_start j = true →
    s.core_block_id i = s.core_block_id j → i = j
  /-- A finished block was dispatched. -/
  finished_lt : ∀ b ∈ F, b < s.blocks_dispatched.toNat
  /-- A dispatched block runs or has finished. -/
  covered : ∀ b < s.blocks_dispatched.toNat,
    b ∈ F ∨ ∃ i, s.core_start i = true ∧ (s.core_block_id i).toNat = b
  /-- No more blocks are counted than have finished. -/
  blocks_done_le : s.blocks_done.toNat ≤ F.card
  /-- When the dispatcher is done, all blocks have finished. -/
  done : s.done = true → F = Finset.range total.toNat

/-- The blocks that finish at an edge. -/
def finishing (core_done : Fin N → Bool) (s : Dispatcher N) : Finset ℕ :=
  ({i | Finishing core_done s i} : Finset (Fin N)).image fun i => (s.core_block_id i).toNat

/-- The number of cores that are seen to finish at an edge. -/
def completions (core_done : Fin N → Bool) (s : Dispatcher N) : ℕ :=
  ({i | Finishing core_done s i} : Finset (Fin N)).card

variable {core_done : Fin N → Bool}

/-- A block is finishing when a core that has it finishes. -/
theorem mem_finishing {b : ℕ} : b ∈ finishing core_done s ↔
    ∃ i, Finishing core_done s i ∧ (s.core_block_id i).toNat = b := by
  simp [finishing]

/-- A core that finishes was started. -/
theorem Finishing.start {i : Fin N} (h : Finishing core_done s i) : s.core_start i = true := by
  unfold Finishing at h
  simp only [Bool.and_eq_true] at h
  exact h.1

/-- No block finishes twice, so the ledger grows by as many blocks as cores finish. -/
theorem Ledger.card_finish (h : Ledger total s F) :
    (F ∪ finishing core_done s).card = F.card + completions core_done s := by
  have hdisj : Disjoint F (finishing core_done s) := by
    rw [Finset.disjoint_right]
    intro b hb
    obtain ⟨i, hi, rfl⟩ := mem_finishing.mp hb
    exact h.running i hi.start
  rw [Finset.card_union_of_disjoint hdisj, finishing, Finset.card_image_of_injOn]
  · rfl
  · intro i hi j hj hij
    simp only [Finset.coe_filter, Finset.mem_univ, true_and, Set.mem_ofPred_eq] at hi hj
    exact h.inj i j hi.start hj.start (BitVec.eq_of_toNat_eq hij)

/-- No more blocks are finished than were handed out. -/
theorem Ledger.card_le (h : Ledger total s F) : F.card ≤ s.blocks_dispatched.toNat := by
  have hsub : F ⊆ Finset.range s.blocks_dispatched.toNat := fun b hb =>
    Finset.mem_range.mpr (h.finished_lt b hb)
  simpa using Finset.card_le_card hsub

/-- When as many blocks have finished as there are, all of them have. -/
theorem Ledger.eq_range (h : Ledger total s F) (hcard : total.toNat ≤ F.card) :
    F = Finset.range total.toNat := by
  have hle := h.le_total
  refine Finset.eq_of_subset_of_card_le (fun b hb => ?_) (by simpa using hcard)
  have := h.finished_lt b hb
  exact Finset.mem_range.mpr (by omega)

/-- Nothing runs any more when all blocks have finished. -/
theorem Ledger.not_running (h : Ledger total s F) (hF : F = Finset.range total.toNat) (i : Fin N) :
    s.core_start i = false := by
  by_contra hi
  have hi' : s.core_start i = true := by simpa using hi
  have hlt := h.running_lt i hi'
  have hle := h.le_total
  refine h.running i hi' ?_
  rw [hF]
  exact Finset.mem_range.mpr (by omega)

/-- When all blocks are finished, no core finishes. -/
theorem Ledger.finishing_eq_empty (h : Ledger total s F) (hF : F = Finset.range total.toNat) :
    finishing core_done s = ∅ := by
  refine Finset.eq_empty_of_forall_notMem fun b hb => ?_
  obtain ⟨i, hi, -⟩ := mem_finishing.mp hb
  exact Bool.false_ne_true ((h.not_running hF i).symm.trans hi.start)

/-- After a reset nothing has been dispatched. -/
theorem Ledger.reset : Ledger total (resetState : Dispatcher N) ∅ := by
  constructor
  · exact ⟨fun i hi => absurd hi (by simp [resetState]), fun _ => rfl⟩
  · exact Nat.zero_le _
  · exact fun i hi => absurd hi (by simp [resetState])
  · exact fun i _ => Finset.notMem_empty _
  · exact fun i j hi => absurd hi (by simp [resetState])
  · exact fun b hb => absurd hb (Finset.notMem_empty b)
  · exact fun b hb => absurd hb (Nat.not_lt_zero b)
  · exact le_rfl
  · exact fun h => absurd h (by simp [resetState])

/-- A core that runs after an edge was handed its block by the edge, or ran it before. -/
theorem Edge.running {s' : Dispatcher N} (he : Edge total core_done s s') {i : Fin N}
    (hf : Flags s) (hi : s'.core_start i = true) :
    (s.core_reset i = true ∧ Served s s' i) ∨
      (s.core_start i = true ∧ ¬Finishing core_done s i ∧
        s'.core_block_id i = s.core_block_id i) := by
  by_cases hr : s.core_reset i = true
  · rcases (he.served i hr).2 with h | ⟨h, -⟩
    · exact .inl ⟨hr, h⟩
    · have hst : s.core_start i = true := h.1 ▸ hi
      exact absurd ((hf.started i hst).symm.trans hr) (by simp)
  · by_cases hfin : Finishing core_done s i
    · exact absurd ((he.finished i hfin).2.symm.trans hi) (by simp)
    · have hk := (he.kept i (by simpa using hr) hfin).2
      exact .inr ⟨hk.1 ▸ hi, hfin, hk.2⟩

/-- An edge with `start` high enters the blocks that finish at it into the ledger. -/
theorem Ledger.edge {s' : Dispatcher N} (h : Ledger total s F) (he : Edge total core_done s s')
    (hf' : Flags s') : Ledger total s' (F ∪ finishing core_done s) := by
  have hle := he.le
  -- The blocks handed out by the edge are new: they are not below the old count.
  have hnew {i : Fin N} (hsv : Served s s' i) :
      (s'.core_block_id i).toNat ∉ F ∪ finishing core_done s := by
    have hge := hsv.ge
    rw [Finset.mem_union, mem_finishing]
    rintro (hF | ⟨j, hj, hji⟩)
    · have := h.finished_lt _ hF
      omega
    · have := h.running_lt j hj.start
      omega
  constructor
  · exact hf'
  · exact he.le_total
  · intro i hi
    rcases he.running h.flags hi with ⟨-, hsv⟩ | ⟨hst, -, hid⟩
    · exact hsv.lt
    · rw [hid]
      exact (h.running_lt i hst).trans_le hle
  · intro i hi
    rcases he.running h.flags hi with ⟨-, hsv⟩ | ⟨hst, hnf, hid⟩
    · exact hnew hsv
    · rw [hid, Finset.mem_union, mem_finishing]
      rintro (hF | ⟨j, hj, hji⟩)
      · exact h.running i hst hF
      · exact hnf (h.inj j i hj.start hst (BitVec.eq_of_toNat_eq hji) ▸ hj)
  · intro i j hi hj hij
    rcases he.running h.flags hi with ⟨hri, hsi⟩ | ⟨hsti, -, hidi⟩ <;>
      rcases he.running h.flags hj with ⟨hrj, hsj⟩ | ⟨hstj, -, hidj⟩
    · -- Two cores served at the edge get blocks in the order of their numbers.
      rcases lt_trichotomy i j with hlt | heq | hlt
      · have := he.ordered i j hlt hri hrj hsi hsj
        rw [hij] at this
        omega
      · exact heq
      · have := he.ordered j i hlt hrj hri hsj hsi
        rw [hij] at this
        omega
    -- A block handed out at the edge is not one that was running.
    · have hge := hsi.ge
      have hlt := h.running_lt j hstj
      rw [hij, hidj] at hge
      omega
    · have hge := hsj.ge
      have hlt := h.running_lt i hsti
      rw [← hij, hidi] at hge
      omega
    · exact h.inj i j hsti hstj (by rw [← hidi, ← hidj, hij])
  · intro b hb
    rcases Finset.mem_union.mp hb with hF | hfin
    · exact (h.finished_lt b hF).trans_le hle
    · obtain ⟨i, hi, rfl⟩ := mem_finishing.mp hfin
      exact (h.running_lt i hi.start).trans_le hle
  · intro b hb
    rcases Nat.lt_or_ge b s.blocks_dispatched.toNat with hlt | hge
    · rcases h.covered b hlt with hF | ⟨i, hi, hib⟩
      · exact .inl (Finset.mem_union_left _ hF)
      · by_cases hfin : Finishing core_done s i
        · exact .inl (Finset.mem_union_right _ (mem_finishing.mpr ⟨i, hfin, hib⟩))
        · have hk := (he.kept i (h.flags.started i hi) hfin).2
          exact .inr ⟨i, hk.1.trans hi, by rw [hk.2, hib]⟩
    · obtain ⟨i, -, hsi, hib⟩ := he.covered b hge hb
      exact .inr ⟨i, hsi.start, hib⟩
  · have hdone := h.blocks_done_le
    rw [h.card_finish, he.blocks_done]
    split_ifs with hex
    · -- The counter goes up by one at most, and at least one block is entered.
      obtain ⟨i, hi⟩ := hex
      have hpos : 0 < completions core_done s :=
        Finset.card_pos.mpr ⟨i, by simpa using hi⟩
      have hinc : (s.blocks_done + 1).toNat ≤ s.blocks_done.toNat + 1 := by
        rw [BitVec.toNat_add]
        exact Nat.mod_le _ _
      omega
    · omega
  · -- `done` is set when the counter has reached the total, which the ledger bounds from above.
    intro hd
    have hF : F = Finset.range total.toNat := by
      rw [he.done] at hd
      split_ifs at hd with hb
      · exact h.eq_range (hb ▸ h.blocks_done_le)
      · exact h.done hd
    rw [h.finishing_eq_empty hF, Finset.union_empty, hF]

/-- One edge without reset: a stopped dispatcher notices nothing. -/
theorem Ledger.step (inp : DispatcherIn N) (hr : inp.reset = false)
    (h : Ledger inp.kernel_config.num_blocks s F) :
    Ledger inp.kernel_config.num_blocks (dispatcherStep inp s)
      (F ∪ if inp.start then finishing inp.core_done s else ∅) := by
  rcases hs : inp.start with _ | _
  · rw [step_stopped hr hs, if_neg (by simp), Finset.union_empty]
    exact h
  · rw [if_pos rfl]
    exact h.edge (step_edge inp hr hs h.flags h.le_total) (h.flags.step h.le_total)

end SmolGpu.Dispatcher
