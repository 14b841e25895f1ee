import SmolGpu.Common
import SmolGpu.Library.Loop
import Mathlib.Data.Finset.Card

/-!
# The block dispatcher

`src/dispatcher.sv`: hands the blocks `0, …, num_blocks - 1` to the cores that are being reset, and
resets a core when it reports that it is done. In the always block `blocks_dispatched` is assigned
by blocking assignments, so that each core that is served in an edge sees the count that the ones
before it left, and every other register by nonblocking ones: `s` is the state before the edge and
`n` carries the assignments made so far.

`step_edge` says what an edge with `start` high does to each core and to the counters. The rest of
the development uses it and not the loops.
-/

namespace SmolGpu

/-- The inputs that `dispatcher` samples at an edge. -/
structure DispatcherIn (N : ℕ) where
  reset : Bool
  start : Bool
  kernel_config : KernelConfig
  core_done : Fin N → Bool

/-- The registers of `dispatcher`. -/
structure Dispatcher (N : ℕ) where
  core_start : Fin N → Bool
  core_reset : Fin N → Bool
  core_block_id : Fin N → DataT
  done : Bool
  blocks_done : DataT
  blocks_dispatched : DataT
  start_execution : Bool

namespace Dispatcher

variable {N : ℕ}

/-- The registers after an edge with reset high. -/
def resetState : Dispatcher N where
  done := false
  blocks_dispatched := 0
  blocks_done := 0
  start_execution := false
  core_start := fun _ => false
  core_reset := fun _ => true
  core_block_id := fun _ => 0

/-- The first edge with `start` high resets every core. -/
def startCheck (s n : Dispatcher N) : Dispatcher N :=
  if !s.start_execution then { n with start_execution := true, core_reset := fun _ => true } else n

/-- The kernel is done when the last block has finished. -/
def doneCheck (total_blocks : DataT) (s n : Dispatcher N) : Dispatcher N :=
  if s.blocks_done = total_blocks then { n with done := true } else n

/-- One iteration of the loop that dispatches blocks to cores that were just reset. -/
def dispatchCore (total_blocks : DataT) (s n : Dispatcher N) (i : Fin N) : Dispatcher N :=
  if s.core_reset i then
    let n := { n with core_reset := Function.update n.core_reset i false }
    if n.blocks_dispatched < total_blocks then
      { n with
        core_start := Function.update n.core_start i true
        core_block_id := Function.update n.core_block_id i n.blocks_dispatched
        blocks_dispatched := n.blocks_dispatched + 1 }
    else n
  else n

/-- One iteration of the loop that resets cores that just finished. -/
def finishCore (core_done : Fin N → Bool) (s n : Dispatcher N) (i : Fin N) : Dispatcher N :=
  if s.core_start i && core_done i then
    { n with
      core_reset := Function.update n.core_reset i true
      core_start := Function.update n.core_start i false
      -- Counted from the state before the edge: cores that finish together count once.
      blocks_done := s.blocks_done + 1 }
  else n

end Dispatcher

open Dispatcher in
/-- One clock edge of the dispatcher. -/
def dispatcherStep {N : ℕ} (inp : DispatcherIn N) (s : Dispatcher N) : Dispatcher N :=
  let total_blocks := inp.kernel_config.num_blocks
  if inp.reset then resetState
  else if inp.start then
    let n := doneCheck total_blocks s (startCheck s s)
    let n := Fin.foldl N (dispatchCore total_blocks s) n
    Fin.foldl N (finishCore inp.core_done s) n
  else s

namespace Dispatcher

variable {N : ℕ} {s : Dispatcher N} {total : DataT} {core_done : Fin N → Bool}

/-! ## The two loops -/

/-- Core `i` has the same job in `n` and in `a`. -/
def SameJob (n a : Dispatcher N) (i : Fin N) : Prop :=
  a.core_start i = n.core_start i ∧ a.core_block_id i = n.core_block_id i

/-- Core `i` is handed a block on the way from `n` to `a`: the count as it stood there. -/
structure Served (n a : Dispatcher N) (i : Fin N) : Prop where
  /-- The core is started. -/
  start : a.core_start i = true
  /-- Its block was not handed out before. -/
  ge : n.blocks_dispatched.toNat ≤ (a.core_block_id i).toNat
  /-- Its block has been handed out. -/
  lt : (a.core_block_id i).toNat < a.blocks_dispatched.toNat

/-- What the dispatch loop that started at `n` and stands at `a` has done to a core that it has
passed. A core that is being reset is taken out of reset, and is handed a block unless the blocks
have run out. -/
def Dispatched (total : DataT) (s n a : Dispatcher N) (i : Fin N) : Prop :=
  if s.core_reset i then
    a.core_reset i = false ∧ (Served n a i ∨ SameJob n a i ∧ a.blocks_dispatched = total)
  else
    a.core_reset i = n.core_reset i ∧ SameJob n a i

/-- The dispatch loop from `n` after `k` iterations. The blocks handed out are those from the old
count to the new one, in the order of the cores. -/
structure DispatchLoop (total : DataT) (s n : Dispatcher N) (k : ℕ) (a : Dispatcher N) : Prop where
  /-- The cores passed are served as far as there are blocks. -/
  passed : ∀ i : Fin N, i < k → Dispatched total s n a i
  /-- The cores ahead are untouched. -/
  ahead : ∀ i : Fin N, k ≤ i → a.core_reset i = n.core_reset i ∧ SameJob n a i
  /-- The count has not fallen. -/
  le : n.blocks_dispatched.toNat ≤ a.blocks_dispatched.toNat
  /-- The count has not passed the number of blocks. -/
  le_total : a.blocks_dispatched.toNat ≤ total.toNat
  /-- Blocks are handed out in the order of the cores. -/
  ordered : ∀ i j : Fin N, i < j → j < k → s.core_reset i → s.core_reset j → Served n a i →
    Served n a j → (a.core_block_id i).toNat < (a.core_block_id j).toNat
  /-- No block is left out. -/
  covered : ∀ b, n.blocks_dispatched.toNat ≤ b → b < a.blocks_dispatched.toNat →
    ∃ i : Fin N, i < k ∧ s.core_reset i ∧ Served n a i ∧ (a.core_block_id i).toNat = b
  /-- The loop leaves `done`. -/
  done : a.done = n.done
  /-- The loop leaves `blocks_done`. -/
  blocks_done : a.blocks_done = n.blocks_done
  /-- The loop leaves `start_execution`. -/
  start_execution : a.start_execution = n.start_execution

/-- What a core was served stays so while its job stays. -/
theorem Served.mono {n a a' : Dispatcher N} {i : Fin N} (h : Served n a i)
    (hle : a.blocks_dispatched.toNat ≤ a'.blocks_dispatched.toNat) (hjob : SameJob a a' i) :
    Served n a' i := by
  obtain ⟨hstart, hid⟩ := hjob
  exact ⟨hstart ▸ h.start, hid ▸ h.ge, hid ▸ h.lt.trans_le hle⟩

/-- A core that an iteration does not touch stays `Dispatched`. -/
theorem Dispatched.mono {n a a' : Dispatcher N} {i : Fin N} (h : Dispatched total s n a i)
    (hle : a.blocks_dispatched.toNat ≤ a'.blocks_dispatched.toNat)
    (htotal : a'.blocks_dispatched.toNat ≤ total.toNat)
    (hreset : a'.core_reset i = a.core_reset i) (hjob : SameJob a a' i) :
    Dispatched total s n a' i := by
  have hserved : Served n a i → Served n a' i := fun hs => hs.mono hle hjob
  obtain ⟨hstart, hid⟩ := hjob
  unfold Dispatched SameJob at h ⊢
  rw [hreset, hstart, hid]
  split_ifs at h ⊢ with hr
  · refine ⟨h.1, h.2.imp hserved fun hk => ⟨hk.1, BitVec.eq_of_toNat_eq ?_⟩⟩
    rw [hk.2] at hle
    omega
  · exact h

/-- An iteration that hands nothing out, because core `k` is not being reset or because the blocks
have run out. -/
theorem DispatchLoop.skip {n a : Dispatcher N} {k : Fin N} {r : Fin N → Bool}
    (h : DispatchLoop total s n k a) (hr : ∀ i, i ≠ k → r i = a.core_reset i)
    (hk : Dispatched total s n { a with core_reset := r } k)
    (hns : s.core_reset k → ¬Served n a k) :
    DispatchLoop total s n (k + 1) { a with core_reset := r } := by
  -- The flags of the resets do not matter to what has been served.
  have hserved {i : Fin N} : Served n { a with core_reset := r } i ↔ Served n a i :=
    ⟨fun h => ⟨h.start, h.ge, h.lt⟩, fun h => ⟨h.start, h.ge, h.lt⟩⟩
  have hlt {i : Fin N} (hi : (i : ℕ) < k + 1) (hne : i ≠ k) : (i : ℕ) < k := by
    have := Fin.val_ne_of_ne hne
    omega
  constructor
  · intro i hi
    rcases eq_or_ne i k with rfl | hne
    · exact hk
    · exact (h.passed i (hlt hi hne)).mono le_rfl h.le_total (hr i hne) ⟨rfl, rfl⟩
  · intro i hi
    have hne : i ≠ k := fun he => by rw [he] at hi; omega
    have ha := h.ahead i (by omega)
    exact ⟨(hr i hne).trans ha.1, ha.2⟩
  · exact h.le
  · exact h.le_total
  · intro i j hij hj hi' hj' hsi hsj
    rw [hserved] at hsi hsj
    -- The core of this iteration has been served nothing, so it does not come into the order.
    have hne : j ≠ k := by
      rintro rfl
      exact hns hj' hsj
    exact h.ordered i j hij (hlt hj hne) hi' hj' hsi hsj
  · intro b hb hb'
    obtain ⟨i, hi, hsr, hs, hib⟩ := h.covered b hb hb'
    exact ⟨i, by omega, hsr, hserved.mpr hs, hib⟩
  · exact h.done
  · exact h.blocks_done
  · exact h.start_execution

/-- An iteration that hands core `k` the next block. -/
theorem DispatchLoop.serve {n a : Dispatcher N} {k : Fin N} (h : DispatchLoop total s n k a)
    (hr : s.core_reset k = true) (hlt : a.blocks_dispatched < total) :
    DispatchLoop total s n (k + 1)
      { a with
        core_reset := Function.update a.core_reset k false
        core_start := Function.update a.core_start k true
        core_block_id := Function.update a.core_block_id k a.blocks_dispatched
        blocks_dispatched := a.blocks_dispatched + 1 } := by
  set a' : Dispatcher N := { a with
    core_reset := Function.update a.core_reset k false
    core_start := Function.update a.core_start k true
    core_block_id := Function.update a.core_block_id k a.blocks_dispatched
    blocks_dispatched := a.blocks_dispatched + 1 } with ha'
  have hbd : a'.blocks_dispatched.toNat = a.blocks_dispatched.toNat + 1 := by
    rw [ha']
    bv_omega
  have htotal : a'.blocks_dispatched.toNat ≤ total.toNat := by bv_omega
  have hjob {i : Fin N} (hne : i ≠ k) : SameJob a a' i :=
    ⟨Function.update_of_ne hne _ _, Function.update_of_ne hne _ _⟩
  have hreset {i : Fin N} (hne : i ≠ k) : a'.core_reset i = a.core_reset i :=
    Function.update_of_ne hne _ _
  have hidk : a'.core_block_id k = a.blocks_dispatched := Function.update_self _ _ _
  -- While blocks are left, every core that the loop has passed in reset has been handed one.
  have hback {i : Fin N} (hi : (i : ℕ) < k) (hir : s.core_reset i = true) : Served n a i := by
    have hd := h.passed i hi
    unfold Dispatched at hd
    rw [if_pos hir] at hd
    refine hd.2.resolve_right fun hrun => ?_
    rw [hrun.2] at hlt
    exact BitVec.lt_irrefl _ hlt
  have hk : Served n a' k := ⟨Function.update_self _ _ _, by rw [hidk]; exact h.le,
    by rw [hidk]; omega⟩
  have hpred {i : Fin N} (hi : (i : ℕ) < k + 1) (hne : i ≠ k) : (i : ℕ) < k := by
    have := Fin.val_ne_of_ne hne
    omega
  constructor
  · intro i hi
    rcases eq_or_ne i k with rfl | hne
    · unfold Dispatched
      rw [if_pos hr]
      exact ⟨Function.update_self _ _ _, .inl hk⟩
    · exact (h.passed i (hpred hi hne)).mono (by omega) htotal (hreset hne) (hjob hne)
  · intro i hi
    have hne : i ≠ k := fun he => by rw [he] at hi; omega
    obtain ⟨hst, hid⟩ := hjob hne
    have ha := h.ahead i (by omega)
    exact ⟨(hreset hne).trans ha.1, hst.trans ha.2.1, hid.trans ha.2.2⟩
  · have := h.le
    omega
  · exact htotal
  · -- The new block comes last, with the highest number so far.
    intro i j hij hj hi' hj' hsi hsj
    have hlti : (i : ℕ) < k := by omega
    have hne : i ≠ k := fun he => by rw [he] at hlti; omega
    rw [(hjob hne).2]
    rcases eq_or_ne j k with rfl | hnej
    · rw [hidk]
      exact (hback hlti hi').lt
    · rw [(hjob hnej).2]
      exact h.ordered i j hij (hpred hj hnej) hi' hj' (hback hlti hi')
        (hback (hpred hj hnej) hj')
  · -- The count has gone up by one, and core `k` has the block by which it did.
    intro b hb hb'
    rcases Nat.lt_or_ge b a.blocks_dispatched.toNat with hlt' | hge
    · obtain ⟨i, hi, hsr, hs, hib⟩ := h.covered b hb hlt'
      have hne : i ≠ k := fun he => by rw [he] at hi; omega
      exact ⟨i, by omega, hsr, hs.mono (by omega) (hjob hne), by rw [(hjob hne).2]; exact hib⟩
    · exact ⟨k, by omega, hr, hk, by rw [hidk]; omega⟩
  · exact h.done
  · exact h.blocks_done
  · exact h.start_execution

/-- An iteration of the first loop extends what those before it have done. -/
theorem dispatchCore_spec {n a : Dispatcher N} {k : Fin N} (h : DispatchLoop total s n k a)
    (hns : ∀ i, s.core_reset i → n.core_start i = false) :
    DispatchLoop total s n (k + 1) (dispatchCore total s a k) := by
  obtain ⟨hreset, hjob⟩ := h.ahead k le_rfl
  unfold dispatchCore
  -- The core is being reset and there is a block, or there is none, or it is not being reset.
  by_cases hr : s.core_reset k = true
  · rw [if_pos hr]
    dsimp only
    by_cases hlt : a.blocks_dispatched < total
    · rw [if_pos hlt]
      exact h.serve hr hlt
    · rw [if_neg hlt]
      have hrun : a.blocks_dispatched = total := by
        have := h.le_total
        bv_omega
      refine h.skip (fun i hi => Function.update_of_ne hi _ _) ?_ fun _ hs => ?_
      · unfold Dispatched
        rw [if_pos hr]
        exact ⟨Function.update_self _ _ _, .inr ⟨hjob, hrun⟩⟩
      · have hst := hs.start
        rw [hjob.1, hns k hr] at hst
        exact Bool.false_ne_true hst
  · rw [if_neg hr]
    refine h.skip (fun i _ => rfl) ?_ fun h' => absurd h' hr
    unfold Dispatched
    rw [if_neg hr]
    exact ⟨hreset, hjob⟩

/-- The first loop serves every core that waits for a block, in order. -/
theorem dispatchLoop_spec (n : Dispatcher N) (hns : ∀ i, s.core_reset i → n.core_start i = false)
    (hle : n.blocks_dispatched.toNat ≤ total.toNat) :
    DispatchLoop total s n N (Fin.foldl N (dispatchCore total s) n) := by
  refine Loop.foldl_induction _ (fun k a => DispatchLoop total s n k a) n ?_
    fun k a h => dispatchCore_spec h hns
  constructor
  · exact fun i hi => absurd hi (Nat.not_lt_zero _)
  · exact fun i _ => ⟨rfl, rfl, rfl⟩
  · exact le_rfl
  · exact hle
  · exact fun i j _ hj => absurd hj (Nat.not_lt_zero _)
  · intro b hb hb'
    omega
  · rfl
  · rfl
  · rfl

/-- The dispatcher sees core `i` report that it is done. -/
def Finishing (core_done : Fin N → Bool) (s : Dispatcher N) (i : Fin N) : Prop :=
  (s.core_start i && core_done i) = true

/-- Whether a core finishes is decidable from the flags. -/
instance (i : Fin N) : Decidable (Finishing core_done s i) := inferInstanceAs (Decidable (_ = true))

/-- The finish loop after `k` iterations. All of its assignments to `blocks_done` are of one and
the same value. -/
theorem finishLoop_spec (n : Dispatcher N) :
    Fin.foldl N (finishCore core_done s) n =
      { n with
        core_reset := fun i => if Finishing core_done s i then true else n.core_reset i
        core_start := fun i => if Finishing core_done s i then false else n.core_start i
        blocks_done :=
          if ∃ i, Finishing core_done s i then s.blocks_done + 1 else n.blocks_done } := by
  have hloop := Loop.foldl_induction (finishCore core_done s) (fun k a => a =
    { n with
      core_reset := fun i => if i < k ∧ Finishing core_done s i then true else n.core_reset i
      core_start := fun i => if i < k ∧ Finishing core_done s i then false else n.core_start i
      blocks_done := if ∃ i : Fin N, i < k ∧ Finishing core_done s i then s.blocks_done + 1
        else n.blocks_done }) n (by simp) ?_
  · simpa using hloop
  · rintro k a rfl
    have hne (i : Fin N) (h : i ≠ k) : (i : ℕ) < k + 1 ↔ (i : ℕ) < k := by
      have := Fin.val_ne_of_ne h
      omega
    -- Iteration `k` changes core `k` only, if it finishes, and nothing otherwise.
    by_cases hk : Finishing core_done s k
    · rw [finishCore, if_pos (show (s.core_start k && core_done k) = true from hk)]
      simp only [Dispatcher.mk.injEq, true_and, and_true]
      refine ⟨?_, ?_, ?_⟩
      · funext i
        rcases eq_or_ne i k with rfl | h
        · simp [hk]
        · simp [h, hne i h]
      · funext i
        rcases eq_or_ne i k with rfl | h
        · simp [hk]
        · simp [h, hne i h]
      · rw [if_pos ⟨k, by omega, hk⟩]
    · rw [finishCore, if_neg (show ¬(s.core_start k && core_done k) = true from hk)]
      have hsame (i : Fin N) : (i : ℕ) < k + 1 ∧ Finishing core_done s i ↔
          (i : ℕ) < k ∧ Finishing core_done s i := by
        rcases eq_or_ne i k with rfl | h
        · simp [hk]
        · rw [hne i h]
      simp only [hsame]

/-! ## The edge -/

/-- What holds of the dispatcher's flags between any two edges after a reset. -/
structure Flags (s : Dispatcher N) : Prop where
  /-- A core that is started is not being reset. -/
  started : ∀ i, s.core_start i = true → s.core_reset i = false
  /-- Before the first edge with `start` high nothing has happened. -/
  fresh : s.start_execution = false → s = resetState

/-- What an edge with `start` high does. -/
structure Edge (total : DataT) (core_done : Fin N → Bool) (s s' : Dispatcher N) : Prop where
  /-- A core that was being reset is released, with the next block if there is one. -/
  served : ∀ i, s.core_reset i = true → s'.core_reset i = false ∧
    (Served s s' i ∨ SameJob s s' i ∧ s'.blocks_dispatched = total)
  /-- A core that has finished is taken off its block and reset. -/
  finished : ∀ i, Finishing core_done s i → s'.core_reset i = true ∧ s'.core_start i = false
  /-- Every other core is left alone. -/
  kept : ∀ i, s.core_reset i = false → ¬Finishing core_done s i →
    s'.core_reset i = false ∧ SameJob s s' i
  /-- The count of the blocks handed out does not fall. -/
  le : s.blocks_dispatched.toNat ≤ s'.blocks_dispatched.toNat
  /-- The count does not pass the number of blocks. -/
  le_total : s'.blocks_dispatched.toNat ≤ total.toNat
  /-- Blocks are handed out in the order of the cores. -/
  ordered : ∀ i j, i < j → s.core_reset i → s.core_reset j → Served s s' i → Served s s' j →
    (s'.core_block_id i).toNat < (s'.core_block_id j).toNat
  /-- No block is left out. -/
  covered : ∀ b, s.blocks_dispatched.toNat ≤ b → b < s'.blocks_dispatched.toNat →
    ∃ i, s.core_reset i ∧ Served s s' i ∧ (s'.core_block_id i).toNat = b
  /-- `done` is set when the counter has reached the number of blocks. -/
  done : s'.done = if s.blocks_done = total then true else s.done
  /-- The counter goes up by one if any core finishes. -/
  blocks_done : s'.blocks_done =
    if ∃ i, Finishing core_done s i then s.blocks_done + 1 else s.blocks_done
  /-- The dispatcher has started. -/
  start_execution : s'.start_execution = true

/-- A reset clears the dispatcher. -/
theorem step_reset {inp : DispatcherIn N} (h : inp.reset = true) :
    dispatcherStep inp s = resetState := by
  unfold dispatcherStep
  rw [if_pos h]

/-- Without a start the dispatcher does nothing. -/
theorem step_stopped {inp : DispatcherIn N} (hr : inp.reset = false) (h : inp.start = false) :
    dispatcherStep inp s = s := by
  unfold dispatcherStep
  simp [hr, h]

/-- The loops of an edge with `start` high, after the two checks. -/
theorem dispatcherStep_of_start {inp : DispatcherIn N} (hr : inp.reset = false)
    (hs : inp.start = true) :
    dispatcherStep inp s = Fin.foldl N (finishCore inp.core_done s)
      (Fin.foldl N (dispatchCore inp.kernel_config.num_blocks s)
        (doneCheck inp.kernel_config.num_blocks s (startCheck s s))) := by
  unfold dispatcherStep
  simp [hr, hs]

/-- What the two checks leave for the loops. Resetting the cores at the first edge changes nothing,
since they are still being reset from before. -/
theorem checks_spec (hf : Flags s) : doneCheck total s (startCheck s s) =
    { s with
      done := if s.blocks_done = total then true else s.done
      start_execution := true } := by
  unfold doneCheck startCheck
  cases hx : s.start_execution with
  | true =>
    simp only [Bool.not_true, Bool.false_eq_true, if_false]
    split_ifs <;> simp [← hx]
  | false =>
    have hreset : s.core_reset = fun _ => true := by rw [hf.fresh hx, resetState]
    simp only [Bool.not_false, if_true, ← hreset]
    split_ifs <;> rfl

/-- What a clock edge of a started dispatcher does. -/
theorem step_edge (inp : DispatcherIn N) (hr : inp.reset = false) (hs : inp.start = true)
    (hf : Flags s) (hle : s.blocks_dispatched.toNat ≤ inp.kernel_config.num_blocks.toNat) :
    Edge inp.kernel_config.num_blocks inp.core_done s (dispatcherStep inp s) := by
  rw [dispatcherStep_of_start hr hs, checks_spec hf]
  set n : Dispatcher N := { s with
    done := if s.blocks_done = inp.kernel_config.num_blocks then true else s.done
    start_execution := true }
  have hns (i : Fin N) (hi : s.core_reset i = true) : s.core_start i = false := by
    by_contra h
    exact Bool.false_ne_true ((hf.started i (by simpa using h)).symm.trans hi)
  have hd := dispatchLoop_spec (s := s) n hns hle
  set a := Fin.foldl N (dispatchCore inp.kernel_config.num_blocks s) n
  rw [finishLoop_spec a]
  set a' : Dispatcher N := { a with
    core_reset := fun i => if Finishing inp.core_done s i then true else a.core_reset i
    core_start := fun i => if Finishing inp.core_done s i then false else a.core_start i
    blocks_done := if ∃ i, Finishing inp.core_done s i then s.blocks_done + 1 else a.blocks_done }
  have hreset {i : Fin N} (h : ¬Finishing inp.core_done s i) :
      a'.core_reset i = a.core_reset i := if_neg h
  have hstart {i : Fin N} (h : ¬Finishing inp.core_done s i) :
      a'.core_start i = a.core_start i := if_neg h
  -- A core that is being reset does not finish, so the second loop leaves it alone.
  have hnf {i : Fin N} (hi : s.core_reset i = true) : ¬Finishing inp.core_done s i := by
    unfold Finishing
    rw [hns i hi]
    simp
  have hserved {i : Fin N} (hi : s.core_reset i = true) : Served n a i ↔ Served s a' i :=
    ⟨fun h => ⟨(hstart (hnf hi)).trans h.start, h.ge, h.lt⟩,
      fun h => ⟨(hstart (hnf hi)).symm.trans h.start, h.ge, h.lt⟩⟩
  constructor
  · intro i hi
    have hp := hd.passed i i.isLt
    unfold Dispatched at hp
    rw [if_pos hi] at hp
    exact ⟨(hreset (hnf hi)).trans hp.1, hp.2.imp (hserved hi).mp fun h =>
      ⟨⟨(hstart (hnf hi)).trans h.1.1, h.1.2⟩, h.2⟩⟩
  · exact fun i hi => ⟨if_pos hi, if_pos hi⟩
  · intro i hi hni
    have hp := hd.passed i i.isLt
    unfold Dispatched at hp
    rw [if_neg (by simp [hi])] at hp
    exact ⟨(hreset hni).trans (hp.1.trans hi), (hstart hni).trans hp.2.1, hp.2.2⟩
  · exact hd.le
  · exact hd.le_total
  · intro i j hij hi hj hsi hsj
    exact hd.ordered i j hij j.isLt hi hj ((hserved hi).mpr hsi) ((hserved hj).mpr hsj)
  · intro b hb hb'
    obtain ⟨i, -, hi, hsi, hib⟩ := hd.covered b hb hb'
    exact ⟨i, hi, (hserved hi).mp hsi, hib⟩
  · exact hd.done
  · exact congrArg (fun b => if ∃ i, Finishing inp.core_done s i then s.blocks_done + 1 else b)
      hd.blocks_done
  · exact hd.start_execution

/-- The flags stay as they are across an edge. -/
theorem Flags.step {inp : DispatcherIn N} (hf : Flags s)
    (hle : s.blocks_dispatched.toNat ≤ inp.kernel_config.num_blocks.toNat) :
    Flags (dispatcherStep inp s) := by
  rcases hr : inp.reset with _ | _
  · rcases hs : inp.start with _ | _
    · rw [step_stopped hr hs]
      exact hf
    · have he := step_edge inp hr hs hf hle
      refine ⟨fun i hi => ?_, fun h => absurd (he.start_execution.symm.trans h) (by simp)⟩
      by_cases hri : s.core_reset i = true
      · exact (he.served i hri).1
      · by_cases hfin : Finishing inp.core_done s i
        · exact absurd ((he.finished i hfin).2.symm.trans hi) (by simp)
        · exact (he.kept i (by simpa using hri) hfin).1
  · rw [step_reset hr]
    exact ⟨fun i hi => absurd hi (by simp [resetState]), fun _ => rfl⟩

/-- An iteration of the dispatch loop takes cores out of reset only. -/
theorem dispatchCore_frame (total : DataT) (s n : Dispatcher N) (k : Fin N) :
    (dispatchCore total s n k).start_execution = n.start_execution ∧
      ∀ i, (dispatchCore total s n k).core_reset i = true → n.core_reset i = true := by
  have hlow (i : Fin N) (h : Function.update n.core_reset k false i = true) :
      n.core_reset i = true := by
    rcases eq_or_ne i k with rfl | hne
    · simp at h
    · rwa [Function.update_of_ne hne] at h
  unfold dispatchCore
  dsimp only
  split_ifs
  · exact ⟨rfl, hlow⟩
  · exact ⟨rfl, hlow⟩
  · exact ⟨rfl, fun i h => h⟩

/-- The first loop leaves `start_execution`, and raises no reset. -/
theorem dispatchLoop_frame (n : Dispatcher N) :
    (Fin.foldl N (dispatchCore total s) n).start_execution = n.start_execution ∧
      ∀ i, (Fin.foldl N (dispatchCore total s) n).core_reset i = true → n.core_reset i = true := by
  refine Loop.foldl_induction (dispatchCore total s) (fun _ a =>
    a.start_execution = n.start_execution ∧ ∀ i, a.core_reset i = true → n.core_reset i = true) n
    ⟨rfl, fun i h => h⟩ fun k a ih => ?_
  obtain ⟨hstart, hlow⟩ := dispatchCore_frame total s a k
  exact ⟨hstart.trans ih.1, fun i h => ih.2 i (hlow i h)⟩

/-- A core is put into reset when it has finished, or at the first edge with `start` high. -/
theorem core_reset_step {inp : DispatcherIn N} (hr : inp.reset = false) {i : Fin N}
    (h : (dispatcherStep inp s).core_reset i = true) :
    s.core_reset i = true ∨ Finishing inp.core_done s i ∨ s.start_execution = false := by
  rcases hs : inp.start with _ | _
  · rw [step_stopped hr hs] at h
    exact .inl h
  rw [dispatcherStep_of_start hr hs, finishLoop_spec] at h
  dsimp only at h
  split_ifs at h with hfin
  · exact .inr (.inl hfin)
  · -- The loops did not put the core into reset, so the check at the first edge may have.
    have hcheck := (dispatchLoop_frame _).2 i h
    unfold doneCheck startCheck at hcheck
    rcases hx : s.start_execution with _ | _
    · exact .inr (.inr rfl)
    · simp only [hx, Bool.not_true, Bool.false_eq_true, if_false] at hcheck
      split_ifs at hcheck <;> exact .inl hcheck

/-- A dispatcher that has not started yet has done nothing but wait for `start`. -/
theorem step_of_not_started {inp : DispatcherIn N} (hr : inp.reset = false)
    (h : (dispatcherStep inp s).start_execution = false) : dispatcherStep inp s = s := by
  rcases hs : inp.start with _ | _
  · exact step_stopped hr hs
  · rw [dispatcherStep_of_start hr hs, finishLoop_spec] at h
    dsimp only at h
    rw [(dispatchLoop_frame _).1] at h
    have hstart : (doneCheck inp.kernel_config.num_blocks s (startCheck s s)).start_execution =
        true := by
      unfold doneCheck startCheck
      rcases hx : s.start_execution with _ | _ <;> split_ifs <;> simp_all
    exact absurd (hstart.symm.trans h) (by simp)

/-- The dispatch loop counts no finished blocks. -/
theorem dispatchLoop_done (n : Dispatcher N) :
    (Fin.foldl N (dispatchCore total s) n).blocks_done = n.blocks_done ∧
      (Fin.foldl N (dispatchCore total s) n).done = n.done := by
  refine Loop.foldl_induction (dispatchCore total s)
    (fun _ a => a.blocks_done = n.blocks_done ∧ a.done = n.done) n ⟨rfl, rfl⟩ fun k a ih => ?_
  have hframe : (dispatchCore total s a k).blocks_done = a.blocks_done ∧
      (dispatchCore total s a k).done = a.done := by
    unfold dispatchCore
    dsimp only
    split_ifs <;> exact ⟨rfl, rfl⟩
  exact ⟨hframe.1.trans ih.1, hframe.2.trans ih.2⟩

/-- Without a core that is done, no block is counted, and `done` rises if there is none to be
done. -/
theorem step_of_no_core_done {inp : DispatcherIn N} (hr : inp.reset = false)
    (hno : ∀ i, inp.core_done i = false) : (dispatcherStep inp s).blocks_done = s.blocks_done ∧
      (dispatcherStep inp s).done =
        if inp.start = true ∧ s.blocks_done = inp.kernel_config.num_blocks then true
        else s.done := by
  rcases hs : inp.start with _ | _
  · rw [step_stopped hr hs]
    simp
  · have hnot (i : Fin N) : ¬Finishing inp.core_done s i := by
      show ¬(s.core_start i && inp.core_done i) = true
      simp [hno i]
    have hcheck : (doneCheck inp.kernel_config.num_blocks s (startCheck s s)).blocks_done =
        s.blocks_done ∧ (doneCheck inp.kernel_config.num_blocks s (startCheck s s)).done =
          if s.blocks_done = inp.kernel_config.num_blocks then true else s.done := by
      unfold doneCheck startCheck
      constructor
      · split_ifs <;> rfl
      · split_ifs <;> rfl
    rw [dispatcherStep_of_start hr hs, finishLoop_spec]
    simp [hnot, dispatchLoop_done, hcheck]

end Dispatcher

end SmolGpu
