import SmolGpu.ComputeCore.Step
import SmolGpu.Library.Clocked

/-!
# Exclusive use of the shared units

The warps of a core share its ALUs and LSUs without any arbitration: the units always serve
`current_warp`. `core_exclusive` says why that is enough. At most one warp at a time is in the
stages that use the units, and it is the current one; an LSU is busy only for the load or store of
that warp, and is done with it before the warp leaves `WARP_WAIT` behind.

The inductive invariant is `Invariant`: the warps that are not current are parked, and each lane's
LSU is where the stage of the current warp puts it (`LaneOk`). It is proved of every state reachable
from a reset, for any inputs, with those of the fetchers among them.
-/

namespace SmolGpu

namespace ComputeCore

variable {W T : ℕ} {life : Lifetime} {inp : CoreIn W T} {s : ComputeCore W T}

/-- The stages of a warp that does not use the shared units. -/
def Parked (st : WarpState) : Prop := st = .idle ∨ st = .fetch ∨ st = .decode ∨ st = .done

/-- The current warp's instruction is a load or a store that this lane takes part in. -/
def laneActive (s : ComputeCore W T) (l : Fin (T + 1)) : Bool :=
  s.lsuEnable l &&
    (s.current.decoded_mem_read_enable || s.current.decoded_mem_write_enable)

/-- Where the stage of the current warp puts a lane's LSU. -/
def LaneOk (s : ComputeCore W T) (l : Fin (T + 1)) : Prop :=
  match s.current_warp_state with
  | .wait => (s.lsu l).lsu_state = .idle ↔ s.laneActive l = false
  | .execute | .update => (s.lsu l).lsu_state = if s.laneActive l then .done else .idle
  | _ => (s.lsu l).lsu_state = .idle

/-- What holds of a core between any two edges after a reset. -/
structure Invariant (s : ComputeCore W T) : Prop where
  /-- No warp is active before the start. -/
  not_started : s.start_execution = false → ∀ w, s.warp_state w = .idle
  /-- Only the current warp uses the shared units. -/
  parked : ∀ w, w ≠ s.current_warp → Parked (s.warp_state w)
  /-- No warp has decoded a word that is both a load and a store. -/
  one_kind : ∀ w, ¬((s.decoder w).decoded_mem_read_enable = true ∧
    (s.decoder w).decoded_mem_write_enable = true)
  /-- Every LSU is where the stage of the current warp puts it. -/
  lane : ∀ l, s.LaneOk l
  /-- Every request wire is up exactly while its LSU waits. -/
  consistent : ∀ l, (s.lsu l).Consistent s.current.decoded_mem_read_enable
    s.current.decoded_mem_write_enable

/-- A core with a warp that is not idle has been started. -/
theorem Invariant.started (hi : Invariant s) {w : Fin W} (hw : s.warp_state w ≠ .idle) :
    s.start_execution = true := by
  by_contra hstart
  exact hw (hi.not_started (by simpa using hstart) w)

/-- A parked warp stays parked while it is not current. -/
theorem Parked.fetched {w : Fin W} (h : Parked (s.warp_state w)) : Parked (s.fetched inp w) := by
  unfold ComputeCore.fetched
  split_ifs
  · exact .inr (.inr (.inl rfl))
  · exact h

/-- The LSUs are all idle when the current warp is parked. -/
theorem Invariant.idle_of_parked (hi : Invariant s) (hst : Parked s.current_warp_state)
    (l : Fin (T + 1)) : (s.lsu l).lsu_state = .idle := by
  have hl := hi.lane l
  unfold LaneOk at hl
  rcases hst with h | h | h | h <;> simpa [h] using hl

/-- An idle LSU is as it should be where no access is under way. -/
theorem LaneOk.of_parked {l : Fin (T + 1)} (hst : Parked s.current_warp_state)
    (hl : (s.lsu l).lsu_state = .idle) : s.LaneOk l := by
  unfold LaneOk
  rcases hst with h | h | h | h <;> simpa [h] using hl

variable [NeZero W]

/-- The state after a clock edge with reset high, whatever the core held before. -/
def AfterReset (life : Lifetime) (s : ComputeCore W T) : Prop :=
  ∃ inp s₀, inp.reset = true ∧ s = coreStep life inp s₀

/-- A reset establishes the invariant. -/
theorem Invariant.of_reset (hr : inp.reset = true) : Invariant (coreStep life inp s) := by
  have hidle : ∀ w, (coreStep life inp s).warp_state w = .idle := (step_reset hr).2.2.2
  have hlsu : ∀ l, (coreStep life inp s).lsu l = Lsu.resetState := step_reset_lsu hr
  constructor
  · exact fun _ => hidle
  · exact fun w _ => .inl (hidle w)
  · intro w
    simp [step_reset_decoder hr, Decoded.default]
  · intro l
    unfold LaneOk
    rw [current_warp_state, hidle, hlsu]
    rfl
  · intro l
    rw [hlsu]
    constructor <;> simp [Lsu.resetState]

/-- Between an edge and the next the current warp's instruction stays in place, from `WARP_REQUEST`
to `WARP_UPDATE`. -/
theorem step_current_of_busy (life : Lifetime) (h : Running inp s)
    (hst : s.current_warp_state = .request ∨ s.current_warp_state = .wait ∨
      s.current_warp_state = .execute) :
    (coreStep life inp s).current_warp = s.current_warp ∧
      (coreStep life inp s).current = s.current ∧
      ∀ l, (coreStep life inp s).lsuEnable l = s.lsuEnable l := by
  have hcw : (coreStep life inp s).current_warp = s.current_warp := by
    rw [step_current_warp h, if_neg (by rcases hst with h | h | h <;> simp [h])]
  have hcur : (coreStep life inp s).current = s.current := by
    have hdec : s.warp_state s.current_warp ≠ .decode := by
      rcases hst with h | h | h <;> exact fun h' => by simp [current_warp_state, h'] at h
    unfold current
    rw [hcw, step_decoder h.reset, if_neg hdec]
  have hup : s.current_warp_state ≠ .update := by rcases hst with h | h | h <;> simp [h]
  refine ⟨hcw, hcur, fun l => ?_⟩
  unfold lsuEnable threadEnable
  rw [hcw, hcur]
  simp only [step_warp_execution_mask h.reset hup]

/-- An LSU stays idle unless the current warp requests. -/
theorem step_lsu_idle (hr : inp.reset = false) {l : Fin (T + 1)}
    (hl : (s.lsu l).lsu_state = .idle) (hst : s.current_warp_state ≠ .request) :
    ((coreStep life inp s).lsu l).lsu_state = .idle := by
  show (lsuStep (s.lsuIn inp l) (s.lsu l)).lsu_state = .idle
  rw [lsuStep_of_idle hr hl hst, hl]

/-- The request wires after an edge, for the instruction before it. -/
theorem step_consistent (life : Lifetime) (hr : inp.reset = false) (hi : Invariant s)
    (l : Fin (T + 1)) :
    ((coreStep life inp s).lsu l).Consistent s.current.decoded_mem_read_enable
      s.current.decoded_mem_write_enable :=
  lsuStep_consistent (i := s.lsuIn inp l) hr (hi.one_kind _) (hi.consistent l)

/-- No decoded instruction both reads and writes. -/
theorem step_one_kind (hr : inp.reset = false) (hi : Invariant s) (w : Fin W) :
    ¬(((coreStep life inp s).decoder w).decoded_mem_read_enable = true ∧
      ((coreStep life inp s).decoder w).decoded_mem_write_enable = true) := by
  rw [step_decoder hr]
  split_ifs
  · exact decode_one_kind _
  · exact hi.one_kind w

/-- An edge before the start, with reset low: the LSUs stay idle, and the warps are all idle or, at
the start, all fetching. -/
theorem Invariant.step_waiting (hi : Invariant s) (hr : inp.reset = false)
    (hs : s.start_execution = false) : Invariant (coreStep life inp s) := by
  -- Before the start all warps are idle, and so are the LSUs.
  have hidle := hi.not_started hs
  have hcur : s.current_warp_state = .idle := hidle _
  have hlsu (l : Fin (T + 1)) : ((coreStep life inp s).lsu l).lsu_state = .idle :=
    step_lsu_idle hr (hi.idle_of_parked (.inl hcur) l) (by simp [hcur])
  -- The start moves all of them to the fetch.
  have hstates : (∀ w, (coreStep life inp s).warp_state w = .idle) ∨
      ((coreStep life inp s).start_execution = true ∧
        ∀ w, (coreStep life inp s).warp_state w = .fetch) := by
    cases hst : inp.start
    · left
      intro w
      show (s.alwaysBlock life inp).warp_state w = .idle
      rw [step_not_started hr hs hst, hidle]
    · right
      constructor
      · show (s.alwaysBlock life inp).start_execution = true
        rw [step_start hr hs hst]
      · intro w
        show (s.alwaysBlock life inp).warp_state w = .fetch
        rw [step_start hr hs hst]
  have hparked (w : Fin W) : Parked ((coreStep life inp s).warp_state w) := by
    rcases hstates with h | ⟨-, h⟩
    · exact .inl (h w)
    · exact .inr (.inl (h w))
  constructor
  · intro hns
    rcases hstates with h | ⟨h, -⟩
    · exact h
    · simp [h] at hns
  · exact fun w _ => hparked w
  · exact step_one_kind hr hi
  · exact fun l => LaneOk.of_parked (hparked _) (hlsu l)
  · exact fun l => (step_consistent life hr hi l).of_idle (hlsu l)

/-- Each lane's LSU follows the stages of the current warp's instruction. -/
theorem LaneOk.step_busy (h : Running inp s)
    (hst : s.current_warp_state = .request ∨ s.current_warp_state = .wait ∨
      s.current_warp_state = .execute)
    (hone : ¬(s.current.decoded_mem_read_enable = true ∧
      s.current.decoded_mem_write_enable = true))
    {l : Fin (T + 1)} (hl : s.LaneOk l) : (coreStep life inp s).LaneOk l := by
  obtain ⟨hcw, hcur, hen⟩ : (coreStep life inp s).current_warp = s.current_warp ∧
      (coreStep life inp s).current = s.current ∧
      ∀ l, (coreStep life inp s).lsuEnable l = s.lsuEnable l := step_current_of_busy life h hst
  have hnext : (coreStep life inp s).current_warp_state = s.currentNext life inp := by
    unfold current_warp_state
    rw [hcw, step_warp_state_current h]
  have hact : (coreStep life inp s).laneActive l = s.laneActive l := by
    unfold laneActive
    rw [hen, hcur]
  have hlsu : (coreStep life inp s).lsu l = lsuStep (s.lsuIn inp l) (s.lsu l) := rfl
  unfold LaneOk at hl ⊢
  rw [hnext, hact, hlsu]
  cases ha : s.laneActive l
  · -- A lane that takes no part in the instruction stays idle.
    rw [lsuStep_of_not_active (i := s.lsuIn inp l) h.reset ha]
    rw [ha] at hl
    rcases hst with hst | hst | hst <;> simp only [hst, currentNext] at hl ⊢
    · simpa using hl
    · cases s.anyLsuWaiting life <;> simpa using hl
    · simpa using hl
  · have hstate := lsuStep_lsu_state (i := s.lsuIn inp l) (s := s.lsu l) h.reset ha hone
    rw [hstate]
    rw [ha] at hl
    rcases hst with hst | hst | hst
    · -- The request starts the unit.
      have hreq : (s.lsuIn inp l).warp_state = .request := hst
      simp only [hst] at hl
      simp [hst, currentNext, hl, hreq]
    · -- A unit that has started stays busy, and is done when no unit is waiting.
      have hne : (s.lsu l).lsu_state ≠ .idle := by simpa [hst] using hl
      have hup : (s.lsuIn inp l).warp_state ≠ .update := by
        show s.current_warp_state ≠ .update
        simp [hst]
      simp only [hst, currentNext]
      cases hany : s.anyLsuWaiting life
      · have hall : ¬∃ l, (s.lsu l).lsu_state = .requesting ∨ (s.lsu l).lsu_state = .waiting := by
          unfold anyLsuWaiting at hany
          simp only [Bool.or_eq_false_iff, decide_eq_false_iff_not] at hany
          exact hany.2
        have hdone : (s.lsu l).lsu_state = .done := by
          cases hs : (s.lsu l).lsu_state
          · exact absurd hs hne
          · exact absurd ⟨l, .inl hs⟩ hall
          · exact absurd ⟨l, .inr hs⟩ hall
          · rfl
        simp [hdone, hup]
      · cases hs : (s.lsu l).lsu_state
        · exact absurd hs hne
        · simp
        · simp only [if_true]
          split_ifs <;> simp
        · simp [hup]
    · -- A unit that is done stays so until `WARP_UPDATE`.
      have hup : (s.lsuIn inp l).warp_state ≠ .update := by
        show s.current_warp_state ≠ .update
        simp [hst]
      simp only [hst] at hl
      simp [hst, currentNext, hl, hup]

/-- A running edge at which the current warp is in a stage of its instruction and stays current. -/
theorem Invariant.step_busy (hi : Invariant s) (h : Running inp s)
    (hst : s.current_warp_state = .request ∨ s.current_warp_state = .wait ∨
      s.current_warp_state = .execute) : Invariant (coreStep life inp s) := by
  obtain ⟨hcw, hcur, -⟩ : (coreStep life inp s).current_warp = s.current_warp ∧
      (coreStep life inp s).current = s.current ∧
      ∀ l, (coreStep life inp s).lsuEnable l = s.lsuEnable l := step_current_of_busy life h hst
  constructor
  · intro hns
    simp [step_start_execution h] at hns
  · intro w hw
    rw [hcw] at hw
    rw [step_warp_state_of_ne h hw]
    exact (hi.parked w hw).fetched
  · exact step_one_kind h.reset hi
  · exact fun l => (hi.lane l).step_busy h hst (hi.one_kind _)
  · intro l
    rw [hcur]
    exact step_consistent life h.reset hi l

/-- Every warp is parked after an edge at which the current warp leaves `WARP_UPDATE`, waits to be
fetched, or is done. -/
theorem Invariant.parked_step (hi : Invariant s) (h : Running inp s)
    (hst : s.current_warp_state = .update ∨ s.current_warp_state = .idle ∨
      s.current_warp_state = .fetch ∨ s.current_warp_state = .done) (w : Fin W) :
    Parked ((coreStep life inp s).warp_state w) := by
  have hcurrent : Parked (s.currentNext life inp) := by
    unfold currentNext
    rcases hst with hst | hst | hst | hst <;> simp only [hst]
    · split_ifs <;> simp [Parked]
    · simp [Parked]
    · exact Parked.fetched (.inr (.inl hst))
    · simp [Parked]
  rw [step_warp_state h]
  split_ifs with hw
  · exact hcurrent
  · exact (hi.parked w hw).fetched

/-- A running edge after which the current warp is parked: the one that leaves `WARP_UPDATE`, with
the warp that is chosen next, and those of a current warp that waits to be fetched or is done. -/
theorem Invariant.step_parked (hi : Invariant s) (h : Running inp s)
    (hst : s.current_warp_state = .update ∨ s.current_warp_state = .idle ∨
      s.current_warp_state = .fetch ∨ s.current_warp_state = .done) :
    Invariant (coreStep life inp s) := by
  have hlsu (l : Fin (T + 1)) : ((coreStep life inp s).lsu l).lsu_state = .idle := by
    rcases hst with hst | hst
    · -- At the end of an instruction every unit that took part is done, and goes back to idle.
      have hl := hi.lane l
      unfold LaneOk at hl
      show (lsuStep (s.lsuIn inp l) (s.lsu l)).lsu_state = .idle
      simp only [hst] at hl
      cases ha : s.laneActive l
      · rw [lsuStep_of_not_active (i := s.lsuIn inp l) h.reset ha]
        simpa [ha] using hl
      · have hup : (s.lsuIn inp l).warp_state = .update := hst
        rw [lsuStep_lsu_state (i := s.lsuIn inp l) h.reset ha (hi.one_kind _)]
        simp [ha] at hl
        simp [hl, hup]
    · -- Under a parked warp the units are idle, and nothing starts them.
      have hp : Parked s.current_warp_state := by
        rcases hst with h | h | h <;> simp [Parked, h]
      refine step_lsu_idle h.reset (hi.idle_of_parked hp l) ?_
      rcases hst with h | h | h <;> simp [h]
  have hparked (w : Fin W) : Parked ((coreStep life inp s).warp_state w) := hi.parked_step h hst w
  constructor
  · intro hns
    simp [step_start_execution h] at hns
  · exact fun w _ => hparked w
  · exact step_one_kind h.reset hi
  · exact fun l => LaneOk.of_parked (hparked _) (hlsu l)
  · exact fun l => (step_consistent life h.reset hi l).of_idle (hlsu l)

/-- A running edge at which the current warp is in `WARP_DECODE`: it moves to `WARP_REQUEST`, with
every LSU idle still. -/
theorem Invariant.step_decode (hi : Invariant s) (h : Running inp s)
    (hst : s.current_warp_state = .decode) : Invariant (coreStep life inp s) := by
  have hcw : (coreStep life inp s).current_warp = s.current_warp := by
    rw [step_current_warp h, if_neg (by simp [hst])]
  have hnext : (coreStep life inp s).current_warp_state = .request := by
    unfold current_warp_state
    rw [hcw, step_warp_state_current h]
    simp [currentNext, hst]
  -- In `WARP_DECODE` every LSU is idle, and only a request wakes it.
  have hlsu (l : Fin (T + 1)) : ((coreStep life inp s).lsu l).lsu_state = .idle :=
    step_lsu_idle h.reset (hi.idle_of_parked (.inr (.inr (.inl hst))) l) (by simp [hst])
  constructor
  · intro hns
    simp [step_start_execution h] at hns
  · intro w hw
    rw [hcw] at hw
    rw [step_warp_state_of_ne h hw]
    exact (hi.parked w hw).fetched
  · exact step_one_kind h.reset hi
  · intro l
    unfold LaneOk
    rw [hnext]
    exact hlsu l
  · exact fun l => (step_consistent life h.reset hi l).of_idle (hlsu l)

/-! ## The end of a block -/

/-- A core raises `done` only when all its warps are done. -/
structure DoneOk (c : ComputeCore W T) : Prop where
  /-- A core that is not started is not done. -/
  not_started : c.start_execution = false → c.done = false
  /-- When the core is done its warps are. -/
  warps : c.done = true → ∀ w, c.warp_state w = .done

omit [NeZero W] in
/-- A core that is not done has nothing to show. -/
theorem DoneOk.of_not_done {c : ComputeCore W T} (h : c.done = false) : DoneOk c :=
  ⟨fun _ => h, fun h' => absurd (h.symm.trans h') (by simp)⟩

/-- A reset establishes what `done` means, and a clock edge keeps it. -/
theorem DoneOk.step {c : ComputeCore W T} {inp : CoreIn W T} (h : DoneOk c ∨ inp.reset = true) :
    DoneOk (coreStep life inp c) := by
  rcases hr : inp.reset with _ | _
  · have h : DoneOk c := h.resolve_right (by simp [hr])
    rcases hs : c.start_execution with _ | _
    · -- A core that waits for `start` does not assign `done`.
      refine .of_not_done ?_
      show (c.alwaysBlock life inp).done = false
      rcases hst : inp.start with _ | _
      · rw [step_not_started hr hs hst]
        exact h.not_started hs
      · rw [step_start hr hs hst]
        exact h.not_started hs
    · have hrun : Running inp c := ⟨hr, hs⟩
      refine ⟨fun h' => ?_, fun h' w => ?_⟩
      · exact absurd ((step_start_execution hrun).symm.trans h') (by simp)
      · rw [step_done hrun, decide_eq_true_eq] at h'
        rw [step_warp_state hrun]
        split_ifs
        · simp [currentNext, current_warp_state, h']
        · simp [fetched, h']
  · exact .of_not_done (step_reset hr).2.1

/-- Every edge preserves the invariant, whatever its inputs. -/
theorem Invariant.step (hi : Invariant s) : Invariant (coreStep life inp s) := by
  cases hr : inp.reset
  · cases hs : s.start_execution
    · exact hi.step_waiting hr hs
    · have h : Running inp s := ⟨hr, hs⟩
      cases hst : s.current_warp_state
      · exact hi.step_parked h (.inr (.inl hst))
      · exact hi.step_parked h (.inr (.inr (.inl hst)))
      · exact hi.step_decode h hst
      · exact hi.step_busy h (.inl hst)
      · exact hi.step_busy h (.inr (.inl hst))
      · exact hi.step_busy h (.inr (.inr hst))
      · exact hi.step_parked h (.inl hst)
      · exact hi.step_parked h (.inr (.inr (.inr hst)))
  · exact .of_reset hr

/-- The invariant holds in every reachable state. -/
theorem Invariant.of_reachable (h : Clocked.Reachable (coreStep life) (AfterReset life) s) :
    Invariant s :=
  h.invariant (fun _ ⟨_, _, hr, hs⟩ => hs ▸ .of_reset hr) fun _ _ hi => hi.step

/-- A core that is reset, and then runs. -/
def blockRun (life : Lifetime) (reset : CoreIn W T) (inp : ℕ → CoreIn W T) (c : ComputeCore W T) :
    ℕ → ComputeCore W T :=
  Clocked.run (coreStep life) inp (coreStep life reset c)

/-- The invariant holds along the run of a block. -/
theorem Invariant.of_blockRun {reset : CoreIn W T} {inp : ℕ → CoreIn W T} {c : ComputeCore W T}
    (hreset : reset.reset = true) (n : ℕ) : Invariant (blockRun life reset inp c n) :=
  Clocked.run_invariant (fun _ s => Invariant s) (.of_reset hreset) (fun _ hi => hi.step) n

/-- The current warp has the shared units to itself. -/
structure Exclusive (s : ComputeCore W T) : Prop where
  /-- A warp in a stage that uses the units is the current one. -/
  active : ∀ w, s.warp_state w = .request ∨ s.warp_state w = .wait ∨ s.warp_state w = .execute ∨
    s.warp_state w = .update → w = s.current_warp
  /-- Every other warp waits, fetches, or has decoded its next instruction. -/
  parked : ∀ w, w ≠ s.current_warp → s.warp_state w = .idle ∨ s.warp_state w = .fetch ∨
    s.warp_state w = .decode ∨ s.warp_state w = .done
  /-- An LSU is busy only for the current warp's load or store, on a lane that is enabled for it. -/
  busy : ∀ l, (s.lsu l).lsu_state ≠ .idle →
    (s.current_warp_state = .wait ∨ s.current_warp_state = .execute ∨
        s.current_warp_state = .update) ∧
      (s.current.decoded_mem_read_enable = true ∨ s.current.decoded_mem_write_enable = true) ∧
      s.lsuEnable l = true
  /-- After `WARP_WAIT` the LSU of every such lane is done. -/
  done : ∀ l, s.current_warp_state = .execute ∨ s.current_warp_state = .update →
    s.lsuEnable l = true →
      s.current.decoded_mem_read_enable = true ∨ s.current.decoded_mem_write_enable = true →
      (s.lsu l).lsu_state = .done
  /-- A read request is up only while its LSU waits on a load. -/
  read_valid : ∀ l, (s.lsu l).mem_read_valid = true →
    (s.lsu l).lsu_state = .waiting ∧ s.current.decoded_mem_read_enable = true
  /-- A write request is up only while its LSU waits on a store. -/
  write_valid : ∀ l, (s.lsu l).mem_write_valid = true →
    (s.lsu l).lsu_state = .waiting ∧ s.current.decoded_mem_write_enable = true

/-- The inputs of an example core of two warps and two threads, whose memories do not answer. -/
def quietIn (reset : Bool) : CoreIn 2 2 where
  reset := reset
  start := true
  block_id := 0
  kernel_config := ⟨0, 0, 1, 2⟩
  fetcher_state_in := fun _ => .idle
  fetched_instruction := fun _ => 0
  data_mem_read_ready := fun _ => false
  data_mem_read_data := fun _ => 0
  data_mem_write_ready := fun _ => false

/-- The inputs of the example core when every fetch delivers `lw x5, 4(x0)` at once. -/
def loadingIn (reset : Bool) : CoreIn 2 2 :=
  { quietIn reset with
    fetcher_state_in := fun _ => .done
    fetched_instruction := fun _ => 0x00402283 }

end ComputeCore

open ComputeCore in
/-- In every state that a core reaches after a reset, for any inputs, at most one warp is in a stage
that uses the shared ALUs and LSUs, and they serve that warp. -/
theorem core_exclusive {W T : ℕ} [NeZero W] (life : Lifetime) {s : ComputeCore W T}
    (h : Clocked.Reachable (coreStep life) (AfterReset life) s) : Exclusive s := by
  have hi := Invariant.of_reachable h
  refine ⟨?_, hi.parked, ?_, ?_, fun l => (hi.consistent l).read_valid.1,
    fun l => (hi.consistent l).write_valid.1⟩
  · intro w hw
    by_contra hne
    rcases hi.parked w hne with h | h | h | h <;> simp [h] at hw
  · intro l hl
    have hlane := hi.lane l
    have hact : s.laneActive l = true ∧ (s.current_warp_state = .wait ∨
        s.current_warp_state = .execute ∨ s.current_warp_state = .update) := by
      unfold LaneOk at hlane
      cases hst : s.current_warp_state <;> simp_all
    unfold laneActive at hact
    simp only [Bool.and_eq_true, Bool.or_eq_true] at hact
    exact ⟨hact.2, hact.1.2, hact.1.1⟩
  · intro l hst hen hmem
    have hlane := hi.lane l
    unfold LaneOk laneActive at hlane
    rcases hst with hst | hst <;> rcases hmem with hmem | hmem <;> simp_all

open ComputeCore in
/-- Five edges after a reset warp 0 of the example core waits for its load, and warp 1 has decoded
its own. -/
theorem core_exclusive_waiting :
    ((blockRun .automatic (loadingIn true) (fun _ => loadingIn false) powerUp 5).warp_state 0 =
        .wait ∧
      (blockRun .automatic (loadingIn true) (fun _ => loadingIn false) powerUp 5).warp_state 1 =
        .decode ∧
      ∀ i : Fin 2, ((blockRun .automatic (loadingIn true) (fun _ => loadingIn false) powerUp 5).lsu
        i.castSucc).lsu_state = .waiting) ∧
    Exclusive (blockRun .automatic (loadingIn true) (fun _ => loadingIn false) powerUp 5) :=
  ⟨by decide +kernel, core_exclusive .automatic
    (Clocked.Reachable.run (.init ⟨loadingIn true, powerUp, rfl, rfl⟩)
      (fun _ => loadingIn false) 5)⟩

end SmolGpu
