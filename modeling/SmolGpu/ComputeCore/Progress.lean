import SmolGpu.ComputeCore.Bypass
import SmolGpu.ComputeCore.Wait
import SmolGpu.Library.Eventually

/-!
# A core gets on

A core that is kept started, and whose fetchers answer again and again, begins further instructions,
or waits for its LSUs, or is done: these are the only ways in which it can go on for ever. So if it
begins no more instructions and its LSUs are idle from some edge on, it is done (`Employed.done`).
The argument follows the core from there: the current warp leaves the stages of its instruction
behind and is not fetching, so that it is done itself; then the core would go to any warp in
`WARP_DECODE`, so that no other warp fetches either.

The flag of `WARP_WAIT` is taken to be initialized at each entry of the branch. A flag that is not
keeps the core there (`wait_present_iff`).
-/

namespace SmolGpu

open Filter

namespace ComputeCore

variable {W T : ℕ}

/-- After the start no warp is idle. -/
def Awake (s : ComputeCore W T) : Prop := s.start_execution = true → ∀ w, s.warp_state w ≠ .idle

variable [NeZero W] {life : Lifetime} {s : ComputeCore W T}

/-- A reset leaves every warp awake. -/
theorem Awake.of_reset {inp : CoreIn W T} (hr : inp.reset = true) : Awake (coreStep life inp s) :=
  fun h => absurd ((step_reset hr).1.symm.trans h) (by simp)

/-- A clock edge keeps every warp awake. -/
theorem Awake.step {inp : CoreIn W T} (h : Awake s) : Awake (coreStep life inp s) := by
  rcases hr : inp.reset with _ | _
  · intro hstart w
    rcases hs : s.start_execution with _ | _
    · have hstart : (s.alwaysBlock life inp).start_execution = true := hstart
      show (s.alwaysBlock life inp).warp_state w ≠ .idle
      -- A start sets all warps to fetching.
      rcases hst : inp.start with _ | _
      · rw [step_not_started hr hs hst, hs] at hstart
        cases hstart
      · rw [step_start hr hs hst]
        simp
    · have hrun : Running inp s := ⟨hr, hs⟩
      rw [step_warp_state hrun]
      -- In a started core a warp goes from stage to stage, and no stage leads back to idle.
      split_ifs with hw
      · have hcur : s.current_warp_state ≠ .idle := h hs _
        unfold currentNext fetched
        cases hst : s.current_warp_state with
        | idle => exact absurd hst hcur
        | fetch =>
          show (if _ then WarpState.decode else s.current_warp_state) ≠ .idle
          split_ifs <;> simp [hst]
        | wait => cases s.anyLsuWaiting life <;> simp
        | update => cases s.current.decoded_halt <;> simp
        | decode | request | execute | done => simp
      · unfold fetched
        split_ifs
        · simp
        · exact h hs w
  · exact .of_reset hr

/-- From `WARP_UPDATE` and `WARP_DONE` the core goes on to a warp in `WARP_DECODE`, if there is
one. -/
theorem Invariant.current_decode (life : Lifetime) {inp : CoreIn W T} (hi : Invariant s)
    (h : Running inp s) (hst : s.current_warp_state = .update ∨ s.current_warp_state = .done)
    {w : Fin W} (hw : s.Decoding w) (hne : w ≠ s.current_warp) :
    (coreStep life inp s).current_warp_state = .decode := by
  obtain ⟨i, -, hdec, -⟩ := hi.isNext life h hst hw hne
  have hdec : s.warp_state (coreStep life inp s).current_warp = .decode := hdec
  have hother : (coreStep life inp s).current_warp ≠ s.current_warp := by
    intro heq
    rw [heq] at hdec
    have hcur : s.current_warp_state = .decode := hdec
    rcases hst with hst | hst <;> exact nomatch hst.symm.trans hcur
  unfold current_warp_state
  rw [step_warp_state_of_ne h hother, fetched, hdec, if_neg (by simp)]

/-- An edge of a core that is kept started. -/
structure Employed (inp : CoreIn W T) (c c' : ComputeCore W T) : Prop where
  /-- The edge is one of the core. -/
  step : c' = coreStep .automatic inp c
  /-- The core is not reset. -/
  reset : inp.reset = false
  /-- The core is told to start. -/
  start : inp.start = true
  /-- The core's invariant holds before the edge. -/
  invariant : Invariant c
  /-- The warps of a started core are awake before it. -/
  awake : Awake c

namespace Employed

variable {inp : ℕ → CoreIn W T} {c : ℕ → ComputeCore W T}

/-- Such a core runs. -/
theorem running (h : ∀ᶠ n in atTop, Employed (inp n) (c n) (c (n + 1))) :
    ∀ᶠ n in atTop, Running (inp n) (c n) := by
  have hstart : ∀ᶠ n in atTop, (c (n + 1)).start_execution = true := by
    filter_upwards [h] with n hn
    rw [hn.step]
    rcases hs : (c n).start_execution with _ | _
    · show ((c n).alwaysBlock .automatic (inp n)).start_execution = true
      rw [step_start hn.reset hs hn.start]
    · exact step_start_execution ⟨hn.reset, hs⟩
  filter_upwards [h, Eventually.of_succ (P := fun n => (c n).start_execution = true) hstart]
    with n hn hs
  exact ⟨hn.reset, hs⟩

section

variable (h : ∀ᶠ n in atTop, Employed (inp n) (c n) (c (n + 1)))
  (hdec : ∀ᶠ n in atTop, (c n).current_warp_state ≠ .decode)
include h hdec

/-- A core that begins no more instructions stays with its current warp. -/
theorem current_warp : ∀ᶠ n in atTop, (c (n + 1)).current_warp = (c n).current_warp := by
  filter_upwards [h, running h, Eventually.succ hdec] with n hn hrun hno
  rw [hn.step] at hno ⊢
  rw [step_current_warp hrun]
  split_ifs with hst
  · by_contra hne
    rw [foundWarp_eq] at hne
    rcases hnext : RoundRobin.next (c n).Eligible (c n).current_warp with _ | v
    · simp [hnext] at hne
    · obtain ⟨i, -, hv, -⟩ := RoundRobin.next_eq_some_iff.mp hnext
      rw [hnext] at hne
      have hother : v ≠ (c n).current_warp := hne
      have hdecoding := (hn.invariant.eligible_iff hother).mp hv
      exact hno (hn.invariant.current_decode .automatic hrun hst hdecoding hother)
  · rfl

/-- So the current warp goes from stage to stage. -/
theorem stage : ∀ᶠ n in atTop,
    (c (n + 1)).current_warp_state = (c n).currentNext .automatic (inp n) := by
  filter_upwards [h, running h, current_warp h hdec] with n hn hrun hsame
  show (c (n + 1)).warp_state (c (n + 1)).current_warp = _
  rw [hsame, hn.step, step_warp_state_current hrun]

/-- It makes no more requests. -/
theorem not_request : ∀ᶠ n in atTop, (c n).current_warp_state ≠ .request := by
  refine Eventually.of_succ (P := fun n => (c n).current_warp_state ≠ .request) ?_
  filter_upwards [stage h hdec, hdec] with n hn hno
  rw [hn]
  unfold currentNext fetched
  cases hst : (c n).current_warp_state with
  | decode => exact absurd hst hno
  | fetch =>
    show (if _ then WarpState.decode else (c n).current_warp_state) ≠ .request
    split_ifs <;> simp [hst]
  | wait => cases (c n).anyLsuWaiting .automatic <;> simp
  | update => cases (c n).current.decoded_halt <;> simp
  | idle | request | execute | done => simp

end

end Employed

/-- How many edges an instruction in a stage takes yet if no LSU is busy. -/
def stageRank : WarpState → ℕ
  | .request => 4
  | .wait => 3
  | .execute => 2
  | .update => 1
  | .idle | .fetch | .decode | .done => 0

namespace Employed

variable {inp : ℕ → CoreIn W T} {c : ℕ → ComputeCore W T}
  (h : ∀ᶠ n in atTop, Employed (inp n) (c n) (c (n + 1)))
  (hdec : ∀ᶠ n in atTop, (c n).current_warp_state ≠ .decode)
  (hlsu : ∀ᶠ n in atTop, ¬(c n).LsuBusy)
include h hdec hlsu

/-- The current warp comes to the end of its instruction. -/
theorem parked : ∀ᶠ n in atTop,
    (c n).current_warp_state = .fetch ∨ (c n).current_warp_state = .done := by
  have hrank : ∀ᶠ n in atTop, stageRank (c (n + 1)).current_warp_state =
      stageRank (c n).current_warp_state - 1 := by
    filter_upwards [stage h hdec, hdec, hlsu] with n hn hno hidle
    rw [hn]
    unfold currentNext fetched
    cases hst : (c n).current_warp_state with
    | decode => exact absurd hst hno
    | fetch =>
      show stageRank (if _ then WarpState.decode else (c n).current_warp_state) = _
      split_ifs
      · rfl
      · rw [hst]
        rfl
    | wait =>
      have hflag : (c n).anyLsuWaiting .automatic = false := by
        rw [← Bool.not_eq_true, anyLsuWaiting_iff]
        simpa using hidle
      rw [hflag]
      rfl
    | update => cases (c n).current.decoded_halt <;> rfl
    | idle | request | execute | done => rfl
  -- The rank does not fall for ever, and stays at zero only.
  have hconst := Eventually.const_of_le (f := fun n => stageRank (c n).current_warp_state)
    (hrank.mono fun n hn => by omega)
  filter_upwards [h, running h, hrank, hconst, hdec] with n hn hrun hnext hsame hno
  have hzero : stageRank (c n).current_warp_state = 0 := by omega
  have hidle : (c n).current_warp_state ≠ .idle := hn.awake hrun.start _
  cases hst : (c n).current_warp_state with
  | fetch => exact .inl rfl
  | done => exact .inr rfl
  | idle => exact absurd hst hidle
  | decode => exact absurd hst hno
  | request | wait | execute | update => simp [hst, stageRank] at hzero

variable (hfetch : ∀ w, ∃ᶠ n in atTop, (inp n).fetcher_state_in w = .done)
include hfetch

/-- The current warp is done. -/
theorem current_done : ∀ᶠ n in atTop, (c n).current_warp_state = .done := by
  obtain ⟨w, hw⟩ := Eventually.exists_eq (v := fun n => (c n).current_warp) (current_warp h hdec)
  have hnot : ∀ᶠ n in atTop, ¬(c n).current_warp_state = .fetch := by
    have hnext : ∀ᶠ n in atTop, (c n).current_warp_state = .fetch →
        (c (n + 1)).current_warp_state = (c n).fetched (inp n) w := by
      filter_upwards [stage h hdec, hw] with n hn hcur hst
      rw [hn, currentNext, hst, hcur]
    refine Eventually.not_of_frequently (hfetch w) ?_ ?_
    · filter_upwards [parked h hdec hlsu, hnext, hw, Eventually.succ hdec]
        with n hn hnext hcur hno hst
      have hwarp : (c n).warp_state w = .fetch := hcur ▸ hst
      rw [hnext hst] at hno ⊢
      unfold fetched at hno ⊢
      split_ifs at hno ⊢ with hf
      · exact absurd rfl hno
      · exact hwarp
    · filter_upwards [hnext, hw, Eventually.succ hdec] with n hnext hcur hno hst hf
      have hwarp : (c n).warp_state w = .fetch := hcur ▸ hst
      exact hno ((hnext hst).trans (if_pos ⟨hwarp, hf⟩))
  filter_upwards [parked h hdec hlsu, hnot] with n hn hno
  exact hn.resolve_left hno

/-- So is every other one, since the core would go on to it. -/
theorem all_done : ∀ᶠ n in atTop, ∀ w, (c n).warp_state w = .done := by
  have hdone := current_done h hdec hlsu hfetch
  -- The core would take a warp in `WARP_DECODE` at the next edge.
  have hnone : ∀ᶠ n in atTop, ∀ w, (c n).warp_state w ≠ .decode := by
    filter_upwards [h, running h, hdone, Eventually.succ hdec] with n hn hrun hcur hno w hw
    have hother : w ≠ (c n).current_warp := by
      rintro rfl
      exact nomatch hcur.symm.trans hw
    rw [hn.step] at hno
    exact hno (hn.invariant.current_decode .automatic hrun (.inr hcur) hw hother)
  have hfetched (w : Fin W) : ∀ᶠ n in atTop, (c n).warp_state w = .fetch →
      (c (n + 1)).warp_state w = (c n).fetched (inp n) w := by
    filter_upwards [h, running h, hdone] with n hn hrun hcur hw
    rw [hn.step]
    refine step_warp_state_of_ne hrun ?_
    rintro rfl
    exact nomatch hcur.symm.trans hw
  rw [eventually_all]
  intro w
  -- A fetcher that is done would bring its warp there.
  have hnot : ∀ᶠ n in atTop, ¬(c n).warp_state w = .fetch := by
    refine Eventually.not_of_frequently (hfetch w) ?_ ?_
    · filter_upwards [hfetched w, Eventually.succ hnone] with n hnext hno hw
      have hno' := hno w
      rw [hnext hw] at hno' ⊢
      unfold fetched at hno' ⊢
      split_ifs at hno' ⊢
      · exact absurd rfl hno'
      · exact hw
    · filter_upwards [hfetched w, Eventually.succ hnone] with n hnext hno hw hf
      exact hno w ((hnext hw).trans (if_pos ⟨hw, hf⟩))
  filter_upwards [h, running h, hdone, hnone, hnot] with n hn hrun hcur hno hfetch
  by_cases hw : w = (c n).current_warp
  · rw [hw]
    exact hcur
  · rcases hn.invariant.parked w hw with hst | hst | hst | hst
    · exact absurd hst (hn.awake hrun.start w)
    · exact absurd hst hfetch
    · exact absurd hst (hno w)
    · exact hst

/-- A core that begins no more instructions and whose LSUs are idle is done. -/
theorem done : ∀ᶠ n in atTop, (c n).done = true := by
  refine Eventually.of_succ (P := fun n => (c n).done = true) ?_
  filter_upwards [h, running h, all_done h hdec hlsu hfetch] with n hn hrun hall
  rw [hn.step, step_done hrun, decide_eq_true hall]

end Employed

end ComputeCore

end SmolGpu
