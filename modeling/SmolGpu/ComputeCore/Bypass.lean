import SmolGpu.ComputeCore.Exclusive
import SmolGpu.Library.RoundRobin

/-!
# Bounded bypass

The loop that looks for the next warp is a round robin over the warps that are not idle, fetching,
or done. Of the warps other than the current one, these are the ones that have decoded an
instruction, since no other warp is past `WARP_DECODE`. So a warp that has decoded its instruction
is not passed over, and while it waits every other warp finishes one instruction at most
(`bounded_bypass`).
-/

namespace SmolGpu

namespace ComputeCore

variable {W T : ℕ} {s : ComputeCore W T} {v w : Fin W}

/-- The warps that the loop stops at. -/
def Eligible (s : ComputeCore W T) (v : Fin W) : Prop :=
  s.warp_state v ≠ .idle ∧ s.warp_state v ≠ .fetch ∧ s.warp_state v ≠ .done

/-- Whether a warp may be chosen is decidable from its state. -/
instance (s : ComputeCore W T) : DecidablePred s.Eligible := fun v =>
  inferInstanceAs (Decidable (s.warp_state v ≠ .idle ∧ s.warp_state v ≠ .fetch ∧
    s.warp_state v ≠ .done))

/-- The warp is waiting for its turn to execute the instruction that it has decoded. -/
def Decoding (s : ComputeCore W T) (v : Fin W) : Prop := s.warp_state v = .decode

/-- The warp that is found is the next eligible one behind the current warp. -/
theorem foundWarp_eq [NeZero W] : s.foundWarp = RoundRobin.next s.Eligible s.current_warp := rfl

/-- Of the other warps, the loop stops at those in `WARP_DECODE`. -/
theorem Invariant.eligible_iff (hi : Invariant s) (hv : v ≠ s.current_warp) :
    s.Eligible v ↔ s.Decoding v := by
  unfold Eligible Decoding
  rcases hi.parked v hv with h | h | h | h <;> simp [h]

/-- A warp in `WARP_UPDATE` is the current one. -/
theorem Invariant.current_of_update (hi : Invariant s) (hv : s.warp_state v = .update) :
    s.current_warp = v := by
  by_contra hne
  rcases hi.parked v (Ne.symm hne) with h | h | h | h <;> simp [hv] at h

variable [NeZero W] {life : Lifetime} {inp : CoreIn W T}

omit [NeZero W] in
/-- A core with a warp in `WARP_DECODE` has been started. -/
theorem Decoding.running (hw : s.Decoding w) (hi : Invariant s) (hr : inp.reset = false) :
    Running inp s := by
  have hactive : s.warp_state w ≠ .idle := by
    rw [show s.warp_state w = .decode from hw]
    decide
  exact ⟨hr, hi.started hactive⟩

/-- From `WARP_UPDATE` and `WARP_DONE` the core goes on to the next warp in `WARP_DECODE`, if there
is one. -/
theorem Invariant.isNext (life : Lifetime) (hi : Invariant s) (h : Running inp s)
    (hst : s.current_warp_state = .update ∨ s.current_warp_state = .done) (hw : s.Decoding w)
    (hne : w ≠ s.current_warp) :
    RoundRobin.IsNext s.Decoding s.current_warp (coreStep life inp s).current_warp := by
  have hcurrent : ¬s.Decoding s.current_warp := by
    intro hdec
    rcases hst with hst | hst <;> exact nomatch hst.symm.trans hdec
  have hfree := (hi.eligible_iff hne).mpr hw
  obtain ⟨v, hv⟩ := RoundRobin.exists_isNext hfree s.current_warp
  have hchosen : (coreStep life inp s).current_warp = v := by
    rw [step_current_warp h, if_pos hst, foundWarp_eq, RoundRobin.next_eq_some_iff.mpr hv]
    rfl
  rw [hchosen]
  exact hv.congr hfree hne (fun u hu => hi.eligible_iff hu) hcurrent

/-- While a warp waits for its turn, the turn stays where it is or comes closer. -/
theorem Invariant.turn_step (hi : Invariant s) (h : Running inp s) (hw : s.Decoding w)
    (hne : w ≠ s.current_warp) (hne' : (coreStep life inp s).current_warp ≠ w) :
    (coreStep life inp s).current_warp = s.current_warp ∨
      RoundRobin.gap (coreStep life inp s).current_warp w < RoundRobin.gap s.current_warp w := by
  by_cases hst : s.current_warp_state = .update ∨ s.current_warp_state = .done
  · exact .inr ((hi.isNext life h hst hw hne).gap_lt hw hne')
  · left
    rw [step_current_warp h, if_neg hst]

section Run

variable {inputs : ℕ → CoreIn W T} {n : ℕ}

/-- A warp in `WARP_DECODE` stays there until it is the current one. -/
theorem decoding_of_not_current (hi : ∀ k, Invariant (Clocked.run (coreStep life) inputs s k))
    (hw : s.Decoding w) (hreset : ∀ k < n, (inputs k).reset = false)
    (hwaits : ∀ k ≤ n, (Clocked.run (coreStep life) inputs s k).current_warp ≠ w) {k : ℕ}
    (hk : k ≤ n) : (Clocked.run (coreStep life) inputs s k).Decoding w := by
  induction k with
  | zero => exact hw
  | succ k ih =>
    have hdec : (Clocked.run (coreStep life) inputs s k).warp_state w = .decode := ih (by omega)
    have hstay : (Clocked.run (coreStep life) inputs s (k + 1)).warp_state w =
        (Clocked.run (coreStep life) inputs s k).fetched (inputs k) w :=
      step_warp_state_of_ne (Decoding.running hdec (hi k) (hreset k hk)) (hwaits k (by omega)).symm
    rw [ComputeCore.fetched, hdec, if_neg (by simp)] at hstay
    exact hstay

/-- While a warp waits for its turn, no other one is in `WARP_UPDATE` at two times. -/
theorem update_unique (hi : ∀ k, Invariant (Clocked.run (coreStep life) inputs s k))
    (hw : s.Decoding w) (hreset : ∀ k < n, (inputs k).reset = false)
    (hwaits : ∀ k ≤ n, (Clocked.run (coreStep life) inputs s k).current_warp ≠ w) {k k' : ℕ}
    (hlt : k < k') (hk' : k' ≤ n)
    (hv : (Clocked.run (coreStep life) inputs s k).warp_state v = .update)
    (hv' : (Clocked.run (coreStep life) inputs s k').warp_state v = .update) : False := by
  have hdec : ∀ k ≤ n, (Clocked.run (coreStep life) inputs s k).Decoding w := fun k hk =>
    decoding_of_not_current hi hw hreset hwaits hk
  have hrun : ∀ k < n, Running (inputs k) (Clocked.run (coreStep life) inputs s k) := fun k hk =>
    (hdec k hk.le).running (hi k) (hreset k hk)
  -- The warp in `WARP_UPDATE` has the turn, and gives it up.
  have hturn := (hi k).current_of_update hv
  have hst : (Clocked.run (coreStep life) inputs s k).current_warp_state = .update := by
    rw [current_warp_state, hturn]
    exact hv
  have hgives := ((hi k).isNext life (hrun k (by omega)) (.inl hst) (hdec k (by omega))
    (hwaits k (by omega)).symm).gap_lt (hdec k (by omega)) (hwaits (k + 1) (by omega))
  let turn : ℕ → Fin W := fun k => (Clocked.run (coreStep life) inputs s k).current_warp
  have hstep : ∀ k < n, turn (k + 1) = turn k ∨
      RoundRobin.gap (turn (k + 1)) w < RoundRobin.gap (turn k) w := fun k hk =>
    (hi k).turn_step (hrun k hk) (hdec k hk.le) (hwaits k hk.le).symm (hwaits (k + 1) hk)
  refine RoundRobin.turn_unique hstep hlt hk' hgives ?_
  show (Clocked.run (coreStep life) inputs s k').current_warp =
    (Clocked.run (coreStep life) inputs s k).current_warp
  rw [hturn, (hi k').current_of_update hv']

end Run

end ComputeCore

open ComputeCore in
/-- In every run of a core without a reset, from the time at which a warp is in `WARP_DECODE` until
it is the current one, no other warp is in `WARP_UPDATE` more than once. And from `WARP_UPDATE` and
`WARP_DONE` the turn goes to the first of the other warps in `WARP_DECODE`, in cyclic order. -/
theorem bounded_bypass {W T : ℕ} [NeZero W] (life : Lifetime) {s : ComputeCore W T}
    (hs : Clocked.Reachable (coreStep life) (AfterReset life) s) (inputs : ℕ → CoreIn W T) :
    (∀ w n, s.warp_state w = .decode → (∀ k < n, (inputs k).reset = false) →
      (∀ k ≤ n, (Clocked.run (coreStep life) inputs s k).current_warp ≠ w) →
        ∀ v, v ≠ w → ∀ k ≤ n, ∀ k' ≤ n,
          (Clocked.run (coreStep life) inputs s k).warp_state v = .update →
            (Clocked.run (coreStep life) inputs s k').warp_state v = .update → k = k') ∧
    ∀ inp : CoreIn W T, inp.reset = false →
      s.current_warp_state = .update ∨ s.current_warp_state = .done →
        (∃ v, v ≠ s.current_warp ∧ s.warp_state v = .decode) →
          ∃ i : Fin W, (coreStep life inp s).current_warp = s.current_warp + 1 + i ∧
            s.warp_state (s.current_warp + 1 + i) = .decode ∧
              ∀ j < i, s.warp_state (s.current_warp + 1 + j) ≠ .decode := by
  have hi : ∀ k, Invariant (Clocked.run (coreStep life) inputs s k) := fun k =>
    Invariant.of_reachable (hs.run inputs k)
  constructor
  · -- A second update of the same warp would come after the turn of `w`.
    intro w n hw hreset hwaits v _ k hk k' hk' hv hv'
    rcases Nat.lt_trichotomy k k' with hlt | heq | hlt
    · exact (update_unique hi hw hreset hwaits hlt hk' hv hv').elim
    · exact heq
    · exact (update_unique hi hw hreset hwaits hlt hk hv' hv).elim
  · -- The search from the current warp finds the next one in `WARP_DECODE`.
    rintro inp hreset hst ⟨v, hne, hv⟩
    have hinv := Invariant.of_reachable hs
    obtain ⟨i, hi, hdec, hbefore⟩ :=
      hinv.isNext life (Decoding.running hv hinv hreset) hst hv hne
    exact ⟨i, hi.symm, hi ▸ hdec, hbefore⟩

section Example

/-- The example core has two warps. -/
local instance twoWarps : NeZero 2 := ⟨two_ne_zero⟩

namespace ComputeCore

/-- The inputs of an example core of two warps and two threads, whose fetches end at once. -/
def fetchedIn (reset : Bool) : CoreIn 2 2 :=
  { quietIn reset with fetcher_state_in := fun _ => .done }

/-- The example core when both warps are in `WARP_DECODE`. -/
def bothDecoding : ComputeCore 2 2 :=
  Clocked.run (coreStep .automatic) (fun _ => fetchedIn false)
    (coreStep .automatic (fetchedIn true) powerUp) 2

/-- The state of the example is reachable. -/
theorem bothDecoding_reachable :
    Clocked.Reachable (coreStep .automatic) (AfterReset .automatic) bothDecoding :=
  .step _ (.step _ (.init ⟨fetchedIn true, powerUp, rfl, rfl⟩))

/-- The example core when warp 0 is in `WARP_UPDATE`. -/
def updating : ComputeCore 2 2 :=
  Clocked.run (coreStep .automatic) (fun _ => fetchedIn false) bothDecoding 4

/-- The state of the example is reachable. -/
theorem updating_reachable :
    Clocked.Reachable (coreStep .automatic) (AfterReset .automatic) updating :=
  bothDecoding_reachable.run (fun _ => fetchedIn false) 4

end ComputeCore

open ComputeCore in
/-- Warp 0 of the example core is in `WARP_UPDATE` once before it is the turn of warp 1, which is
next. -/
theorem bounded_bypass_two :
    (∀ v, v ≠ 1 → ∀ k ≤ 4, ∀ k' ≤ 4,
      (Clocked.run (coreStep .automatic) (fun _ => fetchedIn false) bothDecoding k).warp_state v =
          .update →
        (Clocked.run (coreStep .automatic) (fun _ => fetchedIn false) bothDecoding k').warp_state
          v = .update → k = k') ∧
    ∃ i : Fin 2, (coreStep .automatic (fetchedIn false) updating).current_warp =
        updating.current_warp + 1 + i ∧
      updating.warp_state (updating.current_warp + 1 + i) = .decode ∧
        ∀ j < i, updating.warp_state (updating.current_warp + 1 + j) ≠ .decode := by
  constructor
  · exact (bounded_bypass .automatic bothDecoding_reachable fun _ => fetchedIn false).1 1 4
      (by decide +kernel) (fun _ _ => rfl) (by decide +kernel)
  · exact (bounded_bypass .automatic updating_reachable fun _ => fetchedIn false).2
      (fetchedIn false) rfl (.inl (by decide +kernel)) ⟨1, by decide +kernel, by decide +kernel⟩

end Example

end SmolGpu
