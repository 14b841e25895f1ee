import SmolGpu.ComputeCore.Wait
import SmolGpu.Gpu.Handshake
import SmolGpu.Library.Eventually
import SmolGpu.MemController.Arbitration

/-!
# The data path gets on

The controller takes the pending consumers in the order of their numbers, so that one with a high
number may wait for as long as others come back. It cannot be that all of them wait: a channel that
is idle picks up some request, and if memory answers, a request that has been picked up goes
through. So if no LSU begins a new access from some edge on, all accesses that are under way come to
their end (`IsRun.not_busy`).

The phases of a lane are counted down to `quiet`. The count only goes up when an access begins, so
in the end every lane stays in one phase, and there are two in which a lane can stay without one of
its own registers moving on: it waits for a channel, or its channel waits for memory.
-/

namespace SmolGpu

open Filter

namespace MemController

variable {C M AW DW : ℕ} [NeZero C] {write_enable : Bool} {inp : MemControllerIn C M AW DW}
  {s : MemController C M AW DW}

/-- The channels are not all idle after an edge at which a request was pending. -/
theorem exists_busy (hM : 0 < M) (hr : inp.reset = false)
    (hidle : ∀ k, s.controller_state k = ChannelState.idle.code) {j : Fin C}
    (hj : pending write_enable inp s j = true) :
    ∃ k, (memControllerStep write_enable inp s).controller_state k ≠ ChannelState.idle.code := by
  refine ⟨⟨0, hM⟩, ?_⟩
  rw [memControllerStep_eq hr]
  -- The first channel picks a request up, and the others leave its state alone.
  refine (Loop.foldl_induction _ (fun k a => (k = 0 → a = s) ∧
    (0 < k → a.controller_state ⟨0, hM⟩ ≠ ChannelState.idle.code)) s
    ⟨fun _ => rfl, fun h => absurd h (lt_irrefl 0)⟩ fun k a h =>
      ⟨fun h => absurd h k.val.succ_ne_zero, fun _ => ?_⟩).2 hM
  rcases Nat.eq_zero_or_pos (k : ℕ) with hk | hk
  · obtain rfl : k = ⟨0, hM⟩ := Fin.ext hk
    obtain rfl := h.1 hk
    unfold channelStep
    dsimp only
    rw [if_pos (show a.controller_state ⟨0, hM⟩ = IDLE from hidle _)]
    rw [idleCase_eq]
    have hmem : j ∈ pendingConsumers write_enable inp a :=
      List.mem_filter.mpr ⟨List.mem_finRange j, hj⟩
    cases hhead : (pendingConsumers write_enable inp a).head? with
    | none =>
      rw [List.head?_eq_none_iff.mp hhead] at hmem
      cases hmem
    | some j =>
      rw [pickUp_controller_state, Function.update_self, Ne, ChannelState.code_inj]
      exact nofun
  · rw [(channelStep_other (Fin.ne_of_val_ne hk.ne)).1]
    exact h.2 hk

end MemController

namespace Gpu

open MemController (Kind Request Owned ChannelState Serves)

variable {N W T M : ℕ}

/-- The edges that a lane needs to become quiet, apart from those at which it waits. -/
def LanePhase.rank : LanePhase M → ℕ
  | .quiet => 0
  | .released _ _ => 1
  | .lowered _ _ _ => 2
  | .accepted _ _ _ => 3
  | .told _ _ _ => 4
  | .answered _ _ _ => 5
  | .asking _ _ => 6
  | .presented _ => 7
  | .raised _ => 8

/-- A lane moves on, or waits, or begins an access. -/
theorem LaneStep.rank {inp : GpuIn N W M} {p p' : LanePhase M} (h : LaneStep inp p p') :
    p'.rank < p.rank ∨ p' = p ∨ p = .quiet ∧ ∃ r, p' = .raised r := by
  cases h with
  | quiet | queue | wait => exact .inr (.inl rfl)
  | raise r => exact .inr (.inr ⟨rfl, r, rfl⟩)
  | present | ask | answer | tell | accept | lower | release | settle =>
    exact .inl (by simp [LanePhase.rank])

/-- The phases in which a lane can stay. -/
theorem LaneStep.stays {inp : GpuIn N W M} {p : LanePhase M} (h : LaneStep inp p p) :
    p = .quiet ∨ (∃ r, p = .presented r) ∨ ∃ k r, p = .asking k r := by
  cases p with
  | quiet => exact .inl rfl
  | presented r => exact .inr (.inl ⟨r, rfl⟩)
  | asking k r => exact .inr (.inr ⟨k, r, rfl⟩)
  | raised | answered | told | accepted | lowered | released => cases h

variable [NeZero N] [NeZero W] {life : Lifetime} {inp : ℕ → GpuIn N W M} {σ : ℕ → Gpu N W T M}

/-- The phases of a lane in a run. -/
theorem IsRun.phases (h : IsRun life inp σ) (i : Fin N) (l : Fin (T + 1)) :
    ∃ p : ℕ → LanePhase M, ∀ n, LaneIs (σ n) i l (p n) ∧ LaneStep (inp n) (p n) (p (n + 1)) := by
  refine Clocked.exists_follows (P := fun n p => LaneIs (σ n) i l p)
    (R := fun n p p' => LaneStep (inp n) p p') (h.settled.laneIs i l) fun n p hp => ?_
  obtain ⟨p', hp', hstep⟩ := hp.step life (h.guarded n) (h.owned n) (h.reset n)
  exact ⟨p', h.step n ▸ hp', hstep⟩

/-- A lane whose LSU begins no more accesses stays in one phase at last. -/
theorem IsRun.phase_const (h : IsRun life inp σ) {i : Fin N} {l : Fin (T + 1)}
    (hquiet : ∀ᶠ n in atTop, ((σ n).laneLsu i l).lsu_state ≠ .requesting) :
    ∃ p : LanePhase M, ∀ᶠ n in atTop, LaneIs (σ n) i l p ∧ LaneStep (inp n) p p := by
  obtain ⟨p, hp⟩ := h.phases i l
  have hraise : ∀ᶠ n in atTop, (p (n + 1)).rank < (p n).rank ∨ p (n + 1) = p n := by
    filter_upwards [hquiet] with n hn
    rcases (hp n).2.rank with hlt | heq | ⟨hfrom, r, hto⟩
    · exact .inl hlt
    · exact .inr heq
    · -- The LSU was about to raise the request.
      have hbefore : ((σ n).laneLsu i l).lsu_state ≠ .waiting := by
        have hstate := (hp n).1.state
        rw [hfrom] at hstate
        exact hstate
      have hafter : ((σ (n + 1)).laneLsu i l).lsu_state = .waiting := by
        have hstate := (hp (n + 1)).1.state
        rw [hto] at hstate
        exact hstate
      have hidle {st : LsuState} (hst : st ≠ .waiting)
          (hs : ((σ (n + 1)).laneLsu i l).lsu_state = st) : False := hst (hs.symm.trans hafter)
      cases h.lsuEdge n i l with
      | idle _ _ hs => exact (hidle (by decide) hs).elim
      | begins _ _ _ hs => exact (hidle (by decide) hs).elim
      | raise hs => exact absurd hs hn
      | wait r hs => exact absurd hs hbefore
      | accept r hs => exact absurd hs hbefore
      | hold hs _ hsame =>
        rw [hsame] at hafter
        exact absurd hafter hbefore
      | finish _ _ hs => exact (hidle (by decide) hs).elim
  have hconst := Eventually.const_of_le (f := fun n => (p n).rank) (hraise.mono fun n hn => by
    rcases hn with hlt | heq
    · exact hlt.le
    · rw [heq])
  have hsame : ∀ᶠ n in atTop, p (n + 1) = p n := by
    filter_upwards [hraise, hconst] with n hn heq
    exact hn.resolve_left fun hlt => absurd heq hlt.ne
  obtain ⟨q, hq⟩ := Eventually.exists_eq hsame
  refine ⟨q, ?_⟩
  filter_upwards [hq, Eventually.succ hq] with n hn hn'
  have hboth := hp n
  rwa [hn, hn'] at hboth

/-- A lane that keeps asking memory is not left without an answer. -/
theorem IsRun.not_asking (h : IsRun life inp σ)
    (hmem : ∀ k κ, (∀ᶠ n in atTop, (σ n).data_memory_controller.memValid κ k = true) →
      ∃ᶠ n in atTop, (inp n).memReady κ k = true) {i : Fin N} {l : Fin (T + 1)} {p : LanePhase M}
    (hlane : ∀ᶠ n in atTop, LaneIs (σ n) i l p ∧ LaneStep (inp n) p p) (k : Fin M)
    (r : Request 32 32) : p ≠ .asking k r := by
  rintro rfl
  have hvalid : ∀ᶠ n in atTop, (σ n).data_memory_controller.memValid r.kind k = true := by
    filter_upwards [hlane] with n hn
    exact ((h.owned n).memValid r.kind k).mpr hn.1.port.2.code
  obtain ⟨n, hready, hn⟩ := ((hmem k r.kind hvalid).and_eventually hlane).exists
  cases hn.2 with
  | wait _ _ hlow => exact absurd (hlow.symm.trans hready) (by simp)

omit [NeZero N] [NeZero W] in
/-- If every lane is quiet or waits for a channel, no channel is busy. -/
theorem idle_of_lanes {s : Gpu N W T M} {p : Fin N → Fin (T + 1) → LanePhase M}
    (h : ∀ i l, LaneIs s i l (p i l)) (hphase : ∀ i l, p i l = .quiet ∨ ∃ r, p i l = .presented r)
    (k : Fin M) : s.data_memory_controller.controller_state k = ChannelState.idle.code := by
  by_contra hne
  -- The lane that a channel serves is neither quiet nor waiting for a channel.
  obtain ⟨⟨i, l⟩, hx⟩ : ∃ x : Fin N × Fin (T + 1),
      s.data_memory_controller.current_consumer k = lsuIndex x.1 x.2 :=
    ⟨finProdFinEquiv.symm _, (finProdFinEquiv.apply_symm_apply _).symm⟩
  have hserves : Serves s.data_memory_controller k (lsuIndex i l) := ⟨hne, hx⟩
  have hport := (h i l).port
  rcases hphase i l with hq | ⟨r, hq⟩ <;> rw [hq] at hport <;> exact hport k hserves

/-- If a lane waits for a channel and all channels are idle, one of them is busy after the edge. -/
theorem IsRun.exists_busy (h : IsRun life inp σ) (hM : 0 < M) {n : ℕ} {i : Fin N} {l : Fin (T + 1)}
    {r : Request 32 32} (hlane : LaneIs (σ n) i l (.presented r))
    (hidle : ∀ k, (σ n).data_memory_controller.controller_state k = ChannelState.idle.code) :
    ∃ k, (σ (n + 1)).data_memory_controller.controller_state k ≠ ChannelState.idle.code := by
  have hfree : (σ n).data_memory_controller.channel_serving_consumer (lsuIndex i l) = false := by
    rw [← Bool.not_eq_true, (h.owned n).serving]
    rintro ⟨k, hserves⟩
    exact hlane.port k hserves
  have hvalid : MemController.valid (controllerIn (inp n) (σ n)) r.kind (lsuIndex i l) = true :=
    hlane.pipe.valid_iff.mpr ⟨r, rfl, rfl⟩
  have hpending : MemController.pending true (controllerIn (inp n) (σ n))
      (σ n).data_memory_controller (lsuIndex i l) = true := by
    rw [MemController.pending_iff]
    refine ⟨hfree, ?_⟩
    cases r with
    | read => exact .inl hvalid
    | write => exact .inr ⟨rfl, hvalid⟩
  rw [h.step]
  exact MemController.exists_busy hM (h.reset n) hidle hpending

/-- If no LSU begins an access from some edge on, and memory answers every channel that keeps
asking, no LSU is busy from some edge on. -/
theorem IsRun.not_busy (h : IsRun life inp σ) (hM : 0 < M)
    (hquiet : ∀ᶠ n in atTop, ∀ i l, ((σ n).laneLsu i l).lsu_state ≠ .requesting)
    (hmem : ∀ k κ, (∀ᶠ n in atTop, (σ n).data_memory_controller.memValid κ k = true) →
      ∃ᶠ n in atTop, (inp n).memReady κ k = true) :
    ∀ᶠ n in atTop, ∀ i, ¬((σ n).cluster.core i).LsuBusy := by
  have hlanes (i : Fin N) (l : Fin (T + 1)) :=
    h.phase_const (hquiet.mono fun n hn => hn i l)
  choose p hp using hlanes
  have hphase (i : Fin N) (l : Fin (T + 1)) : p i l = .quiet ∨ ∃ r, p i l = .presented r := by
    obtain ⟨n, -, hstep⟩ := (hp i l).exists
    rcases hstep.stays with hq | hq | ⟨k, r, hq⟩
    · exact .inl hq
    · exact .inr hq
    · exact absurd hq (h.not_asking hmem (hp i l) k r)
  have hall : ∀ᶠ n in atTop, ∀ i l, LaneIs (σ n) i l (p i l) :=
    eventually_all.mpr fun i => eventually_all.mpr fun l => (hp i l).mono fun _ hn => hn.1
  have hidle : ∀ᶠ n in atTop, ∀ k,
      (σ n).data_memory_controller.controller_state k = ChannelState.idle.code :=
    hall.mono fun _ hn => idle_of_lanes hn hphase
  -- A lane that waits for a channel would be picked up.
  have hquiet' (i : Fin N) (l : Fin (T + 1)) : p i l = .quiet := by
    refine (hphase i l).resolve_right fun ⟨r, hq⟩ => ?_
    obtain ⟨n, hn, hnow, hnext⟩ := (hall.and (hidle.and (Eventually.succ hidle))).exists
    obtain ⟨k, hk⟩ := h.exists_busy hM (hq ▸ hn i l) hnow
    exact hk (hnext k)
  filter_upwards [hall, hquiet] with n hn hreq i
  rintro ⟨l, hs | hs⟩
  · exact hreq i l hs
  · have hstate := (hn i l).state
    rw [hquiet'] at hstate
    exact hstate hs

end Gpu

end SmolGpu
