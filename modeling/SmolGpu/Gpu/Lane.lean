import SmolGpu.Gpu.Gpu
import SmolGpu.MemController.Transactions

/-!
# A lane of the data memory

One LSU, its registers in `g_lsu_connect`, and its port of the controller. A request and its answer
go around this loop in the nine phases of `LanePhase`, a register for each cycle of delay:

* the LSU raises the request (`raised`), the controller sees it a cycle later (`presented`), asks
  memory (`asking`), and has the answer (`answered`);
* the LSU sees that it is ready a cycle later (`told`) and withdraws its request (`accepted`), the
  controller sees that a cycle later (`lowered`) and drops its ready wire (`released`), and the LSU
  sees that a cycle later (`quiet`).

From `accepted` to `released` the LSU could be told a second time, of a request that is not its
next. It does not listen: it is done, since the current warp is no further than `WARP_UPDATE`.
`LaneIs.step` is the whole argument, for all inputs of the GPU.
-/

namespace SmolGpu

/-- The wire on which memory answers channel `k`. -/
def GpuIn.memReady {N W M : ℕ} (inp : GpuIn N W M) (κ : MemController.Kind) (k : Fin M) : Bool :=
  match κ with
  | .read => inp.data_mem_read_ready k
  | .write => inp.data_mem_write_ready k

namespace Gpu

open MemController (Kind Request Port PortIs PortStep Presents Owned)

/-- Where a lane's request or its answer is. -/
inductive LanePhase (M : ℕ)
  | quiet
  | raised (r : Request 32 32)
  | presented (r : Request 32 32)
  | asking (i : Fin M) (r : Request 32 32)
  | answered (i : Fin M) (r : Request 32 32) (word : DataT)
  | told (i : Fin M) (r : Request 32 32) (word : DataT)
  | accepted (i : Fin M) (r : Request 32 32) (word : DataT)
  | lowered (i : Fin M) (κ : Kind) (word : DataT)
  | released (κ : Kind) (word : DataT)

namespace LanePhase

variable {M : ℕ}

/-- What the LSU shows. -/
def lsuRequest : LanePhase M → Option (Request 32 32)
  | raised r | presented r | asking _ r | answered _ r _ | told _ r _ => some r
  | quiet | accepted _ _ _ | lowered _ _ _ | released _ _ => none

/-- What the registers in front of the controller show. -/
def pipeRequest : LanePhase M → Option (Request 32 32)
  | presented r | asking _ r | answered _ r _ | told _ r _ | accepted _ r _ => some r
  | quiet | raised _ | lowered _ _ _ | released _ _ => none

/-- The lane's port of the controller. -/
def port : LanePhase M → Port M 32 32
  | quiet | raised _ | presented _ | released _ _ => .free
  | asking i r => .waiting i r
  | answered i r word | told i r word | accepted i r word => .relaying i r.kind word
  | lowered i κ word => .relaying i κ word

/-- What the LSU is told: a kind of request is answered, with a word if it was a read. -/
def reply : LanePhase M → Option (Kind × DataT)
  | told _ r word | accepted _ r word => some (r.kind, word)
  | lowered _ κ word | released κ word => some (κ, word)
  | quiet | raised _ | presented _ | asking _ _ | answered _ _ _ => none

/-- The state of the LSU and the stage of the current warp. -/
def StateOk : LanePhase M → LsuState → WarpState → Prop
  | quiet, state, _ => state ≠ .waiting
  | raised _, state, _ | presented _, state, _ | asking _ _, state, _ | answered _ _ _, state, _
  | told _ _ _, state, _ => state = .waiting
  | accepted _ _ _, state, stage => state = .done ∧ stage = .wait
  | lowered _ _ _, state, stage => state = .done ∧ (stage = .wait ∨ stage = .execute)
  | released _ _, state, stage => state = .done ∧
      (stage = .wait ∨ stage = .execute ∨ stage = .update)

end LanePhase

variable {N W T M : ℕ} {life : Lifetime} {inp : GpuIn N W M} {s : Gpu N W T M} {i : Fin N}
  {l : Fin (T + 1)} {p : LanePhase M}

/-- The registers in front of the controller show a lane's request. -/
def PipeShows (s : Gpu N W T M) (i : Fin N) (l : Fin (T + 1)) : Option (Request 32 32) → Prop :=
  Shows (s.lsu_read_valid (lsuIndex i l)) (s.lsu_read_address (lsuIndex i l))
    (s.lsu_write_valid (lsuIndex i l)) (s.lsu_write_address (lsuIndex i l))
    (s.lsu_write_data (lsuIndex i l))

/-- The wire on which a lane's LSU is told that it is ready. -/
def laneReady (s : Gpu N W T M) (κ : Kind) (i : Fin N) (l : Fin (T + 1)) : Bool :=
  match κ with
  | .read => s.core_lsu_read_ready i l
  | .write => s.core_lsu_write_ready i l

/-- What a lane's LSU is told. -/
def Replies (s : Gpu N W T M) (i : Fin N) (l : Fin (T + 1)) : Option (Kind × DataT) → Prop
  | none => ∀ κ, s.laneReady κ i l = false
  | some (κ, word) => (∀ κ', s.laneReady κ' i l = true ↔ κ' = κ) ∧
      (κ = .read → s.core_lsu_read_data i l = word)

/-- The lane is in a phase. -/
structure LaneIs (s : Gpu N W T M) (i : Fin N) (l : Fin (T + 1)) (p : LanePhase M) : Prop where
  /-- The LSU shows the request of the phase. -/
  lsu : ((s.cluster.core i).lsu l).Shows p.lsuRequest
  /-- The LSU and the warp are in states that the phase allows. -/
  state : p.StateOk ((s.cluster.core i).lsu l).lsu_state (s.cluster.core i).current_warp_state
  /-- The register in front of the controller has the request of the phase. -/
  pipe : s.PipeShows i l p.pipeRequest
  /-- The controller's port is in the state of the phase. -/
  port : PortIs s.data_memory_controller (lsuIndex i l) p.port
  /-- The register behind the controller has the answer of the phase. -/
  reply : s.Replies i l p.reply

/-- The edges of a lane. -/
inductive LaneStep (inp : GpuIn N W M) : LanePhase M → LanePhase M → Prop
  | quiet : LaneStep inp .quiet .quiet
  | raise (r : Request 32 32) : LaneStep inp .quiet (.raised r)
  | present (r : Request 32 32) : LaneStep inp (.raised r) (.presented r)
  /-- No channel has picked the request up. -/
  | queue (r : Request 32 32) : LaneStep inp (.presented r) (.presented r)
  | ask (k : Fin M) (r : Request 32 32) : LaneStep inp (.presented r) (.asking k r)
  | wait (k : Fin M) (r : Request 32 32) : inp.memReady r.kind k = false →
      LaneStep inp (.asking k r) (.asking k r)
  /-- Memory answers. -/
  | answer (k : Fin M) (r : Request 32 32) : inp.memReady r.kind k = true →
      LaneStep inp (.asking k r) (.answered k r (inp.data_mem_read_data k))
  | tell (k : Fin M) (r : Request 32 32) (word : DataT) :
      LaneStep inp (.answered k r word) (.told k r word)
  | accept (k : Fin M) (r : Request 32 32) (word : DataT) :
      LaneStep inp (.told k r word) (.accepted k r word)
  | lower (k : Fin M) (r : Request 32 32) (word : DataT) :
      LaneStep inp (.accepted k r word) (.lowered k r.kind word)
  | release (k : Fin M) (κ : Kind) (word : DataT) :
      LaneStep inp (.lowered k κ word) (.released κ word)
  | settle (κ : Kind) (word : DataT) : LaneStep inp (.released κ word) .quiet

/-! ## The registers of a cycle's delay -/

/-- What the controller samples of a lane is what the registers show. -/
theorem PipeShows.presents {o : Option (Request 32 32)} (h : s.PipeShows i l o)
    {r : Request 32 32} : Presents (controllerIn inp s) (lsuIndex i l) r ↔ o = some r := by
  unfold PipeShows at h
  rcases o with _ | address | ⟨address, data⟩ <;> rcases r with address' | ⟨address', data'⟩ <;>
    simp_all [Shows, Presents, controllerIn]

/-- The controller sees a request of a kind exactly when the lane's pipe has one. -/
theorem PipeShows.valid_iff {o : Option (Request 32 32)} (h : s.PipeShows i l o) {κ : Kind} :
    MemController.valid (controllerIn inp s) κ (lsuIndex i l) = true ↔
      ∃ r, o = some r ∧ r.kind = κ := by
  unfold PipeShows at h
  rcases o with _ | address | ⟨address, data⟩ <;> rcases κ with _ | _ <;>
    simp_all [Shows, MemController.valid, controllerIn, Request.kind]

variable [NeZero N] [NeZero W]

/-- The registers in front of the controller show what the LSU showed before the edge. -/
theorem pipeShows_step {o : Option (Request 32 32)}
    (h : ((s.cluster.core i).lsu l).Shows o) : (gpuStep life inp s).PipeShows i l o := by
  unfold PipeShows gpuStep
  simp only [lsu_lsuIndex]
  exact h

/-- What a port tells its consumer. -/
def portReply : Port M 32 32 → Option (Kind × DataT)
  | .relaying _ κ word => some (κ, word)
  | .free | .waiting _ _ => none

/-- The LSU is told what its port said before the edge. -/
theorem replies_step (ho : Owned s.data_memory_controller) {q : Port M 32 32}
    (h : PortIs s.data_memory_controller (lsuIndex i l) q) :
    (gpuStep life inp s).Replies i l (portReply q) := by
  -- The ready wires behind the controller are those of the port before the edge.
  have hready (κ : Kind) : (gpuStep life inp s).laneReady κ i l = true ↔
      ∃ k word, q = .relaying k κ word := by
    rw [← MemController.ready_iff (σ := fun _ => s.data_memory_controller) (n := 0) ho h]
    cases κ <;> rfl
  cases q with
  | free =>
    intro κ
    rw [← Bool.not_eq_true, hready]
    simp
  | waiting k r =>
    intro κ
    rw [← Bool.not_eq_true, hready]
    simp
  | relaying k κ word =>
    refine ⟨fun κ' => ?_, h.2.2⟩
    rw [hready]
    constructor
    · rintro ⟨_, _, heq⟩
      cases heq
      rfl
    · rintro rfl
      exact ⟨k, word, rfl⟩

/-! ## The edge of a lane -/

omit [NeZero N] [NeZero W] in
/-- The `ready` that an LSU sees is its lane's. -/
theorem ready_lsuIn {κ : Kind} :
    ((s.cluster.core i).lsuIn (Cluster.coreIn (clusterIn inp s) s.cluster i) l).ready κ =
      s.laneReady κ i l := by
  cases κ <;> rfl

/-- An edge of the lane, from the phase of every other. -/
theorem LaneIs.step (life : Lifetime) (h : LaneIs s i l p) (hg : Guarded s.cluster)
    (ho : Owned s.data_memory_controller) (hr : inp.reset = false) :
    ∃ p', LaneIs (gpuStep life inp s) i l p' ∧ LaneStep inp p p' := by
  have hreset : (controllerIn inp s).reset = false := hr
  obtain ⟨q, hq, hport⟩ := MemController.portStep true ho hreset h.port
  have hlsu : ComputeCore.LsuEdge (Cluster.coreIn (clusterIn inp s) s.cluster i)
      (s.cluster.core i) l (((gpuStep life inp s).cluster.core i).lsu l) :=
    ComputeCore.lsu_edge (hg.core i) fun hri => ⟨(hg.reset i hri).1 l, (hg.reset i hri).2⟩
  have hpipe : (gpuStep life inp s).PipeShows i l p.lsuRequest := pipeShows_step h.lsu
  have hreply : (gpuStep life inp s).Replies i l (portReply p.port) := replies_step ho h.port
  have hrun (hs : ((s.cluster.core i).lsu l).lsu_state ≠ .idle) :
      ComputeCore.Running (Cluster.coreIn (clusterIn inp s) s.cluster i) (s.cluster.core i) := by
    refine (hg.core i).running ?_ hs
    rw [← Bool.not_eq_true]
    exact fun hri => hs ((hg.reset i hri).1 l)
  have hstate := h.state
  -- A request that no one has answered yet goes on being shown.
  have hwaits {r : Request 32 32} (hp : p.lsuRequest = some r) (hn : p.reply = none)
      (hs : ((s.cluster.core i).lsu l).lsu_state = .waiting) :
      (((gpuStep life inp s).cluster.core i).lsu l).lsu_state = .waiting ∧
        (((gpuStep life inp s).cluster.core i).lsu l).Shows (some r) := by
    have hnone := h.reply
    rw [hn] at hnone
    refine hlsu.of_unready hs (hp ▸ h.lsu) ?_
    rw [ready_lsuIn]
    exact hnone r.kind
  cases p with
  | quiet =>
    -- The controller samples no request, so the port stays free.
    have hfree : q = .free := by
      cases hport with
      | idle => rfl
      | pick hpres =>
        rw [h.pipe.presents] at hpres
        cases hpres
    subst hfree
    rcases hlsu.of_not_waiting hstate h.lsu with ⟨hs, hnone⟩ | ⟨-, hs, hshows⟩
    · exact ⟨.quiet, ⟨hnone, hs, hpipe, hq, hreply⟩, .quiet⟩
    · exact ⟨.raised _, ⟨hshows, hs, hpipe, hq, hreply⟩, .raise _⟩
  | raised r =>
    -- The request reaches the registers in front of the controller at this edge, and not earlier.
    obtain ⟨hs, hshows⟩ := hwaits rfl rfl hstate
    have hfree : q = .free := by
      cases hport with
      | idle => rfl
      | pick hpres =>
        rw [h.pipe.presents] at hpres
        cases hpres
    subst hfree
    exact ⟨.presented r, ⟨hshows, hs, hpipe, hq, hreply⟩, .present r⟩
  | presented r =>
    obtain ⟨hs, hshows⟩ := hwaits rfl rfl hstate
    cases hport with
    | idle => exact ⟨.presented r, ⟨hshows, hs, hpipe, hq, hreply⟩, .queue r⟩
    | @pick k r' hpres =>
      rw [h.pipe.presents] at hpres
      cases hpres
      exact ⟨.asking k r, ⟨hshows, hs, hpipe, hq, hreply⟩, .ask k r⟩
  | asking k r =>
    obtain ⟨hs, hshows⟩ := hwaits rfl rfl hstate
    have hmem : MemController.memReady (controllerIn inp s) r.kind k = inp.memReady r.kind k := by
      cases r.kind <;> rfl
    cases hport with
    | wait hmem' =>
      exact ⟨.asking k r, ⟨hshows, hs, hpipe, hq, hreply⟩, .wait k r (hmem ▸ hmem')⟩
    | answer hmem' =>
      exact ⟨.answered k r _, ⟨hshows, hs, hpipe, hq, hreply⟩, .answer k r (hmem ▸ hmem')⟩
  | answered k r word =>
    -- The port relays, and the LSU does not know it yet.
    obtain ⟨hs, hshows⟩ := hwaits rfl rfl hstate
    have hup : MemController.valid (controllerIn inp s) r.kind (lsuIndex i l) = true :=
      h.pipe.valid_iff.mpr ⟨r, rfl, rfl⟩
    cases hport with
    | hold => exact ⟨.told k r word, ⟨hshows, hs, hpipe, hq, hreply⟩, .tell k r word⟩
    | release hlow | repick hlow => exact absurd (hlow.symm.trans hup) (by simp)
  | told k r word =>
    -- The LSU takes the answer at this edge, on which the port holds it still.
    have hup : MemController.valid (controllerIn inp s) r.kind (lsuIndex i l) = true :=
      h.pipe.valid_iff.mpr ⟨r, rfl, rfl⟩
    have hready : ((s.cluster.core i).lsuIn (Cluster.coreIn (clusterIn inp s) s.cluster i)
        l).ready r.kind = true := by
      rw [ready_lsuIn]
      exact (h.reply.1 r.kind).mpr rfl
    obtain ⟨hs, hnone, -⟩ := hlsu.of_ready hstate h.lsu hready
    have hst := ComputeCore.step_stage_of_waiting life
      (hrun (by rw [show _ = LsuState.waiting from hstate]; decide)) ((hg.core i).lane l) hstate
    cases hport with
    | hold => exact ⟨.accepted k r word, ⟨hnone, ⟨hs, hst⟩, hpipe, hq, hreply⟩, .accept k r word⟩
    | release hlow | repick hlow => exact absurd (hlow.symm.trans hup) (by simp)
  | accepted k r word =>
    -- The LSU has withdrawn its request, but the controller still samples it.
    have hup : MemController.valid (controllerIn inp s) r.kind (lsuIndex i l) = true :=
      h.pipe.valid_iff.mpr ⟨r, rfl, rfl⟩
    have hsame := hlsu.of_done hstate.1 (by rw [hstate.2]; decide)
    have hst := ComputeCore.step_stage_of_wait life
      (hrun (by rw [hstate.1]; decide)) hstate.2
    cases hport with
    | hold =>
      refine ⟨.lowered k r.kind word, ⟨?_, ⟨?_, hst⟩, hpipe, hq, hreply⟩, .lower k r word⟩
      · rw [hsame]
        exact h.lsu
      · rw [hsame]
        exact hstate.1
    | release hlow | repick hlow => exact absurd (hlow.symm.trans hup) (by simp)
  | lowered k κ word =>
    -- The withdrawal has reached the controller, which lets go of the lane. The LSU cannot ask
    -- again so soon: its warp is not past `WARP_UPDATE` yet.
    have hdone : ((s.cluster.core i).lsu l).lsu_state ≠ .idle := by
      rw [hstate.1]
      decide
    have hsame := hlsu.of_done hstate.1 (by rcases hstate.2 with hst | hst <;> rw [hst] <;> decide)
    have hst : ((gpuStep life inp s).cluster.core i).current_warp_state = .wait ∨
        ((gpuStep life inp s).cluster.core i).current_warp_state = .execute ∨
        ((gpuStep life inp s).cluster.core i).current_warp_state = .update := by
      rcases hstate.2 with hst | hst
      · exact (ComputeCore.step_stage_of_wait life (hrun hdone) hst).imp_right .inl
      · exact .inr (.inr (ComputeCore.step_stage_of_execute life (hrun hdone) hst))
    have hnone (κ' : Kind) (r : Request 32 32) :
        ¬Presents (controllerIn inp s) (lsuIndex i l) r := by
      rw [h.pipe.presents]
      exact fun hr => (nomatch hr)
    cases hport with
    | hold hup =>
      obtain ⟨r, hr, -⟩ := h.pipe.valid_iff.mp hup
      cases hr
    | release =>
      refine ⟨.released κ word, ⟨?_, ⟨?_, hst⟩, hpipe, hq, hreply⟩, .release k κ word⟩
      · rw [hsame]
        exact h.lsu
      · rw [hsame]
        exact hstate.1
    | repick _ hpres => exact absurd hpres (hnone κ _)
  | released κ word =>
    have hfree : q = .free := by
      cases hport with
      | idle => rfl
      | pick hpres =>
        rw [h.pipe.presents] at hpres
        cases hpres
    subst hfree
    rcases hlsu.of_not_waiting (by rw [hstate.1]; decide) h.lsu with ⟨hs, hnone⟩ | ⟨hreq, -⟩
    · exact ⟨.quiet, ⟨hnone, hs, hpipe, hq, hreply⟩, .settle κ word⟩
    · exact absurd (hstate.1.symm.trans hreq) (by decide)

omit [NeZero W] in
/-- Every lane of a settled GPU is quiet. -/
theorem Settled.laneIs (h : Settled s) (i : Fin N) (l : Fin (T + 1)) : LaneIs s i l .quiet := by
  have hidle := h.idle i l
  refine ⟨((h.guarded.core i).consistent l).shows_none (by simp [hidle]),
    by simp [LanePhase.StateOk, hidle], h.requests _, ?_, ?_⟩
  · rw [h.controller]
    exact fun k hk => hk.1 rfl
  · intro κ
    cases κ
    · exact (h.answers i l).1
    · exact (h.answers i l).2

end Gpu

end SmolGpu
