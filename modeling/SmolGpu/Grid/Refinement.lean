import SmolGpu.Grid.Memory
import SmolGpu.Grid.Results

/-!
# The GPU refines the cluster with its memories

Between the LSUs and the memory of a GPU there are registers and a controller, and an access takes
many edges from the LSU to memory and back. `Refines` relates a `GpuSystem` to a `ClusterSystem`
with the same cluster and the same memory: the answer to a lane is on its way (`reply`) from the
edge at which the memory performs the access of the lane's channel until the LSU takes it. Each edge
of the GPU is then one of the cluster (`Refines.step`), in which the memory serves the lanes of the
channels that it answers.
-/

namespace SmolGpu

open SharedMemory (Access)
open MemController (Owned PortIs Kind Request)

/-- A channel does not ask for a read and a write at once. -/
theorem MemController.Owned.read_low {C M : ℕ} {c : MemController C M 32 32} (h : Owned c)
    {k : Fin M} (hw : c.mem_write_valid k = true) : c.mem_read_valid k = false := by
  have hcode := (h.memValid .write k).mp hw
  by_contra hr
  have hcode' := (h.memValid .read k).mp (Bool.of_not_eq_false hr)
  rw [hcode, MemController.ChannelState.code_inj] at hcode'
  cases hcode'

namespace Gpu

/-- The answer that is on its way to a lane in a phase. Only the word of a read matters. -/
def LanePhase.ReplyIs {M : ℕ} (p : LanePhase M) (o : Option DataT) : Prop :=
  match p with
  | .answered _ r word | .told _ r word => ∃ w, o = some w ∧ (r.kind = .read → w = word)
  | .quiet | .raised _ | .presented _ | .asking _ _ | .accepted _ _ _ | .lowered _ _ _
  | .released _ _ => o = none

variable {N W T M : ℕ} {s : Gpu N W T M} {i : Fin N} {l : Fin (T + 1)} {p : LanePhase M} {k : Fin M}

/-- The lane that a channel serves. -/
def channelLane (s : Gpu N W T M) (k : Fin M) : Fin N × Fin (T + 1) :=
  finProdFinEquiv.symm (s.data_memory_controller.current_consumer k)

/-- A channel's consumer is the number of the lane it serves. -/
theorem current_consumer_eq (hk : s.channelLane k = (i, l)) :
    s.data_memory_controller.current_consumer k = lsuIndex i l := by
  unfold channelLane at hk
  rw [Equiv.symm_apply_eq] at hk
  exact hk

/-- A channel that asks does so for the lane that it serves. -/
theorem LaneIs.of_access (h : LaneIs s i l p) (ho : Owned s.data_memory_controller)
    (hk : s.channelLane k = (i, l)) (ha : (s.data_memory_controller.access k).isSome) :
    ∃ r, p = .asking k r := by
  have hcode : ∃ κ, s.data_memory_controller.controller_state k =
      (MemController.ChannelState.waiting κ).code := by
    unfold MemController.access at ha
    split_ifs at ha with hr hw
    · exact ⟨.read, (ho.memValid .read k).mp hr⟩
    · exact ⟨.write, (ho.memValid .write k).mp hw⟩
    · cases ha
  obtain ⟨κ, hκ⟩ := hcode
  have hserves : MemController.Serves s.data_memory_controller k (lsuIndex i l) :=
    .of_code hκ (by simp) (current_consumer_eq hk)
  obtain ⟨r, hr, -⟩ := h.port.waiting_of_code (h.port.owner_of_serves ho hserves) hκ
  cases p with
  | asking k' r' =>
    cases hr
    exact ⟨r, rfl⟩
  | quiet | raised | presented | released | answered | told | accepted | lowered => cases hr

/-- The channel of a lane whose request is with memory asks for what the lane's LSU shows. -/
theorem LaneIs.access_asking {r : Request 32 32} (h : LaneIs s i l (.asking k r))
    (ho : Owned s.data_memory_controller) :
    s.channelLane k = (i, l) ∧ s.data_memory_controller.access k = some (accessOf r) := by
  obtain ⟨hconsumer, hasks⟩ := h.port
  constructor
  · unfold channelLane
    rw [hconsumer]
    exact finProdFinEquiv.symm_apply_apply (i, l)
  · have hcode := hasks.code
    unfold MemController.access
    cases r with
    | read address =>
      have hv : s.data_memory_controller.mem_read_valid k = true := (ho.memValid .read k).mpr hcode
      rw [if_pos hv, hasks.2]
      rfl
    | write address data =>
      have hv : s.data_memory_controller.mem_write_valid k = true :=
        (ho.memValid .write k).mpr hcode
      rw [if_neg (by simp [ho.read_low hv]), if_pos hv, hasks.2.1, hasks.2.2]
      rfl

/-- Different channels that ask serve different lanes. -/
theorem channelLane_inj (ho : Owned s.data_memory_controller) {k k' : Fin M}
    (ha : (s.data_memory_controller.access k).isSome)
    (ha' : (s.data_memory_controller.access k').isSome) (hk : s.channelLane k = s.channelLane k') :
    k = k' := by
  have hserves {k : Fin M} (ha : (s.data_memory_controller.access k).isSome) :
      MemController.Serves s.data_memory_controller k
        (s.data_memory_controller.current_consumer k) := by
    unfold MemController.access at ha
    split_ifs at ha with hr hw
    · exact .of_code ((ho.memValid .read k).mp hr) (by simp) rfl
    · exact .of_code ((ho.memValid .write k).mp hw) (by simp) rfl
    · cases ha
  have hsame : s.data_memory_controller.current_consumer k =
      s.data_memory_controller.current_consumer k' := finProdFinEquiv.symm.injective hk
  exact ho.unique k k' _ (hserves ha) (hsame ▸ hserves ha')

end Gpu

namespace GpuSystem

variable {N W T M : ℕ} {G : Grid} {t : GpuTiming N W M} {g : GpuSystem N W T M}
  {s : ClusterSystem N W T} {i : Fin N} {l : Fin (T + 1)} {p : Gpu.LanePhase M}

/-- The timing of an edge as the cluster sees it. -/
def clusterTiming (G : Grid) (t : GpuTiming N W M) (g : GpuSystem N W T M) :
    ClusterTiming N W T where
  execution_start := t.execution_start
  env := (Gpu.clusterIn (gpuIn G t g) g.gpu).env
  serve := (served t g).map fun e => g.gpu.channelLane e.1

/-- The cluster system has the GPU's cluster and memory, and the answers that are on their way
through it. -/
structure Refines (g : GpuSystem N W T M) (s : ClusterSystem N W T) : Prop where
  /-- The clusters are the same. -/
  cluster : s.cluster = g.gpu.cluster
  /-- The memories are the same. -/
  mem : s.mem = g.mem
  /-- The answers are those in the registers between the memory and the LSUs. -/
  lane : ∀ i l, ∃ p, Gpu.LaneIs g.gpu i l p ∧ p.ReplyIs (s.reply i l)

/-! ## The memory's half of an edge -/

/-- The accesses of an edge, each with the lane that it is for. -/
def laneAccesses (t : GpuTiming N W M) (g : GpuSystem N W T M) :
    List ((Fin N × Fin (T + 1)) × Access DataMemoryAddressT DataT) :=
  (served t g).map (Prod.map g.gpu.channelLane id)

/-- What is served are the accesses that ask at the channels served. -/
theorem mem_served {k : Fin M} {e : Access DataMemoryAddressT DataT} :
    (k, e) ∈ served t g ↔ k ∈ t.serve ∧ g.gpu.data_memory_controller.access k = some e := by
  unfold served
  rw [List.mem_filterMap]
  constructor
  · rintro ⟨k', hk', heq⟩
    rw [Option.map_eq_some_iff] at heq
    obtain ⟨e', he', heq⟩ := heq
    cases heq
    exact ⟨List.mem_dedup.mp hk', he'⟩
  · rintro ⟨hk, he⟩
    exact ⟨k, List.mem_dedup.mpr hk, by rw [he]; rfl⟩

/-- The lanes that are served are different ones. -/
theorem nodup_serve (ho : Owned g.gpu.data_memory_controller) :
    (clusterTiming G t g).serve.Nodup := by
  have hkeys : ((served t g).map Prod.fst).Nodup :=
    SharedMemory.nodup_asked (List.nodup_dedup _) _
  show ((served t g).map (g.gpu.channelLane ∘ Prod.fst)).Nodup
  rw [← List.map_map]
  refine hkeys.map_on fun k hk k' hk' heq => ?_
  rw [List.mem_map] at hk hk'
  obtain ⟨⟨k, e⟩, he, rfl⟩ := hk
  obtain ⟨⟨k', e'⟩, he', rfl⟩ := hk'
  exact Gpu.channelLane_inj ho (by rw [(mem_served.mp he).2]; rfl)
    (by rw [(mem_served.mp he').2]; rfl) heq

/-- A channel that is answered has the access of its lane, which has not been performed. -/
theorem Refines.pending (h : Refines g s) (ho : Owned g.gpu.data_memory_controller) {k : Fin M}
    {e : Access DataMemoryAddressT DataT}
    (he : g.gpu.data_memory_controller.access k = some e) :
    s.pending (g.gpu.channelLane k) = some e := by
  obtain ⟨⟨i, l⟩, hx⟩ : ∃ x, x = g.gpu.channelLane k := ⟨_, rfl⟩
  obtain ⟨p, hp, hreply⟩ := h.lane i l
  obtain ⟨r, rfl⟩ := hp.of_access ho hx.symm (by rw [he]; rfl)
  have hr := (hp.access_asking ho).2
  have hnone : s.reply i l = none := hreply
  have haccess : ((s.cluster.core i).lsu l).access = some (accessOf r) := by
    rw [h.cluster]
    exact hp.lsu.access
  rw [← hx]
  show (if (s.reply i l).isSome then none else ((s.cluster.core i).lsu l).access) = some e
  rw [hnone, haccess]
  exact hr.symm.trans he

/-- The cluster system performs the same accesses, each for its lane. -/
theorem Refines.served_eq (h : Refines g s) (ho : Owned g.gpu.data_memory_controller) :
    ClusterSystem.served (clusterTiming G t g) s = laneAccesses t g := by
  unfold ClusterSystem.served
  rw [(nodup_serve ho).dedup]
  show ((served t g).map fun e => g.gpu.channelLane e.1).filterMap _ = laneAccesses t g
  unfold laneAccesses
  rw [List.filterMap_map, ← List.filterMap_eq_map]
  refine List.filterMap_congr fun e he => ?_
  show (s.pending (g.gpu.channelLane e.1)).map _ = _
  rw [h.pending ho (mem_served.mp he).2]
  rfl

/-- The memory and the answers, after the accesses of an edge. -/
theorem serve_eq (s : ClusterSystem N W T)
    (es : List ((Fin N × Fin (T + 1)) × Access DataMemoryAddressT DataT)) :
    (es.foldl ClusterSystem.serveOne s).mem = SharedMemory.after s.mem es ∧
      ∀ i l, (es.foldl ClusterSystem.serveOne s).reply i l =
        (SharedMemory.words s.mem es (i, l)).or (s.reply i l) := by
  -- By induction on the accesses: the last one to a lane decides its answer.
  induction es using List.reverseRecOn with
  | nil => exact ⟨rfl, fun _ _ => rfl⟩
  | append_singleton es e ih =>
    obtain ⟨⟨j, l'⟩, e⟩ := e
    obtain ⟨s', hs'⟩ : ∃ s', s' = es.foldl ClusterSystem.serveOne s := ⟨_, rfl⟩
    rw [← hs'] at ih
    obtain ⟨hmem, hreply⟩ := ih
    have hlast : (es ++ [((j, l'), e)]).foldl ClusterSystem.serveOne s =
        s'.serveOne ((j, l'), e) := by
      rw [List.foldl_append, hs']
      rfl
    rw [hlast]
    refine ⟨?_, fun i l => ?_⟩
    · rw [SharedMemory.after_append_singleton, ← hmem]
      rfl
    · rw [SharedMemory.words_append_singleton, ← hmem]
      show Function.update s'.reply j
        (Function.update (s'.reply j) l' (some (e.word s'.mem))) i l = _
      -- The lane that is served, another lane of its core, and a lane of another core.
      rcases eq_or_ne i j with rfl | hi
      · rcases eq_or_ne l l' with rfl | hl
        · rw [Function.update_self, Function.update_self, Function.update_self]
          rfl
        · rw [Function.update_self, Function.update_of_ne hl, hreply,
            Function.update_of_ne (by simpa using hl)]
      · rw [Function.update_of_ne hi, hreply, Function.update_of_ne (by simp [hi])]

/-- A lane is told what its channel is. -/
theorem words_laneAccesses (ho : Owned g.gpu.data_memory_controller) {k : Fin M}
    (hk : (g.gpu.data_memory_controller.access k).isSome) :
    SharedMemory.words g.mem (laneAccesses t g) (g.gpu.channelLane k) =
      SharedMemory.words g.mem (served t g) k :=
  SharedMemory.words_rename fun _ he heq =>
    Gpu.channelLane_inj ho (by rw [(mem_served.mp he).2]; rfl) hk heq

/-- The memory answers a channel that asks if it is the channel's turn. -/
theorem memReady_of_asking (ho : Owned g.gpu.data_memory_controller) {k : Fin M}
    {r : Request 32 32} (hp : Gpu.LaneIs g.gpu i l (.asking k r)) :
    (gpuIn G t g).memReady r.kind k = decide (k ∈ t.serve) := by
  have hvalid := (ho.memValid r.kind k).mpr hp.port.2.code
  cases r with
  | read address => exact if_pos hvalid
  | write address data => exact if_pos hvalid

/-- The answer to a lane whose request is with memory. -/
theorem Refines.reply_serve_asking (h : Refines g s) (ho : Owned g.gpu.data_memory_controller)
    {k : Fin M} {r : Request 32 32} (hp : Gpu.LaneIs g.gpu i l (.asking k r))
    (hnone : s.reply i l = none) : (s.serve (clusterTiming G t g)).reply i l =
      SharedMemory.words g.mem (served t g) k := by
  obtain ⟨hlane, haccess⟩ := hp.access_asking ho
  unfold ClusterSystem.serve
  rw [h.served_eq ho, (serve_eq s _).2, hnone, h.mem, ← hlane,
    words_laneAccesses ho (by rw [haccess]; rfl), Option.or_none]

/-- The answers to the other lanes stay as they are. -/
theorem Refines.reply_serve_other (h : Refines g s) (ho : Owned g.gpu.data_memory_controller)
    (hp : Gpu.LaneIs g.gpu i l p) (hne : ∀ k r, p ≠ .asking k r) :
    (s.serve (clusterTiming G t g)).reply i l = s.reply i l := by
  have hnone : SharedMemory.words s.mem (laneAccesses t g) (i, l) = none := by
    refine SharedMemory.words_eq_none fun e he heq => ?_
    obtain ⟨⟨k, e⟩, hk, rfl⟩ := List.mem_map.mp he
    obtain ⟨r, rfl⟩ := hp.of_access ho heq (by rw [(mem_served.mp hk).2]; rfl)
    exact hne k r rfl
  unfold ClusterSystem.serve
  rw [h.served_eq ho, (serve_eq s _).2, hnone, Option.none_or]

/-! ## The edge -/

section Step

variable [NeZero N] [NeZero W] {life : Lifetime}

omit [NeZero N] [NeZero W] in
/-- What a lane that asks is told, it is told of the answer that is on its way. -/
theorem Refines.reply_of_ready (h : Refines g s) (G : Grid) (t : GpuTiming N W M)
    (ho : Owned g.gpu.data_memory_controller) {κ : Kind} (hready : g.gpu.laneReady κ i l = true)
    (hwait : ((g.gpu.cluster.core i).lsu l).lsu_state = .waiting) :
    ∃ w, (s.serve (clusterTiming G t g)).reply i l = some w ∧
      (κ = .read → g.gpu.core_lsu_read_data i l = w) := by
  obtain ⟨p, hp, hreply⟩ := h.lane i l
  have hstate := hp.state
  rw [hwait] at hstate
  have htold := hp.reply
  cases p with
  | quiet => exact absurd rfl hstate
  | raised | presented | asking | answered => exact absurd ((htold κ).symm.trans hready) (by simp)
  | told k r word =>
    obtain rfl := (htold.1 κ).mp hready
    obtain ⟨w, hw, hword⟩ := hreply
    rw [h.reply_serve_other ho hp nofun]
    exact ⟨w, hw, fun hr => (htold.2 hr).trans (hword hr).symm⟩
  | accepted | lowered | released => exact absurd hstate.1 (by decide)

omit [NeZero N] in
/-- The cores take the same edge. -/
theorem Refines.coreStep_eq (h : Refines g s) (life : Lifetime) (G : Grid) (t : GpuTiming N W M)
    (hg : Gpu.Guarded g.gpu.cluster)
    (ho : Owned g.gpu.data_memory_controller) (i : Fin N) :
    coreStep life (Cluster.coreIn (ClusterSystem.clusterIn G (clusterTiming G t g)
        (s.serve (clusterTiming G t g))) g.gpu.cluster i) (g.gpu.cluster.core i) =
      coreStep life (Cluster.coreIn (Gpu.clusterIn (gpuIn G t g) g.gpu) g.gpu.cluster i)
        (g.gpu.cluster.core i) := by
  obtain ⟨s₁, hs₁⟩ : ∃ s₁, s₁ = s.serve (clusterTiming G t g) := ⟨_, rfl⟩
  have hcluster : s₁.cluster = g.gpu.cluster := by
    rw [hs₁, ClusterSystem.serve_cluster, h.cluster]
  have hconsistent := (hg.core i).consistent
  -- When the controller tells an LSU that it is ready, memory has answered.
  have hgate (κ : Kind) (v : Bool) (l : Fin (T + 1))
      (hv : v = true → ((g.gpu.cluster.core i).lsu l).lsu_state = .waiting) :
      (g.gpu.laneReady κ i l && (!v || (s₁.reply i l).isSome)) = g.gpu.laneReady κ i l := by
    rcases hready : g.gpu.laneReady κ i l with _ | _
    · rfl
    · rcases hvalid : v with _ | _
      · rfl
      · obtain ⟨w, hw, -⟩ := h.reply_of_ready G t ho hready (hv hvalid)
        rw [hs₁, hw]
        rfl
  have hin : Cluster.coreIn (ClusterSystem.clusterIn G (clusterTiming G t g) s₁) g.gpu.cluster i =
      { Cluster.coreIn (Gpu.clusterIn (gpuIn G t g) g.gpu) g.gpu.cluster i with
        data_mem_read_data := fun l => (s₁.reply i l).getD (g.gpu.core_lsu_read_data i l) } := by
    have hread (l : Fin (T + 1)) := hgate .read ((g.gpu.cluster.core i).lsu l).mem_read_valid l
      fun hv => ((hconsistent l).read_valid.mp hv).1
    have hwrite (l : Fin (T + 1)) := hgate .write ((g.gpu.cluster.core i).lsu l).mem_write_valid l
      fun hv => ((hconsistent l).write_valid.mp hv).1
    unfold Cluster.coreIn ClusterSystem.clusterIn
    simp only [hcluster, CoreIn.mk.injEq, true_and]
    refine ⟨rfl, funext fun w => ?_, funext hread, rfl, funext hwrite⟩
    show (if (g.gpu.cluster.core i).warp_state w = .decode then _ else if _ then _ else _) =
      if _ then _ else _
    split_ifs <;> rfl
  rw [← hs₁, hin]
  refine ComputeCore.coreStep_congr_data fun l hready hrd hwait => ?_
  have hready : g.gpu.laneReady .read i l = true := hready
  obtain ⟨w, hw, hword⟩ := h.reply_of_ready G t ho hready hwait
  rw [hs₁, hw]
  exact hword rfl

/-- The clusters take the same edge. -/
theorem Refines.clusterStep_eq (h : Refines g s) (life : Lifetime) (G : Grid)
    (t : GpuTiming N W M) (hg : Gpu.Guarded g.gpu.cluster)
    (ho : Owned g.gpu.data_memory_controller) :
    (clusterSystemStep life G (clusterTiming G t g) s).cluster =
      (gpuSystemStep life G t g).gpu.cluster := by
  have hcores := h.coreStep_eq life G t hg ho
  show clusterStep life (ClusterSystem.clusterIn G (clusterTiming G t g)
      (s.serve (clusterTiming G t g))) (s.serve (clusterTiming G t g)).cluster =
    clusterStep life (Gpu.clusterIn (gpuIn G t g) g.gpu) g.gpu.cluster
  rw [ClusterSystem.serve_cluster, h.cluster]
  unfold clusterStep
  simp only [Cluster.mk.injEq]
  exact ⟨rfl, rfl, rfl, funext hcores⟩

/-- An edge of the GPU is one of the cluster with its memories. -/
theorem Refines.step (h : Refines g s) (life : Lifetime) (G : Grid) (t : GpuTiming N W M)
    (hg : Gpu.Guarded g.gpu.cluster)
    (ho : Owned g.gpu.data_memory_controller) :
    Refines (gpuSystemStep life G t g) (clusterSystemStep life G (clusterTiming G t g) s) := by
  have hcluster := h.clusterStep_eq life G t hg ho
  refine ⟨hcluster, ?_, fun i l => ?_⟩
  · show (s.serve (clusterTiming G t g)).mem = SharedMemory.after g.mem (served t g)
    unfold ClusterSystem.serve
    rw [h.served_eq ho, (serve_eq s _).1, h.mem]
    exact SharedMemory.after_rename
  · obtain ⟨p, hp, hreply⟩ := h.lane i l
    obtain ⟨p', hp', hstep⟩ := hp.step life hg ho (show (gpuIn G t g).reset = false from rfl)
    refine ⟨p', hp', ?_⟩
    have haccess :
        (((clusterSystemStep life G (clusterTiming G t g) s).cluster.core i).lsu l).access =
          p'.lsuRequest.map accessOf := by
      rw [hcluster]
      exact hp'.lsu.access
    -- The answer on its way, after the accesses and after the edge.
    have hnext : (clusterSystemStep life G (clusterTiming G t g) s).reply i l =
        if (p'.lsuRequest.map accessOf).isSome then
          (s.serve (clusterTiming G t g)).reply i l else none := by
      rw [← haccess]
      rfl
    have hother (hne : ∀ k r, p ≠ .asking k r) :
        (s.serve (clusterTiming G t g)).reply i l = s.reply i l := h.reply_serve_other ho hp hne
    rw [hnext]
    cases hstep with
    | quiet | accept | lower | release | settle => rfl
    | raise r | present r | queue r | ask k r =>
      rw [hother nofun]
      exact hreply
    | wait k r hready =>
      -- The memory does not answer the channel of the lane.
      rw [h.reply_serve_asking ho hp hreply]
      rw [memReady_of_asking ho hp, decide_eq_false_iff_not] at hready
      refine SharedMemory.words_eq_none fun e he heq => ?_
      obtain ⟨k', e⟩ := e
      obtain rfl : k' = k := heq
      exact hready (mem_served.mp he).1
    | answer k r hready =>
      rw [h.reply_serve_asking ho hp hreply]
      rw [memReady_of_asking ho hp, decide_eq_true_eq] at hready
      have hsome : (SharedMemory.words g.mem (served t g) k).isSome = true :=
        SharedMemory.words_isSome ⟨_, mem_served.mpr ⟨hready, (hp.access_asking ho).2⟩⟩
      obtain ⟨w, hw⟩ := Option.isSome_iff_exists.mp hsome
      refine ⟨w, hw, fun hread => ?_⟩
      have hvalid : g.gpu.data_memory_controller.mem_read_valid k = true :=
        (ho.memValid .read k).mpr (hread ▸ hp.port.2.code)
      show w = if g.gpu.data_memory_controller.mem_read_valid k then
        (SharedMemory.words g.mem (served t g) k).getD (t.data_mem_read_data k) else _
      rw [if_pos hvalid, hw]
      rfl
    | tell k r word =>
      rw [hother nofun]
      exact hreply

end Step

end GpuSystem

end SmolGpu
