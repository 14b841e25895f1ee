import SmolGpu.Grid.Assembly
import SmolGpu.Sim.Simulate

/-!
# Kernels in the simulator

The GPU with the simulated data memory behind its ports, cycle by cycle as in the loop of
`simulate`. What the fetchers report and hold is given from outside: as the GPU is wired, they
report nothing (`wired_gpu_hangs`). So the instruction memory is not looked at: a warp that decodes
has the word of its program, which is the one that the instruction memory holds
(`instruction_memory_serves_code`). Nor do the cycles stop at `execution_done` or after a number of
them.

In every cycle `process` answers all channels, the stores first. So the simulated memory is one of
those that the GPU may have (`Refines`), as long as no channel asks for the address `0xFFFFFFFF`,
and a program that does not go there leaves in it what its lines ask for
(`simulator_runs_assembly`).
-/

namespace SmolGpu.Sim

open Filter As
open SharedMemory (Access lastStore)
open MemController (Owned)

/-- What the GPU sees of its host and its fetchers at an edge. -/
structure FetchTiming (N W : ℕ) where
  execution_start : Bool
  fetcher_state_in : Fin N → Fin W → FetcherState
  /-- What the fetchers hold for the warps that are not decoding. -/
  fetched_instruction : Fin N → Fin W → InstructionT

/-- The GPU, the simulated data memory, and the data ports. -/
structure KernelSimulation (N W T n : ℕ) where
  gpu : Gpu N W T n
  data_mem : DataMemory n
  dut : Vgpu n

namespace KernelSimulation

variable {N W T n : ℕ}

/-- The inputs of the GPU, when the memory has answered. -/
def gpuIn (G : Grid) (t : FetchTiming N W) (gpu : Gpu N W T n) (dut : Vgpu n) : GpuIn N W n where
  reset := false
  execution_start := t.execution_start
  kernel_config := G.kernel_config
  fetcher_state_in := t.fetcher_state_in
  fetched_instruction := fun i w =>
    if (gpu.cluster.core i).warp_state w = .decode then G.program ((gpu.cluster.core i).pc w)
    else t.fetched_instruction i w
  data_mem_read_ready := fun k => testBit dut.data_mem_read_ready k
  data_mem_read_data := dut.data_mem_read_data
  data_mem_write_ready := fun k => testBit dut.data_mem_write_ready k

variable [NeZero N] [NeZero W]

/-- A cycle of `simulate`, behind its test of `execution_done`, without the instruction memory. -/
def cycle (life : Lifetime) (G : Grid) (t : FetchTiming N W) (s : KernelSimulation N W T n) :
    Option (KernelSimulation N W T n) :=
  (s.data_mem.process (dataPorts s.gpu.data_memory_controller s.dut)).map fun (data_mem, dut) =>
    { gpu := gpuStep life (gpuIn G t s.gpu dut) s.gpu, data_mem, dut }

/-- The simulation after `m` cycles. -/
def run (life : Lifetime) (G : Grid) (t : ℕ → FetchTiming N W) (s : KernelSimulation N W T n) :
    ℕ → Option (KernelSimulation N W T n)
  | 0 => some s
  | m + 1 => (run life G t s m).bind (cycle life G (t m))

end KernelSimulation

/-! ## The memory's half of a cycle -/

section Serve

variable {N W T n C : ℕ} {c : MemController C n 32 32} {dut : Vgpu n} {k : Fin n}

/-- The channels in the order in which `process` serves them. -/
def serveOrder (c : MemController C n 32 32) : List (Fin n) :=
  (List.finRange n).filter (fun k => c.mem_write_valid k) ++
    (List.finRange n).filter fun k => !c.mem_write_valid k

/-- Every channel is served. -/
theorem mem_serveOrder (c : MemController C n 32 32) (k : Fin n) : k ∈ serveOrder c := by
  unfold serveOrder
  rw [(List.filter_append_perm _ _).mem_iff]
  exact List.mem_finRange k

/-- No channel is served twice. -/
theorem nodup_serveOrder (c : MemController C n 32 32) : (serveOrder c).Nodup :=
  (List.filter_append_perm _ _).nodup_iff.mpr (List.nodup_finRange n)

/-- The stores of a cycle. -/
def writes (c : MemController C n 32 32) : List (Fin n × (IData × IData)) :=
  ((List.finRange n).filter fun k => c.mem_write_valid k).map fun k =>
    (k, (c.mem_write_address k, c.mem_write_data k))

/-- The loads of a cycle. -/
def reads (c : MemController C n 32 32) : List (Fin n × Access IData IData) :=
  ((List.finRange n).filter fun k => !c.mem_write_valid k).filterMap fun k =>
    (c.access k).map (Prod.mk k)

/-- A store that is performed was asked for at its channel. -/
theorem access_of_mem_writes (ho : Owned c) {store : IData × IData} (h : (k, store) ∈ writes c) :
    c.access k = some (.write store.1 store.2) := by
  obtain ⟨k', hk, heq⟩ := List.mem_map.mp h
  have hw : c.mem_write_valid k' = true := (List.mem_filter.mp hk).2
  cases heq
  unfold MemController.access
  rw [if_neg (by simp [ho.read_low hw]), if_pos hw]

/-- The accesses of a cycle. -/
def accesses (c : MemController C n 32 32) : List (Fin n × Access IData IData) :=
  (serveOrder c).dedup.filterMap fun k => (c.access k).map (Prod.mk k)

/-- The stores come first. -/
theorem accesses_eq (ho : Owned c) :
    accesses c = (writes c).map (fun e => (e.1, .write e.2.1 e.2.2)) ++ reads c := by
  have hwrites : ((List.finRange n).filter fun k => c.mem_write_valid k).filterMap
      (fun k => (c.access k).map (Prod.mk k)) =
        (writes c).map fun e => (e.1, .write e.2.1 e.2.2) := by
    unfold writes
    rw [List.map_map, ← List.filterMap_eq_map]
    refine List.filterMap_congr fun k hk => ?_
    rw [access_of_mem_writes ho (List.mem_map.mpr ⟨k, hk, rfl⟩)]
    rfl
  unfold accesses
  rw [(nodup_serveOrder c).dedup]
  unfold serveOrder reads
  rw [List.filterMap_append, hwrites]

/-- The reads that are served store nothing. -/
theorem not_stores_of_mem_reads {e : Fin n × Access IData IData} (he : e ∈ reads c) :
    ¬e.2.Stores := by
  obtain ⟨k, hk, he⟩ := List.mem_filterMap.mp he
  have hw : ¬c.mem_write_valid k = true := by simpa using (List.mem_filter.mp hk).2
  unfold MemController.access at he
  rw [if_neg hw] at he
  split_ifs at he with hr
  · obtain rfl := Option.some.inj he
    exact id
  · cases he

/-- No channel has two reads served. -/
theorem nodup_reads (c : MemController C n 32 32) : ((reads c).map Prod.fst).Nodup :=
  SharedMemory.nodup_asked ((List.nodup_finRange n).filter _) _

/-- A channel that reads is among the loads. -/
theorem mem_reads (ho : Owned c) (hr : c.mem_read_valid k = true) :
    (k, .read (c.mem_read_address k)) ∈ reads c := by
  have hw : c.mem_write_valid k = false := by
    by_contra hw
    exact absurd ((ho.read_low (Bool.of_not_eq_false hw)).symm.trans hr) (by simp)
  refine List.mem_filterMap.mpr ⟨k, List.mem_filter.mpr ⟨List.mem_finRange k, by simp [hw]⟩, ?_⟩
  unfold MemController.access
  rw [if_pos hr]
  rfl

/-- What `process` sees of the stores. -/
theorem storesOf_dataPorts (hn : n ≤ 8) (c : MemController C n 32 32) (dut : Vgpu n) :
    DataMemory.storesOf (dataPorts c dut) (List.finRange n) = (writes c).map Prod.snd := by
  unfold DataMemory.storesOf writes
  rw [List.map_map]
  have hvalid (k : Fin n) :
      testBit (dataPorts c dut).data_mem_write_valid k = c.mem_write_valid k := testBit_wires hn _ k
  simp only [hvalid]
  rfl

/-- The memory after the accesses of a cycle. -/
theorem after_accesses (ho : Owned c) (mem : IData → IData) (addr : IData) :
    SharedMemory.after mem (accesses c) addr =
      (lastStore ((writes c).map Prod.snd) addr).getD (mem addr) := by
  rw [accesses_eq ho, SharedMemory.after_append_reads fun e he => not_stores_of_mem_reads he,
    SharedMemory.after_writes]

/-- No channel asks for the address that is out of bounds. -/
def InBounds (c : MemController C n 32 32) : Prop :=
  ∀ k e, c.access k = some e → e.address ≠ DataMemory.MAX_SIZE

/-- `process` performs the accesses of a cycle, and tells the channels what they return. -/
theorem process_performs (hn : n ≤ 8) {mem : DataMemory n}
    (hpointers : mem.data_mem_read_data = some) (ho : Owned c) (hb : InBounds c) (dut : Vgpu n) :
    ∃ mem' dut', mem.process (dataPorts c dut) = some (mem', dut') ∧
      mem'.data_mem_read_data = some ∧ mem'.read = SharedMemory.after mem.read (accesses c) ∧
      ∀ k : Fin n, testBit dut'.data_mem_read_ready k = c.mem_read_valid k ∧
        testBit dut'.data_mem_write_ready k = c.mem_write_valid k ∧
        (c.mem_read_valid k = true →
          SharedMemory.words mem.read (accesses c) k = some (dut'.data_mem_read_data k)) := by
  have hreads (k : Fin n) : testBit (dataPorts c dut).data_mem_read_valid k = c.mem_read_valid k :=
    testBit_wires hn _ k
  have hwrites (k : Fin n) :
      testBit (dataPorts c dut).data_mem_write_valid k = c.mem_write_valid k := testBit_wires hn _ k
  obtain ⟨mem', dut', hprocess, hpointers', hword, hports⟩ :=
    DataMemory.process_correct hn hpointers
      fun k (hk : testBit (dataPorts c dut).data_mem_read_valid k = true) =>
      hb k (.read (c.mem_read_address k)) (if_pos ((hreads k).symm.trans hk))
  have hmem : mem'.read = SharedMemory.after mem.read (accesses c) := by
    funext addr
    rw [after_accesses ho, hword, storesOf_dataPorts hn]
    split_ifs with haddr
    · -- No channel has stored at the address that is out of bounds.
      rw [SharedMemory.lastStore_eq_none fun e he => ?_]
      · rfl
      · obtain ⟨⟨k, e⟩, hstore, rfl⟩ := List.mem_map.mp he
        rw [haddr]
        exact hb k (.write e.1 e.2) (access_of_mem_writes ho hstore)
    · rfl
  refine ⟨mem', dut', hprocess, hpointers', hmem, fun k =>
    ⟨(hports k).1.trans (hreads k), (hports k).2.1.trans (hwrites k), fun hr => ?_⟩⟩
  have hdata : dut'.data_mem_read_data k = mem'.read (c.mem_read_address k) :=
    (hports k).2.2 ((hreads k).trans hr)
  rw [hdata, hmem, accesses_eq ho,
    SharedMemory.words_append_reads (fun e he => not_stores_of_mem_reads he) (nodup_reads c)
      (mem_reads ho hr), SharedMemory.after_append_reads fun e he => not_stores_of_mem_reads he]

end Serve

/-! ## A cycle -/

namespace KernelSimulation

variable {N W T n : ℕ} [NeZero N] [NeZero W] {G : Grid} {s : KernelSimulation N W T n}
  {g : GpuSystem N W T n}

/-- The timing of an edge, as a GPU with a memory sees it that has left `dut` on the ports. -/
def gpuTiming (t : FetchTiming N W) (c : MemController (N * (T + 1)) n 32 32) (dut : Vgpu n) :
    GpuTiming N W n where
  execution_start := t.execution_start
  fetcher_state_in := t.fetcher_state_in
  fetched_instruction := t.fetched_instruction
  serve := serveOrder c
  data_mem_read_ready := fun k => testBit dut.data_mem_read_ready k
  data_mem_read_data := dut.data_mem_read_data
  data_mem_write_ready := fun k => testBit dut.data_mem_write_ready k

/-- The GPU and the words of its memory are the same, and the memory has all its ports. -/
structure Refines (s : KernelSimulation N W T n) (g : GpuSystem N W T n) : Prop where
  /-- The GPUs are the same. -/
  gpu : s.gpu = g.gpu
  /-- The words are the same. -/
  mem : s.data_mem.read = g.mem
  /-- The memory object has all its ports. -/
  pointers : s.data_mem.data_mem_read_data = some

/-- A cycle is an edge of a GPU with a memory. -/
theorem Refines.step (hn : n ≤ 8) (h : Refines s g) (ho : Owned g.gpu.data_memory_controller)
    (hb : InBounds g.gpu.data_memory_controller) (life : Lifetime) (G : Grid)
    (t : FetchTiming N W) :
    ∃ s', s.cycle life G t = some s' ∧ Refines s'
      (gpuSystemStep life G (gpuTiming t s.gpu.data_memory_controller s'.dut) g) := by
  obtain ⟨gpu, data_mem, dut⟩ := s
  obtain ⟨rfl, hmem, hpointers⟩ := h
  simp only at hmem hpointers
  obtain ⟨mem', dut', hprocess, hpointers', hmem', hports⟩ :=
    process_performs hn hpointers ho hb dut
  rw [hmem] at hmem' hports
  -- Every channel that asks is answered in the same cycle.
  have hin : GpuSystem.gpuIn G (gpuTiming t g.gpu.data_memory_controller dut') g =
      gpuIn G t g.gpu dut' := by
    unfold GpuSystem.gpuIn gpuIn
    simp only [GpuIn.mk.injEq, true_and]
    refine ⟨rfl, rfl, rfl, funext fun k => ?_, funext fun k => ?_, funext fun k => ?_⟩
    · split_ifs with hr
      · rw [(hports k).1, hr]
        exact decide_eq_true (mem_serveOrder _ k)
      · rfl
    · split_ifs with hr
      · have hword : SharedMemory.words g.mem
            (GpuSystem.served (gpuTiming t g.gpu.data_memory_controller dut') g) k =
              some (dut'.data_mem_read_data k) := (hports k).2.2 hr
        rw [hword]
        rfl
      · rfl
    · split_ifs with hw
      · rw [(hports k).2.1, hw]
        exact decide_eq_true (mem_serveOrder _ k)
      · rfl
  refine ⟨⟨gpuStep life (gpuIn G t g.gpu dut') g.gpu, mem', dut'⟩, ?_, ?_, hmem', hpointers'⟩
  · unfold KernelSimulation.cycle
    rw [hprocess]
    rfl
  · rw [← hin]
    rfl

/-! ## Runs -/

/-- The words of a memory. -/
def words (memory : IData → Option IData) (addr : IData) : IData := (memory addr).getD 0

variable {life : Lifetime} {t : ℕ → FetchTiming N W} {gpu : Gpu N W T n}
  {memory : IData → Option IData}

/-- The timing of a run, as a GPU with a memory sees it. -/
def timings (life : Lifetime) (G : Grid) (t : ℕ → FetchTiming N W) (s : KernelSimulation N W T n)
    (m : ℕ) : GpuTiming N W n :=
  gpuTiming (t m) ((run life G t s m).getD s).gpu.data_memory_controller
    ((run life G t s (m + 1)).getD s).dut

/-- If no lane goes to the address that is out of bounds, the simulation of a kernel goes on, and is
a run of the GPU with a memory. -/
theorem refines_run (hn : n ≤ 8) (h₀ : gpu.Starts life) (t : ℕ → FetchTiming N W)
    (hrace : G.RaceFree (words memory) W T) (hsx : G.FullMaskSx (words memory) W T)
    (hb : ∀ (x : Agent W T) e, G.Makes (words memory) x e → e.address ≠ DataMemory.MAX_SIZE)
    (dut : Vgpu n) (m : ℕ) :
    ∃ s', run life G t ⟨gpu, .make memory, dut⟩ m = some s' ∧
      Refines s' (GpuSystem.run life G (timings life G t ⟨gpu, .make memory, dut⟩)
        ⟨gpu, words memory⟩ m) := by
  induction m with
  | zero => exact ⟨_, rfl, rfl, rfl, rfl⟩
  | succ m ih =>
    obtain ⟨mid, hmid, href⟩ := ih
    have howned := (GpuSystem.isRun (g := ⟨gpu, words memory⟩) h₀.settled life G
      (timings life G t ⟨gpu, .make memory, dut⟩)).owned m
    have hbounds : InBounds (GpuSystem.run life G (timings life G t ⟨gpu, .make memory, dut⟩)
        ⟨gpu, words memory⟩ m).gpu.data_memory_controller := by
      intro k e he
      obtain ⟨x, hx⟩ := GpuSystem.makes_of_access h₀ _ hrace hsx he
      exact hb x e hx
    obtain ⟨s', hcycle, hs'⟩ := href.step hn howned hbounds life G (t m)
    have hrun : run life G t ⟨gpu, .make memory, dut⟩ (m + 1) = some s' := by
      show (run life G t ⟨gpu, .make memory, dut⟩ m).bind _ = _
      rw [hmid]
      exact hcycle
    refine ⟨s', hrun, ?_⟩
    -- The timing is read off the run itself.
    have htiming : timings life G t ⟨gpu, .make memory, dut⟩ m =
        gpuTiming (t m) mid.gpu.data_memory_controller s'.dut := by
      unfold timings
      rw [hmid, hrun]
      rfl
    show Refines s' (gpuSystemStep life G (timings life G t ⟨gpu, .make memory, dut⟩ m) _)
    rw [htiming]
    exact hs'

/-- When `execution_done` is high, the simulated memory is what the grid makes of it. -/
theorem computes_of_done (hn : n ≤ 8) (h₀ : gpu.Starts life) (t : ℕ → FetchTiming N W)
    (hrace : G.RaceFree (words memory) W T) (hsx : G.FullMaskSx (words memory) W T)
    (hb : ∀ (x : Agent W T) e, G.Makes (words memory) x e → e.address ≠ DataMemory.MAX_SIZE)
    (dut : Vgpu n) {m : ℕ} {s' : KernelSimulation N W T n}
    (hrun : run life G t ⟨gpu, .make memory, dut⟩ m = some s')
    (hdone : s'.gpu.cluster.dispatcher.done = true) :
    G.Computes (words memory) W T s'.data_mem.read := by
  obtain ⟨s₁, hrun₁, href⟩ := refines_run hn h₀ t hrace hsx hb dut m
  obtain rfl : s' = s₁ := Option.some.inj (hrun.symm.trans hrun₁)
  rw [href.mem]
  rw [href.gpu] at hdone
  exact GpuSystem.computes_of_done h₀ _ hrace hsx hdone

/-- So the simulated memory is what the grid makes of it from some cycle on. -/
theorem eventually_computes (hpos : 0 < n) (hn : n ≤ 8) (hrace : G.RaceFree (words memory) W T)
    (hsx : G.FullMaskSx (words memory) W T)
    (hstops : ∀ b < G.kernel_config.num_blocks, ∀ w : Fin W, ∃ k, G.Stops (words memory) T b w k)
    (hb : ∀ (x : Agent W T) e, G.Makes (words memory) x e → e.address ≠ DataMemory.MAX_SIZE)
    (h₀ : gpu.Starts .automatic) (hstart : ∃ m, (t m).execution_start = true)
    (hfetch : ∀ i w, ∃ᶠ m in atTop, (t m).fetcher_state_in i w = .done) (dut : Vgpu n) :
    ∀ᶠ m in atTop, ∃ s', run .automatic G t ⟨gpu, .make memory, dut⟩ m = some s' ∧
      G.Computes (words memory) W T s'.data_mem.read := by
  have hfair : GpuSystem.Fair (timings .automatic G t ⟨gpu, .make memory, dut⟩) :=
    ⟨hstart, hfetch, fun k => .of_forall fun m => mem_serveOrder _ k⟩
  have hcomputes := (GpuSystem.eventually_computes hpos hrace hsx hstops h₀ hfair).1
  filter_upwards [hcomputes] with m hm
  obtain ⟨s', hrun, href⟩ := refines_run hn h₀ t hrace hsx hb dut m
  exact ⟨s', hrun, href.mem ▸ hm⟩

end KernelSimulation

end SmolGpu.Sim
