import SmolGpu.Gpu.Handshake
import SmolGpu.Grid.Grid

/-!
# A GPU with its data memory

The GPU of `src/gpu.sv` behind whose data ports there is a memory. The memory answers any of the
channels that ask at an edge, in any order, and lets the others wait: which ones is up to
`GpuTiming`. A channel that asks is answered with the word that the memory has when its turn comes.
The words that the fetchers hold are those of the program.
-/

namespace SmolGpu

open SharedMemory (Access)

/-- The timing of an edge. -/
structure GpuTiming (N W M : ℕ) where
  execution_start : Bool
  fetcher_state_in : Fin N → Fin W → FetcherState
  /-- What the fetchers hold for the warps that are not decoding. -/
  fetched_instruction : Fin N → Fin W → InstructionT
  /-- The channels that the memory answers, in this order. -/
  serve : List (Fin M)
  /-- What is on the wires where the memory does not drive them. -/
  data_mem_read_ready : Fin M → Bool
  data_mem_read_data : Fin M → DataT
  data_mem_write_ready : Fin M → Bool

/-- A GPU and its data memory. -/
structure GpuSystem (N W T M : ℕ) where
  gpu : Gpu N W T M
  mem : DataMemoryAddressT → DataT

/-- The access that a channel asks memory for. -/
def MemController.access {C M : ℕ} (c : MemController C M 32 32) (k : Fin M) :
    Option (Access DataMemoryAddressT DataT) :=
  if c.mem_read_valid k then some (.read (c.mem_read_address k))
  else if c.mem_write_valid k then some (.write (c.mem_write_address k) (c.mem_write_data k))
  else none

namespace GpuSystem

variable {N W T M : ℕ}

/-- The accesses that the memory performs at an edge. -/
def served (t : GpuTiming N W M) (s : GpuSystem N W T M) :
    List (Fin M × Access DataMemoryAddressT DataT) :=
  t.serve.dedup.filterMap fun k => (s.gpu.data_memory_controller.access k).map (Prod.mk k)

/-- The inputs of the GPU. -/
def gpuIn (G : Grid) (t : GpuTiming N W M) (s : GpuSystem N W T M) : GpuIn N W M where
  reset := false
  execution_start := t.execution_start
  kernel_config := G.kernel_config
  fetcher_state_in := t.fetcher_state_in
  fetched_instruction := fun i w =>
    if (s.gpu.cluster.core i).warp_state w = .decode then G.program ((s.gpu.cluster.core i).pc w)
    else t.fetched_instruction i w
  data_mem_read_ready := fun k =>
    if s.gpu.data_memory_controller.mem_read_valid k then decide (k ∈ t.serve)
    else t.data_mem_read_ready k
  data_mem_read_data := fun k =>
    if s.gpu.data_memory_controller.mem_read_valid k then
      (SharedMemory.words s.mem (served t s) k).getD (t.data_mem_read_data k)
    else t.data_mem_read_data k
  data_mem_write_ready := fun k =>
    if s.gpu.data_memory_controller.mem_write_valid k then decide (k ∈ t.serve)
    else t.data_mem_write_ready k

end GpuSystem

open GpuSystem in
/-- One clock edge of a GPU with its data memory. -/
def gpuSystemStep {N W T M : ℕ} [NeZero N] [NeZero W] (life : Lifetime) (G : Grid)
    (t : GpuTiming N W M) (s : GpuSystem N W T M) : GpuSystem N W T M where
  gpu := gpuStep life (gpuIn G t s) s.gpu
  mem := SharedMemory.after s.mem (served t s)

namespace GpuSystem

variable {N W T M : ℕ} [NeZero N] [NeZero W]

/-- The run of a grid. -/
def run (life : Lifetime) (G : Grid) (t : ℕ → GpuTiming N W M) (s : GpuSystem N W T M) :
    ℕ → GpuSystem N W T M :=
  Clocked.run (gpuSystemStep life G) t s

end GpuSystem

end SmolGpu
