import SmolGpu.Grid.Grid
import SmolGpu.ComputeCore.Specials
import SmolGpu.Dispatcher.SpecialRegisters

/-!
# A cluster with its memories

The dispatcher and its cores, which all load from and store to one data memory. As for one core
(`CoreSystem`), the memory performs the access of a lane at some edge while the lane's LSU asks for
it, and answers at that edge or later. The cores share the memory and nothing else: everything that
lies between, which lanes are served at an edge and in which order, is up to `ClusterTiming`.
-/

namespace SmolGpu

open SharedMemory (Access)

/-- The timing of an edge. -/
structure ClusterTiming (N W T : ℕ) where
  execution_start : Bool
  /-- What the cores see of their fetchers and of the memory, where nothing else determines it. -/
  env : Fin N → CoreEnv W T
  /-- The lanes of the cores whose accesses the memory performs, in this order. -/
  serve : List (Fin N × Fin (T + 1))

/-- A cluster, the data memory, and the answers that are on their way to the lanes. -/
structure ClusterSystem (N W T : ℕ) where
  cluster : Cluster N W T
  mem : DataMemoryAddressT → DataT
  reply : Fin N → Fin (T + 1) → Option DataT

namespace ClusterSystem

variable {N W T : ℕ}

/-- Core `i` and its answers, with a memory of its own. -/
def core (s : ClusterSystem N W T) (mem : DataMemoryAddressT → DataT) (i : Fin N) :
    CoreSystem W T :=
  ⟨s.cluster.core i, mem, s.reply i⟩

/-- The access of a lane of a core that has not been performed. -/
def pending (s : ClusterSystem N W T) (x : Fin N × Fin (T + 1)) :
    Option (Access DataMemoryAddressT DataT) :=
  (s.core s.mem x.1).pending x.2

/-- The accesses that the memory performs at an edge. -/
def served (t : ClusterTiming N W T) (s : ClusterSystem N W T) :
    List ((Fin N × Fin (T + 1)) × Access DataMemoryAddressT DataT) :=
  t.serve.dedup.filterMap fun x => (s.pending x).map (Prod.mk x)

/-- The memory performs an access. -/
def serveOne (s : ClusterSystem N W T)
    (e : (Fin N × Fin (T + 1)) × Access DataMemoryAddressT DataT) : ClusterSystem N W T :=
  { s with
    mem := e.2.perform s.mem
    reply := Function.update s.reply e.1.1
      (Function.update (s.reply e.1.1) e.1.2 (some (e.2.word s.mem))) }

/-- The memory performs the accesses of an edge. -/
def serve (t : ClusterTiming N W T) (s : ClusterSystem N W T) : ClusterSystem N W T :=
  (served t s).foldl serveOne s

/-- The timing as core `i` sees it. -/
def coreTiming (t : ClusterTiming N W T) (i : Fin N) : Timing W T where
  start := true
  fetcher_state_in := (t.env i).fetcher_state_in
  fetched_instruction := (t.env i).fetched_instruction
  serve := []
  data_mem_read_ready := (t.env i).data_mem_read_ready
  data_mem_read_data := (t.env i).data_mem_read_data
  data_mem_write_ready := (t.env i).data_mem_write_ready

/-- The inputs of the cluster. The fetched words and the answers are as in `CoreSystem.coreIn`. -/
def clusterIn (G : Grid) (t : ClusterTiming N W T) (s : ClusterSystem N W T) :
    ClusterIn N W T where
  reset := false
  execution_start := t.execution_start
  kernel_config := G.kernel_config
  env := fun i =>
    { fetcher_state_in := (t.env i).fetcher_state_in
      fetched_instruction := fun w =>
        if (s.cluster.core i).warp_state w = .decode then G.program ((s.cluster.core i).pc w)
        else (t.env i).fetched_instruction w
      data_mem_read_ready := fun l => (t.env i).data_mem_read_ready l &&
        (!((s.cluster.core i).lsu l).mem_read_valid || (s.reply i l).isSome)
      data_mem_read_data := fun l => (s.reply i l).getD ((t.env i).data_mem_read_data l)
      data_mem_write_ready := fun l => (t.env i).data_mem_write_ready l &&
        (!((s.cluster.core i).lsu l).mem_write_valid || (s.reply i l).isSome) }

/-- The cluster's edge. An answer is gone when its lane has withdrawn the request. -/
def clock [NeZero W] (life : Lifetime) (G : Grid) (t : ClusterTiming N W T)
    (s : ClusterSystem N W T) : ClusterSystem N W T :=
  let cluster := clusterStep life (clusterIn G t s) s.cluster
  { cluster := cluster
    mem := s.mem
    reply := fun i l => if ((cluster.core i).lsu l).access.isSome then s.reply i l else none }

end ClusterSystem

open ClusterSystem in
/-- One clock edge of a cluster with its memories. -/
def clusterSystemStep {N W T : ℕ} [NeZero W] (life : Lifetime) (G : Grid)
    (t : ClusterTiming N W T) (s : ClusterSystem N W T) : ClusterSystem N W T :=
  (s.serve t).clock life G t

namespace ClusterSystem

variable {N W T : ℕ} [NeZero W]

/-- A cluster with the data memory as it is at the start. -/
def init (c : Cluster N W T) (mem : DataMemoryAddressT → DataT) : ClusterSystem N W T :=
  ⟨c, mem, fun _ _ => none⟩

/-- A cluster that has been reset, none of whose lanes asks for anything. -/
structure Starts (life : Lifetime) (c : Cluster N W T) : Prop where
  /-- The cluster has been reset. -/
  reset : Cluster.AfterReset life c
  /-- No lane asks for anything. -/
  quiet : ∀ i l, ((c.core i).lsu l).access = none

/-- The run of a grid. -/
def run (life : Lifetime) (G : Grid) (t : ℕ → ClusterTiming N W T) (s : ClusterSystem N W T) :
    ℕ → ClusterSystem N W T :=
  Clocked.run (clusterSystemStep life G) t s

/-- The agent for whom a lane of a core works: the block that the core is given, its current warp,
and the lane. -/
def agent (s : ClusterSystem N W T) (x : Fin N × Fin (T + 1)) : Agent W T :=
  (s.cluster.dispatcher.core_block_id x.1, (s.cluster.core x.1).current_warp, x.2)

/-- The accesses that the memory has performed before edge `n`, each with the agent that it was
performed for. -/
def history (life : Lifetime) (G : Grid) (t : ℕ → ClusterTiming N W T) (s : ClusterSystem N W T) :
    ℕ → List (Agent W T × Access DataMemoryAddressT DataT)
  | 0 => []
  | n + 1 => history life G t s n ++ (served (t n) (run life G t s n)).map fun e =>
      ((run life G t s n).agent e.1, e.2)

/-- Whether a core is started on a block is decidable from the dispatcher's registers. -/
instance (s : Cluster N W T) (i : Fin N) (b : DataT) : Decidable (s.StartedOn i b) :=
  inferInstanceAs (Decidable (_ ∧ _))

/-- The instruction that warp `w` of block `b` begins at the edge, with its address, if it begins
one. -/
def begins (G : Grid) (s : ClusterSystem N W T) (b : DataT) (w : Fin W) :
    List (InstructionMemoryAddressT × InstructionT) :=
  ((List.finRange N).filter fun i => s.cluster.StartedOn i b ∧ (s.core s.mem i).Begins w).map
    fun i => ((s.cluster.core i).pc w, G.program ((s.cluster.core i).pc w))

/-- The instructions that warp `w` of block `b` has begun before edge `n`, each with its address. -/
def executed (life : Lifetime) (G : Grid) (t : ℕ → ClusterTiming N W T) (s : ClusterSystem N W T) :
    ℕ → DataT → Fin W → List (InstructionMemoryAddressT × InstructionT)
  | 0, _, _ => []
  | n + 1, b, w => executed life G t s n b w ++ (run life G t s n).begins G b w

end ClusterSystem

end SmolGpu
