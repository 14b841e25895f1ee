import SmolGpu.ComputeCore.Refinement
import SmolGpu.ComputeCore.Solo
import Mathlib.Data.List.Dedup

/-!
# A core with its memories

One core that runs a kernel by itself. The program memory returns the same word for an address every
time. The data memory performs the access of a lane at some edge while the lane's LSU asks for it,
and answers at that edge or later; until then, it is not ready. Everything else is up to `Timing`:
when fetches end, when accesses are performed and in which order within an edge, when the answers
come, and what is on the wires of lanes that ask for nothing.
-/

namespace SmolGpu

open SharedMemory (Access)

/-- The access that a unit asks for. -/
def Lsu.access (s : Lsu) : Option (Access DataMemoryAddressT DataT) :=
  if s.mem_read_valid then some (.read s.mem_read_address)
  else if s.mem_write_valid then some (.write s.mem_write_address s.mem_write_data)
  else none

/-- What is run: a program, its configuration, and the block's id. -/
structure Kernel where
  program : InstructionMemoryAddressT → InstructionT
  kernel_config : KernelConfig
  block_id : DataT

/-- The timing of an edge. -/
structure Timing (W T : ℕ) where
  start : Bool
  fetcher_state_in : Fin W → FetcherState
  /-- What the fetchers hold for the warps that are not decoding. -/
  fetched_instruction : Fin W → InstructionT
  /-- The lanes whose accesses the memory performs, in this order. -/
  serve : List (Fin (T + 1))
  data_mem_read_ready : Fin (T + 1) → Bool
  /-- What is on the data wires of the lanes that have no answer. -/
  data_mem_read_data : Fin (T + 1) → DataT
  data_mem_write_ready : Fin (T + 1) → Bool

/-- A core, the data memory, and the answers that are on their way to the lanes. -/
structure CoreSystem (W T : ℕ) where
  core : ComputeCore W T
  mem : DataMemoryAddressT → DataT
  reply : Fin (T + 1) → Option DataT

namespace CoreSystem

variable {W T : ℕ}

/-- The access of a lane that has not been performed. -/
def pending (s : CoreSystem W T) (l : Fin (T + 1)) : Option (Access DataMemoryAddressT DataT) :=
  if (s.reply l).isSome then none else (s.core.lsu l).access

/-- The accesses that the memory performs at an edge. -/
def served (t : Timing W T) (s : CoreSystem W T) :
    List (Fin (T + 1) × Access DataMemoryAddressT DataT) :=
  t.serve.dedup.filterMap fun l => (s.pending l).map (Prod.mk l)

/-- The memory performs an access. -/
def serveOne (s : CoreSystem W T) (e : Fin (T + 1) × Access DataMemoryAddressT DataT) :
    CoreSystem W T :=
  { s with
    mem := e.2.perform s.mem
    reply := Function.update s.reply e.1 (some (e.2.word s.mem)) }

/-- The memory performs the accesses of an edge. -/
def serve (t : Timing W T) (s : CoreSystem W T) : CoreSystem W T := (served t s).foldl serveOne s

/-- The inputs of the core. The data memory is ready for a lane that asks only if it has performed
the access. -/
def coreIn (K : Kernel) (t : Timing W T) (s : CoreSystem W T) : CoreIn W T where
  reset := false
  start := t.start
  block_id := K.block_id
  kernel_config := K.kernel_config
  fetcher_state_in := t.fetcher_state_in
  -- A warp decodes the word at its address, whenever its fetcher has come to hold it.
  fetched_instruction := fun w =>
    if s.core.warp_state w = .decode then K.program (s.core.pc w) else t.fetched_instruction w
  data_mem_read_ready := fun l =>
    t.data_mem_read_ready l && (!(s.core.lsu l).mem_read_valid || (s.reply l).isSome)
  data_mem_read_data := fun l => (s.reply l).getD (t.data_mem_read_data l)
  data_mem_write_ready := fun l =>
    t.data_mem_write_ready l && (!(s.core.lsu l).mem_write_valid || (s.reply l).isSome)

/-- The core's edge. An answer is gone when its lane has withdrawn the request. -/
def clock [NeZero W] (life : Lifetime) (K : Kernel) (t : Timing W T) (s : CoreSystem W T) :
    CoreSystem W T :=
  let core := coreStep life (coreIn K t s) s.core
  { core := core
    mem := s.mem
    reply := fun l => if (core.lsu l).access.isSome then s.reply l else none }

end CoreSystem

open CoreSystem in
/-- One clock edge of a core with its memories. -/
def coreSystemStep {W T : ℕ} [NeZero W] (life : Lifetime) (K : Kernel) (t : Timing W T)
    (s : CoreSystem W T) : CoreSystem W T :=
  (s.serve t).clock life K t

namespace CoreSystem

variable {W T : ℕ} [NeZero W]

/-- A core after an edge with reset high, on the inputs of the kernel. -/
def AfterReset (life : Lifetime) (K : Kernel) (c : ComputeCore W T) : Prop :=
  ∃ inp c₀, inp.reset = true ∧ inp.kernel_config = K.kernel_config ∧ inp.block_id = K.block_id ∧
    c = coreStep life inp c₀

/-- A core that has just been reset, with the data memory as it is at the start. -/
def init (c : ComputeCore W T) (mem : DataMemoryAddressT → DataT) : CoreSystem W T :=
  ⟨c, mem, fun _ => none⟩

/-- The current warp, if it begins an instruction at the edge. -/
def Begins (s : CoreSystem W T) (w : Fin W) : Prop :=
  s.core.current_warp = w ∧ s.core.warp_state w = .decode

/-- Whether a warp begins an instruction is decidable from its state. -/
instance (s : CoreSystem W T) (w : Fin W) : Decidable (s.Begins w) :=
  inferInstanceAs (Decidable (_ ∧ _))

/-- The run of a kernel. -/
def run (life : Lifetime) (K : Kernel) (t : ℕ → Timing W T) (s : CoreSystem W T) :
    ℕ → CoreSystem W T :=
  Clocked.run (coreSystemStep life K) t s

/-- The accesses that the memory has performed before edge `n`, each with the warp and the lane that
it was performed for. -/
def history (life : Lifetime) (K : Kernel) (t : ℕ → Timing W T) (s : CoreSystem W T) :
    ℕ → List ((Fin W × Fin (T + 1)) × Access DataMemoryAddressT DataT)
  | 0 => []
  | n + 1 => history life K t s n ++ (served (t n) (run life K t s n)).map fun e =>
      (((run life K t s n).core.current_warp, e.1), e.2)

/-- The instructions that warp `w` has begun before edge `n`, each with its address. -/
def executed (life : Lifetime) (K : Kernel) (t : ℕ → Timing W T) (s : CoreSystem W T) (w : Fin W) :
    ℕ → List (InstructionMemoryAddressT × InstructionT)
  | 0 => []
  | n + 1 => executed life K t s w n ++
      if (run life K t s n).Begins w then
        [((run life K t s n).core.pc w,
          (coreIn K (t n) ((run life K t s n).serve (t n))).fetched_instruction w)]
      else []

/-- Before edge `n` no thread is masked off when its warp begins an `sx` instruction. -/
def FullMaskSx (life : Lifetime) (K : Kernel) (t : ℕ → Timing W T) (s : CoreSystem W T) (n : ℕ) :
    Prop :=
  ∀ m < n, ∀ w, (run life K t s m).Begins w →
    IsSx (K.program ((run life K t s m).core.pc w)) →
      ∀ i : Fin T, ((run life K t s m).core.warp_execution_mask w).getLsbD i = true

/-- Whether the `sx` instructions of a finite run have all threads is found by looking at its
edges. -/
instance (life : Lifetime) (K : Kernel) (t : ℕ → Timing W T) (s : CoreSystem W T) (n : ℕ) :
    Decidable (FullMaskSx life K t s n) :=
  inferInstanceAs (Decidable (∀ m < n, ∀ _, _ → _ → _))

end CoreSystem

end SmolGpu
