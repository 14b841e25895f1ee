import SmolGpu.Alu
import SmolGpu.Decoder
import SmolGpu.Lsu
import SmolGpu.RegFile
import Mathlib.Data.Fin.Tuple.Basic

/-!
# The compute core

`src/compute_core.sv`: `W` warps of `T` threads that share `T` vector ALUs, `T` vector LSUs, and a
scalar ALU and LSU. `WARPS_PER_CORE` is `W` and `THREADS_PER_WARP` is `T`; the source indexes some
per-warp arrays by a thread count, so it is in range for `W ≤ T ≤ 32`. The lanes of the data-memory
ports are numbered as in the source: lane `i < T` is the vector LSU of thread `i`, and lane `T`
(`Fin.last T`) is the scalar LSU.

The state of the fetchers, which is split between a register of this module and the instances of
`fetcher.sv`, is left out of `ComputeCore`: `fetcher_state_in` and `fetched_instruction` are read
from `CoreIn`. `ComputeCore/Fetch.lean` closes the loop with the instantiated fetchers.

An edge is `coreStep`. Every register after the edge is a function of the registers before it:
`alwaysBlock` is the module's own always block, in which `s` is the state before the edge and `n`
carries the nonblocking assignments made so far, and the instances read `s` alone.
-/

namespace SmolGpu

/-- When the simulator initializes `reg any_lsu_waiting = 1'b0;`, a variable that the `WARP_WAIT`
branch declares: at each entry of the branch (`automatic`), or once, before the simulation starts
(`static`, the default lifetime of the language). -/
inductive Lifetime
  | automatic | static
  deriving DecidableEq, Repr

/-- The inputs that `compute_core` samples at an edge, with the fetchers' registers among them. -/
structure CoreIn (W T : ℕ) where
  reset : Bool
  start : Bool
  block_id : DataT
  kernel_config : KernelConfig
  fetcher_state_in : Fin W → FetcherState
  fetched_instruction : Fin W → InstructionT
  data_mem_read_ready : Fin (T + 1) → Bool
  data_mem_read_data : Fin (T + 1) → DataT
  data_mem_write_ready : Fin (T + 1) → Bool

/-- The registers of `compute_core` and of its decoders, register files, ALUs, and LSUs. -/
structure ComputeCore (W T : ℕ) where
  start_execution : Bool
  done : Bool
  current_warp : Fin W
  warp_state : Fin W → WarpState
  pc : Fin W → InstructionMemoryAddressT
  next_pc : Fin W → InstructionMemoryAddressT
  vector_to_scalar_data : Fin W → DataT
  any_lsu_waiting : Bool
  decoder : Fin W → Decoded
  scalar_reg_file : Fin W → ScalarRegFile
  reg_file : Fin W → Fin T → RegFile
  scalar_alu_out : DataT
  alu_out : Fin T → DataT
  lsu : Fin (T + 1) → Lsu

namespace ComputeCore

/-- The examples have cores of one warp. -/
instance oneWarp : NeZero 1 := ⟨one_ne_zero⟩

variable {W T : ℕ} [NeZero W]

/-- The registers when the simulator starts: all zero. -/
def powerUp : ComputeCore W T where
  start_execution := false
  done := false
  current_warp := 0
  warp_state := fun _ => .idle
  pc := fun _ => 0
  next_pc := fun _ => 0
  vector_to_scalar_data := fun _ => 0
  any_lsu_waiting := false
  decoder := fun _ => Decoded.default
  scalar_reg_file := fun _ => ⟨fun _ => 0, 0, 0⟩
  reg_file := fun _ _ => ⟨fun _ => 0, 0, 0⟩
  scalar_alu_out := 0
  alu_out := fun _ => 0
  lsu := fun _ => Lsu.resetState

/-! ## Wires -/

section Wires

variable (s : ComputeCore W T)

/-- `current_warp_state`. -/
def current_warp_state : WarpState := s.warp_state s.current_warp

/-- The decoded fields of the current warp. -/
def current : Decoded := s.decoder s.current_warp

/-- `warp_execution_mask`: the mask register of a warp, cut to `warp_mask_t`. -/
def warp_execution_mask (w : Fin W) : BitVec T :=
  (s.scalar_reg_file w).warp_execution_mask.setWidth T

/-- `t_enable`: a vector lane works on the current warp's vector instructions, under its mask. -/
def threadEnable (i : Fin T) : Bool :=
  (s.warp_execution_mask s.current_warp).getLsbD i && !s.current.decoded_scalar_instruction

/-- The enable of a lane's LSU. -/
def lsuEnable : Fin (T + 1) → Bool :=
  Fin.lastCases s.current.decoded_scalar_instruction s.threadEnable

/-- The first operand latch that a lane's units read. -/
def laneRs1 : Fin (T + 1) → DataT :=
  Fin.lastCases (s.scalar_reg_file s.current_warp).rs1 fun i => (s.reg_file s.current_warp i).rs1

/-- The second operand latch that a lane's units read. -/
def laneRs2 : Fin (T + 1) → DataT :=
  Fin.lastCases (s.scalar_reg_file s.current_warp).rs2 fun i => (s.reg_file s.current_warp i).rs2

/-- The inputs of a lane's ALU, with `enable`, on the current warp's instruction. -/
def aluIn (inp : CoreIn W T) (enable : Bool) (l : Fin (T + 1)) : AluIn where
  reset := inp.reset
  enable := enable
  pc := s.pc s.current_warp
  imm := s.current.decoded_immediate
  rs1 := s.laneRs1 l
  rs2 := s.laneRs2 l
  instruction := s.current.decoded_alu_instruction

/-- The inputs of a lane's LSU. -/
def lsuIn (inp : CoreIn W T) (l : Fin (T + 1)) : LsuIn where
  reset := inp.reset
  enable := s.lsuEnable l
  warp_state := s.current_warp_state
  decoded_mem_read_enable := s.current.decoded_mem_read_enable
  decoded_mem_write_enable := s.current.decoded_mem_write_enable
  rs1 := s.laneRs1 l
  rs2 := s.laneRs2 l
  imm := s.current.decoded_immediate
  mem_read_ready := inp.data_mem_read_ready l
  mem_read_data := inp.data_mem_read_data l
  mem_write_ready := inp.data_mem_write_ready l

/-- The inputs of the scalar register file of warp `w`. -/
def scalarRegFileIn (inp : CoreIn W T) (w : Fin W) : ScalarRegFileIn where
  reset := inp.reset
  enable := s.current_warp = w
  warp_state := s.warp_state w
  -- The mux that may open a scalar write to a vector instruction is the current warp's.
  decoded_reg_write_enable :=
    (s.decoder w).decoded_reg_write_enable &&
      ((s.decoder w).decoded_scalar_instruction ||
        s.current.decoded_reg_input_mux = .vectorToScalar)
  decoded_reg_input_mux := (s.decoder w).decoded_reg_input_mux
  decoded_immediate := (s.decoder w).decoded_immediate
  decoded_rd_address := (s.decoder w).decoded_rd_address
  decoded_rs1_address := (s.decoder w).decoded_rs1_address
  decoded_rs2_address := (s.decoder w).decoded_rs2_address
  alu_out := s.scalar_alu_out
  lsu_out := (s.lsu (Fin.last T)).lsu_out
  pc := s.pc w
  vector_to_scalar_data := s.vector_to_scalar_data w

/-- The inputs of the register file of warp `w`, for thread `i`. -/
def regFileIn (inp : CoreIn W T) (w : Fin W) (i : Fin T) : RegFileIn where
  reset := inp.reset
  enable := s.current_warp = w
  thread_enable := (s.warp_execution_mask w).getLsbD i
  thread_id := threadId T (BitVec.ofNat 32 w) i
  block_id := inp.block_id
  block_size := inp.kernel_config.num_warps_per_block * BitVec.ofNat 32 T
  warp_state := s.warp_state w
  decoded_reg_write_enable :=
    (s.decoder w).decoded_reg_write_enable && !(s.decoder w).decoded_scalar_instruction
  decoded_reg_input_mux := (s.decoder w).decoded_reg_input_mux
  decoded_immediate := (s.decoder w).decoded_immediate
  decoded_rd_address := (s.decoder w).decoded_rd_address
  decoded_rs1_address := (s.decoder w).decoded_rs1_address
  decoded_rs2_address := (s.decoder w).decoded_rs2_address
  alu_out := s.alu_out i
  lsu_out := (s.lsu i.castSucc).lsu_out

end Wires

/-! ## The always block -/

/-- The reset branch. -/
def resetBranch (s : ComputeCore W T) : ComputeCore W T :=
  { s with
    start_execution := false
    done := false
    warp_state := fun _ => .idle
    pc := fun _ => 0
    next_pc := fun _ => 0
    current_warp := 0 }

/-- The branch that waits for `start`. -/
def startBranch (inp : CoreIn W T) (s : ComputeCore W T) : ComputeCore W T :=
  if inp.start then
    { s with
      start_execution := true
      current_warp := 0
      warp_state := fun _ => .fetch
      pc := fun _ => inp.kernel_config.base_instructions_address
      next_pc := fun _ => inp.kernel_config.base_instructions_address }
  else s

/-- The loop that moves warps whose fetcher is done to `WARP_DECODE`. -/
def fetchCheck (inp : CoreIn W T) (s n : ComputeCore W T) : ComputeCore W T :=
  { n with
    warp_state := fun i =>
      if s.warp_state i = .fetch ∧ inp.fetcher_state_in i = .done then .decode
      else n.warp_state i }

/-- The loop that sets `done`: it stops with 0 at the first warp that is not done, and otherwise
ends with 1. -/
def doneCheck (s n : ComputeCore W T) : ComputeCore W T :=
  { n with done := decide (∀ i, s.warp_state i = .done) }

/-- The loop that looks for a warp to execute, from `next_warp` on: the first one, cyclically,
that is not idle, fetching, or done. Addition in `Fin W` is modulo `WARPS_PER_CORE`. -/
def foundWarp (s : ComputeCore W T) : Option (Fin W) :=
  Fin.findSome? fun i : Fin W =>
    let warp_index := s.current_warp + 1 + i
    if s.warp_state warp_index ≠ .idle ∧ s.warp_state warp_index ≠ .fetch ∧
        s.warp_state warp_index ≠ .done then some warp_index
    else none

/-- The choice of the next warp, made in `WARP_UPDATE` and `WARP_DONE` only. -/
def chooseWarp (s n : ComputeCore W T) : ComputeCore W T :=
  if s.current_warp_state = .update ∨ s.current_warp_state = .done then
    match s.foundWarp with
    | some found_warp => { n with current_warp := found_warp }
    | none => { n with current_warp := s.current_warp }
  else n

/-- The value the `WARP_WAIT` branch computes for `any_lsu_waiting`. -/
def anyLsuWaiting (life : Lifetime) (s : ComputeCore W T) : Bool :=
  -- A static variable keeps the value that the last `WARP_WAIT` edge left in it.
  (match life with
    | .automatic => false
    | .static => s.any_lsu_waiting) ||
  decide (∃ l, (s.lsu l).lsu_state = .requesting ∨ (s.lsu l).lsu_state = .waiting)

/-- The `next_pc` that the `WARP_EXECUTE` branch selects. -/
def nextPc (s : ComputeCore W T) : InstructionMemoryAddressT :=
  let pc := s.pc s.current_warp
  if s.current.decoded_scalar_instruction then
    if s.current.decoded_branch then
      if s.scalar_alu_out = 1 then pc + s.current.decoded_immediate else pc + 1
    else if s.current.decoded_alu_instruction = .JAL then s.scalar_alu_out
    else if s.current.decoded_alu_instruction = .JALR then s.scalar_alu_out
    else pc + 1
  else pc + 1

/-- `scalar_write_value`: bit `i` is bit 0 of lane `i`'s ALU output. -/
def scalarWriteValue (s : ComputeCore W T) : DataT :=
  Fin.foldl T
    (fun v i => if (s.alu_out i).getLsbD 0 then v ||| BitVec.twoPow 32 i else v) 0

/-- The case over `current_warp_state`. -/
def stageCase (life : Lifetime) (s n : ComputeCore W T) : ComputeCore W T :=
  match s.current_warp_state with
  | .idle | .fetch | .done => n
  | .decode => { n with warp_state := Function.update n.warp_state s.current_warp .request }
  | .request => { n with warp_state := Function.update n.warp_state s.current_warp .wait }
  | .wait =>
    let n := { n with any_lsu_waiting := s.anyLsuWaiting life }
    if s.anyLsuWaiting life then n
    else { n with warp_state := Function.update n.warp_state s.current_warp .execute }
  | .execute =>
    { n with
      next_pc := Function.update n.next_pc s.current_warp s.nextPc
      warp_state := Function.update n.warp_state s.current_warp .update
      vector_to_scalar_data :=
        Function.update n.vector_to_scalar_data s.current_warp
          (if s.current.decoded_reg_input_mux = .vectorToScalar then s.scalarWriteValue else 0) }
  | .update =>
    if s.current.decoded_halt then
      { n with warp_state := Function.update n.warp_state s.current_warp .done }
    else
      { n with
        pc := Function.update n.pc s.current_warp (s.next_pc s.current_warp)
        warp_state := Function.update n.warp_state s.current_warp .fetch }

/-- The always block of `compute_core.sv`. -/
def alwaysBlock (life : Lifetime) (inp : CoreIn W T) (s : ComputeCore W T) : ComputeCore W T :=
  if inp.reset then s.resetBranch
  else if !s.start_execution then s.startBranch inp
  else s.stageCase life (s.chooseWarp (s.doneCheck (s.fetchCheck inp s)))

end ComputeCore

open ComputeCore in
/-- One clock edge of a core. -/
def coreStep {W T : ℕ} [NeZero W] (life : Lifetime) (inp : CoreIn W T) (s : ComputeCore W T) :
    ComputeCore W T :=
  { s.alwaysBlock life inp with
    decoder := fun w =>
      decoderStep ⟨inp.reset, s.warp_state w, inp.fetched_instruction w⟩ (s.decoder w)
    scalar_reg_file := fun w => scalarRegFileStep (s.scalarRegFileIn inp w) (s.scalar_reg_file w)
    reg_file := fun w i => regFileStep (s.regFileIn inp w i) (s.reg_file w i)
    scalar_alu_out :=
      aluStep (s.aluIn inp s.current.decoded_scalar_instruction (Fin.last T)) s.scalar_alu_out
    alu_out := fun i => aluStep (s.aluIn inp (s.threadEnable i) i.castSucc) (s.alu_out i)
    lsu := fun l => lsuStep (s.lsuIn inp l) (s.lsu l) }

end SmolGpu
