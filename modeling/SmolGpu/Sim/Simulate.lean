import SmolGpu.As.DataReader
import SmolGpu.As.Translation
import SmolGpu.Gpu.Wired
import SmolGpu.Sim.InstructionMemory

/-!
# The simulator

`simulate` of `src/sim/simlib/sim.hpp` and `main` of `src/sim/main.cpp`: the GPU as it is wired
between the two simulated memories. In every cycle the memories look at the ports and answer, and
then the clock ticks once.

The GPU hangs, and so `simulate` returns `true` for a kernel without blocks only (`simulate_eq`). A
source file cannot ask for none, and so the simulator ends with the data memory printed for no
source file at all (`simulator_never_finishes`).
-/

namespace SmolGpu.Sim

/-- A port of `n` wires. -/
def wires {n : ℕ} (bits : Fin n → Bool) : CData :=
  (List.finRange n).foldl (fun signal (i : Fin n) => setBit signal i (bits i)) 0

/-- The data ports, on which the memory controller drives the requests. -/
def dataPorts {C n : ℕ} (c : MemController C n 32 32) (dut : Vgpu n) : Vgpu n :=
  { dut with
    data_mem_read_valid := wires c.mem_read_valid
    data_mem_read_address := c.mem_read_address
    data_mem_write_valid := wires c.mem_write_valid
    data_mem_write_address := c.mem_write_address
    data_mem_write_data := c.mem_write_data }

/-- The instruction ports, on which the memory controller drives the requests. -/
def instructionPorts {C n : ℕ} (c : MemController C n 32 32) (dut : InstructionPorts n) :
    InstructionPorts n :=
  { dut with
    instruction_mem_read_valid := wires c.mem_read_valid
    instruction_mem_read_address := c.mem_read_address }

/-- `Vgpu`: the GPU and its ports. -/
structure Top (N W T n : ℕ) where
  gpu : WiredGpu N W T n n
  reset : Bool
  execution_start : Bool
  kernel_config : KernelConfig
  instruction : InstructionPorts n
  data : Vgpu n

namespace Top

variable {N W T n : ℕ}

/-- `Vgpu top{}`. -/
def init [NeZero N] [NeZero W] : Top N W T n where
  gpu := WiredGpu.powerUp
  reset := false
  execution_start := false
  kernel_config := ⟨0, 0, 0, 0⟩
  instruction := ⟨0, fun _ => 0, 0, fun _ => 0⟩
  data := ⟨0, fun _ => 0, 0, fun _ => 0, 0, fun _ => 0, fun _ => 0, 0⟩

/-- `eval`, while the clock does not rise. -/
def eval (top : Top N W T n) : Top N W T n :=
  { top with
    instruction := instructionPorts top.gpu.program_memory_controller top.instruction
    data := dataPorts top.gpu.gpu.data_memory_controller top.data }

/-- What the GPU samples at an edge. -/
def gpuPorts (top : Top N W T n) : GpuPorts n n where
  reset := top.reset
  execution_start := top.execution_start
  kernel_config := top.kernel_config
  instruction_mem_read_ready := fun k => testBit top.instruction.instruction_mem_read_ready k
  instruction_mem_read_data := top.instruction.instruction_mem_read_data
  data_mem_read_ready := fun k => testBit top.data.data_mem_read_ready k
  data_mem_read_data := top.data.data_mem_read_data
  data_mem_write_ready := fun k => testBit top.data.data_mem_write_ready k

end Top

/-- `tick`: a rising edge of the clock. -/
def tick {N W T n : ℕ} [NeZero N] [NeZero W] (life : Lifetime) (top : Top N W T n) : Top N W T n :=
  { top with gpu := wiredGpuStep life top.gpuPorts top.gpu }

/-- `set_kernel_config`. -/
def setKernelConfig {N W T n : ℕ} (top : Top N W T n)
    (base_instructions_address base_data_address num_blocks num_warps_per_block : IData) :
    Top N W T n :=
  { top with kernel_config :=
      ⟨base_instructions_address, base_data_address, num_blocks, num_warps_per_block⟩ }

/-- The GPU and its memories. -/
structure Simulation (N W T n : ℕ) where
  top : Top N W T n
  instruction_mem : InstructionMemory
  data_mem : DataMemory n

namespace Simulation

variable {N W T n : ℕ} [NeZero N] [NeZero W]

/-- The memories look at the ports of the GPU and answer. -/
def serve (s : Simulation N W T n) : Option (Simulation N W T n) :=
  let top := s.top.eval
  let (instruction_mem, instruction) := s.instruction_mem.process top.instruction
  (s.data_mem.process top.data).map fun (data_mem, data) =>
    { instruction_mem, data_mem, top := { top with instruction, data } }

/-- A cycle behind the test of `execution_done`. -/
def cycle (life : Lifetime) (s : Simulation N W T n) : Option (Simulation N W T n) :=
  s.serve.map fun s => { s with top := tick life s.top }

/-- The loop of `simulate` over the cycles. -/
def loop (life : Lifetime) : ℕ → Simulation N W T n → Option (Bool × Simulation N W T n)
  | 0, s => some (false, s)
  | cycles + 1, s =>
    if s.top.gpu.execution_done then some (true, s) else (s.cycle life).bind (loop life cycles)

end Simulation

/-- `simulate`. -/
def simulate {N W T n : ℕ} [NeZero N] [NeZero W] (life : Lifetime) (s : Simulation N W T n)
    (max_num_cycles : IData) : Option (Bool × Simulation N W T n) :=
  Simulation.loop life max_num_cycles.toNat
    { s with top := { s.top with execution_start := true } }

/-! ## A memory that is not asked for anything -/

/-- A port shows its wires. -/
theorem testBit_wires {n : ℕ} (hn : n ≤ 8) (bits : Fin n → Bool) (i : Fin n) :
    testBit (wires bits) i = bits i := by
  have hwires : ∀ j ∈ [] ++ List.finRange n, testBit (wires bits) (j : Fin n) = bits j := by
    refine Loop.foldl_done_induction
      (fun set signal => ∀ j : Fin n, j ∈ set → testBit signal j = bits j) ?_ (by simp)
    intro set k signal ih j hj
    rw [testBit_setBit (by omega) (by omega)]
    by_cases hjk : j = k
    · rw [if_pos (congrArg Fin.val hjk), hjk]
    · rw [if_neg (Fin.val_ne_of_ne hjk)]
      exact ih j (by simpa [hjk] using hj)
  exact hwires i (List.mem_finRange i)

namespace DataMemory

variable {n : ℕ} {dut dut' : Vgpu n}

/-- Everything but the ready bits is the same. -/
def SameButReady (dut dut' : Vgpu n) : Prop :=
  ∃ read_ready write_ready, dut' =
    { dut with data_mem_read_ready := read_ready, data_mem_write_ready := write_ready }

/-- Without requests, a call of `process` returns and leaves the memory alone. -/
theorem process_quiet (mem : DataMemory n)
    (hread : ∀ i : Fin n, testBit dut.data_mem_read_valid i = false)
    (hwrite : ∀ i : Fin n, testBit dut.data_mem_write_valid i = false) :
    ∃ dut', mem.process dut = some (mem, dut') := by
  have hstart : SameButReady dut dut := ⟨_, _, rfl⟩
  -- In both loops an iteration only clears the ready bit of its channel.
  obtain ⟨written, hwritten, hsame⟩ : ∃ written,
      (List.finRange n).foldl writeChannel (mem, dut) = (mem, written) ∧
        SameButReady dut written := by
    refine @Loop.foldl_done_induction _ _ writeChannel (mem, dut) [] (List.finRange n)
      (fun _ s => ∃ written, s = (mem, written) ∧ SameButReady dut written) ?_ ⟨_, rfl, hstart⟩
    rintro _ i _ ⟨_, rfl, read_ready, write_ready, rfl⟩
    unfold writeChannel
    simp only [hwrite i]
    exact ⟨_, rfl, _, _, rfl⟩
  obtain ⟨_, hloop, dut', rfl, -⟩ := @Loop.foldlM_total _ _ readChannel (mem, written) []
    (List.finRange n) (fun _ s => ∃ dut', s = (mem, dut') ∧ SameButReady dut dut') (by
      rintro _ i - _ ⟨_, rfl, read_ready, write_ready, rfl⟩
      unfold readChannel
      simp only [hread i]
      exact ⟨_, rfl, _, rfl, _, _, rfl⟩) ⟨_, rfl, hsame⟩
  refine ⟨dut', ?_⟩
  unfold process
  rw [hwritten]
  exact hloop

end DataMemory

/-! ## The loop over the cycles -/

namespace Simulation

variable {N W T n : ℕ} [NeZero N] [NeZero W] {config : KernelConfig}
  {s : Simulation N W T n}

/-- The GPU is not reset, is to start the kernel `config`, and asks for nothing but
instructions. -/
structure Simulating (config : KernelConfig) (s : Simulation N W T n) : Prop where
  /-- The GPU is stuck. -/
  stuck : WiredGpu.Stuck s.top.gpu
  /-- It is not reset. -/
  reset : s.top.reset = false
  /-- It is told to start. -/
  execution_start : s.top.execution_start = true
  /-- The kernel is the one that was loaded. -/
  kernel_config : s.top.kernel_config = config

/-- The kernel `config` is running. -/
structure Running (config : KernelConfig) (s : Simulation N W T n) : Prop
    extends Simulating config s where
  /-- The GPU has started. -/
  start_execution : s.top.gpu.gpu.cluster.start_execution = true
  /-- The GPU has the configuration. -/
  kernel_config_reg : s.top.gpu.gpu.cluster.kernel_config_reg = config

omit [NeZero W] in
/-- The memories serve a GPU that asks for no data. -/
theorem Simulating.serve (hn : n ≤ 8) (h : Simulating config s) :
    ∃ s', s.serve = some s' ∧ s'.data_mem = s.data_mem ∧ s'.top.gpu = s.top.gpu ∧
      Simulating config s' := by
  have hquiet : s.top.gpu.gpu.data_memory_controller = MemController.resetState :=
    h.stuck.controller
  have hread (i : Fin n) : testBit s.top.eval.data.data_mem_read_valid i = false := by
    refine (testBit_wires hn _ i).trans ?_
    rw [hquiet]
    rfl
  have hwrite (i : Fin n) : testBit s.top.eval.data.data_mem_write_valid i = false := by
    refine (testBit_wires hn _ i).trans ?_
    rw [hquiet]
    rfl
  obtain ⟨dut, hdata⟩ := DataMemory.process_quiet s.data_mem hread hwrite
  unfold Simulation.serve
  dsimp only
  rw [hdata]
  exact ⟨_, rfl, rfl, rfl, h.stuck, h.reset, h.execution_start, h.kernel_config⟩

/-- A cycle returns, leaves the data memory alone, and starts the kernel if none is running. The
kernel is done if it is running and has no blocks. -/
theorem Simulating.cycle (life : Lifetime) (hn : n ≤ 8) (h : Simulating config s) :
    ∃ s', s.cycle life = some s' ∧ s'.data_mem = s.data_mem ∧ Simulating config s' ∧
      s'.top.gpu.gpu.cluster.start_execution = true ∧
      s'.top.gpu.gpu.cluster.kernel_config_reg =
        (if s.top.gpu.gpu.cluster.start_execution then s.top.gpu.gpu.cluster.kernel_config_reg
          else config) ∧
      s'.top.gpu.execution_done =
        if s.top.gpu.gpu.cluster.start_execution = true ∧
          0 = s.top.gpu.gpu.cluster.kernel_config_reg.num_blocks then true
        else s.top.gpu.execution_done := by
  -- The memories are served first, and the data memory has nothing to do. Then the GPU takes an
  -- edge.
  obtain ⟨served, hserve, hdata, hgpu, hs⟩ := h.serve hn
  have hcycle : s.cycle life = some { served with top := tick life served.top } := by
    unfold Simulation.cycle
    rw [hserve]
    rfl
  have hreset : served.top.gpuPorts.reset = false := hs.reset
  obtain ⟨hstart, hreg⟩ := WiredGpu.start_step life served.top.gpu hreset
    hs.execution_start
  have hconfig : served.top.gpuPorts.kernel_config = config := hs.kernel_config
  refine ⟨_, hcycle, hdata, ⟨hs.stuck.step, hs.reset, hs.execution_start, hs.kernel_config⟩, hstart,
    ?_, ?_⟩
  · rw [← hgpu, ← hconfig]
    exact hreg
  · rw [← hgpu]
    exact hs.stuck.execution_done_step hreset

/-- A kernel that is running is done at once if it has no blocks, and never otherwise. -/
theorem Running.cycle (life : Lifetime) (hn : n ≤ 8) (h : Running config s) :
    ∃ s', s.cycle life = some s' ∧ s'.data_mem = s.data_mem ∧ Running config s' ∧
      s'.top.gpu.execution_done =
        if 0 = config.num_blocks then true else s.top.gpu.execution_done := by
  obtain ⟨s', hcycle, hdata, hs', hstart, hreg, hdone⟩ := h.toSimulating.cycle life hn
  rw [if_pos h.start_execution, h.kernel_config_reg] at hreg
  rw [h.start_execution, h.kernel_config_reg] at hdone
  exact ⟨s', hcycle, hdata, ⟨hs', hstart, hreg⟩, by simpa using hdone⟩

/-- A running kernel that has blocks is not done in any number of cycles. -/
theorem Running.loop (life : Lifetime) (hn : n ≤ 8) (hblocks : config.num_blocks ≠ 0)
    (h : Running config s) (hdone : s.top.gpu.execution_done = false) (cycles : ℕ) :
    ∃ s', Simulation.loop life cycles s = some (false, s') ∧ s'.data_mem = s.data_mem := by
  induction cycles generalizing s with
  | zero => exact ⟨s, rfl, rfl⟩
  | succ cycles ih =>
    obtain ⟨mid, hcycle, hdata, hmid, hmidDone⟩ := h.cycle life hn
    rw [if_neg hblocks.symm, hdone] at hmidDone
    obtain ⟨s', hloop, hdata'⟩ := ih hmid hmidDone
    refine ⟨s', ?_, hdata'.trans hdata⟩
    unfold Simulation.loop
    rw [if_neg (by simp [hdone]), hcycle]
    exact hloop

/-- A running kernel without blocks is done after one cycle. -/
theorem Running.loop_of_no_blocks (life : Lifetime) (hn : n ≤ 8) (hblocks : config.num_blocks = 0)
    (h : Running config s) (hdone : s.top.gpu.execution_done = false) (cycles : ℕ) :
    ∃ s', Simulation.loop life cycles s = some (decide (2 ≤ cycles), s') ∧
      s'.data_mem = s.data_mem := by
  obtain ⟨mid, hcycle, hdata, hmid, hmidDone⟩ := h.cycle life hn
  rw [if_pos hblocks.symm] at hmidDone
  match cycles with
  | 0 => exact ⟨s, rfl, rfl⟩
  | 1 =>
    refine ⟨mid, ?_, hdata⟩
    unfold Simulation.loop
    rw [if_neg (by simp [hdone]), hcycle]
    rfl
  | cycles + 2 =>
    refine ⟨mid, ?_, hdata⟩
    unfold Simulation.loop
    rw [if_neg (by simp [hdone]), hcycle]
    unfold Simulation.loop
    simp [hmidDone]

end Simulation

/-- The simulation of a kernel, from the start of the program on, returns. It returns `true` if and
only if the kernel has no blocks and there are at least three cycles, and it leaves the data memory
as it was. -/
theorem simulate_eq {N W T n : ℕ} [NeZero N] [NeZero W] (life : Lifetime) (hn : n ≤ 8)
    (base_instructions_address base_data_address num_blocks num_warps_per_block : IData)
    (instruction_mem : InstructionMemory) (data_mem : DataMemory n) (max_num_cycles : IData) :
    ∃ s' : Simulation N W T n, simulate life
        ⟨setKernelConfig Top.init base_instructions_address base_data_address num_blocks
          num_warps_per_block, instruction_mem, data_mem⟩ max_num_cycles =
        some (decide (num_blocks = 0 ∧ 3 ≤ max_num_cycles.toNat), s') ∧
      s'.data_mem = data_mem := by
  let config : KernelConfig :=
    ⟨base_instructions_address, base_data_address, num_blocks, num_warps_per_block⟩
  let s : Simulation N W T n :=
    ⟨{ Top.init with execution_start := true, kernel_config := config }, instruction_mem, data_mem⟩
  have hs : Simulation.Simulating config s := ⟨WiredGpu.stuck_powerUp, rfl, rfl, rfl⟩
  show ∃ s', Simulation.loop life max_num_cycles.toNat s = some (_, s') ∧ _
  -- The first cycle starts the kernel.
  obtain ⟨mid, hcycle, hdata, hmid, hstart, hreg, hdone⟩ := hs.cycle life hn
  have hrunning : Simulation.Running config mid := ⟨hmid, hstart, hreg⟩
  have hnot : mid.top.gpu.execution_done = false := hdone
  rcases max_num_cycles.toNat with _ | cycles
  · exact ⟨s, by simp [Simulation.loop], rfl⟩
  have hloop : Simulation.loop life (cycles + 1) s = Simulation.loop life cycles mid := by
    have hidle : ¬s.top.gpu.execution_done = true := Bool.false_ne_true
    rw [Simulation.loop, if_neg hidle, hcycle]
    rfl
  rw [hloop]
  by_cases hblocks : num_blocks = 0
  · obtain ⟨s', hs', hdata'⟩ :=
      hrunning.loop_of_no_blocks life hn hblocks hnot cycles
    have hcycles : num_blocks = 0 ∧ 3 ≤ cycles + 1 ↔ 2 ≤ cycles := by
      rw [and_iff_right hblocks]
      omega
    refine ⟨s', ?_, hdata'.trans hdata⟩
    rw [hs', decide_eq_decide.mpr hcycles]
  · obtain ⟨s', hs', hdata'⟩ := hrunning.loop life hn hblocks hnot cycles
    refine ⟨s', ?_, hdata'.trans hdata⟩
    rw [hs', decide_eq_false fun h => hblocks h.1]

/-! ## From a source file -/

/-- The parameters with which `gpu` is simulated. -/
def NUM_CORES : ℕ := 2

/-- The parameter that the simulator is built with. -/
def WARPS_PER_CORE : ℕ := 2

/-- The parameter that the simulator is built with. -/
def THREADS_PER_WARP : ℕ := 32

/-- There is a core. -/
instance : NeZero NUM_CORES := ⟨by decide⟩

/-- There is a warp. -/
instance : NeZero WARPS_PER_CORE := ⟨by decide⟩

/-- `num_channels` of `main`. -/
def num_channels : ℕ := 8

/-- How the simulator ends. -/
inductive Ending
  | failedToReadData (error : String)
  | parseErrors (errors : List Error)
  /-- An assertion or an exception of the emitter. -/
  | translationFailed (failure : Failure)
  | unfinished
  /-- `print_memory`. -/
  | finished (memory : IData → Option IData)

/-- `main`, on the lines of the source file and of the data file, if there is one. -/
def main (life : Lifetime) (input_file : List (List Char)) (data_file : Option (List (List Char))) :
    Option Ending :=
  match data_file.mapM As.DataReader.readData with
  | .error error => some (.failedToReadData error)
  | .ok data => (As.parseProgram input_file).bind fun program_or_err =>
    match program_or_err with
    | .error errors => some (.parseErrors errors)
    | .ok program =>
      match As.translateToBinary program with
      | .error failure => some (.translationFailed failure)
      | .ok machine_code =>
        -- The 32-bit index of the loop over the machine code wraps around before it gets there.
        if 2 ^ 32 ≤ machine_code.length then none
        else
          let top : Top NUM_CORES WARPS_PER_CORE THREADS_PER_WARP num_channels :=
            setKernelConfig Top.init 0 0 program.blocks program.warps
          (simulate life
              { top
                instruction_mem := InstructionMemory.make.load machine_code
                data_mem := DataMemory.make (data.getD fun _ => none) } 200).map
            fun (finished, s) => if finished then .finished s.data_mem.memory else .unfinished

/-- The number of a `.blocks` directive is not zero. -/
theorem blocksOf_ne_zero {line : List Char} {number : IData}
    (h : As.blocksOf line = some number) : number ≠ 0 := by
  unfold As.blocksOf As.lineOf at h
  by_cases htokens : As.lineTokens line = []
  · simp [htokens] at h
  rw [if_neg htokens] at h
  cases hparse : As.parseLine (As.lineTokens line) with
  | error errors => simp [hparse] at h
  | ok val =>
    cases val with
    | blocksDirective number' =>
      -- The only kind of line with a number of blocks.
      have hnumber : number' = number := by simpa [hparse] using h
      have hform := As.parseLine_ok htokens hparse
      generalize (As.lineTokens line).map As.Token.token_type = types at hform
      cases hform with
      | blocks _ hpos =>
        rintro rfl
        rw [hnumber] at hpos
        exact absurd hpos (by decide)
    | _ => simp [hparse] at h

/-- An accepted program has blocks. -/
theorem blocks_ne_zero {lines : List (List Char)} {program : As.Program}
    (h : As.parseProgram lines = some (.ok program)) : program.blocks ≠ 0 := by
  rw [(As.parseProgram_ok h).2.2.blocks]
  cases hblocks : (lines.filterMap As.blocksOf).head? with
  | none => simp
  | some number =>
    obtain ⟨line, -, hline⟩ := List.mem_filterMap.mp (List.mem_of_mem_head? hblocks)
    exact blocksOf_ne_zero hline

/-- The data file can be read, if there is one. -/
theorem readData_ok_iff (data_file : Option (List (List Char))) :
    (∃ data, data_file.mapM As.DataReader.readData = .ok data) ↔
      ∀ file ∈ data_file, ∃ memory, As.DataReader.readData file = .ok memory := by
  cases data_file with
  | none => exact iff_of_true ⟨none, rfl⟩ (by simp)
  | some file =>
    show (∃ data, Except.map some (As.DataReader.readData file) = .ok data) ↔ _
    cases hfile : As.DataReader.readData file with
    | error error =>
      refine iff_of_false (fun ⟨_, h⟩ => nomatch h) fun h => ?_
      obtain ⟨memory, hmemory⟩ := h file rfl
      exact nomatch hfile.symm.trans hmemory
    | ok memory =>
      refine iff_of_true ⟨some memory, rfl⟩ fun file' h => ?_
      obtain rfl := Option.some.inj h
      exact ⟨memory, hfile⟩

/-- The simulator never prints the data memory. For every source file that is accepted and
translated, with every data file that can be read, it says that the simulation did not finish. -/
theorem simulator_never_finishes (life : Lifetime) (input_file : List (List Char))
    (data_file : Option (List (List Char))) :
    (∀ memory, main life input_file data_file ≠ some (.finished memory)) ∧
      (main life input_file data_file = some .unfinished ↔
        (∀ file ∈ data_file, ∃ memory, As.DataReader.readData file = .ok memory) ∧
          ∃ program machine_code, As.parseProgram input_file = some (.ok program) ∧
            As.translateToBinary program = .ok machine_code ∧ machine_code.length < 2 ^ 32) := by
  rw [← readData_ok_iff]
  unfold main
  cases hdata : data_file.mapM As.DataReader.readData with
  | error error => simp
  | ok data =>
    simp only
    cases hparse : As.parseProgram input_file with
    | none => simp
    | some program_or_err =>
      cases program_or_err with
      | error errors => simp
      | ok program =>
        simp only [Option.bind_some]
        cases hcode : As.translateToBinary program with
        | error failure => simp [hcode]
        | ok machine_code =>
          simp only
          by_cases hlong : 2 ^ 32 ≤ machine_code.length
          · rw [if_pos hlong]
            refine ⟨by simp, iff_of_false (by simp) ?_⟩
            rintro ⟨-, program', machine_code', hprogram, hcode', hshort⟩
            obtain rfl : program = program' := by simpa using hprogram
            obtain rfl : machine_code = machine_code' := by simpa [hcode] using hcode'
            omega
          · -- The program has blocks, and so the simulation does not finish.
            obtain ⟨s', hs', -⟩ := simulate_eq (N := NUM_CORES) (W := WARPS_PER_CORE)
              (T := THREADS_PER_WARP) (n := num_channels) life (le_refl 8) 0 0
              program.blocks program.warps (InstructionMemory.make.load machine_code)
              (DataMemory.make (data.getD fun _ => none)) 200
            rw [if_neg hlong, hs', decide_eq_false fun h => blocks_ne_zero hparse h.1]
            exact ⟨by simp, iff_of_true rfl
              ⟨⟨data, rfl⟩, program, machine_code, rfl, hcode, by omega⟩⟩

end SmolGpu.Sim
