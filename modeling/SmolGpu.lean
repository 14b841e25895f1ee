import SmolGpu.Library.Clocked
import SmolGpu.Library.Loop
import SmolGpu.Comparisons
import SmolGpu.ArithmeticShifts
import SmolGpu.Fetcher
import SmolGpu.Sim.DataMemory
import SmolGpu.Sim.Jumps
import SmolGpu.ComputeCore.Exclusive
import SmolGpu.ComputeCore.Wait
import SmolGpu.ComputeCore.Bypass
import SmolGpu.ComputeCore.PcRelative
import SmolGpu.ComputeCore.Undecodable
import SmolGpu.ComputeCore.Fetch
import SmolGpu.ComputeCore.Gather
import SmolGpu.ComputeCore.Timing
import SmolGpu.ComputeCore.Isolation
import SmolGpu.ComputeCore.WarpCount
import SmolGpu.MemController.Arbitration
import SmolGpu.Gpu.Handshake
import SmolGpu.Gpu.Wired
import SmolGpu.As.Immediates
import SmolGpu.As.Decoding
import SmolGpu.As.Lines
import SmolGpu.As.Numbers
import SmolGpu.As.Keywords
import SmolGpu.As.Lexemes
import SmolGpu.As.LabelReferences
import SmolGpu.As.Printing
import SmolGpu.As.JumpRegisters
import SmolGpu.Grid.Assembly
import SmolGpu.As.DataReader
import SmolGpu.As.Columns
import SmolGpu.Sim.Kernel
import SmolGpu.Dispatcher.SpecialRegisters
