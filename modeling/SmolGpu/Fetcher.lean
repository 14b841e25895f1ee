import SmolGpu.Common

/-!
# The instruction fetcher

`src/fetcher.sv`: one fetcher for each warp. The state it acts on is its input `fetcher_state_in`;
the state it computes is its output `fetcher_state_out`, a register of its own.
-/

namespace SmolGpu

/-- The input ports of `fetcher`. -/
structure FetcherIn where
  reset : Bool
  warp_state : WarpState
  pc : InstructionMemoryAddressT
  instruction_mem_read_ready : Bool
  instruction_mem_read_data : InstructionT
  fetcher_state_in : FetcherState

/-- The registers of `fetcher`. -/
structure Fetcher where
  instruction_mem_read_valid : Bool
  instruction_mem_read_address : InstructionMemoryAddressT
  fetcher_state_out : FetcherState
  instruction : InstructionT
  deriving DecidableEq, Repr

/-- The always block of `fetcher.sv`. -/
def fetcherStep (i : FetcherIn) (s : Fetcher) : Fetcher :=
  if i.reset then
    { fetcher_state_out := .idle
      instruction_mem_read_valid := false
      instruction_mem_read_address := 0
      instruction := 0 }
  else
    match i.fetcher_state_in with
    | .idle =>
      if i.warp_state = .fetch then
        { s with
          fetcher_state_out := .fetching
          instruction_mem_read_valid := true
          instruction_mem_read_address := i.pc }
      else s
    | .fetching =>
      if i.instruction_mem_read_ready then
        { s with
          fetcher_state_out := .done
          instruction_mem_read_valid := false
          instruction := i.instruction_mem_read_data }
      else s
    | .done => if i.warp_state = .decode then { s with fetcher_state_out := .idle } else s

end SmolGpu
