import SmolGpu.ComputeCore.Step
import SmolGpu.Fetcher
import SmolGpu.Library.Clocked
import Mathlib.Tactic.IntervalCases

/-!
# The core with its fetchers

`FetchingCore` is `compute_core.sv` as it stands, with the fetchers that `g_warp` instantiates. The
core keeps a register `fetcher_state_in`, one entry for each warp, and wires it to the port of the
same name of that warp's fetcher; the port `fetcher_state_out` is left unconnected. The register is
assigned at reset and at the start, with `FETCHER_IDLE`, and nowhere else.

So a fetcher is told at every edge that it is idle, and raises its request again at every edge. It
never looks at the answer, and its warp never leaves `WARP_FETCH` (`fetch_never_completes`).
-/

namespace SmolGpu

/-- The inputs of `compute_core`. -/
structure CorePorts (W T : ℕ) where
  reset : Bool
  start : Bool
  block_id : DataT
  kernel_config : KernelConfig
  instruction_mem_read_ready : Fin W → Bool
  instruction_mem_read_data : Fin W → InstructionT
  data_mem_read_ready : Fin (T + 1) → Bool
  data_mem_read_data : Fin (T + 1) → DataT
  data_mem_write_ready : Fin (T + 1) → Bool

/-- The registers of `compute_core` and of all its instances. -/
structure FetchingCore (W T : ℕ) where
  core : ComputeCore W T
  fetcher_state_in : Fin W → FetcherState
  fetcher : Fin W → Fetcher

namespace FetchingCore

variable {W T : ℕ}

/-- `fetched_instruction`, the instruction registers of the fetchers. -/
def fetched_instruction (s : FetchingCore W T) (w : Fin W) : InstructionT :=
  (s.fetcher w).instruction

/-- `instruction_mem_read_valid`, the request wires of the fetchers. -/
def instruction_mem_read_valid (s : FetchingCore W T) (w : Fin W) : Bool :=
  (s.fetcher w).instruction_mem_read_valid

/-- What the rest of the core samples at an edge. -/
def coreIn (s : FetchingCore W T) (inp : CorePorts W T) : CoreIn W T where
  reset := inp.reset
  start := inp.start
  block_id := inp.block_id
  kernel_config := inp.kernel_config
  fetcher_state_in := s.fetcher_state_in
  fetched_instruction := s.fetched_instruction
  data_mem_read_ready := inp.data_mem_read_ready
  data_mem_read_data := inp.data_mem_read_data
  data_mem_write_ready := inp.data_mem_write_ready

/-- The inputs of the fetcher of warp `w`. -/
def fetcherIn (s : FetchingCore W T) (inp : CorePorts W T) (w : Fin W) : FetcherIn where
  reset := inp.reset
  warp_state := s.core.warp_state w
  pc := s.core.pc w
  instruction_mem_read_ready := inp.instruction_mem_read_ready w
  instruction_mem_read_data := inp.instruction_mem_read_data w
  fetcher_state_in := s.fetcher_state_in w

/-- The assignments of the core's always block to `fetcher_state_in`. -/
def nextFetcherStateIn (s : FetchingCore W T) (inp : CorePorts W T) : Fin W → FetcherState :=
  if inp.reset then fun _ => .idle
  else if !s.core.start_execution && inp.start then fun _ => .idle
  else s.fetcher_state_in

end FetchingCore

/-- One clock edge of a core with its fetchers. -/
def fetchingCoreStep {W T : ℕ} [NeZero W] (life : Lifetime) (inp : CorePorts W T)
    (s : FetchingCore W T) : FetchingCore W T where
  core := coreStep life (s.coreIn inp) s.core
  fetcher_state_in := s.nextFetcherStateIn inp
  fetcher := fun w => fetcherStep (s.fetcherIn inp w) (s.fetcher w)

namespace FetchingCore

variable {W T : ℕ} [NeZero W] {life : Lifetime} {inp : CorePorts W T} {s : FetchingCore W T}

/-- The state after a clock edge with reset high, whatever the core held before. -/
def AfterReset (life : Lifetime) (s : FetchingCore W T) : Prop :=
  ∃ inp s₀, inp.reset = true ∧ s = fetchingCoreStep life inp s₀

/-- What holds of a core between any two edges after a reset: the fetchers are told that they are
idle, and no warp has got past `WARP_FETCH`. -/
structure Hung (s : FetchingCore W T) : Prop where
  /-- No fetcher is seen at work. -/
  fetcher_idle : ∀ w, s.fetcher_state_in w = .idle
  /-- No warp has fetched. -/
  not_fetched : ∀ w, s.core.warp_state w = .idle ∨ s.core.warp_state w = .fetch

omit [NeZero W] in
/-- The next edge, too, tells every fetcher that it is idle. -/
theorem Hung.nextFetcherStateIn (h : Hung s) (w : Fin W) : s.nextFetcherStateIn inp w = .idle := by
  unfold FetchingCore.nextFetcherStateIn
  split_ifs
  · rfl
  · rfl
  · exact h.fetcher_idle w

/-- A running edge moves no warp, since no fetcher is seen to be done. -/
theorem Hung.warp_state (h : Hung s) (hr : inp.reset = false)
    (hs : s.core.start_execution = true) (w : Fin W) :
    (fetchingCoreStep life inp s).core.warp_state w = s.core.warp_state w := by
  have hrun : ComputeCore.Running (s.coreIn inp) s.core := ⟨hr, hs⟩
  have hfetched (v : Fin W) : s.core.fetched (s.coreIn inp) v = s.core.warp_state v := by
    have hidle : (s.coreIn inp).fetcher_state_in v = .idle := h.fetcher_idle v
    simp [ComputeCore.fetched, hidle]
  show (coreStep life (s.coreIn inp) s.core).warp_state w = _
  rw [ComputeCore.step_warp_state hrun]
  split_ifs with hw
  · subst hw
    unfold ComputeCore.currentNext
    rcases h.not_fetched s.core.current_warp with hst | hst <;>
      simp [ComputeCore.current_warp_state, hst, hfetched]
  · exact hfetched w

/-- A reset leaves the core hung. -/
theorem Hung.of_reset (hr : inp.reset = true) : Hung (fetchingCoreStep life inp s) := by
  have hcore : (s.coreIn inp).reset = true := hr
  refine ⟨fun w => ?_, fun w => .inl ?_⟩
  · simp [fetchingCoreStep, FetchingCore.nextFetcherStateIn, hr]
  · exact (ComputeCore.step_reset (s := s.core) hcore).2.2.2 w

/-- A hung core stays hung. -/
theorem Hung.step (h : Hung s) : Hung (fetchingCoreStep life inp s) := by
  cases hr : inp.reset
  · refine ⟨h.nextFetcherStateIn, fun w => ?_⟩
    cases hs : s.core.start_execution
    · cases hst : inp.start
      · -- The core waits for `start`, and keeps its warps where they are.
        have hkeep : s.core.alwaysBlock life (s.coreIn inp) = s.core :=
          ComputeCore.step_not_started hr hs hst
        show (s.core.alwaysBlock life (s.coreIn inp)).warp_state w = _ ∨
          (s.core.alwaysBlock life (s.coreIn inp)).warp_state w = _
        rw [hkeep]
        exact h.not_fetched w
      · -- The start sends every warp to `WARP_FETCH`.
        right
        show (s.core.alwaysBlock life (s.coreIn inp)).warp_state w = _
        rw [ComputeCore.step_start hr hs hst]
    · rw [h.warp_state hr hs]
      exact h.not_fetched w
  · exact .of_reset hr

/-- Every reachable core is hung. -/
theorem Hung.of_reachable (h : Clocked.Reachable (fetchingCoreStep life) (AfterReset life) s) :
    Hung s :=
  h.invariant (fun _ ⟨_, _, hr, hs⟩ => hs ▸ .of_reset hr) fun _ _ hi => hi.step

/-- A warp that is fetching keeps fetching, with its request up, at every edge with reset low. -/
theorem Hung.fetching (h : Hung s) (hr : inp.reset = false) {w : Fin W}
    (hw : s.core.warp_state w = .fetch) :
    (fetchingCoreStep life inp s).core.warp_state w = .fetch ∧
      (fetchingCoreStep life inp s).instruction_mem_read_valid w = true := by
  constructor
  · cases hs : s.core.start_execution
    · show (s.core.alwaysBlock life (s.coreIn inp)).warp_state w = _
      cases hst : inp.start
      · rw [ComputeCore.step_not_started hr hs hst, hw]
      · rw [ComputeCore.step_start hr hs hst]
    · rw [h.warp_state hr hs, hw]
  · -- A fetcher that is told that it is idle raises its request, whatever it was about to do.
    show (fetcherStep (s.fetcherIn inp w) (s.fetcher w)).instruction_mem_read_valid = true
    have hidle : (s.fetcherIn inp w).fetcher_state_in = .idle := h.fetcher_idle w
    have hfetch : (s.fetcherIn inp w).warp_state = .fetch := hw
    have hreset : (s.fetcherIn inp w).reset = false := hr
    simp [fetcherStep, hreset, hidle, hfetch]

/-- The registers when the simulator starts. -/
def powerUp : FetchingCore W T where
  core := ComputeCore.powerUp
  fetcher_state_in := fun _ => .idle
  fetcher := fun _ => ⟨false, 0, .idle, 0⟩

/-- Ports with `start` up and the instruction memory answering every warp with `d`. -/
def answeringPorts (reset : Bool) (d : InstructionT) : CorePorts W T where
  reset := reset
  start := true
  block_id := 0
  kernel_config := ⟨0, 0, 1, 1⟩
  instruction_mem_read_ready := fun _ => true
  instruction_mem_read_data := fun _ => d
  data_mem_read_ready := fun _ => false
  data_mem_read_data := fun _ => 0
  data_mem_write_ready := fun _ => false

/-- A core of one warp and one thread two edges after its reset: started, and with its first fetch
requested. -/
def fetchingExample : FetchingCore 1 1 :=
  fetchingCoreStep .automatic (answeringPorts false 127)
    (fetchingCoreStep .automatic (answeringPorts false 127)
      (fetchingCoreStep .automatic (answeringPorts true 127) powerUp))

/-- The state of the example is reachable. -/
theorem fetchingExample_reachable :
    Clocked.Reachable (fetchingCoreStep .automatic) (AfterReset .automatic) fetchingExample :=
  .step _ (.step _ (.init ⟨answeringPorts true 127, powerUp, rfl, rfl⟩))

/-- The fetch of warp `w` completes within three edges of edge `t`: the warp is in `WARP_DECODE`
with `d` as its instruction, and its request is down again. -/
def FetchCompletes (run : ℕ → FetchingCore W T) (w : Fin W) (t : ℕ) (d : InstructionT) : Prop :=
  ∃ k ≤ 3, (run (t + k)).core.warp_state w = .decode ∧ (run (t + k)).fetched_instruction w = d ∧
    (run (t + k)).instruction_mem_read_valid w = false

/-- The instruction memory answers warp `w` with `d` from edge `t` on, for as long as the request is
up. -/
def MemoryAnswers (run : ℕ → FetchingCore W T) (inp : ℕ → CorePorts W T) (w : Fin W) (t : ℕ)
    (d : InstructionT) : Prop :=
  ∀ n, t ≤ n → (run n).instruction_mem_read_valid w = true →
    (inp n).instruction_mem_read_ready w = true ∧ (inp n).instruction_mem_read_data w = d

end FetchingCore

open FetchingCore in
/-- No fetch completes. In no state that a core reaches after a reset, for no warp that is fetching
with its request up, and for no answer of the instruction memory, given at any edge `t` and held
until the request is withdrawn, does the fetch complete. -/
theorem fetch_never_completes {W T : ℕ} [NeZero W] (life : Lifetime) {s : FetchingCore W T}
    (h : Clocked.Reachable (fetchingCoreStep life) (AfterReset life) s) {w : Fin W}
    (hw : s.core.warp_state w = .fetch) (_hvalid : s.instruction_mem_read_valid w = true)
    (inp : ℕ → CorePorts W T) (hr : ∀ n, (inp n).reset = false) (t : ℕ) (d : InstructionT)
    (_hmem : MemoryAnswers (Clocked.run (fetchingCoreStep life) inp s) inp w t d) :
    ¬FetchCompletes (Clocked.run (fetchingCoreStep life) inp s) w t d := by
  have hrun (n : ℕ) :
      (Clocked.run (fetchingCoreStep life) inp s n).core.warp_state w = .fetch := by
    induction n with
    | zero => exact hw
    | succ n ih => exact ((Hung.of_reachable (h.run inp n)).fetching (hr n) ih).1
  rintro ⟨k, -, hdec, -⟩
  rw [hrun] at hdec
  cases hdec

open FetchingCore in
/-- One such fetch: the memory answers at once, with a halt. -/
theorem fetch_never_completes_halt :
    ¬FetchCompletes (Clocked.run (fetchingCoreStep .automatic) (fun _ => answeringPorts false 127)
      fetchingExample) 0 0 127 :=
  fetch_never_completes .automatic fetchingExample_reachable rfl rfl _ (fun _ => rfl) 0 127
    fun _ _ _ => ⟨rfl, rfl⟩

open FetchingCore in
/-- The first fetch of a core of one warp and one thread: the warp is fetching with its request up,
the memory answers at once and keeps its answer, and three edges later the warp is fetching
still. -/
theorem first_fetch_hangs :
    Clocked.Reachable (fetchingCoreStep .automatic) (AfterReset .automatic) fetchingExample ∧
      fetchingExample.core.warp_state 0 = .fetch ∧
      fetchingExample.instruction_mem_read_valid 0 = true ∧
      MemoryAnswers (Clocked.run (fetchingCoreStep .automatic) (fun _ => answeringPorts false 127)
        fetchingExample) (fun _ => answeringPorts false 127) 0 0 127 ∧
      ¬FetchCompletes (Clocked.run (fetchingCoreStep .automatic)
        (fun _ => answeringPorts false 127) fetchingExample) 0 0 127 := by
  refine ⟨fetchingExample_reachable, rfl, rfl, fun _ _ _ => ⟨rfl, rfl⟩, ?_⟩
  rintro ⟨k, hk, hdec, -⟩
  interval_cases k <;> exact absurd hdec (by decide)

end SmolGpu
