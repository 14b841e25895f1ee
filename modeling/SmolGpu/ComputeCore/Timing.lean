import SmolGpu.ComputeCore.Tracks

/-!
# Timing independence

A core that runs a kernel without races does the same for every timing of its fetches and of its
data memory: `core_timing_independent`. No two runs are compared edge by edge. In each of them every
warp does what it does on its own (`Tracks.run`), where there is no timing, and a warp on its own
stops after one number of instructions.
-/

namespace SmolGpu

open SharedMemory (RaceFree)

namespace CoreSystem

variable {W T : ℕ} [NeZero W] {life : Lifetime} {K : Kernel} {mem : DataMemoryAddressT → DataT}
  {c : ComputeCore W T}

/-- A reset puts the registers where a warp on its own starts. -/
theorem AfterReset.registers (h : AfterReset life K c) (w : Fin W) :
    (c.scalar_reg_file w).registers = (soloAt K mem w 0 : Solo T).arch.scalar ∧
      ∀ i, (c.reg_file w i).registers = (soloAt K mem w 0 : Solo T).arch.vector i := by
  obtain ⟨inp, c₀, hr, hconfig, hblock, rfl⟩ := h
  have hscalar : (c₀.scalarRegFileIn inp w).reset = true := hr
  refine ⟨congrArg ScalarRegFile.registers (if_pos hscalar), fun i => ?_⟩
  have hvector : (c₀.regFileIn inp w i).reset = true := hr
  refine (congrArg RegFile.registers (if_pos hvector)).trans ?_
  simp only [soloAt, Solo.after, Solo.start, ← hconfig, ← hblock]
  rfl

/-- A system that has been reset has every warp at its first instruction. -/
theorem AfterReset.tracks (h : AfterReset life K c) :
    Tracks K mem (init c mem) [] (fun _ => []) fun _ => 0 := by
  have hregs (w : Fin W) : (c.scalar_reg_file w).registers =
        (soloAt K mem w 0 : Solo T).arch.scalar ∧
      ∀ i, (c.reg_file w i).registers = (soloAt K mem w 0 : Solo T).arch.vector i := h.registers w
  obtain ⟨inp, c₀, hr, -, -, rfl⟩ := h
  have hstart : (coreStep life inp c₀).start_execution = false := (ComputeCore.step_reset hr).1
  have hidle (w : Fin W) : (coreStep life inp c₀).warp_state w = .idle :=
    (ComputeCore.step_reset hr).2.2.2 w
  have hcore : ComputeCore.Invariant (coreStep life inp c₀) := .of_reset hr
  -- No warp has finished an instruction, so every warp has its registers of the reset.
  refine ⟨⟨hcore, .step (.inr hr), fun w i r _ => congrFun ((hregs w).2 i) r, rfl, fun _ _ => rfl⟩,
    fun _ _ => rfl, fun w => ?_, fun w _ => ⟨⟨fun h => ?_, (hregs w).1, fun i r _ => ?_⟩, ?_, rfl⟩,
    fun w p d _ _ _ hbusy => absurd (.inl (hidle _)) hbusy⟩
  · unfold Counts
    have hnot : (coreStep life inp c₀).warp_state w ≠ .done := by
      rw [hidle w]
      decide
    rw [show (init (coreStep life inp c₀) mem).core = coreStep life inp c₀ from rfl, if_neg hnot]
    exact fun j hj => absurd hj (Nat.not_lt_zero j)
  · exact absurd (hstart.symm.trans h) (by simp)
  · exact congrFun ((hregs w).2 i) r
  · exact fun _ => rfl

/-- In a run without races, in which no thread is masked off for an `sx`, every warp does what it
does on its own. -/
theorem Tracks.run (h₀ : AfterReset life K c) (t : ℕ → Timing W T) {n : ℕ}
    (hrace : RaceFree (history life K t (init c mem) n))
    (hsx : FullMaskSx life K t (init c mem) n) :
    ∃ k, Tracks K mem (run life K t (init c mem) n) (history life K t (init c mem) n)
      (fun w => executed life K t (init c mem) w n) k := by
  induction n with
  | zero => exact ⟨_, h₀.tracks⟩
  | succ n ih =>
    obtain ⟨k, hk⟩ := ih (hrace.mono fun _ he => List.mem_append_left _ he)
      fun m hm => hsx m (Nat.lt_succ_of_lt hm)
    obtain ⟨hserve, hcore⟩ := hk.serve (t n) hrace
    have hbegins (w : Fin W) : ((CoreSystem.run life K t (init c mem) n).serve (t n)).Begins w ↔
        (CoreSystem.run life K t (init c mem) n).Begins w := by
      unfold Begins
      rw [hcore]
    obtain ⟨k', hk'⟩ := hserve.clock life (t n) fun w hb => by
      rw [hcore]
      exact hsx n (Nat.lt_succ_self n) w ((hbegins w).mp hb)
    refine ⟨k', ?_⟩
    simp only [hbegins, hcore] at hk'
    exact hk'

omit [NeZero W] in
/-- What a finished run leaves of a warp is what the warp leaves on its own. -/
theorem Tracks.finished {s : CoreSystem W T}
    {h : List ((Fin W × Fin (T + 1)) × SharedMemory.Access DataMemoryAddressT DataT)}
    {begun : Fin W → List (InstructionMemoryAddressT × InstructionT)} {k : Fin W → ℕ}
    (ht : Tracks K mem s h begun k) (hdone : s.core.done = true) (w : Fin W) :
    soloStops T K mem w (k w) ∧ begun w = soloExecuted T K mem w (k w) ∧
      (s.core.scalar_reg_file w).registers = (soloAt K mem w (k w) : Solo T).arch.scalar ∧
      (∀ i, (s.core.reg_file w i).registers = (soloAt K mem w (k w) : Solo T).arch.vector i) ∧
      ∀ l, SharedMemory.own h (w, l) = (soloAt K mem w (k w) : Solo T).own l := by
  have hwarps := ht.sound.done.warps hdone
  obtain ⟨hholds, hown, hbegun⟩ := ht.resting w fun _ => .inr (.inr (.inr (hwarps _)))
  refine ⟨?_, hbegun, hholds.scalar, fun i => funext fun r => ?_, hown⟩
  · have hcount := ht.counts w
    unfold Counts at hcount
    rwa [if_pos (hwarps w)] at hcount
  · by_cases hr : 4 ≤ r
    · exact hholds.vector i r hr
    · rw [ht.sound.special w i r hr]
      exact (Solo.after_vector_of_lt hr i (k w)).symm

/-- An example kernel, in which every thread stores its id at an address of its own and loads it
back: `sw x1, 0(x1)`, then `lw x5, 0(x1)`, then a halt. -/
def storeLoad : Kernel where
  program := fun a => if a = 0 then 0x0010a023 else if a = 1 then 0x0000a283 else 127
  kernel_config := ⟨0, 0, 1, 2⟩
  block_id := 0

/-- An example timing for two warps of two threads: the fetches of warp `late` end at every 16th
edge and those of the other warp at every edge, and accesses are performed and answers come at every
`k`-th. -/
def everyNth (late : Fin 2) (k n : ℕ) : Timing 2 2 where
  start := true
  fetcher_state_in := fun w => if w = late ∧ ¬16 ∣ n then .idle else .done
  fetched_instruction := fun _ => 0
  serve := if k ∣ n then List.finRange 3 else []
  data_mem_read_ready := fun _ => k ∣ n
  data_mem_read_data := fun _ => 0
  data_mem_write_ready := fun _ => k ∣ n

/-- The inputs of the example kernel's core at its reset. -/
def storeLoadReset : CoreIn 2 2 where
  reset := true
  start := true
  block_id := 0
  kernel_config := ⟨0, 0, 1, 2⟩
  fetcher_state_in := fun _ => .idle
  fetched_instruction := fun _ => 0
  data_mem_read_ready := fun _ => false
  data_mem_read_data := fun _ => 0
  data_mem_write_ready := fun _ => false

end CoreSystem

open CoreSystem in
/-- Two runs of a kernel, each from a reset until the core is done, each without races and with no
thread masked off for an `sx`: whatever the timing of the fetches and of the data memory was, every
warp executed the same instructions, and the registers and the data memory are the same. -/
theorem core_timing_independent {W T : ℕ} [NeZero W] (life : Lifetime) (K : Kernel)
    (mem : DataMemoryAddressT → DataT) {c c' : ComputeCore W T} (h₀ : AfterReset life K c)
    (h₀' : AfterReset life K c') {t t' : ℕ → Timing W T} {n n' : ℕ}
    (hrace : RaceFree (history life K t (init c mem) n))
    (hrace' : RaceFree (history life K t' (init c' mem) n'))
    (hsx : FullMaskSx life K t (init c mem) n) (hsx' : FullMaskSx life K t' (init c' mem) n')
    (hdone : (run life K t (init c mem) n).core.done = true)
    (hdone' : (run life K t' (init c' mem) n').core.done = true) :
    (∀ w, executed life K t (init c mem) w n = executed life K t' (init c' mem) w n') ∧
      (∀ w, ((run life K t (init c mem) n).core.scalar_reg_file w).registers =
        ((run life K t' (init c' mem) n').core.scalar_reg_file w).registers) ∧
      (∀ w i, ((run life K t (init c mem) n).core.reg_file w i).registers =
        ((run life K t' (init c' mem) n').core.reg_file w i).registers) ∧
      (run life K t (init c mem) n).mem = (run life K t' (init c' mem) n').mem := by
  -- In each run every warp has finished some number of its own instructions,
  obtain ⟨k, hk⟩ := Tracks.run h₀ t hrace hsx
  obtain ⟨k', hk'⟩ := Tracks.run h₀' t' hrace' hsx'
  -- and this number is the one after which it halts.
  have hcount : k = k' := funext fun w => (hk.finished hdone w).1.unique (hk'.finished hdone' w).1
  subst hcount
  refine ⟨fun w => ?_, fun w => ?_, fun w i => ?_, ?_⟩
  · exact (hk.finished hdone w).2.1.trans (hk'.finished hdone' w).2.1.symm
  · exact (hk.finished hdone w).2.2.1.trans (hk'.finished hdone' w).2.2.1.symm
  · exact ((hk.finished hdone w).2.2.2.1 i).trans ((hk'.finished hdone' w).2.2.2.1 i).symm
  · -- Without races, the memory is decided by what each lane has stored last.
    rw [hk.sound.mem, hk'.sound.mem]
    refine hrace.after_congr hrace' (fun ⟨w, l⟩ => ?_) mem
    exact ((hk.finished hdone w).2.2.2.2 l).trans ((hk'.finished hdone' w).2.2.2.2 l).symm

open CoreSystem in
/-- The warps of the example kernel go to memory in another order when the other one is late and
memory is slower, and all threads end up with the same registers. -/
theorem core_timing_independent_storeLoad :
    (history .automatic storeLoad (everyNth 0 1)
        (init (coreStep .automatic storeLoadReset .powerUp) fun _ => 0) 64).map Prod.fst ≠
      (history .automatic storeLoad (everyNth 1 3)
        (init (coreStep .automatic storeLoadReset .powerUp) fun _ => 0) 64).map Prod.fst ∧
    ∀ w i,
      ((run .automatic storeLoad (everyNth 0 1)
        (init (coreStep .automatic storeLoadReset .powerUp) fun _ => 0) 64).core.reg_file
          w i).registers =
      ((run .automatic storeLoad (everyNth 1 3)
        (init (coreStep .automatic storeLoadReset .powerUp) fun _ => 0) 64).core.reg_file
          w i).registers :=
  have h₀ : AfterReset .automatic storeLoad (coreStep .automatic storeLoadReset .powerUp) :=
    ⟨storeLoadReset, .powerUp, rfl, rfl, rfl, rfl⟩
  ⟨by decide +kernel, (core_timing_independent .automatic storeLoad (fun _ => 0) h₀ h₀
    (by decide +kernel) (by decide +kernel) (by decide +kernel) (by decide +kernel)
    (by decide +kernel) (by decide +kernel)).2.2.1⟩

end SmolGpu
