import SmolGpu.As.Execution
import SmolGpu.Grid.Termination

/-!
# From assembly to memory

A source file that the parser accepts, assembled and run on the GPU: the data memory ends up with
what the lines ask for. The words of the machine code, the stages of the core, the dispatcher, the
memory controller, and their timing do not occur in what the lines mean.
-/

namespace SmolGpu

open Filter As Sim

namespace GpuSystem

/-- The first instruction of the example program. -/
def storeIdsSw : Instruction := ⟨none, ⟨.SW, false⟩, .stype ⟨⟨1, .VECTOR⟩, ⟨1, .VECTOR⟩, 32⟩⟩

/-- The machine code of the example does what its lines say. -/
theorem storeIds_preserved : Preserved storeIdsProgram storeIdsCode :=
  preserved_of_accepted storeIds_accepted rfl storeIds_faithful

/-- Every warp of the example starts in one state. -/
theorem storeIds_start {b : DataT} (hb : b < storeIdsProgram.blocks)
    (w : Fin storeIdsProgram.warps.toNat) : storeIdsProgram.start 2 b w = storeIdsWarp := by
  have hb : b = 0 := by
    have hlt : b < 1 := hb
    bv_omega
  have hw : w = ⟨0, by decide⟩ := by
    have hlt : (w : ℕ) < 1 := w.isLt
    apply Fin.ext
    show (w : ℕ) = 0
    omega
  rw [hb, hw]
  rfl

/-- After its store, the example's warp is at a `halt`. -/
theorem storeIds_halting : storeIdsProgram.Halting storeIdsStored :=
  storeIds_preserved.halting_iff.mpr (by decide +kernel)

/-- Behind its store the warp stays at the `halt`. -/
theorem storeIds_after (k : ℕ) :
    storeIdsWarp.after (fun _ => 0) (code storeIdsCode) (k + 1) = storeIdsStored := by
  induction k with
  | zero => rfl
  | succ k ih =>
    show (storeIdsWarp.after (fun _ => 0) (code storeIdsCode) (k + 1)).step _ _ = _
    rw [ih]
    exact storeIds_preserved.step_of_halting storeIds_halting

/-- A warp of the example meets its store and a `halt`. -/
theorem storeIds_meets {b : DataT} (hb : b < storeIdsProgram.blocks)
    {w : Fin storeIdsProgram.warps.toNat} {q : Solo 2} {i : Instruction}
    (h : storeIdsProgram.Meets (fun _ => 0) b w q i) :
    q = storeIdsWarp ∧ i = storeIdsSw ∨ i.mnemonic.name = .HALT := by
  obtain ⟨k, hk, hi⟩ := h
  rw [storeIds_start hb w] at hk
  obtain ⟨rfl, -⟩ := (storeIds_preserved.after_iff rfl).mp hk
  rcases k with _ | k
  · exact .inl ⟨rfl, (Option.some.inj hi).symm⟩
  · rw [storeIds_after] at hi
    obtain ⟨j, hj, hname⟩ := storeIds_halting
    rw [hj] at hi
    exact .inr (Option.some.inj hi ▸ hname)

/-- Every warp of the example halts. -/
theorem storeIds_halts : ∀ b < storeIdsProgram.blocks, ∀ w,
    ∃ q : Solo 2, storeIdsProgram.Halts (fun _ => 0) b w q := by
  intro b hb w
  refine ⟨storeIdsStored, 1, ?_⟩
  rw [storeIds_start hb w, storeIds_preserved.haltsAt_iff rfl]
  exact ⟨⟨1, rfl, by decide +kernel⟩, storeIds_after 1, by decide +kernel⟩

/-- Each thread stores its id, at an address of its own. -/
theorem storeIds_makes {x : DataT × (Fin storeIdsProgram.warps.toNat × Fin 3)}
    {e : SharedMemory.Access DataMemoryAddressT DataT}
    (h : storeIdsProgram.Makes (fun _ => 0) x e) :
    x.1 = 0 ∧ e = .write (BitVec.ofNat 32 x.2.2 + 32) (BitVec.ofNat 32 x.2.2) := by
  obtain ⟨b, w, l⟩ := x
  obtain ⟨hb, q, i, hmeets, he⟩ := h
  have hzero : b = 0 := by
    have hlt : b < 1 := hb
    bv_omega
  refine ⟨hzero, ?_⟩
  rcases storeIds_meets hb hmeets with ⟨rfl, rfl⟩ | hname
  · have haccess : ∀ l : Fin 3, storeIdsSw.access storeIdsWarp.arch l = if l = 2 then none else
        some (.write (BitVec.ofNat 32 l + 32) (BitVec.ofNat 32 l)) := by
      decide +kernel
    have he := (haccess l).symm.trans he
    split_ifs at he
    exact (Option.some.inj he).symm
  · have hnone : i.access q.arch l = none := by
      unfold Instruction.access
      cases i.operands <;> simp [hname]
    exact absurd (hnone.symm.trans he) (by simp)

/-- The warps of the example store at different addresses. -/
theorem storeIds_raceFree : storeIdsProgram.RaceFree (fun _ => 0) 2 := by
  intro x e y f he hf hne haddr
  obtain ⟨hx, rfl⟩ := storeIds_makes he
  obtain ⟨hy, rfl⟩ := storeIds_makes hf
  have hinj : ∀ l l' : Fin 3,
      BitVec.ofNat 32 l + 32 = BitVec.ofNat 32 l' + 32 → l = l' := by
    decide +kernel
  have hw : x.2.1 = y.2.1 := by
    have hlt (w : Fin storeIdsProgram.warps.toNat) : (w : ℕ) < 1 := w.isLt
    have hlt' := hlt y.2.1
    have hlt := hlt x.2.1
    apply Fin.ext
    omega
  exact absurd (Prod.ext (hx.trans hy.symm) (Prod.ext hw (hinj _ _ haddr))) hne

/-- The example has no `sx` instruction. -/
theorem storeIds_fullMaskSx : storeIdsProgram.FullMaskSx (fun _ => 0) 2 := by
  intro b hb w q i hmeets hname
  rcases storeIds_meets hb hmeets with ⟨-, rfl⟩ | hhalt
  · exact absurd hname (by decide)
  · simp [Mnemonic.isVectorScalar, hhalt] at hname

end GpuSystem

open GpuSystem in
/-- A source file that the parser accepts and the assembler translates, all of whose lines are kept,
run on a GPU whose cores have as many warps as the file asks for, where `any_lsu_waiting` is
automatic, from a reset or from the zeros that the simulator starts with. If all warps halt as the
lines say, no two lanes race, and no thread is masked off for an `sx`, and if the execution is
started, and fetchers and memory answer again and again, the data memory is what the lines make of
it from some edge on, whatever the timing and the numbers of cores and of memory channels. -/
theorem gpu_runs_assembly {N W T M : ℕ} [NeZero N] [NeZero W] (hM : 0 < M)
    {lines : List (List Char)} {program : Program} {words : List InstructionBits}
    (h : parseProgram lines = some (.ok program)) (hwords : translateToBinary program = .ok words)
    (hfaithful : ∀ i ∈ program.instructions, Faithful program.position i)
    (hW : program.warps.toNat = W) (mem₀ : DataMemoryAddressT → DataT)
    (hhalts : ∀ b < program.blocks, ∀ w, ∃ q : Solo T, program.Halts mem₀ b w q)
    (hrace : program.RaceFree mem₀ T) (hsx : program.FullMaskSx mem₀ T) {g : Gpu N W T M}
    (h₀ : g.Starts .automatic) {t : ℕ → GpuTiming N W M} (hfair : Fair t) :
    ∀ᶠ n in atTop, program.Computes mem₀ T
      (run .automatic (program.grid words) t ⟨g, mem₀⟩ n).mem := by
  subst hW
  have hpreserved := preserved_of_accepted h hwords hfaithful
  have hcomputes := (eventually_computes hM (hpreserved.raceFree hhalts hrace)
    (hpreserved.fullMaskSx hhalts hsx) (hpreserved.stops hhalts) h₀ hfair).1
  filter_upwards [hcomputes] with n hn
  exact hpreserved.computes hhalts hn

open GpuSystem in
/-- The example program on a GPU of two cores with one warp of two threads each, and one memory
channel. -/
theorem gpu_runs_assembly_storeIds : ∀ᶠ n in atTop, storeIdsProgram.Computes (fun _ => 0) 2
    (run .automatic (storeIdsProgram.grid storeIdsCode) (alternating 2 1)
      ⟨(Gpu.powerUp : Gpu 2 1 2 1), fun _ => 0⟩ n).mem :=
  gpu_runs_assembly (W := 1) (by decide) storeIds_accepted rfl storeIds_faithful rfl (fun _ => 0)
    storeIds_halts storeIds_raceFree storeIds_fullMaskSx (.inl rfl) (alternating_fair 2 1)

end SmolGpu
