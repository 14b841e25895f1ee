import SmolGpu.As.Preservation
import SmolGpu.Grid.Grid
import SmolGpu.Sim.InstructionMemory

/-!
# Running what is assembled

The machine code of a program does instruction by instruction what the program says
(`Preserved.after_iff`), for as long as the warp stays in the program: behind it the memory of the
simulator has zeros. So the machine code computes as a kernel what the
program does (`Preserved.computes`).
-/

namespace SmolGpu

open Sim Sim.Instructions
open SharedMemory (Access)

namespace As

/-- The kernel that `main.cpp` starts. -/
def Program.grid (program : Program) (words : List InstructionBits) : Grid :=
  ⟨code words, ⟨0, 0, program.blocks, program.warps⟩⟩

/-- The machine code of a program keeps what its instructions mean. -/
structure Preserved (program : Program) (words : List InstructionBits) : Prop where
  /-- The operands have the form of their mnemonic. -/
  operands : ∀ i ∈ program.instructions, ∃ types, OperandForm i.mnemonic types i.operands
  /-- The words are the translation of the program. -/
  translated : translateToBinary program = .ok words
  /-- No line loses anything in its word. -/
  faithful : ∀ i ∈ program.instructions, Faithful program.position i

namespace Preserved

variable {program : Program} {words : List InstructionBits} {T : ℕ} {p q : Solo T} {i : Instruction}
  {mem : DataMemoryAddressT → DataT} {k : ℕ}

/-- The word at the address of an instruction. -/
theorem word (h : Preserved program words) (hi : program.instruction p = some i) :
    translateInstruction program i = .ok (code words p.arch.pc) := by
  obtain ⟨w, hw, htranslated⟩ := translateToBinary_getElem? h.translated hi
  have hcode : code words p.arch.pc = w := by
    unfold code
    rw [hw]
    rfl
  rw [hcode]
  exact htranslated

/-- The word at the program counter does what its line says. -/
theorem does (h : Preserved program words) (hzero : p.arch.scalar 0 = 0)
    (hi : program.instruction p = some i) :
    Does program.position i (code words p.arch.pc) p.arch := by
  have hmem := List.mem_of_getElem? hi
  obtain ⟨types, hform⟩ := h.operands i hmem
  exact translateInstruction_does hform (h.faithful i hmem) (h.word hi) hzero

/-- A warp in the program executes its next instruction. -/
theorem step (h : Preserved program words) (hzero : p.arch.scalar 0 = 0)
    (hi : program.instruction p = some i) :
    program.step mem p = some (p.step mem (code words)) := by
  have hdoes := h.does hzero hi
  have hexec : p.arch.exec (decode (code words p.arch.pc)) (Program.loaded mem p i) =
      p.arch.exec (decode (code words p.arch.pc))
        (p.loads mem (decode (code words p.arch.pc))) := by
    refine WarpArch.exec_congr (decode_lsuOut _) fun l hread henabled => ?_
    unfold Program.loaded
    rw [hdoes.access l]
    unfold WarpArch.access
    rw [if_pos henabled, if_pos hread]
    rfl
  have hstored : Program.stored p i = p.stored (decode (code words p.arch.pc)) := by
    funext l
    unfold Program.stored Solo.stored
    rewrite [hdoes.access l]
    rfl
  unfold Program.step
  rw [hi, Option.bind_some, hdoes.exec, Option.map_some, hexec, hstored]
  rfl

/-- Scalar register 0 is zero at every instruction. -/
theorem after_scalar_zero {code : InstructionMemoryAddressT → InstructionT}
    (hzero : p.arch.scalar 0 = 0) (k : ℕ) : (p.after mem code k).arch.scalar 0 = 0 := by
  induction k with
  | zero => exact hzero
  | succ k ih => exact WarpArch.exec_scalar_zero.trans ih

/-- The program executes `k` instructions exactly if the machine code does in the program. -/
theorem after_iff (h : Preserved program words) (hzero : p.arch.scalar 0 = 0) :
    program.after mem p k = some q ↔ p.after mem (code words) k = q ∧
      ∀ j < k, (p.after mem (code words) j).arch.pc.toNat < program.instructions.length := by
  induction k generalizing q with
  | zero => simp [Program.after, Solo.after]
  | succ k ih =>
    have hzero' : (p.after mem (code words) k).arch.scalar 0 = 0 := after_scalar_zero hzero k
    obtain ⟨p', hp'⟩ : ∃ p', p' = p.after mem (code words) k := ⟨_, rfl⟩
    rw [← hp'] at hzero'
    -- In front of the next instruction, `p'` is the warp of both.
    have hafter : p.after mem (code words) (k + 1) = p'.step mem (code words) := by
      rw [hp']
      rfl
    constructor
    · intro hq
      obtain ⟨q', hq', hstep⟩ := Option.bind_eq_some_iff.mp hq
      obtain ⟨hk, hbefore⟩ := ih.mp hq'
      obtain rfl : p' = q' := hp'.trans hk
      obtain ⟨i, hi, -⟩ := Option.bind_eq_some_iff.mp hstep
      rw [h.step hzero' hi] at hstep
      refine ⟨hafter.trans (Option.some.inj hstep), fun j hj => ?_⟩
      rcases Nat.lt_succ_iff_lt_or_eq.mp hj with hlt | rfl
      · exact hbefore j hlt
      · rw [← hp']
        exact (List.getElem?_eq_some_iff.mp hi).1
    · rintro ⟨rfl, hbefore⟩
      have hk : program.after mem p k = some p' :=
        ih.mpr ⟨hp'.symm, fun j hj => hbefore j (by omega)⟩
      have hlt : p'.arch.pc.toNat < program.instructions.length := hp' ▸ hbefore k (by omega)
      show (program.after mem p k).bind (program.step mem) = _
      rw [hk, Option.bind_some, hafter]
      exact h.step hzero' (List.getElem?_eq_getElem hlt)

/-- The word of an instruction halts exactly if it is a `halt`. -/
theorem halting_iff (h : Preserved program words) : program.Halting q ↔
    q.arch.pc.toNat < program.instructions.length ∧
      (q.instruction (code words)).decoded_halt = true := by
  have hhalt (i : Instruction) (hi : program.instruction q = some i) :
      (q.instruction (code words)).decoded_halt = true ↔ i.mnemonic.name = .HALT := by
    obtain ⟨types, hform⟩ := h.operands i (List.mem_of_getElem? hi)
    unfold Solo.instruction
    rw [decoded_halt_iff, opcode_translateInstruction hform (h.word hi)]
    cases i.mnemonic.name <;> decide
  constructor
  · rintro ⟨i, hi, hname⟩
    exact ⟨(List.getElem?_eq_some_iff.mp hi).1, (hhalt i hi).mpr hname⟩
  · rintro ⟨hlt, hdecoded⟩
    have hi := List.getElem?_eq_getElem hlt
    exact ⟨_, hi, (hhalt _ hi).mp hdecoded⟩

/-- A `halt` changes nothing. -/
theorem step_of_halting (h : Preserved program words) (hq : program.Halting q) :
    q.step mem (code words) = q := by
  have hop := (decoded_halt_iff _).mp (h.halting_iff.mp hq).2
  have harch : q.arch.exec (q.instruction (code words))
      (q.loads mem (q.instruction (code words))) = q.arch := by
    unfold Solo.instruction
    rw [decode_halt hop]
    exact WarpArch.exec_of_halt rfl rfl
  have hown : q.stored (q.instruction (code words)) = q.own := by
    funext l
    unfold Solo.stored Solo.instruction
    rw [decode_halt hop, WarpArch.access_eq_none rfl rfl]
  exact Solo.ext harch hown

/-- A program halts behind its first `k` instructions exactly if the machine code stops with the
next one and does not leave the program until then. -/
theorem haltsAt_iff (h : Preserved program words) (hzero : p.arch.scalar 0 = 0) :
    program.HaltsAt mem p k q ↔ p.Stops mem (code words) (k + 1) ∧
      p.after mem (code words) (k + 1) = q ∧
        ∀ j ≤ k, (p.after mem (code words) j).arch.pc.toNat < program.instructions.length := by
  constructor
  · rintro ⟨hk, hhalt, hfirst⟩
    obtain ⟨rfl, hbefore⟩ := (h.after_iff hzero).mp hk
    obtain ⟨hlt, hdecoded⟩ := h.halting_iff.mp hhalt
    refine ⟨⟨k, rfl, hdecoded, fun j hj => ?_⟩, h.step_of_halting hhalt, fun j hj => ?_⟩
    · -- An earlier instruction is in the program, too, and is no `halt`.
      have hj' := (h.after_iff (k := j) hzero).mpr ⟨rfl, fun m hm => hbefore m (by omega)⟩
      by_contra hne
      exact hfirst j hj _ hj' (h.halting_iff.mpr ⟨hbefore j hj, by simpa using hne⟩)
    · rcases Nat.lt_or_eq_of_le hj with hlt' | rfl
      · exact hbefore j hlt'
      · exact hlt
  · rintro ⟨⟨_, hk, hdecoded, hfirst⟩, hq, hbefore⟩
    obtain rfl := Nat.succ.inj hk
    have hafter := (h.after_iff hzero).mpr
      ⟨rfl, fun j hj => hbefore j (Nat.le_of_lt hj)⟩
    have hhalt : program.Halting (p.after mem (code words) k) :=
      h.halting_iff.mpr ⟨hbefore k le_rfl, hdecoded⟩
    have hsame : p.after mem (code words) k = q := (h.step_of_halting hhalt).symm.trans hq
    rw [hsame] at hafter hhalt
    refine ⟨hafter, hhalt, fun j hj q' hq' hhalt' => ?_⟩
    obtain ⟨rfl, -⟩ := (h.after_iff hzero).mp hq'
    have hno := (h.halting_iff.mp hhalt').2
    exact absurd ((hfirst j hj).symm.trans hno) (by simp)

/-! ## Kernels -/

section Kernels

variable {b : DataT} {w : Fin program.warps.toNat}

/-- Warp `w` of block `b` starts with zero in scalar register 0. -/
theorem start_scalar_zero : (program.start T b w).arch.scalar 0 = 0 := rfl

/-- If a warp halts, it stops as a warp of the kernel. -/
theorem stops_of_halts (h : Preserved program words) (hq : program.Halts mem b w q) :
    ∃ k, (program.grid words).Stops mem T b w k ∧ (program.grid words).warpAt mem T b w k = q := by
  obtain ⟨k, hk⟩ := hq
  obtain ⟨hstops, hafter, -⟩ := (h.haltsAt_iff start_scalar_zero).mp hk
  exact ⟨k + 1, hstops, hafter⟩

/-- The instructions of the kernel's warp are those that the warp comes to in the program. -/
theorem meets (h : Preserved program words) (hq : program.Halts mem b w q)
    (hk : (program.grid words).GoesOn mem T b w k) :
    ∃ i, program.Meets mem b w ((program.grid words).warpAt mem T b w k) i := by
  obtain ⟨m, hm⟩ := hq
  obtain ⟨hstops, -, hin⟩ := (h.haltsAt_iff start_scalar_zero).mp hm
  have hle : k ≤ m := by
    have hlt := hk.le hstops
    omega
  have hafter := (h.after_iff (k := k) start_scalar_zero).mpr
    ⟨rfl, fun j hj => hin j (by omega)⟩
  exact ⟨_, k, hafter, List.getElem?_eq_getElem (hin k hle)⟩

/-- Scalar register 0 of the kernel's warps is zero. -/
theorem warpAt_scalar_zero (k : ℕ) :
    ((program.grid words).warpAt mem T b w k).arch.scalar 0 = 0 :=
  after_scalar_zero start_scalar_zero k

end Kernels

variable (h : Preserved program words)
  (hhalts : ∀ b < program.blocks, ∀ w, ∃ q : Solo T, program.Halts mem b w q)
include h hhalts

/-- The accesses of the kernel are those of the program. -/
theorem makes {x : Agent program.warps.toNat T} {e : Access DataMemoryAddressT DataT}
    (hx : (program.grid words).Makes mem x e) : program.Makes mem x e := by
  obtain ⟨hb, k, hk, haccess⟩ := hx
  obtain ⟨q, hq⟩ := hhalts x.1 hb x.2.1
  obtain ⟨i, hmeets⟩ := h.meets hq hk
  obtain ⟨_, _, hi⟩ := id hmeets
  refine ⟨hb, _, i, hmeets, ?_⟩
  rw [(h.does (warpAt_scalar_zero k) hi).access]
  exact haccess

/-- The lanes of the kernel do not race if those of the program do not. -/
theorem raceFree (hrace : program.RaceFree mem T) :
    (program.grid words).RaceFree mem program.warps.toNat T :=
  fun x e y f hx hy => hrace x e y f (h.makes hhalts hx) (h.makes hhalts hy)

/-- No thread of the kernel is masked off at an `sx` instruction if none of the program is. -/
theorem fullMaskSx (hsx : program.FullMaskSx mem T) :
    (program.grid words).FullMaskSx mem program.warps.toNat T := by
  intro b hb w k hk hinst
  obtain ⟨q, hq⟩ := hhalts b hb w
  obtain ⟨i, hmeets⟩ := h.meets hq hk
  obtain ⟨_, _, hi⟩ := id hmeets
  obtain ⟨types, hform⟩ := h.operands i (List.mem_of_getElem? hi)
  have hop := opcode_translateInstruction hform (h.word hi)
  have hname : i.mnemonic.isVectorScalar = true := by
    have hsx' : IsSx (code words ((program.grid words).warpAt mem T b w k).arch.pc) := hinst
    unfold IsSx at hsx'
    rw [hop] at hsx'
    unfold Mnemonic.isVectorScalar
    revert hsx'
    cases i.mnemonic.name <;> decide
  exact hsx b hb w _ i hmeets hname

/-- The warps of the kernel stop if those of the program halt. -/
theorem stops : ∀ b < (program.grid words).kernel_config.num_blocks,
    ∀ w : Fin program.warps.toNat, ∃ k, (program.grid words).Stops mem T b w k := by
  intro b hb w
  obtain ⟨q, hq⟩ := hhalts b hb w
  obtain ⟨k, hk, -⟩ := h.stops_of_halts hq
  exact ⟨k, hk⟩

/-- What the kernel computes, the program does. -/
theorem computes {mem' : DataMemoryAddressT → DataT}
    (hcomputes : (program.grid words).Computes mem program.warps.toNat T mem') :
    program.Computes mem T mem' := by
  refine ⟨hhalts, fun b hb w q hq l x v hv => ?_, fun x hx => hcomputes.kept x ?_⟩
  · obtain ⟨k, hk, rfl⟩ := h.stops_of_halts hq
    exact hcomputes.stored b hb w l k hk x v hv
  · intro b hb w l k hk
    obtain ⟨q, hq⟩ := hhalts b hb w
    obtain ⟨k', hk', hsame⟩ := h.stops_of_halts hq
    obtain rfl := Solo.Stops.unique hk hk'
    rw [hsame]
    exact hx b hb w q hq l

end Preserved

section Accepted

variable {lines : List (List Char)} {program : Program} {words : List InstructionBits} {T : ℕ}

/-- An accepted program of faithful lines is preserved by its machine code. -/
theorem preserved_of_accepted (h : parseProgram lines = some (.ok program))
    (hwords : translateToBinary program = .ok words)
    (hfaithful : ∀ i ∈ program.instructions, Faithful program.position i) :
    Preserved program words := by
  refine ⟨fun i hi => ?_, hwords, hfaithful⟩
  obtain ⟨k, hk, hi⟩ := List.getElem_of_mem hi
  exact (parseProgram_ok h).2.2.operandForm (List.getElem?_eq_some_iff.mpr ⟨hk, hi⟩)

/-- The machine code of an accepted program all of whose lines are kept, on a warp whose scalar
register 0 is zero. The program gets to `q` in `k` instructions if and only if the machine code does
and does not leave the program on the way, and it halts there if and only if the machine code stops
there. The addresses of the instructions and all registers are the same, as are the stores of each
lane. -/
theorem machine_code_preserved (h : parseProgram lines = some (.ok program))
    (hwords : translateToBinary program = .ok words)
    (hfaithful : ∀ i ∈ program.instructions, Faithful program.position i)
    (mem : DataMemoryAddressT → DataT) {p : Solo T} (hzero : p.arch.scalar 0 = 0) (k : ℕ)
    (q : Solo T) :
    (program.after mem p k = some q ↔ p.after mem (code words) k = q ∧
        ∀ j < k, (p.after mem (code words) j).arch.pc.toNat < program.instructions.length) ∧
      (program.HaltsAt mem p k q ↔ p.Stops mem (code words) (k + 1) ∧
        p.after mem (code words) (k + 1) = q ∧
          ∀ j ≤ k, (p.after mem (code words) j).arch.pc.toNat < program.instructions.length) := by
  have hpreserved := preserved_of_accepted h hwords hfaithful
  exact ⟨hpreserved.after_iff hzero, hpreserved.haltsAt_iff hzero⟩

/-- A program whose threads store their ids. -/
def storeIds : List (List Char) := ["sw x1, 32(x1)".toList, "halt".toList]

/-- What is parsed from it. -/
def storeIdsProgram : Program :=
  ⟨1, 1, [⟨none, ⟨.SW, false⟩, .stype ⟨⟨1, .VECTOR⟩, ⟨1, .VECTOR⟩, 32⟩⟩,
    ⟨none, ⟨.HALT, false⟩, .default⟩], []⟩

/-- Its machine code. -/
def storeIdsCode : List InstructionBits := [0x0210A023#32, 0x0000007F#32]

/-- The text of the example is accepted. -/
theorem storeIds_accepted : parseProgram storeIds = some (.ok storeIdsProgram) := by decide +kernel

/-- The lines of the example are faithful. -/
theorem storeIds_faithful : ∀ i ∈ storeIdsProgram.instructions,
    Faithful storeIdsProgram.position i := by
  decide

/-- Its warp, of two threads. -/
def storeIdsWarp : Solo 2 := storeIdsProgram.start 2 0 ⟨0, by decide⟩

/-- The warp behind its store. -/
def storeIdsStored : Solo 2 := storeIdsWarp.after (fun _ => 0) (code storeIdsCode) 1

/-- The warp stores and halts. -/
theorem machine_code_preserved_storeIds :
    (storeIdsProgram.after (fun _ => 0) storeIdsWarp 1 = some storeIdsStored ↔
        storeIdsWarp.after (fun _ => 0) (code storeIdsCode) 1 = storeIdsStored ∧
          ∀ j < 1, (storeIdsWarp.after (fun _ => 0) (code storeIdsCode) j).arch.pc.toNat <
            storeIdsProgram.instructions.length) ∧
      (storeIdsProgram.HaltsAt (fun _ => 0) storeIdsWarp 1 storeIdsStored ↔
        storeIdsWarp.Stops (fun _ => 0) (code storeIdsCode) (1 + 1) ∧
          storeIdsWarp.after (fun _ => 0) (code storeIdsCode) (1 + 1) = storeIdsStored ∧
            ∀ j ≤ 1, (storeIdsWarp.after (fun _ => 0) (code storeIdsCode) j).arch.pc.toNat <
              storeIdsProgram.instructions.length) :=
  machine_code_preserved storeIds_accepted rfl storeIds_faithful (fun _ => 0) rfl 1 storeIdsStored

end Accepted

end As

end SmolGpu
