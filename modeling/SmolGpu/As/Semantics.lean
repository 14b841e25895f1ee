import SmolGpu.As.Emitter
import SmolGpu.ComputeCore.Solo

/-!
# What assembly means

A line of assembly as what it asks of a warp, without words, opcodes, and control signals: the
instructions of `README.md`, on the scalar registers if the mnemonic has the `s.` prefix and on the
vector registers of the enabled threads otherwise, with the functions of the ALU. The data memory
has words only, and the loads and stores of bytes and halves are given no meaning here.

A program is its instructions, one at each address from 0 on, and a warp that leaves them goes
nowhere (`Program.step`).
-/

namespace SmolGpu

open SharedMemory (Access)

namespace WarpArch

variable {T : ℕ} (a : WarpArch T)

/-- A register of a lane. -/
def reg (r : RegAddress) : Fin (T + 1) → DataT := Fin.lastCases (a.scalar r) fun t => a.vector t r

/-- The lanes that take part in a scalar or a vector instruction. -/
def takesPart (scalar : Bool) : Fin (T + 1) → Bool :=
  Fin.lastCases scalar fun t => a.mask t && !scalar

/-- Each lane that takes part writes its value. `x0` to `x3` and `s0` are read-only. -/
def set (scalar : Bool) (rd : RegAddress) (v : Fin (T + 1) → DataT) : WarpArch T :=
  { a with
    scalar := fun r =>
      if scalar = true ∧ r = rd ∧ 0 < r then v (Fin.last T) else a.scalar r
    vector := fun t r =>
      if scalar = false ∧ r = rd ∧ 4 ≤ r ∧ a.mask t = true then v t.castSucc else a.vector t r }

/-- The enabled threads write a bit each of a scalar register. -/
def setBits (rd : RegAddress) (v : Fin T → DataT) : WarpArch T :=
  a.set true rd fun _ => gather fun t => if a.mask t then v t else 0

/-- The warp goes on at `pc`. -/
def goto (pc : InstructionMemoryAddressT) : WarpArch T := { a with pc := pc }

/-- The warp goes on to the next instruction. -/
def next : WarpArch T := a.goto (a.pc + 1)

section Fields

variable (scalar : Bool) (rd r : RegAddress) (v : Fin (T + 1) → DataT) (t : Fin T)
  (pc : InstructionMemoryAddressT)

/-- Writing a register leaves the program counter. -/
@[simp] theorem set_pc : (a.set scalar rd v).pc = a.pc := rfl

/-- Writing a register leaves the other scalar registers, and register 0. -/
@[simp] theorem set_scalar : (a.set scalar rd v).scalar r =
    if scalar = true ∧ r = rd ∧ 0 < r then v (Fin.last T) else a.scalar r := rfl

/-- Writing a register leaves the other vector registers, the special ones, and those of masked
threads. -/
@[simp] theorem set_vector : (a.set scalar rd v).vector t r =
    if scalar = false ∧ r = rd ∧ 4 ≤ r ∧ a.mask t = true then v t.castSucc
    else a.vector t r := rfl

/-- A jump sets the program counter. -/
@[simp] theorem goto_pc : (a.goto pc).pc = pc := rfl

/-- A jump leaves the scalar registers. -/
@[simp] theorem goto_scalar : (a.goto pc).scalar = a.scalar := rfl

/-- A jump leaves the vector registers. -/
@[simp] theorem goto_vector : (a.goto pc).vector = a.vector := rfl

/-- The next instruction is one further. -/
@[simp] theorem next_pc : a.next.pc = a.pc + 1 := rfl

/-- Going on leaves the scalar registers. -/
@[simp] theorem next_scalar : a.next.scalar = a.scalar := rfl

/-- Going on leaves the vector registers. -/
@[simp] theorem next_vector : a.next.vector = a.vector := rfl

end Fields

end WarpArch

namespace As

open Sim

/-- The function of an instruction that computes. -/
def operation : MnemonicName → Option AluInstruction
  | .ADDI => some .ADDI
  | .SLTI | .SX_SLTI => some .SLTI
  | .XORI => some .XORI
  | .ORI => some .ORI
  | .ANDI => some .ANDI
  | .SLLI => some .SLLI
  | .SRLI => some .SRLI
  | .SRAI => some .SRAI
  | .ADD => some .ADD
  | .SUB => some .SUB
  | .SLL => some .SLL
  | .SLT | .SX_SLT => some .SLT
  | .XOR => some .XOR
  | .SRL => some .SRL
  | .SRA => some .SRA
  | .OR => some .OR
  | .AND => some .AND
  | .LUI | .AUIPC | .LB | .LH | .LW | .SB | .SH | .SW | .JAL | .JALR | .BEQ | .BNE | .BLT | .BGE
  | .HALT => none

namespace Instruction

variable {T : ℕ} (position : List Char → Option IData) (i : Instruction)
  (loads : Fin (T + 1) → DataT) (a : WarpArch T)

/-- The values that the lanes compute from a register and an immediate. The arithmetic is that of
the ALU: `slti` compares without sign, and `srai` shifts zeros in. -/
def computeI (op : AluInstruction) (operands : ItypeOperands) (l : Fin (T + 1)) : DataT :=
  aluResult op a.pc operands.imm12 (a.reg operands.rs1.address l) 0

/-- The values that the lanes compute from two registers, by the ALU too: `slt` compares without
sign, and `sra` shifts zeros in. -/
def computeR (op : AluInstruction) (operands : RtypeOperands) (l : Fin (T + 1)) : DataT :=
  aluResult op a.pc 0 (a.reg operands.rs1.address l) (a.reg operands.rs2.address l)

/-- Where a `jalr` goes on. -/
def target (operands : JalrOperands) : Option InstructionMemoryAddressT :=
  match operands.immediate_or_label_ref with
  | .labelRef label_name => position label_name
  | .immediate value => some (a.scalar operands.rs1.address + value)

/-- The warp behind an instruction whose loads return `loads`. A halt stops at its address. -/
def exec : Option (WarpArch T) :=
  match i.operands with
  | .itype operands =>
    if i.mnemonic.name = .HALT then some a
    else if i.mnemonic.name = .LW then
      some (a.set i.mnemonic.has_s_prefix operands.rd.address loads).next
    else if i.mnemonic.isVectorScalar then
      (operation i.mnemonic.name).map fun op =>
        (a.setBits operands.rd.address fun t => computeI a op operands t.castSucc).next
    else
      (operation i.mnemonic.name).map fun op =>
        (a.set i.mnemonic.has_s_prefix operands.rd.address (computeI a op operands)).next
  | .rtype operands =>
    if i.mnemonic.isVectorScalar then
      (operation i.mnemonic.name).map fun op =>
        (a.setBits operands.rd.address fun t => computeR a op operands t.castSucc).next
    else
      (operation i.mnemonic.name).map fun op =>
        (a.set i.mnemonic.has_s_prefix operands.rd.address (computeR a op operands)).next
  | .stype _ => if i.mnemonic.name = .SW then some a.next else none
  | .utype operands =>
    if i.mnemonic.name = .LUI then
      some (a.set i.mnemonic.has_s_prefix operands.rd.address fun _ => operands.imm20 <<< 12).next
    else if i.mnemonic.name = .AUIPC then
      some (a.set i.mnemonic.has_s_prefix operands.rd.address
        fun _ => a.pc + operands.imm20 <<< 12).next
    else none
  | .jtype operands =>
    some ((a.set true operands.rd.address fun _ => a.pc + 1).goto (a.pc + operands.imm20))
  | .jalr operands =>
    (target position a operands).map
      (a.set true operands.rd.address fun _ => a.pc + 1).goto

/-- The access of a lane in an instruction. -/
def access (l : Fin (T + 1)) : Option (Access DataMemoryAddressT DataT) :=
  if a.takesPart i.mnemonic.has_s_prefix l then
    match i.operands with
    | .itype operands =>
      if i.mnemonic.name = .LW then
        some (.read (a.reg operands.rs1.address l + operands.imm12))
      else none
    | .stype operands =>
      if i.mnemonic.name = .SW then
        some (.write (a.reg operands.rs1.address l + operands.imm12)
          (a.reg operands.rs2.address l))
      else none
    | .rtype _ | .utype _ | .jtype _ | .jalr _ => none
  else none

end Instruction

namespace Program

variable {T : ℕ} (program : Program) (mem : DataMemoryAddressT → DataT) (p : Solo T)

/-- The word that a lane's access returns, when the memory held `mem` at the start. -/
def loaded (i : Instruction) (l : Fin (T + 1)) : DataT :=
  match i.access p.arch l with
  | some (.read x) => (p.own l x).getD (mem x)
  | some (.write _ _) | none => 0

/-- What lane `l` has stored, behind an instruction. -/
def stored (i : Instruction) (l : Fin (T + 1)) : DataMemoryAddressT → Option DataT :=
  match i.access p.arch l with
  | some e => e.record (p.own l)
  | none => p.own l

/-- The instruction that a warp executes next. -/
def instruction : Option Instruction := program.instructions[p.arch.pc.toNat]?

/-- The warp behind its next instruction. -/
def step : Option (Solo T) :=
  (program.instruction p).bind fun i =>
    (i.exec program.position (loaded mem p i) p.arch).map fun arch =>
      ⟨arch, stored p i⟩

/-- The warp behind `k` instructions. -/
def after : ℕ → Option (Solo T)
  | 0 => some p
  | k + 1 => (after k).bind (program.step mem)

/-- The next instruction of a warp is a `halt`. -/
def Halting : Prop := ∃ i, program.instruction p = some i ∧ i.mnemonic.name = .HALT

/-- The warp halts behind its first `k` instructions, and is `q` then. -/
def HaltsAt (k : ℕ) (q : Solo T) : Prop :=
  program.after mem p k = some q ∧ program.Halting q ∧
    ∀ j < k, ∀ q', program.after mem p j = some q' → ¬program.Halting q'

/-! ## Kernels

A program is run by its blocks, with as many warps in each as it asks for. -/

/-- Warp `w` of block `b` at the start. -/
def start (T : ℕ) (b : DataT) (w : Fin program.warps.toNat) : Solo T :=
  Solo.start T ⟨0, 0, program.blocks, program.warps⟩ b (BitVec.ofNat 32 w)

/-- Warp `w` of block `b` halts, and is `q` then. -/
def Halts (b : DataT) (w : Fin program.warps.toNat) (q : Solo T) : Prop :=
  ∃ k, program.HaltsAt mem (program.start T b w) k q

/-- Warp `w` of block `b` comes to instruction `i`, and is `q` in front of it. -/
def Meets (b : DataT) (w : Fin program.warps.toNat) (q : Solo T) (i : Instruction) : Prop :=
  ∃ k, program.after mem (program.start T b w) k = some q ∧ program.instruction q = some i

/-- A lane makes an access in the course of its block. -/
def Makes (x : DataT × (Fin program.warps.toNat × Fin (T + 1)))
    (e : Access DataMemoryAddressT DataT) : Prop :=
  x.1 < program.blocks ∧ ∃ (q : Solo T) (i : Instruction),
    program.Meets mem x.1 x.2.1 q i ∧ i.access q.arch x.2.2 = some e

/-- No two lanes access a common address with one of them storing. -/
def RaceFree (T : ℕ) : Prop := SharedMemory.NoRace (program.Makes mem (T := T))

/-- No thread is masked off when its warp comes to an `sx` instruction. -/
def FullMaskSx (T : ℕ) : Prop :=
  ∀ b < program.blocks, ∀ w (q : Solo T) i, program.Meets mem b w q i →
    i.mnemonic.isVectorScalar = true → ∀ t, q.arch.mask t = true

/-- The memory `mem'` is what the program makes of `mem`. -/
structure Computes (T : ℕ) (mem' : DataMemoryAddressT → DataT) : Prop where
  /-- Every warp of every block halts. -/
  halts : ∀ b < program.blocks, ∀ w, ∃ q : Solo T, program.Halts mem b w q
  /-- An address that a lane stores to has the word that it stores there last. -/
  stored : ∀ b < program.blocks, ∀ w (q : Solo T), program.Halts mem b w q →
    ∀ l x v, q.own l x = some v → mem' x = v
  /-- Any other address has the word that was there from the start. -/
  kept : ∀ x, (∀ b < program.blocks, ∀ w (q : Solo T), program.Halts mem b w q →
    ∀ l, q.own l x = none) → mem' x = mem x

end Program

end As

end SmolGpu
