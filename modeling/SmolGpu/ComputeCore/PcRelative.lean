import SmolGpu.ComputeCore.Operands
import SmolGpu.ComputeCore.Refinement
import SmolGpu.Sim.ScalarForms

/-!
# Values relative to the program counter

`auipc` adds its immediate to the program counter. The decoder leaves that to a later stage, which
the core does not have. It sets the ALU operation to an addition of two registers, of which neither
is set, so that the sum is that of `x0` and itself (`auipc_iff`).
-/

namespace SmolGpu

/-- The value of an `auipc` at the address `pc`. -/
def pcRelative (pc : InstructionMemoryAddressT) (I : InstructionT) : DataT :=
  pc + BitVec.ofNat 32 ((immU I).toNat * 4096)

/-- What an `auipc` is decoded to. -/
theorem decode_auipc {I : InstructionT} (h : inst I = OPCODE_AUIPC) :
    decode I = { Decoded.default with
      decoded_rd_address := rd I
      decoded_immediate := immU I ++ 0#12
      decoded_reg_write_enable := true
      decoded_alu_instruction := .ADD
      decoded_scalar_instruction := scalarBit I } := by
  have hne : OPCODE_AUIPC ≠ OPCODE_R ∧ OPCODE_AUIPC ≠ OPCODE_I ∧ OPCODE_AUIPC ≠ OPCODE_LOAD ∧
      OPCODE_AUIPC ≠ OPCODE_S ∧ OPCODE_AUIPC ≠ OPCODE_U := by decide
  rw [decode_of_class (by rw [h]; decide) (by rw [h]; decide)]
  unfold decodeInst
  rw [h, if_neg hne.1, if_neg hne.2.1, if_neg hne.2.2.1, if_neg hne.2.2.2.1, if_neg hne.2.2.2.2,
    if_pos rfl]

/-- No `sx` instruction has the opcode of `auipc`. -/
theorem not_isSx_of_auipc {I : InstructionT} (h : inst I = OPCODE_AUIPC) : ¬IsSx I := by
  rw [inst_eq] at h
  rintro (hop | hop)
  · rw [hop] at h
    exact absurd h (by decide)
  · rw [hop] at h
    exact absurd h (by decide)

namespace WarpArch

variable {T : ℕ} {I : InstructionT} {a : WarpArch T} {loads : Fin (T + 1) → DataT}

/-- A vector `auipc` leaves the sum of `x0` and itself. -/
theorem exec_auipc_vector (h : inst I = OPCODE_AUIPC) (hvector : scalarBit I = false)
    (hrd : 4 ≤ rd I) {i : Fin T} (hmask : a.mask i = true) (hzero : a.vector i 0 = 0) :
    (a.exec (decode I) loads).vector i (rd I) = 0 := by
  have hwrites : WritesVector (decode I) (rd I) := by
    rw [decode_auipc h]
    exact ⟨rfl, hvector, rfl, hrd⟩
  have hresult : a.result (decode I) i.castSucc = 0 := by
    unfold result operand1 operand2
    rw [decode_auipc h, Fin.lastCases_castSucc, Fin.lastCases_castSucc]
    show a.vector i 0 + a.vector i 0 = 0
    rw [hzero]
    rfl
  have hvalue : a.vectorValue (decode I) loads i = some (a.result (decode I) i.castSucc) := by
    unfold vectorValue
    rw [decode_auipc h]
    rfl
  unfold exec
  dsimp only
  rw [if_pos ⟨hwrites, hmask⟩, hvalue, hresult]
  rfl

/-- A scalar `auipc` leaves the sum of `s0` and itself. -/
theorem exec_auipc_scalar (h : inst I = OPCODE_AUIPC) (hscalar : scalarBit I = true)
    (hrd : 0 < rd I) (hzero : a.scalar 0 = 0) : (a.exec (decode I) loads).scalar (rd I) = 0 := by
  have hwrites : WritesScalar (decode I) (rd I) := by
    rw [decode_auipc h]
    exact ⟨rfl, .inl hscalar, rfl, hrd⟩
  have hresult : a.result (decode I) (Fin.last T) = 0 := by
    unfold result operand1 operand2
    rw [decode_auipc h, Fin.lastCases_last, Fin.lastCases_last]
    show a.scalar 0 + a.scalar 0 = 0
    rw [hzero]
    rfl
  have hvalue : a.scalarValue (decode I) loads = a.result (decode I) (Fin.last T) := by
    unfold scalarValue
    rw [decode_auipc h]
    rfl
  unfold exec
  dsimp only
  rw [if_pos hwrites, hvalue, hresult]

end WarpArch

namespace ComputeCore

/-- The inputs of an example core of one warp and one thread, which is given `auipc x5, 1` at every
fetch. -/
def auipcIn (reset : Bool) : CoreIn 1 1 :=
  { wordIn 0x00001297 with
    reset := reset
    fetcher_state_in := fun _ => .done }

/-- The example core when it decodes its first instruction, which is at address 0. -/
def auipcDecoding : ComputeCore 1 1 :=
  Clocked.run (coreStep .automatic) (fun _ => auipcIn false)
    (coreStep .automatic (auipcIn true) powerUp) 2

/-- The state of the example is reachable. -/
theorem auipcDecoding_reachable :
    Clocked.Reachable (coreStep .automatic) (AfterReset .automatic) auipcDecoding :=
  .step _ (.step _ (.init ⟨auipcIn true, powerUp, rfl, rfl⟩))

/-- The warp of the example reaches its end after four edges. -/
theorem auipcDecoding_reaches :
    Reaches (Clocked.run (coreStep .automatic) (fun _ => auipcIn false) auipcDecoding) 0 4 :=
  ⟨by decide +kernel, by decide +kernel⟩

end ComputeCore

open ComputeCore in
/-- When an `auipc` has been executed, the destination register, of each enabled thread or the
scalar one, holds the sum of its address and its shifted immediate if and only if this sum is
zero. -/
theorem auipc_iff {W T : ℕ} [NeZero W] (life : Lifetime) {s : ComputeCore W T}
    (hs : Clocked.Reachable (coreStep life) (AfterReset life) s) {w : Fin W}
    (hw : s.current_warp = w) (hdec : s.warp_state w = .decode) {inp : ℕ → CoreIn W T}
    (hreset : ∀ n, (inp n).reset = false) {I : InstructionT}
    (hI : (inp 0).fetched_instruction w = I) (hop : inst I = OPCODE_AUIPC) {n : ℕ}
    (hreach : Reaches (Clocked.run (coreStep life) inp s) w n) :
    (scalarBit I = false → 4 ≤ rd I → ∀ i : Fin T, (s.warp_execution_mask w).getLsbD i = true →
      (((Clocked.run (coreStep life) inp s (n + 1)).reg_file w i).registers (rd I) =
        pcRelative (s.pc w) I ↔ pcRelative (s.pc w) I = 0)) ∧
    (scalarBit I = true → 0 < rd I →
      (((Clocked.run (coreStep life) inp s (n + 1)).scalar_reg_file w).registers (rd I) =
        pcRelative (s.pc w) I ↔ pcRelative (s.pc w) I = 0)) := by
  -- The execution of the instruction is that of the architectural state.
  have hcurrent : s.current_warp_state = .decode := by rw [current_warp_state, hw, hdec]
  have hidle := (Invariant.of_reachable hs).idle_of_parked (.inr (.inr (.inl hcurrent)))
  have hrun : IsRun life inp (Clocked.run (coreStep life) inp s) := ⟨hreset, fun _ => rfl⟩
  obtain ⟨loads, -, hexec⟩ := (hrun.executes hw hdec hidle
    (fun hsx => absurd hsx (not_isSx_of_auipc (hI.symm ▸ hop))) hreach).exec
  rw [hI] at hexec
  constructor
  · -- The sum of two registers that the word does not name, both register 0, is zero.
    intro hvector hrd i hmask
    have hmask' : (arch (inp 0) s w).mask i = true := by
      rwa [mask_eq (a := arch (inp 0) s w) rfl] at hmask
    have hregister :
        ((Clocked.run (coreStep life) inp s (n + 1)).reg_file w i).registers (rd I) = 0 := by
      have harch : (arch (inp 0) (Clocked.run (coreStep life) inp s (n + 1)) w).vector i (rd I) =
          ((Clocked.run (coreStep life) inp s (n + 1)).reg_file w i).registers (rd I) :=
        arch_vector_of_ge hrd
      rw [← harch, hexec]
      exact WarpArch.exec_auipc_vector hop hvector hrd hmask' rfl
    rw [hregister]
    exact eq_comm
  · intro hscalar hrd
    have hregister :
        ((Clocked.run (coreStep life) inp s (n + 1)).scalar_reg_file w).registers (rd I) = 0 := by
      show (arch (inp 0) (Clocked.run (coreStep life) inp s (n + 1)) w).scalar (rd I) = 0
      rw [hexec]
      exact WarpArch.exec_auipc_scalar hop hscalar hrd (ScalarZero.of_reachable hs w)
    rw [hregister]
    exact eq_comm

open ComputeCore in
/-- The example core's `auipc`. -/
theorem auipc_iff_vector :
    ((Clocked.run (coreStep .automatic) (fun _ => auipcIn false) auipcDecoding (4 + 1)).reg_file 0
        0).registers (rd 0x00001297) = pcRelative (auipcDecoding.pc 0) 0x00001297 ↔
      pcRelative (auipcDecoding.pc 0) 0x00001297 = 0 := by
  have hreset : ∀ n : ℕ, ((fun _ => auipcIn false : ℕ → CoreIn 1 1) n).reset = false := fun _ => rfl
  have h := auipc_iff .automatic auipcDecoding_reachable (w := 0) (by decide +kernel)
    (by decide +kernel) hreset (I := 0x00001297) rfl
    (by decide) auipcDecoding_reaches
  exact h.1 (by decide) (by decide) 0 (by decide +kernel)

open ComputeCore in
/-- At the address 0, `auipc x5, 1` leaves 0 in `x5`, which is 4096 less than it should. -/
theorem auipc_without_pc :
    ¬∀ (life : Lifetime) (s : ComputeCore 1 1) (inp : ℕ → CoreIn 1 1) (I : InstructionT) (n : ℕ),
      Clocked.Reachable (coreStep life) (AfterReset life) s → s.current_warp = 0 →
        s.warp_state 0 = .decode → (∀ n, (inp n).reset = false) →
          (inp 0).fetched_instruction 0 = I → inst I = OPCODE_AUIPC →
            Reaches (Clocked.run (coreStep life) inp s) 0 n → scalarBit I = false → 4 ≤ rd I →
              (s.warp_execution_mask 0).getLsbD 0 = true →
                ((Clocked.run (coreStep life) inp s (n + 1)).reg_file 0 0).registers (rd I) =
                  pcRelative (s.pc 0) I := by
  intro h
  have hregister := h .automatic auipcDecoding (fun _ => auipcIn false) 0x00001297 4
    auipcDecoding_reachable (by decide +kernel) (by decide +kernel) (fun _ => rfl) rfl (by decide)
    auipcDecoding_reaches (by decide) (by decide) (by decide +kernel)
  exact absurd hregister (by decide +kernel)

end SmolGpu
