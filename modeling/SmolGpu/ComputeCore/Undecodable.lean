import SmolGpu.ComputeCore.Operands
import SmolGpu.ComputeCore.Refinement
import SmolGpu.Sim.ScalarForms

/-!
# Words that are no instruction

The decoder reports a word whose `funct3` or `funct7` its opcode does not have (`DecoderError`), and
passes over a word whose opcode it does not know (`Unrecognised`). The second kind sets no field, so
that the core executes it as a no-op (`Unrecognised.noEffect`). The first kind is reported in the
inner cases, after the fields of the opcode are set: such a word is an addition of its first operand
and its immediate that writes its destination register, or a branch on that sum
(`undecodable_inert_iff`).
-/

namespace SmolGpu

section Errors

/-- The `default` of the case over `funct3` in `OPCODE_B`. -/
def errorB (f3 : BitVec 3) : Prop :=
  f3 ≠ 0b000#3 ∧ f3 ≠ 0b001#3 ∧ f3 ≠ 0b100#3 ∧ f3 ≠ 0b101#3

/-- The last `else` of an operation whose `funct7` selects one of two. -/
def errorFunct7 (f7 : BitVec 7) : Prop := f7 ≠ 0b0000000#7 ∧ f7 ≠ 0b0100000#7

/-- The `$error`s of `OPCODE_R`: those of its additions and right shifts, and the `default`. -/
def errorR (f3 : BitVec 3) (f7 : BitVec 7) : Prop :=
  (f3 = 0b000#3 ∨ f3 = 0b101#3) ∧ errorFunct7 f7 ∨ f3 = 0b011#3

/-- The `$error`s of `OPCODE_I`: that of its right shifts, and the `default`. -/
def errorI (f3 : BitVec 3) (f7 : BitVec 7) : Prop :=
  f3 = 0b101#3 ∧ errorFunct7 f7 ∨ f3 = 0b011#3

/-- `decoder.sv` reports the word as invalid. -/
def DecoderError (w : InstructionT) : Prop :=
  opcode w = OPCODE_B ∧ errorB (funct3 w) ∨
    opcode w ∉ sevenBitOpcodes ∧
      (inst w = OPCODE_R ∧ errorR (funct3 w) (funct7 w) ∨
        inst w = OPCODE_I ∧ errorI (funct3 w) (funct7 w))

/-- The word reaches the `default` of the case over the six-bit opcodes, "No operation or
unrecognized opcode". -/
def Unrecognised (w : InstructionT) : Prop :=
  opcode w ∉ sevenBitOpcodes ∧ inst w ∉ sixBitOpcodes

/-- The word is no instruction of the decoder. -/
def Undecodable (w : InstructionT) : Prop := DecoderError w ∨ Unrecognised w

/-- Whether the decoder reports an error is decidable from the word's fields. -/
instance (w : InstructionT) : Decidable (DecoderError w) := by
  unfold DecoderError errorB errorR errorI errorFunct7
  infer_instance

/-- Whether the decoder takes no branch is decidable from the word's opcode. -/
instance (w : InstructionT) : Decidable (Unrecognised w) := by
  unfold Unrecognised
  infer_instance

end Errors

/-- The fields request no register write, no access to memory, no branch, and no halt. -/
structure Decoded.Inert (d : Decoded) : Prop where
  /-- No register is written. -/
  reg_write : d.decoded_reg_write_enable = false
  /-- Nothing is loaded. -/
  mem_read : d.decoded_mem_read_enable = false
  /-- Nothing is stored. -/
  mem_write : d.decoded_mem_write_enable = false
  /-- There is no branch. -/
  branch : d.decoded_branch = false
  /-- The warp does not halt. -/
  halt : d.decoded_halt = false

/-! ## What the decoder makes of such a word -/

/-- A word that is not recognised leaves the defaults, apart from the scalar flag. -/
theorem decode_of_unrecognised {w : InstructionT} (h : Unrecognised w) :
    decode w = { Decoded.default with decoded_scalar_instruction := scalarBit w } := by
  obtain ⟨hseven, hsix⟩ := h
  simp only [sixBitOpcodes, List.mem_cons, List.not_mem_nil, or_false, not_or] at hsix
  obtain ⟨hr, hi, hload, hs, hu, hauipc⟩ := hsix
  rw [decode_of_not_mem hseven]
  unfold decodeInst
  rw [if_neg hr, if_neg hi, if_neg hload, if_neg hs, if_neg hu, if_neg hauipc]

/-- A word that is not recognised asks for nothing. -/
theorem Unrecognised.inert {w : InstructionT} (h : Unrecognised w) : (decode w).Inert := by
  rw [decode_of_unrecognised h]
  exact ⟨rfl, rfl, rfl, rfl, rfl⟩

/-- An erroneous branch sets no operation. -/
theorem decodeBranch_of_error {f3 : BitVec 3} (h : errorB f3) (d : Decoded) :
    decodeBranch f3 d = d := by
  obtain ⟨h0, h1, h4, h5⟩ := h
  unfold decodeBranch
  rw [if_neg h0, if_neg h1, if_neg h4, if_neg h5]

/-- An erroneous R-type word sets no operation. -/
theorem decodeR_of_error {f3 : BitVec 3} {f7 : BitVec 7} (h : errorR f3 f7) (d : Decoded) :
    decodeR f3 f7 d = d := by
  rcases h with ⟨rfl | rfl, h0, h1⟩ | rfl
  · simp [decodeR, h0, h1]
  · simp [decodeR, h0, h1]
  · simp [decodeR]

/-- An erroneous I-type word sets no operation. -/
theorem decodeI_of_error {f3 : BitVec 3} {f7 : BitVec 7} (h : errorI f3 f7) (d : Decoded) :
    decodeI f3 f7 d = d := by
  rcases h with ⟨rfl, h0, h1⟩ | rfl
  · simp [decodeI, h0, h1]
  · simp [decodeI]

/-- A word that is reported keeps the fields that its opcode set, and adds its first operand and its
immediate: as a branch, or for its destination register. -/
theorem decode_of_error {w : InstructionT} (h : DecoderError w) :
    (decode w).decoded_alu_instruction = .ADDI ∧ (decode w).decoded_rs1_address = rs1 w ∧
      ((decode w).decoded_branch = true ∨ (decode w).decoded_reg_write_enable = true ∧
        (decode w).decoded_rd_address = rd w ∧ (decode w).decoded_reg_input_mux = .aluOut) := by
  rcases h with ⟨hop, herror⟩ | ⟨hmem, ⟨hinst, herror⟩ | ⟨hinst, herror⟩⟩
  · have hne : OPCODE_B ≠ OPCODE_HALT ∧ OPCODE_B ≠ OPCODE_SX_SLT ∧ OPCODE_B ≠ OPCODE_SX_SLTI := by
      decide
    unfold decode
    rw [hop, if_neg hne.1, if_neg hne.2.1, if_neg hne.2.2, if_pos rfl, decodeBranch_of_error herror]
    exact ⟨rfl, rfl, .inl rfl⟩
  · rw [decode_of_not_mem hmem]
    unfold decodeInst
    rw [if_pos hinst, decodeR_of_error herror]
    exact ⟨rfl, rfl, .inr ⟨rfl, rfl, rfl⟩⟩
  · have hne : OPCODE_I ≠ OPCODE_R := by decide
    rw [decode_of_not_mem hmem]
    unfold decodeInst
    rw [hinst, if_neg hne, if_pos rfl, decodeI_of_error herror]
    exact ⟨rfl, rfl, .inr ⟨rfl, rfl, rfl⟩⟩

/-- A word that is reported requests a branch or a register write. -/
theorem DecoderError.not_inert {w : InstructionT} (h : DecoderError w) : ¬(decode w).Inert := by
  intro hinert
  obtain ⟨-, -, hbranch | ⟨hwrite, -⟩⟩ := decode_of_error h
  · exact absurd (hinert.branch.symm.trans hbranch) (by decide)
  · exact absurd (hinert.reg_write.symm.trans hwrite) (by decide)

/-! ## What the core does with it -/

/-- An inert instruction moves on to the next address and changes no register. -/
theorem WarpArch.exec_inert {T : ℕ} {d : Decoded} (hd : d.Inert)
    (hjump : d.decoded_alu_instruction ≠ .JAL ∧ d.decoded_alu_instruction ≠ .JALR) (a : WarpArch T)
    (loads : Fin (T + 1) → DataT) : a.exec d loads = { a with pc := a.pc + 1 } := by
  have hscalar (r : RegAddress) : ¬WritesScalar d r := fun h =>
    absurd (hd.reg_write.symm.trans h.1) (by decide)
  have hvector (r : RegAddress) : ¬WritesVector d r := fun h =>
    absurd (hd.reg_write.symm.trans h.1) (by decide)
  have hpc : a.nextPc d = a.pc + 1 := by
    unfold nextPc
    simp [hd.branch, hjump]
  unfold exec
  simp [hscalar, hvector, hpc, hd.halt]

namespace ComputeCore

variable {W T : ℕ}

/-- From the decoding of an instruction of warp `w` to the edge behind its update, the core only
moves the warp's `pc` on by one. -/
structure NoEffect (inp : ℕ → CoreIn W T) (σ : ℕ → ComputeCore W T) (w : Fin W) (n : ℕ) : Prop where
  /-- The registers of the warp are as they were. -/
  arch : arch (inp 0) (σ (n + 1)) w = { arch (inp 0) (σ 0) w with pc := (σ 0).pc w + 1 }
  /-- So is all of the other warps. -/
  others : ∀ v, v ≠ w → (σ (n + 1)).pc v = (σ 0).pc v ∧
    (σ (n + 1)).scalar_reg_file v = (σ 0).scalar_reg_file v ∧
    ∀ i, (σ (n + 1)).reg_file v i = (σ 0).reg_file v i
  /-- No unit asks memory for anything. -/
  memory : ∀ m ≤ n + 1, ∀ l, ((σ m).lsu l).mem_read_valid = false ∧
    ((σ m).lsu l).mem_write_valid = false
  /-- The warp goes on to fetch its next instruction. -/
  warp_state : (σ (n + 1)).warp_state w = .fetch

/-- A unit that is idle asks for nothing. -/
theorem Invariant.quiet {s : ComputeCore W T} (hi : Invariant s) {l : Fin (T + 1)}
    (hidle : (s.lsu l).lsu_state = .idle) :
    (s.lsu l).mem_read_valid = false ∧ (s.lsu l).mem_write_valid = false := by
  have hl := hi.consistent l
  constructor
  · rw [Bool.eq_false_iff]
    intro h
    exact absurd (hidle.symm.trans (hl.read_valid.mp h).1) (by decide)
  · rw [Bool.eq_false_iff]
    intro h
    exact absurd (hidle.symm.trans (hl.write_valid.mp h).1) (by decide)

/-- While an instruction without an access to memory is executed, the units are idle. -/
theorem Executing.idle_of_inert {d : Decoded} {a : WarpArch T} {s : ComputeCore W T}
    (h : Executing d a s) (hd : d.Inert) (l : Fin (T + 1)) : (s.lsu l).lsu_state = .idle := by
  have hactive : s.laneActive l = false := by
    simp [laneActive, h.current, hd.mem_read, hd.mem_write]
  have hl := h.lane l
  unfold LaneOk at hl
  rcases h.stage with hst | hst | hst | hst
  · simpa [hst] using hl
  · simpa [hst, hactive] using hl
  · simpa [hst, hactive] using hl
  · simpa [hst, hactive] using hl

variable [NeZero W] {life : Lifetime} {inp : ℕ → CoreIn W T} {σ : ℕ → ComputeCore W T} {w : Fin W}

/-- From the decoding of an inert instruction to the edge behind its update, the units are idle. -/
theorem IsRun.idle_of_inert (h : IsRun life inp σ) {n : ℕ} (hcw : (σ 0).current_warp = w)
    (hdec : (σ 0).warp_state w = .decode) (hidle : ∀ l, ((σ 0).lsu l).lsu_state = .idle)
    (hreach : Reaches σ w n) (hd : (decode ((inp 0).fetched_instruction w)).Inert) {m : ℕ}
    (hm : m ≤ n + 1) (l : Fin (T + 1)) : ((σ m).lsu l).lsu_state = .idle := by
  -- The edges up to the update, the first of which is that of the decoding.
  have hbefore (k : ℕ) (hk : k ≤ n) : ((σ k).lsu l).lsu_state = .idle := by
    cases k with
    | zero => exact hidle l
    | succ k => exact (h.executing hcw hdec hidle hreach k (by omega)).2.2.idle_of_inert hd l
  rcases Nat.lt_or_ge n m with hlt | hle
  · obtain rfl : m = n + 1 := by omega
    obtain ⟨hrun, -, hst, -⟩ := h.retiring hcw hdec hidle hreach
    rw [h.step n]
    exact step_lsu_idle hrun.reset (hbefore n le_rfl) (by simp [hst])
  · exact hbefore m hle

end ComputeCore

open ComputeCore in
/-- The core executes a word that is not recognised as a no-op. -/
theorem Unrecognised.noEffect {W T : ℕ} [NeZero W] {life : Lifetime} {s : ComputeCore W T}
    (hs : Clocked.Reachable (coreStep life) (AfterReset life) s) {w : Fin W}
    (hw : s.current_warp = w) (hdec : s.warp_state w = .decode) {inp : ℕ → CoreIn W T}
    (hreset : ∀ n, (inp n).reset = false) (h : Unrecognised ((inp 0).fetched_instruction w)) {n : ℕ}
    (hreach : Reaches (Clocked.run (coreStep life) inp s) w n) :
    NoEffect inp (Clocked.run (coreStep life) inp s) w n := by
  have hcurrent : s.current_warp_state = .decode := by rw [current_warp_state, hw, hdec]
  have hidle := (Invariant.of_reachable hs).idle_of_parked (.inr (.inr (.inl hcurrent)))
  have hrun : IsRun life inp (Clocked.run (coreStep life) inp s) := ⟨hreset, fun _ => rfl⟩
  -- The word is executed as its fields say, and these ask for nothing.
  have hsx : ¬IsSx ((inp 0).fetched_instruction w) := by
    rintro (hop | hop)
    · exact h.1 (by simp [sevenBitOpcodes, hop])
    · exact h.1 (by simp [sevenBitOpcodes, hop])
  obtain ⟨⟨loads, -, hexec⟩, hstate, hothers⟩ := hrun.executes hw hdec hidle
    (fun hx => absurd hx hsx) hreach
  refine ⟨?_, hothers, fun m hm l => ?_, ?_⟩
  · have hjump : (decode ((inp 0).fetched_instruction w)).decoded_alu_instruction = .ADDI := by
      rw [decode_of_unrecognised h]
      rfl
    rw [hexec, WarpArch.exec_inert h.inert (by simp [hjump])]
    rfl
  · exact (Invariant.of_reachable (hs.run inp m)).quiet
      (hrun.idle_of_inert hw hdec hidle hreach h.inert hm l)
  · rw [hstate, h.inert.halt]
    rfl

namespace ComputeCore

/-- The inputs of an example core of one warp and one thread, which is given the word of
`mul x5, x3, x4` at every fetch. -/
def mulIn (reset : Bool) : CoreIn 1 1 :=
  { wordIn 0x024182B3 with
    reset := reset
    fetcher_state_in := fun _ => .done }

/-- The example core when it decodes its first instruction. -/
def mulDecoding : ComputeCore 1 1 :=
  Clocked.run (coreStep .automatic) (fun _ => mulIn false)
    (coreStep .automatic (mulIn true) powerUp) 2

/-- The state before the undecodable word is reachable. -/
theorem mulDecoding_reachable :
    Clocked.Reachable (coreStep .automatic) (AfterReset .automatic) mulDecoding :=
  .step _ (.step _ (.init ⟨mulIn true, powerUp, rfl, rfl⟩))

/-- The warp reaches the end of the undecodable word after four edges. -/
theorem mulDecoding_reaches :
    Reaches (Clocked.run (coreStep .automatic) (fun _ => mulIn false) mulDecoding) 0 4 :=
  ⟨by decide +kernel, by decide +kernel⟩

end ComputeCore

open ComputeCore in
/-- Of the words that are no instruction, exactly those that are not recognised request nothing and
have no effect; those that are reported as invalid request a register write or a branch. -/
theorem undecodable_inert_iff {W T : ℕ} [NeZero W] (life : Lifetime) {s : ComputeCore W T}
    (hs : Clocked.Reachable (coreStep life) (AfterReset life) s) {w : Fin W}
    (hw : s.current_warp = w) (hdec : s.warp_state w = .decode) {inp : ℕ → CoreIn W T}
    (hreset : ∀ n, (inp n).reset = false) {I : InstructionT}
    (hI : (inp 0).fetched_instruction w = I) (hbad : Undecodable I) {n : ℕ}
    (hreach : Reaches (Clocked.run (coreStep life) inp s) w n) :
    (decode I).Inert ∧ NoEffect inp (Clocked.run (coreStep life) inp s) w n ↔ ¬DecoderError I := by
  constructor
  · intro h herror
    exact herror.not_inert h.1
  · intro h
    have hunrecognised : Unrecognised I := hbad.resolve_left h
    exact ⟨hunrecognised.inert, Unrecognised.noEffect hs hw hdec hreset (hI ▸ hunrecognised) hreach⟩

open ComputeCore in
/-- The example core's word. -/
theorem undecodable_inert_iff_mul : (decode 0x024182B3).Inert ∧
    NoEffect (fun _ => mulIn false)
      (Clocked.run (coreStep .automatic) (fun _ => mulIn false) mulDecoding) 0 4 ↔
    ¬DecoderError 0x024182B3 := by
  have hreset : ∀ n : ℕ, ((fun _ => mulIn false : ℕ → CoreIn 1 1) n).reset = false := fun _ => rfl
  exact undecodable_inert_iff .automatic mulDecoding_reachable (by decide +kernel)
    (by decide +kernel) hreset (I := 0x024182B3) rfl (.inl (by decide)) mulDecoding_reaches

open ComputeCore in
/-- `mul x5, x3, x4` is reported as invalid, and writes `x3`, here the block size 1, to `x5`. -/
theorem undecodable_writes :
    ¬∀ (life : Lifetime) (s : ComputeCore 1 1) (inp : ℕ → CoreIn 1 1) (I : InstructionT) (n : ℕ),
      Clocked.Reachable (coreStep life) (AfterReset life) s → s.current_warp = 0 →
        s.warp_state 0 = .decode → (∀ n, (inp n).reset = false) →
          (inp 0).fetched_instruction 0 = I → Undecodable I →
            Reaches (Clocked.run (coreStep life) inp s) 0 n →
              (decode I).decoded_reg_write_enable = false ∧
                ((Clocked.run (coreStep life) inp s (n + 1)).reg_file 0 0).registers 5 =
                  (s.reg_file 0 0).registers 5 := by
  intro h
  have hregister := (h .automatic mulDecoding (fun _ => mulIn false) 0x024182B3 4
    mulDecoding_reachable (by decide +kernel) (by decide +kernel) (fun _ => rfl) rfl
    (.inl (by decide)) mulDecoding_reaches).2
  exact absurd hregister (by decide +kernel)

end SmolGpu
