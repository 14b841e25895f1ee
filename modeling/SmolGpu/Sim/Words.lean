import SmolGpu.Decoder
import SmolGpu.Library.BitField
import SmolGpu.Sim.Instructions

/-!
# The words that the builders build

A builder returns a word when all its assertions hold, and the word is then the OR of the fields
(`createItypeInstruction_eq_ok` and its siblings). A value that its setter accepts keeps within its
field, so that each field wire of the decoder reads back the value that was set, with one exception:
a store sets its second source register and its whole immediate at bit 20
(`createStypeInstruction_eq_ok`).
-/

namespace SmolGpu.Sim

section Assertions

variable {α : Type}

/-- A value that is returned after an assertion is returned when the assertion holds. -/
theorem assertOrErr_return_eq_ok {c : Bool} {message : String} {a b : α} :
    (do assertOrErr c message; return a : Except Failure α) = .ok b ↔ c = true ∧ b = a := by
  unfold assertOrErr
  cases c with
  | false => simp [bind, Except.bind]
  | true =>
    simp [bind, Except.bind, pure, Except.pure, eq_comm]

/-- A computation that returns one value under a condition goes on with it under the condition. -/
theorem bind_eq_ok_of {β : Type} {x : Except Failure α} {c : Prop} {v : α}
    (hx : ∀ a, x = .ok a ↔ c ∧ a = v) {f : α → Except Failure β} {b : β} :
    x >>= f = .ok b ↔ c ∧ f v = .ok b := by
  cases x with
  | error e =>
    -- A computation that fails does so because its condition does.
    have hc : ¬c := fun hc => by simpa using (hx v).mpr ⟨hc, rfl⟩
    simp [bind, Except.bind, hc]
  | ok a =>
    obtain ⟨hc, rfl⟩ := (hx a).mp rfl
    simp [bind, Except.bind, hc]

/-- A step that succeeds hands its value to the next one. -/
theorem ok_bind {β : Type} (a : α) (f : α → Except Failure β) : (Except.ok a >>= f) = f a := rfl

/-- Every value of an enumeration is in the table that it is checked against. -/
theorem validateInstrId_eq_ok [DecidableEq α] {name : String} {bits : IData} {id : α}
    {ids : List α} (h : id ∈ ids) : validateInstrId name bits id ids = .ok () := by
  unfold validateInstrId assertOrErr
  simp [h]

end Assertions

section Setters

variable {bits word : InstructionBits}

/-- Every opcode is one of `opcodes`, so that its setter does not fail. -/
theorem setOpcode_eq (opcode : Opcode) : setOpcode bits opcode = .ok (bits ||| opcode.bits) := by
  have hmem : opcode ∈ opcodes := by cases opcode <;> decide
  unfold setOpcode
  rw [validateInstrId_eq_ok hmem]
  rfl

/-- A builder starts with the opcode in an empty word. -/
theorem setOpcode_zero (opcode : Opcode) : setOpcode 0 opcode = .ok opcode.bits := by
  have hzero : (0 : IData) ||| opcode.bits = opcode.bits := BitVec.zero_or
  rw [setOpcode_eq, hzero]

/-- Every `funct3` is one of `funct3s`, so that its setter does not fail. -/
theorem setFunct3_eq (funct3 : Funct3) :
    setFunct3 bits funct3 = .ok (bits ||| funct3.bits <<< 12) := by
  have hmem : funct3 ∈ funct3s := by cases funct3 <;> decide
  unfold setFunct3
  rw [validateInstrId_eq_ok hmem]
  rfl

/-- Every `funct7` is one of `funct7s`, so that its setter does not fail. -/
theorem setFunct7_eq (funct7 : Funct7) :
    setFunct7 bits funct7 = .ok (bits ||| funct7.bits <<< 25) := by
  have hmem : funct7 ∈ funct7s := by cases funct7 <;> decide
  unfold setFunct7
  rw [validateInstrId_eq_ok hmem]
  rfl

/-- `set_rd` succeeds on a valid register, and ORs its number in. -/
theorem setRd_eq_ok {rd : Register} :
    setRd bits rd = .ok word ↔ rd.validate = true ∧ word = bits ||| rd.bits <<< 7 := by
  unfold setRd validateRegister
  exact assertOrErr_return_eq_ok

/-- `set_rs1` succeeds on a valid register, and ORs its number in. -/
theorem setRs1_eq_ok {rs1 : Register} :
    setRs1 bits rs1 = .ok word ↔ rs1.validate = true ∧ word = bits ||| rs1.bits <<< 15 := by
  unfold setRs1 validateRegister
  exact assertOrErr_return_eq_ok

/-- `set_rs2` succeeds on a valid register, and ORs its number in. -/
theorem setRs2_eq_ok {rs2 : Register} :
    setRs2 bits rs2 = .ok word ↔ rs2.validate = true ∧ word = bits ||| rs2.bits <<< 20 := by
  unfold setRs2 validateRegister
  exact assertOrErr_return_eq_ok

/-- `set_imm12` succeeds below `2^12`, and ORs the immediate in. -/
theorem setImm12_eq_ok {imm : IData} :
    setImm12 bits imm = .ok word ↔ imm < 4096 ∧ word = bits ||| imm <<< 20 := by
  unfold setImm12
  rw [assertOrErr_return_eq_ok, decide_eq_true_eq]

/-- `set_imm20` succeeds below `2^20`, and ORs the immediate in. -/
theorem setImm20_eq_ok {imm : IData} :
    setImm20 bits imm = .ok word ↔ imm < 1048576 ∧ word = bits ||| imm <<< 12 := by
  unfold setImm20
  rw [assertOrErr_return_eq_ok, decide_eq_true_eq]

/-- `set_imm21` succeeds below `2^21`, and ORs the permuted immediate in. -/
theorem setImm21_eq_ok {imm : IData} :
    setImm21 bits imm = .ok word ↔ imm < 2097152 ∧ word = bits ||| immJBits imm := by
  unfold setImm21
  rw [assertOrErr_return_eq_ok, decide_eq_true_eq]

end Setters

/-! ## The two layouts

Every word has an opcode at bit 0. The formats with a 12-bit field at bit 20 have registers and a
`funct3` below it, the formats with a 20-bit immediate at bit 12 have a destination below it. -/

section Layouts

/-- A word of the R, I, and S formats; `upper` is what the format has at bit 20. -/
def word12 (opcode rd funct3 rs1 upper : IData) : InstructionBits :=
  opcode ||| funct3 <<< 12 ||| rd <<< 7 ||| rs1 <<< 15 ||| upper <<< 20

/-- A word of the U and J formats; `upper` is the immediate at bit 12. -/
def word20 (opcode rd upper : IData) : InstructionBits :=
  opcode ||| rd <<< 7 ||| upper <<< 12

variable {opcode rd funct3 rs1 : IData} (upper : IData)

open BitField

/-- The opcode of a word in the first layout, whatever its other fields are. -/
theorem opcode_word12 :
    SmolGpu.opcode (word12 opcode rd funct3 rs1 upper) = opcode.setWidth 7 := by
  unfold SmolGpu.opcode word12
  simp only [BitVec.extractLsb'_or]
  rw [extract_shiftLeft_below (by decide), extract_shiftLeft_below (by decide),
    extract_shiftLeft_below (by decide), extract_shiftLeft_below (by decide),
    BitVec.setWidth_eq_extractLsb' (by decide)]
  simp

/-- The opcode of a word in the second layout, whatever its other fields are. -/
theorem opcode_word20 : SmolGpu.opcode (word20 opcode rd upper) = opcode.setWidth 7 := by
  unfold SmolGpu.opcode word20
  simp only [BitVec.extractLsb'_or]
  rw [extract_shiftLeft_below (by decide), extract_shiftLeft_below (by decide),
    BitVec.setWidth_eq_extractLsb' (by decide)]
  simp

/-- The scattered immediate of a J-type word is above the opcode. -/
theorem opcode_immJ (imm : IData) :
    SmolGpu.opcode (opcode ||| rd <<< 7 ||| immJBits imm) = opcode.setWidth 7 := by
  have himm : (immJBits imm).extractLsb' 0 7 = 0#7 := by
    unfold immJBits
    rw [BitVec.extractLsb'_append_eq_of_add_le (by decide)]
    rfl
  unfold SmolGpu.opcode
  simp only [BitVec.extractLsb'_or]
  rw [extract_shiftLeft_below (by decide), himm, BitVec.setWidth_eq_extractLsb' (by decide)]
  simp

/-- The fields of a word in the first layout are the values it is made of. -/
theorem word12_fields (hop : opcode.toNat < 2 ^ 7) (hrd : rd.toNat < 2 ^ 5)
    (hf3 : funct3.toNat < 2 ^ 3) (hrs1 : rs1.toNat < 2 ^ 5) :
    let w := word12 opcode rd funct3 rs1 upper
    SmolGpu.opcode w = opcode.setWidth 7 ∧ SmolGpu.rd w = rd.setWidth 5 ∧
      SmolGpu.funct3 w = funct3.setWidth 3 ∧ SmolGpu.rs1 w = rs1.setWidth 5 ∧
      immI w = upper.setWidth 12 := by
  refine ⟨opcode_word12 upper, ?_, ?_, ?_, ?_⟩
  · unfold SmolGpu.rd word12
    simp only [BitVec.extractLsb'_or]
    rw [extract_of_lt hop le_rfl, extract_shiftLeft_below (by decide),
      extract_shiftLeft_self (by decide), extract_shiftLeft_below (by decide),
      extract_shiftLeft_below (by decide)]
    simp
  · -- `funct3` is set before the register below it, so the OR is not in the order of the fields.
    unfold SmolGpu.funct3 word12
    simp only [BitVec.extractLsb'_or]
    rw [extract_of_lt hop (by decide), extract_shiftLeft_self (by decide),
      extract_shiftLeft_above hrd (by decide) (by decide), extract_shiftLeft_below (by decide),
      extract_shiftLeft_below (by decide)]
    simp
  · unfold SmolGpu.rs1 word12
    simp only [BitVec.extractLsb'_or]
    rw [extract_of_lt hop (by decide), extract_shiftLeft_above hf3 (by decide) (by decide),
      extract_shiftLeft_above hrd (by decide) (by decide), extract_shiftLeft_self (by decide),
      extract_shiftLeft_below (by decide)]
    simp
  · unfold immI word12
    simp only [BitVec.extractLsb'_or]
    rw [extract_of_lt hop (by decide), extract_shiftLeft_above hf3 (by decide) (by decide),
      extract_shiftLeft_above hrd (by decide) (by decide),
      extract_shiftLeft_above hrs1 (by decide) (by decide), extract_shiftLeft_self (by decide)]
    simp

/-- The fields of a word in the second layout are the values it is made of. -/
theorem word20_fields (hop : opcode.toNat < 2 ^ 7) (hrd : rd.toNat < 2 ^ 5) :
    let w := word20 opcode rd upper
    SmolGpu.opcode w = opcode.setWidth 7 ∧ SmolGpu.rd w = rd.setWidth 5 ∧
      immU w = upper.setWidth 20 := by
  refine ⟨opcode_word20 upper, ?_, ?_⟩
  · unfold SmolGpu.rd word20
    simp only [BitVec.extractLsb'_or]
    rw [extract_of_lt hop le_rfl, extract_shiftLeft_self (by decide),
      extract_shiftLeft_below (by decide)]
    simp
  · unfold immU word20
    simp only [BitVec.extractLsb'_or]
    rw [extract_of_lt hop (by decide), extract_shiftLeft_above hrd (by decide) (by decide),
      extract_shiftLeft_self (by decide)]
    simp

end Layouts

/-! ## What the builders return -/

namespace Instructions

open BitField

variable {opcode : Opcode} {funct3 : Funct3} {funct7 : Funct7} {rd rs1 rs2 : Register}
  {imm : IData} {word : InstructionBits}

/-- A U-type builder returns when the register and the immediate fit. -/
theorem createUtypeInstruction_eq_ok :
    createUtypeInstruction opcode rd imm = .ok word ↔
      (rd.validate = true ∧ imm < 1048576) ∧ word = word20 opcode.bits rd.bits imm := by
  unfold createUtypeInstruction
  rw [setOpcode_zero, ok_bind, bind_eq_ok_of fun _ => setRd_eq_ok, setImm20_eq_ok, and_assoc]
  rfl

/-- A J-type builder returns when the register and the immediate fit. -/
theorem createJtypeInstruction_eq_ok :
    createJtypeInstruction opcode rd imm = .ok word ↔
      (rd.validate = true ∧ imm < 2097152) ∧
        word = opcode.bits ||| rd.bits <<< 7 ||| immJBits imm := by
  unfold createJtypeInstruction
  rw [setOpcode_zero, ok_bind, bind_eq_ok_of fun _ => setRd_eq_ok, setImm21_eq_ok, and_assoc]

/-- An I-type builder returns when the registers and the immediate fit. -/
theorem createItypeInstruction_eq_ok :
    createItypeInstruction opcode funct3 rd rs1 imm = .ok word ↔
      (rd.validate = true ∧ rs1.validate = true ∧ imm < 4096) ∧
        word = word12 opcode.bits rd.bits funct3.bits rs1.bits imm := by
  unfold createItypeInstruction
  rw [setOpcode_zero, ok_bind, setFunct3_eq, ok_bind, bind_eq_ok_of fun _ => setRd_eq_ok,
    bind_eq_ok_of fun _ => setRs1_eq_ok, setImm12_eq_ok, and_assoc, and_assoc]
  rfl

/-- With a `funct7`, what the word has at bit 20 is put together from it and another value. -/
theorem word_funct7 (opcode funct3 funct7 rd rs1 low : IData) :
    opcode ||| funct3 <<< 12 ||| funct7 <<< 25 ||| rd <<< 7 ||| rs1 <<< 15 ||| low <<< 20 =
      word12 opcode rd funct3 rs1 (low ||| funct7 <<< 5) := by
  unfold word12
  rw [BitVec.shiftLeft_or_distrib, ← BitVec.shiftLeft_add, bitOr_right_comm _ _ (rd <<< 7),
    bitOr_right_comm _ _ (rs1 <<< 15), bitOr_right_comm, BitVec.or_assoc _ (low <<< 20)]

/-- The builder of shifts returns when the registers fit and the amount is below 32. It sets the
`funct7` in the upper bits of the field of the immediate. -/
theorem createItypeShiftInstruction_eq_ok :
    createItypeShiftInstruction opcode funct3 funct7 rd rs1 imm = .ok word ↔
      (rd.validate = true ∧ rs1.validate = true ∧ imm < 32) ∧
        word = word12 opcode.bits rd.bits funct3.bits rs1.bits (imm ||| funct7.bits <<< 5) := by
  have hfits : imm < 32 → imm < 4096 := fun h => BitVec.lt_trans h (by decide)
  have hassert : ∀ u : Unit, assertOrErr (imm < 32)
      (invalidImmediate imm "5-bit immediate in shift instruction") = .ok u ↔
        imm < 32 ∧ u = () := fun u => by
    unfold assertOrErr
    split_ifs with h
    · simpa using h
    · simpa using h
  unfold createItypeShiftInstruction
  rw [bind_eq_ok_of hassert, setOpcode_zero, ok_bind, setFunct3_eq, ok_bind, setFunct7_eq, ok_bind,
    bind_eq_ok_of fun _ => setRd_eq_ok, bind_eq_ok_of fun _ => setRs1_eq_ok, setImm12_eq_ok,
    word_funct7]
  tauto

/-- The R-type builder returns when the registers fit. -/
theorem createRtypeInstruction_eq_ok :
    createRtypeInstruction opcode funct3 funct7 rd rs1 rs2 = .ok word ↔
      (rd.validate = true ∧ rs1.validate = true ∧ rs2.validate = true) ∧
        word = word12 opcode.bits rd.bits funct3.bits rs1.bits
          (rs2.bits ||| funct7.bits <<< 5) := by
  unfold createRtypeInstruction
  rw [setOpcode_zero, ok_bind, setFunct3_eq, ok_bind, setFunct7_eq, ok_bind,
    bind_eq_ok_of fun _ => setRd_eq_ok, bind_eq_ok_of fun _ => setRs1_eq_ok, setRs2_eq_ok,
    word_funct7, and_assoc, and_assoc]

/-- The S-type builder returns when the registers and the immediate fit. It sets the second source
register and the whole immediate at the same place. -/
theorem createStypeInstruction_eq_ok :
    createStypeInstruction opcode funct3 rs1 rs2 imm = .ok word ↔
      (rs1.validate = true ∧ rs2.validate = true ∧ imm < 4096) ∧
        word = word12 opcode.bits 0 funct3.bits rs1.bits (rs2.bits ||| imm) := by
  have hzero : (0 : IData) <<< 7 = 0#32 := by decide
  have hword : opcode.bits ||| funct3.bits <<< 12 ||| rs1.bits <<< 15 ||| rs2.bits <<< 20 |||
      imm <<< 20 = word12 opcode.bits 0 funct3.bits rs1.bits (rs2.bits ||| imm) := by
    unfold word12
    rw [BitVec.shiftLeft_or_distrib, hzero, BitVec.or_zero, BitVec.or_assoc _ (rs2.bits <<< 20)]
  unfold createStypeInstruction
  rw [setOpcode_zero, ok_bind, setFunct3_eq, ok_bind, bind_eq_ok_of fun _ => setRs1_eq_ok,
    bind_eq_ok_of fun _ => setRs2_eq_ok, setImm12_eq_ok, hword, and_assoc, and_assoc]

end Instructions

end SmolGpu.Sim
