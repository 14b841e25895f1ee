import SmolGpu.As.Emitter

/-!
# Translating what the parser accepts

The emitter takes a `Program`, and the parser makes one from the lines of a source file. A line of
an accepted file that has an instruction has it at the position of its number among the instructions
(`getElem?_of_line`), with the operands that its mnemonic takes, and a label is at the number of the
instructions in front of its declaration (`position_eq`).

The parser checks neither the numbers of registers nor the ranges of immediates, nor that the label
of a `jalr` is declared. Each of these is an assertion or an exception of the emitter, so that an
accepted program is translated exactly if every instruction passes them all
(`accepted_translates_iff`).
-/

namespace SmolGpu.As

open Sim

/-! ## The lines of an accepted program -/

section Accepted

variable {lines earlier later : List (List Char)} {line : List Char} {program : Program}

/-- The number of the instructions in front of the line that declares a label. -/
def labelIndex (lines : List (List Char)) (label : List Char) : Option ℕ :=
  (lines.findIdx? fun line => labelOf line = some label).map fun n =>
    instructionCount (lines.take n)

/-- The position of a label is its index as a 32-bit number. -/
def linePosition (lines : List (List Char)) (label : List Char) : Option IData :=
  (labelIndex lines label).map (BitVec.ofNat 32)

/-- The labels of an accepted program have the positions that the lines give them. -/
theorem Says.position_eq (h : Says lines program) (label : List Char) :
    program.position label = linePosition lines label := by
  unfold linePosition labelIndex
  cases hfind : lines.findIdx? fun line => labelOf line = some label with
  | none =>
    -- No line declares the label.
    rw [List.findIdx?_eq_none_iff] at hfind
    refine h.undeclared label fun hmem => ?_
    obtain ⟨line, hline, hlabel⟩ := List.mem_filterMap.mp hmem
    exact of_decide_eq_false (hfind line hline) hlabel
  | some n =>
    -- Line `n` is the first one that declares it, behind the lines that `labelIndex` counts.
    obtain ⟨hn, hlabel, -⟩ := List.findIdx?_eq_some_iff_getElem.mp hfind
    have hlines : lines = lines.take n ++ lines[n] :: lines.drop (n + 1) := by
      rw [List.cons_getElem_drop_succ, List.take_append_drop]
    exact h.declared (lines.take n) lines[n] (lines.drop (n + 1)) label hlines
      (of_decide_eq_true hlabel)

/-- The instruction of a line is at the number of the instructions in front of it. -/
theorem Says.getElem?_of_line (h : Says (earlier ++ line :: later) program) {i : Instruction}
    (hi : instructionOf line = some i) :
    program.instructions[instructionCount earlier]? = some i := by
  have hinstr : program.instructions =
      earlier.filterMap instructionOf ++ i :: later.filterMap instructionOf := by
    rw [h.instructions, List.filterMap_append, List.filterMap_cons_some hi]
  unfold instructionCount
  rw [hinstr]
  simp

/-- The instruction of a line has the operands that its mnemonic takes. -/
theorem operandForm_of_line {i : Instruction} (h : instructionOf line = some i) :
    ∃ types, OperandForm i.mnemonic types i.operands := by
  unfold instructionOf lineOf at h
  by_cases htokens : lineTokens line = []
  · simp [htokens] at h
  rw [if_neg htokens] at h
  cases hparse : parseLine (lineTokens line) with
  | error errors => simp [hparse] at h
  | ok val =>
    cases val with
    | instruction instr =>
      -- The only kind of line with an instruction.
      have hinstr : instr = i := by simpa [hparse] using h
      rw [hinstr] at hparse
      exact parseLine_instruction htokens hparse
    | _ => simp [hparse] at h

/-- The instructions of an accepted program have the operands that their mnemonics take. -/
theorem Says.operandForm (h : Says lines program) {k : ℕ} {i : Instruction}
    (hi : program.instructions[k]? = some i) :
    ∃ types, OperandForm i.mnemonic types i.operands := by
  have hmem : i ∈ lines.filterMap instructionOf := h.instructions ▸ List.mem_of_getElem? hi
  obtain ⟨line, -, hline⟩ := List.mem_filterMap.mp hmem
  exact operandForm_of_line hline

end Accepted

/-! ## The words of the instructions -/

section Emission

variable {program : Program} {k : ℕ} {i : Instruction} {w : InstructionBits}

/-- Word `w` is emitted for instruction `k`. It is at place `k` of the machine code when the emitter
returns, which it does not if another instruction fails. -/
structure EmitsAt (program : Program) (k : ℕ) (w : InstructionBits) : Prop where
  /-- The instruction is translated to the word. -/
  translated : ∃ i, program.instructions[k]? = some i ∧ translateInstruction program i = .ok w
  /-- The word has the instruction's place in the machine code. -/
  placed : ∀ words, translateToBinary program = .ok words → words[k]? = some w

/-- The word that is emitted for an instruction is the one its visitor returns. -/
theorem emitsAt_iff (hi : program.instructions[k]? = some i) :
    EmitsAt program k w ↔ translateInstruction program i = .ok w := by
  constructor
  · rintro ⟨⟨j, hj, hw⟩, -⟩
    rw [hi] at hj
    obtain rfl := Option.some.inj hj
    exact hw
  · intro hw
    refine ⟨⟨i, hi, hw⟩, fun words hwords => ?_⟩
    obtain ⟨w', hplace, hw'⟩ := translateToBinary_getElem? hwords hi
    rw [hw] at hw'
    obtain rfl := Except.ok.inj hw'
    exact hplace

end Emission

/-! ## Accepted programs -/

/-- An accepted program is translated, to one word for each instruction, if and only if the operands
of every instruction in its lines fit their fields. -/
theorem accepted_translates_iff {lines : List (List Char)} {program : Program}
    (h : parseProgram lines = some (.ok program)) :
    (∃ words, translateToBinary program = .ok words ∧
        words.length = program.instructions.length) ↔
      ∀ line ∈ lines, ∀ i, instructionOf line = some i → Encodable (linePosition lines) i := by
  have hsource := (parseProgram_ok h).2.2
  have hposition : program.position = linePosition lines := funext hsource.position_eq
  calc (∃ words, translateToBinary program = .ok words ∧
        words.length = program.instructions.length)
      ↔ ∃ words, translateToBinary program = .ok words := by
        refine exists_congr fun words => and_iff_left_of_imp fun hwords => ?_
        exact (Loop.mapM_eq_ok.mp hwords).length_eq.symm
    _ ↔ ∀ i ∈ program.instructions, Encodable program.position i :=
        translateToBinary_isOk_iff program
    -- The instructions of the program are those of its lines, and its labels point at them.
    _ ↔ ∀ line ∈ lines, ∀ i, instructionOf line = some i → Encodable (linePosition lines) i := by
        rw [hsource.instructions, hposition]
        constructor
        · intro hall line hline i hi
          exact hall i (List.mem_filterMap.mpr ⟨line, hline, hi⟩)
        · intro hall i hi
          obtain ⟨line, hline, hi⟩ := List.mem_filterMap.mp hi
          exact hall line hline i hi

/-- A `jalr` to a label behind it. -/
theorem accepted_translates_iff_jalr :
    (∃ words, translateToBinary ⟨1, 1, [⟨none, ⟨.JALR, false⟩,
          .jalr ⟨⟨1, .VECTOR⟩, .zero, .labelRef ['L']⟩⟩], [(['L'], 1)]⟩ = .ok words ∧
        words.length = 1) ↔
      ∀ line ∈ ["jalr x1, L".toList, "L:".toList], ∀ i, instructionOf line = some i →
        Encodable (linePosition ["jalr x1, L".toList, "L:".toList]) i :=
  accepted_translates_iff (by decide +kernel)

/-- The lexer reads negative numbers, and the emitter fails on every one of them. -/
theorem accepted_not_translated :
    ¬∀ lines program, parseProgram lines = some (.ok program) →
      ∃ words, translateToBinary program = .ok words ∧
        words.length = program.instructions.length := by
  intro h
  have haccepted : parseProgram ["addi x5, x6, -1".toList] = some (.ok ⟨1, 1,
      [⟨none, ⟨.ADDI, false⟩, .itype ⟨⟨5, .VECTOR⟩, ⟨6, .VECTOR⟩, -1⟩⟩], []⟩) := by
    decide +kernel
  obtain ⟨words, hwords, -⟩ := h _ _ haccepted
  -- As an unsigned number the immediate is far above the twelve bits of its field.
  have hfit := (translateToBinary_isOk_iff _).mp ⟨words, hwords⟩ _ List.mem_cons_self
  exact absurd hfit.2.2 (by decide)

end SmolGpu.As
