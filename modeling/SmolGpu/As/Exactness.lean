import SmolGpu.As.Grammar
import SmolGpu.As.Program
import SmolGpu.As.Termination
import SmolGpu.Library.Loop

/-!
# What a program is parsed to

A line on its own has tokens, lexing errors, and a meaning: an instruction, a label, a directive, or
nothing. A line is offending after some earlier lines if it is malformed, or declares a label that
one of them declares, or repeats a directive of them (`Offends`).

The loop of `parse_program` keeps, after any lines, the instructions of these lines in order, the
number of instructions in front of each declared label, the directives' numbers, and at least one
error for each offending line under that line's number, with no error for another line
(`ProgramState.Holds`). So the program is accepted exactly if no line is offending, and it is then
what its lines say.
-/

namespace SmolGpu.As

open Sim

/-! ## Lines on their own -/

section Lines

variable (line : List Char)

/-- The tokens of a line on which lexing ends. -/
def lineTokens : List Token := ((collectTokens line).getD ([], [])).1

/-- The lexing errors of a line on which lexing ends. -/
def lexErrors : List Error := ((collectTokens line).getD ([], [])).2

/-- What a line says, if it has tokens and they parse. -/
def lineOf : Option Line :=
  if lineTokens line = [] then none
  else
    match parseLine (lineTokens line) with
    | .ok val => some val
    | .error _ => none

/-- A line that does not lex, or has tokens that do not parse. -/
def Malformed : Prop :=
  lexErrors line ≠ [] ∨
    lineTokens line ≠ [] ∧ ∃ errors, parseLine (lineTokens line) = .error errors

/-- The instruction of a line. -/
def instructionOf : Option Instruction :=
  match lineOf line with
  | some (.instruction instr) => some instr
  | _ => none

/-- The label that a line declares. -/
def labelOf : Option (List Char) :=
  match lineOf line with
  | some (.justLabel label) => some label
  | some (.instruction instr) => instr.label
  | _ => none

/-- The number of a `.blocks` directive. -/
def blocksOf : Option IData :=
  match lineOf line with
  | some (.blocksDirective number) => some number
  | _ => none

/-- The number of a `.warps` directive. -/
def warpsOf : Option IData :=
  match lineOf line with
  | some (.warpsDirective number) => some number
  | _ => none

/-- A line is offending after the lines `earlier`. -/
def Offends (earlier : List (List Char)) : Prop :=
  Malformed line ∨ (∃ label, labelOf line = some label ∧ label ∈ earlier.filterMap labelOf) ∨
    ((blocksOf line).isSome = true ∧ earlier.filterMap blocksOf ≠ []) ∨
      ((warpsOf line).isSome = true ∧ earlier.filterMap warpsOf ≠ [])

end Lines

/-- The number of instructions of some lines. -/
def instructionCount (lines : List (List Char)) : ℕ := (lines.filterMap instructionOf).length

namespace ProgramState

variable {s s' : ProgramState} {line : List Char} {done : List (List Char)}

/-! ## One line -/

/-- The local variables when the line's number and its lexing errors are recorded. -/
def opened (s : ProgramState) (line : List Char) : ProgramState :=
  ({ s with line_nr := s.line_nr + 1 } : ProgramState).pushErrors (lexErrors line)

/-- What the body of the loop does with a line: nothing more where it has no tokens, and otherwise
it records the errors of its parser, or what it says. -/
theorem step_cases (h : s.step line = some s') :
    (lineTokens line = [] ∧ lineOf line = none ∧ s' = s.opened line) ∨
      (∃ errors, lineTokens line ≠ [] ∧ parseLine (lineTokens line) = .error errors ∧
        errors ≠ [] ∧ lineOf line = none ∧ s' = (s.opened line).pushErrors errors) ∨
      ∃ val, lineTokens line ≠ [] ∧ parseLine (lineTokens line) = .ok val ∧
        lineOf line = some val ∧ s' = (s.opened line).addLine val := by
  obtain ⟨lexed, hlexed, rfl⟩ := Option.map_eq_some_iff.mp h
  have htokens : lineTokens line = lexed.1 := by simp [lineTokens, hlexed]
  have herrors : lexErrors line = lexed.2 := by simp [lexErrors, hlexed]
  unfold lineOf opened addTokens
  rw [htokens, herrors]
  by_cases hne : lexed.1 = []
  · -- A blank line, or one with a comment only.
    exact .inl ⟨hne, by simp [hne], by simp [hne]⟩
  · right
    cases hparse : parseLine lexed.1 with
    | error errors =>
      exact .inl ⟨errors, hne, rfl, parseLine_error hne hparse, by simp [hne], by simp [hne]⟩
    | ok val => exact .inr ⟨val, hne, rfl, by simp [hne], by simp [hne]⟩

/-- A label is added if no line has declared it. -/
def extended (s : ProgramState) : Option (List Char) → List (List Char × IData)
  | some label =>
    if (s.label_mappings.lookup label).isSome then s.label_mappings
    else (label, s.instr_count) :: s.label_mappings
  | none => s.label_mappings

/-- Declaring a label adds it and its error, and nothing else. -/
theorem addLabel_eq (label : List Char) :
    s.addLabel label = { s with
      label_mappings := s.extended (some label)
      errors := (s.addLabel label).errors } := by
  unfold addLabel extended
  cases hlookup : s.label_mappings.lookup label with
  | none => simp only [hlookup, Option.isSome_none, Bool.false_eq_true, if_false]
  | some v =>
    simp only [hlookup, Option.isSome_some, if_true]
    rfl

/-- The error of a label that is declared again. -/
def repeated (s : ProgramState) (label : List Char) : List Error :=
  if (s.label_mappings.lookup label).isSome then
    [errorOf ("Duplicate label declaration on line " ++ toString s.line_nr.toNat)]
  else []

/-- Declaring a label again is the one error. -/
theorem addLabel_errors (label : List Char) :
    (s.addLabel label).errors = s.errors ++ (s.repeated label).map (withLine s.line_nr) := by
  unfold addLabel repeated
  cases hlookup : s.label_mappings.lookup label with
  | none => simp
  | some v => simp [pushErrors]

/-- What a line adds to everything but the errors. -/
theorem step_fields (h : s.step line = some s') :
    s'.instructions = s.instructions ++ (instructionOf line).toList ∧
      s'.line_nr = s.line_nr + 1 ∧
      s'.instr_count = s.instr_count + BitVec.ofNat 32 (instructionOf line).toList.length ∧
      s'.block_count = (blocksOf line).or s.block_count ∧
      s'.warp_count = (warpsOf line).or s.warp_count ∧
      s'.label_mappings = s.extended (labelOf line) := by
  -- Recording errors leaves the labels and their number as they are.
  have hlookup : ∀ label, (s.opened line).extended label = s.extended label := fun label => by
    cases label <;> rfl
  rcases step_cases h with ⟨-, hline, rfl⟩ | ⟨errors, -, -, -, hline, rfl⟩ | ⟨val, -, -, hline, rfl⟩
  · simp [instructionOf, blocksOf, warpsOf, labelOf, hline, opened, pushErrors, extended]
  · simp [instructionOf, blocksOf, warpsOf, labelOf, hline, opened, pushErrors, extended]
  · cases val with
    | justLabel label =>
      simp only [instructionOf, blocksOf, warpsOf, labelOf, hline, addLine]
      rw [addLabel_eq, hlookup]
      simp [opened, pushErrors]
    | instruction instr =>
      simp only [instructionOf, blocksOf, warpsOf, labelOf, hline, addLine]
      cases hlabel : instr.label with
      | none => simp [opened, pushErrors, extended]
      | some label =>
        simp only
        rw [addLabel_eq]
        refine ⟨rfl, rfl, rfl, rfl, rfl, ?_⟩
        exact hlookup (some label)
    | blocksDirective number =>
      simp only [instructionOf, blocksOf, warpsOf, labelOf, hline, addLine]
      split_ifs <;> simp [opened, pushErrors, extended]
    | warpsDirective number =>
      simp only [instructionOf, blocksOf, warpsOf, labelOf, hline, addLine]
      split_ifs <;> simp [opened, pushErrors, extended]

/-- The errors that a line adds name the line, and there are some exactly if the line is malformed,
or says something that the lines before it have said. -/
theorem step_errors (h : s.step line = some s') :
    ∃ new, s'.errors = s.errors ++ new ∧ (∀ e ∈ new, e.line = s.line_nr + 1) ∧
      (new ≠ [] ↔ Malformed line ∨
        (∃ label, labelOf line = some label ∧ (s.label_mappings.lookup label).isSome = true) ∨
          ((blocksOf line).isSome = true ∧ s.block_count.isSome = true) ∨
            ((warpsOf line).isSome = true ∧ s.warp_count.isSome = true)) := by
  -- The lexing errors come first, and `extra` behind them.
  have hopened : ∀ extra : List Error, ∃ new,
      (s.opened line).errors ++ extra.map (withLine (s.line_nr + 1)) = s.errors ++ new ∧
        (∀ e ∈ new, e.line = s.line_nr + 1) ∧
          (new ≠ [] ↔ lexErrors line ≠ [] ∨ extra ≠ []) := by
    intro extra
    refine ⟨(lexErrors line ++ extra).map (withLine (s.line_nr + 1)), ?_, ?_, ?_⟩
    · simp [opened, pushErrors]
    · intro e he
      obtain ⟨e', -, rfl⟩ := List.mem_map.mp he
      rfl
    · rw [Ne, List.map_eq_nil_iff, List.append_eq_nil_iff, not_and_or]
  rcases step_cases h with ⟨htokens, hline, rfl⟩ | ⟨errors, htokens, hparse, hne, hline, rfl⟩ |
    ⟨val, htokens, hparse, hline, rfl⟩
  · -- No tokens: the lexing errors are all there are.
    obtain ⟨new, hnew, hnr, hiff⟩ := hopened []
    refine ⟨new, by simpa using hnew, hnr, hiff.trans ?_⟩
    simp [Malformed, labelOf, blocksOf, warpsOf, hline, htokens]
  · -- The tokens do not parse: at least one error of the parser, so the line is malformed.
    obtain ⟨new, hnew, hnr, hiff⟩ := hopened errors
    refine ⟨new, hnew, hnr, hiff.trans ?_⟩
    simp [Malformed, labelOf, blocksOf, warpsOf, hline, htokens, hparse, hne]
  · -- The line says something, which is an error only if it repeats what was said.
    have hmalformed : Malformed line ↔ lexErrors line ≠ [] := by simp [Malformed, hparse]
    have hrepeated : ∀ label, (s.opened line).repeated label ≠ [] ↔
        (s.label_mappings.lookup label).isSome = true := by
      intro label
      unfold repeated
      show (if (s.label_mappings.lookup label).isSome = true then _ else []) ≠ [] ↔ _
      split_ifs with h <;> simp [h]
    cases val with
    | justLabel label =>
      obtain ⟨new, hnew, hnr, hiff⟩ := hopened ((s.opened line).repeated label)
      refine ⟨new, ?_, hnr, hiff.trans ?_⟩
      · rw [← hnew]
        exact addLabel_errors label
      · rw [hmalformed, hrepeated]
        simp [labelOf, blocksOf, warpsOf, hline]
    | instruction instr =>
      cases hlabel : instr.label with
      | none =>
        obtain ⟨new, hnew, hnr, hiff⟩ := hopened []
        refine ⟨new, ?_, hnr, hiff.trans ?_⟩
        · rw [← hnew]
          simp [addLine, hlabel]
        · simp [hmalformed, labelOf, blocksOf, warpsOf, hline, hlabel]
      | some label =>
        obtain ⟨new, hnew, hnr, hiff⟩ := hopened ((s.opened line).repeated label)
        refine ⟨new, ?_, hnr, hiff.trans ?_⟩
        · rw [← hnew]
          simp only [addLine, hlabel]
          exact addLabel_errors label
        · rw [hmalformed, hrepeated]
          simp [labelOf, blocksOf, warpsOf, hline, hlabel]
    | blocksDirective number =>
      obtain ⟨new, hnew, hnr, hiff⟩ :=
        hopened (if s.block_count.isSome then [errorOf "Duplicate blocks directive"] else [])
      refine ⟨new, ?_, hnr, hiff.trans ?_⟩
      · rw [← hnew]
        show (if s.block_count.isSome then _ else s.opened line).errors = _
        split_ifs <;> simp [opened, pushErrors]
      · simp [hmalformed, labelOf, blocksOf, warpsOf, hline, Option.isSome_iff_ne_none]
    | warpsDirective number =>
      obtain ⟨new, hnew, hnr, hiff⟩ :=
        hopened (if s.warp_count.isSome then [errorOf "Duplicate warps directive"] else [])
      refine ⟨new, ?_, hnr, hiff.trans ?_⟩
      · rw [← hnew]
        show (if s.warp_count.isSome then _ else s.opened line).errors = _
        split_ifs <;> simp [opened, pushErrors]
      · simp [hmalformed, labelOf, blocksOf, warpsOf, hline, Option.isSome_iff_ne_none]

/-! ## All lines -/

/-- What the local variables hold after the lines `done`. -/
structure Holds (done : List (List Char)) (s : ProgramState) : Prop where
  /-- The instructions of the lines, in order. -/
  instructions : s.instructions = done.filterMap instructionOf
  /-- The number of the lines. -/
  line_nr : s.line_nr = BitVec.ofNat 32 done.length
  /-- The number of the instructions. -/
  instr_count : s.instr_count = BitVec.ofNat 32 (instructionCount done)
  /-- The last `.blocks` directive. -/
  block_count : s.block_count = (done.filterMap blocksOf).getLast?
  /-- The last `.warps` directive. -/
  warp_count : s.warp_count = (done.filterMap warpsOf).getLast?
  /-- A label has the position of the first line that declares it. -/
  declared : ∀ earlier line later label, done = earlier ++ line :: later →
    labelOf line = some label → label ∉ earlier.filterMap labelOf →
      s.label_mappings.lookup label = some (BitVec.ofNat 32 (instructionCount earlier))
  /-- Nothing else is a label. -/
  undeclared : ∀ label, label ∉ done.filterMap labelOf → s.label_mappings.lookup label = none
  /-- A line that offends is reported with its number. -/
  reported : ∀ earlier line later, done = earlier ++ line :: later → Offends line earlier →
    ∃ e ∈ s.errors, e.line = BitVec.ofNat 32 (earlier.length + 1)
  /-- Nothing else is reported. -/
  offending : ∀ e ∈ s.errors, ∃ earlier line later, done = earlier ++ line :: later ∧
    Offends line earlier ∧ e.line = BitVec.ofNat 32 (earlier.length + 1)

/-- Before the first line there is nothing to hold. -/
theorem Holds.init : Holds [] .init where
  instructions := rfl
  line_nr := rfl
  instr_count := rfl
  block_count := rfl
  warp_count := rfl
  declared := by simp
  undeclared := fun _ _ => rfl
  reported := by simp
  offending := by simp [ProgramState.init]

/-- A line among some lines and one more is the last one, or is among the others. -/
theorem eq_append_cons_concat {α : Type} {done earlier later : List α} {x line : α}
    (h : done ++ [x] = earlier ++ line :: later) :
    (later = [] ∧ line = x ∧ earlier = done) ∨
      ∃ later', later = later' ++ [x] ∧ done = earlier ++ line :: later' := by
  rcases List.eq_nil_or_concat later with rfl | ⟨later', y, rfl⟩
  · obtain ⟨hdone, hx⟩ := List.append_inj' h rfl
    exact .inl ⟨rfl, (List.cons.inj hx).1.symm, hdone.symm⟩
  · have h' : done ++ [x] = (earlier ++ line :: later') ++ [y] := by simpa using h
    obtain ⟨hdone, hx⟩ := List.append_inj' h' rfl
    obtain rfl := (List.cons.inj hx).1
    exact .inr ⟨later', List.concat_eq_append, hdone⟩

/-- What some of the items map to is mapped to by a first one. -/
theorem exists_first {α β : Type} {f : α → Option β} {items : List α} {b : β}
    (h : b ∈ items.filterMap f) : ∃ earlier x later,
      items = earlier ++ x :: later ∧ f x = some b ∧ b ∉ earlier.filterMap f := by
  -- By induction on the items: the first of them is the one, or the one is among the others.
  induction items with
  | nil => simp at h
  | cons y items ih =>
    by_cases hy : f y = some b
    · exact ⟨[], y, items, rfl, hy, by simp⟩
    · have hmem : b ∈ items.filterMap f := by
        obtain ⟨x, hx, hb⟩ := List.mem_filterMap.mp h
        rcases List.mem_cons.mp hx with rfl | hx
        · exact absurd hb hy
        · exact List.mem_filterMap.mpr ⟨x, hx, hb⟩
      obtain ⟨earlier, x, later, rfl, hx, hfirst⟩ := ih hmem
      refine ⟨y :: earlier, x, later, rfl, hx, fun hb => hfirst ?_⟩
      rw [List.filterMap_cons] at hb
      cases hfy : f y with
      | none =>
        rw [hfy] at hb
        exact hb
      | some c =>
        rw [hfy] at hb
        rcases List.mem_cons.mp hb with rfl | hb
        · exact absurd hfy hy
        · exact hb

/-- A label has a position exactly if a line has declared it. -/
theorem Holds.lookup_isSome (h : Holds done s) (label : List Char) :
    (s.label_mappings.lookup label).isSome = true ↔ label ∈ done.filterMap labelOf := by
  constructor
  · intro hsome
    by_contra hmem
    rw [h.undeclared label hmem] at hsome
    simp at hsome
  · intro hmem
    obtain ⟨earlier, line, later, hdone, hlabel, hfirst⟩ := exists_first hmem
    rw [h.declared earlier line later label hdone hlabel hfirst]
    rfl

/-- A label that has a position keeps it. -/
theorem lookup_extended {label : List Char} {v : IData}
    (h : s.label_mappings.lookup label = some v) (o : Option (List Char)) :
    (s.extended o).lookup label = some v := by
  unfold extended
  cases o with
  | none => exact h
  | some new =>
    simp only
    split_ifs with hnew
    · exact h
    · have hne : (label == new) = false := by
        rw [beq_eq_false_iff_ne]
        rintro rfl
        simp [h] at hnew
      rw [List.lookup_cons, hne]
      exact h

/-- A line gives a position to no label but its own. -/
theorem lookup_extended_of_ne {label : List Char} {o : Option (List Char)}
    (h : s.label_mappings.lookup label = none) (ho : o ≠ some label) :
    (s.extended o).lookup label = none := by
  unfold extended
  cases o with
  | none => exact h
  | some new =>
    have hne : (label == new) = false := by
      rw [beq_eq_false_iff_ne]
      rintro rfl
      exact ho rfl
    simp only
    split_ifs
    · exact h
    · rw [List.lookup_cons, hne]
      exact h

/-- A label that has no position gets the number of the instructions so far. -/
theorem lookup_extended_self {label : List Char} (h : s.label_mappings.lookup label = none) :
    (s.extended (some label)).lookup label = some s.instr_count := by
  simp [extended, h]

/-- A selection from one item. -/
theorem filterMap_singleton {α β : Type} (f : α → Option β) (x : α) :
    [x].filterMap f = (f x).toList := by
  cases hx : f x with
  | none => simp [hx]
  | some b => simp [hx]

/-- The last item of a selection is that of the last item of the list, if it is selected. -/
theorem getLast?_filterMap_concat {α β : Type} (f : α → Option β) (items : List α) (x : α) :
    ((items ++ [x]).filterMap f).getLast? = (f x).or (items.filterMap f).getLast? := by
  rw [List.filterMap_append, filterMap_singleton]
  cases f x with
  | none => simp
  | some b => simp

/-- A line keeps what holds of the lines before it. -/
theorem Holds.step (h : Holds done s) (hs : s.step line = some s') : Holds (done ++ [line]) s' := by
  obtain ⟨hinstr, hnr, hcount, hblocks, hwarps, hlabels⟩ := step_fields hs
  obtain ⟨new, herrors, hnew, hoffends⟩ := step_errors hs
  have hnumber : s.line_nr + 1 = BitVec.ofNat 32 (done.length + 1) := by
    rw [h.line_nr, BitVec.ofNat_add]
    rfl
  have hoffends' : new ≠ [] ↔ Offends line done := by
    rw [hoffends]
    unfold Offends
    simp only [h.lookup_isSome, h.block_count, h.warp_count, List.getLast?_isSome, ne_eq]
  refine ⟨?_, ?_, ?_, ?_, ?_, ?_, ?_, ?_, ?_⟩
  · rw [hinstr, h.instructions, List.filterMap_append, filterMap_singleton]
  · rw [hnr, hnumber, List.length_append]
    rfl
  · unfold instructionCount
    rw [hcount, h.instr_count, List.filterMap_append, filterMap_singleton, List.length_append,
      BitVec.ofNat_add]
    rfl
  · rw [hblocks, h.block_count, getLast?_filterMap_concat]
  · rw [hwarps, h.warp_count, getLast?_filterMap_concat]
  · intro earlier x later label hdone hlabel hfirst
    rw [hlabels]
    rcases eq_append_cons_concat hdone with ⟨-, rfl, rfl⟩ | ⟨later', -, hdone'⟩
    · -- The declaration is on the new line.
      rw [hlabel, lookup_extended_self (h.undeclared label hfirst), h.instr_count]
    · -- It is on an earlier one, and the label keeps its position.
      exact lookup_extended (h.declared earlier x later' label hdone' hlabel hfirst) _
  · intro label hmem
    rw [List.filterMap_append, List.mem_append, not_or] at hmem
    rw [hlabels]
    refine lookup_extended_of_ne (h.undeclared label hmem.1) fun hlabel => hmem.2 ?_
    simp [hlabel]
  · intro earlier x later hdone hx
    rw [herrors]
    rcases eq_append_cons_concat hdone with ⟨-, rfl, rfl⟩ | ⟨later', -, hdone'⟩
    · -- The new line is offending, so it has added an error.
      obtain ⟨e, he⟩ := List.exists_mem_of_ne_nil new (hoffends'.mpr hx)
      exact ⟨e, List.mem_append_right _ he, (hnew e he).trans hnumber⟩
    · obtain ⟨e, he, hline⟩ := h.reported earlier x later' hdone' hx
      exact ⟨e, List.mem_append_left _ he, hline⟩
  · intro e he
    rw [herrors, List.mem_append] at he
    -- An error is either an earlier one or one of the new line, which is then offending.
    rcases he with he | he
    · obtain ⟨earlier, x, later, rfl, hx, hline⟩ := h.offending e he
      exact ⟨earlier, x, later ++ [line], by simp, hx, hline⟩
    · exact ⟨done, line, [], rfl, hoffends'.mp (List.ne_nil_of_mem he),
        (hnew e he).trans hnumber⟩

end ProgramState

/-! ## Programs -/

/-- Every line lexes, and parses if it has tokens; no label is declared twice, and each directive
occurs at most once. -/
structure WellFormed (lines : List (List Char)) : Prop where
  /-- Every line lexes. -/
  lexes : ∀ line ∈ lines, lexErrors line = []
  /-- Every line with tokens parses. -/
  parses : ∀ line ∈ lines, lineTokens line ≠ [] → ∃ val, parseLine (lineTokens line) = .ok val
  /-- No label is declared twice. -/
  labels : (lines.filterMap labelOf).Nodup
  /-- There is at most one `.blocks` directive. -/
  blocks : (lines.filterMap blocksOf).length ≤ 1
  /-- There is at most one `.warps` directive. -/
  warps : (lines.filterMap warpsOf).length ≤ 1

/-- The program is what the lines say. -/
structure Says (lines : List (List Char)) (program : Program) : Prop where
  /-- The instructions are those of the lines, in order. -/
  instructions : program.instructions = lines.filterMap instructionOf
  /-- A label stands for the number of the instructions above it. -/
  declared : ∀ earlier line later label, lines = earlier ++ line :: later →
    labelOf line = some label →
      program.label_mappings.lookup label = some (BitVec.ofNat 32 (instructionCount earlier))
  /-- Nothing else is a label. -/
  undeclared : ∀ label, label ∉ lines.filterMap labelOf →
    program.label_mappings.lookup label = none
  /-- The number of blocks is that of the directive, or one. -/
  blocks : program.blocks = (lines.filterMap blocksOf).head?.getD 1
  /-- The number of warps is that of the directive, or one. -/
  warps : program.warps = (lines.filterMap warpsOf).head?.getD 1

section Repetition

variable {α β : Type} {f : α → Option β} {items : List α}

/-- What the items map to has no duplicates if none repeats an earlier one. -/
theorem nodup_filterMap (h : ∀ earlier x later b, items = earlier ++ x :: later →
    f x = some b → b ∉ earlier.filterMap f) : (items.filterMap f).Nodup := by
  induction items using List.reverseRecOn with
  | nil => exact List.nodup_nil
  | append_singleton items x ih =>
    have hitems : (items.filterMap f).Nodup := by
      refine ih fun earlier y later b hsplit => ?_
      exact h earlier y (later ++ [x]) b (by rw [hsplit]; simp)
    rw [List.filterMap_append, ProgramState.filterMap_singleton]
    cases hx : f x with
    | none => simpa using hitems
    | some b =>
      have hb := h items x [] b rfl hx
      rw [Option.toList_some, List.nodup_append_comm]
      exact List.nodup_cons.mpr ⟨hb, hitems⟩

/-- The items map to at most one value if none follows another one that has a value. -/
theorem length_filterMap_le_one (h : ∀ earlier x later, items = earlier ++ x :: later →
    (f x).isSome = true → earlier.filterMap f = []) : (items.filterMap f).length ≤ 1 := by
  induction items using List.reverseRecOn with
  | nil => simp
  | append_singleton items x ih =>
    rw [List.filterMap_append, ProgramState.filterMap_singleton]
    cases hx : f x with
    | none =>
      have hitems : (items.filterMap f).length ≤ 1 := by
        refine ih fun earlier y later hsplit => ?_
        exact h earlier y (later ++ [x]) (by rw [hsplit]; simp)
      simpa using hitems
    | some b =>
      rw [h items x [] rfl (by rw [hx]; rfl)]
      simp

end Repetition

/-- A program is well formed exactly if no line is offending. -/
theorem wellFormed_iff {lines : List (List Char)} :
    WellFormed lines ↔
      ∀ earlier line later, lines = earlier ++ line :: later → ¬Offends line earlier := by
  constructor
  · rintro h earlier line later rfl hoffends
    have hmem : line ∈ earlier ++ line :: later := by simp
    -- A second value behind one of the earlier lines.
    have hlong : ∀ {f : List Char → Option IData}, (f line).isSome = true →
        earlier.filterMap f ≠ [] → 1 < ((earlier ++ line :: later).filterMap f).length := by
      intro f hline hne
      obtain ⟨n, hn⟩ := Option.isSome_iff_exists.mp hline
      have hpos := List.length_pos_iff.mpr hne
      rw [List.filterMap_append, List.filterMap_cons_some hn, List.length_append,
        List.length_cons]
      omega
    rcases hoffends with (hlex | ⟨htokens, errors, hparse⟩) | ⟨label, hlabel, hearlier⟩ |
      ⟨hblocks, hearlier⟩ | ⟨hwarps, hearlier⟩
    · exact hlex (h.lexes line hmem)
    · -- The line has tokens that do not parse.
      obtain ⟨val, hval⟩ := h.parses line hmem htokens
      rw [hparse] at hval
      simp at hval
    · -- The label of the line is among the earlier ones.
      have hnodup := h.labels
      rw [List.filterMap_append, List.filterMap_cons_some hlabel] at hnodup
      exact (List.nodup_append.mp hnodup).2.2 label hearlier label List.mem_cons_self rfl
    · exact absurd h.blocks (Nat.not_le.mpr (hlong hblocks hearlier))
    · exact absurd h.warps (Nat.not_le.mpr (hlong hwarps hearlier))
  · intro h
    have hwell : ∀ line ∈ lines, ¬Malformed line := by
      intro line hline hmalformed
      obtain ⟨earlier, later, hsplit⟩ := List.append_of_mem hline
      exact h earlier line later hsplit (.inl hmalformed)
    refine ⟨?_, ?_, ?_, ?_, ?_⟩
    · intro line hline
      by_contra hne
      exact hwell line hline (.inl hne)
    · intro line hline htokens
      cases hparse : parseLine (lineTokens line) with
      | ok val => exact ⟨val, rfl⟩
      | error errors => exact absurd (.inr ⟨htokens, errors, hparse⟩) (hwell line hline)
    · exact nodup_filterMap fun earlier line later label hsplit hlabel hmem =>
        h earlier line later hsplit (.inr (.inl ⟨label, hlabel, hmem⟩))
    · refine length_filterMap_le_one fun earlier line later hsplit hsome => ?_
      by_contra hne
      exact h earlier line later hsplit (.inr (.inr (.inl ⟨hsome, hne⟩)))
    · refine length_filterMap_le_one fun earlier line later hsplit hsome => ?_
      by_contra hne
      exact h earlier line later hsplit (.inr (.inr (.inr ⟨hsome, hne⟩)))

/-- Behind the loop, the local variables hold what they do after all lines. -/
theorem holds_of_foldlM {lines : List (List Char)} {s : ProgramState}
    (h : lines.foldlM ProgramState.step ProgramState.init = some s) : s.Holds lines :=
  Loop.foldlM_induction ProgramState.Holds (fun _ _ _ _ hinv hstep => hinv.step hstep)
    ProgramState.Holds.init h

/-- A loop without errors has gone through well-formed lines, and one with errors has not. -/
theorem ProgramState.Holds.errors_eq_nil_iff {lines : List (List Char)} {s : ProgramState}
    (h : s.Holds lines) : s.errors = [] ↔ WellFormed lines := by
  rw [wellFormed_iff]
  constructor
  · intro herrors earlier line later hsplit hoffends
    obtain ⟨e, he, -⟩ := h.reported earlier line later hsplit hoffends
    rw [herrors] at he
    simp at he
  · intro hwell
    by_contra hne
    obtain ⟨e, he⟩ := List.exists_mem_of_ne_nil s.errors hne
    obtain ⟨earlier, line, later, hsplit, hoffends, -⟩ := h.offending e he
    exact hwell earlier line later hsplit hoffends

/-- A loop without errors leaves the program that the lines say. -/
theorem ProgramState.Holds.toProgram {lines : List (List Char)} {s : ProgramState}
    (h : s.Holds lines) (hwell : WellFormed lines) :
    Says lines ⟨s.block_count.getD 1, s.warp_count.getD 1, s.instructions, s.label_mappings⟩ := by
  -- The last directive is the only one.
  have honly : ∀ {numbers : List IData}, numbers.length ≤ 1 → numbers.getLast? = numbers.head? := by
    intro numbers hlength
    match numbers with
    | [] => rfl
    | [n] => rfl
    | n :: m :: numbers => simp at hlength
  refine ⟨h.instructions, ?_, h.undeclared, ?_, ?_⟩
  · intro earlier line later label hsplit hlabel
    refine h.declared earlier line later label hsplit hlabel fun hearlier => ?_
    exact wellFormed_iff.mp hwell earlier line later hsplit (.inr (.inl ⟨label, hlabel, hearlier⟩))
  · show s.block_count.getD 1 = _
    rw [h.block_count, honly hwell.blocks]
  · show s.warp_count.getD 1 = _
    rw [h.warp_count, honly hwell.warps]

/-- A program that is accepted is what its lines say, which are well formed and on which lexing
ends. -/
theorem parseProgram_ok {lines : List (List Char)} {program : Program}
    (h : parseProgram lines = some (.ok program)) :
    (∀ line ∈ lines, ∃ lexed, collectTokens line = some lexed) ∧ WellFormed lines ∧
      Says lines program := by
  obtain ⟨s, hloop, hresult⟩ := Option.map_eq_some_iff.mp h
  have hholds := holds_of_foldlM hloop
  unfold ProgramState.result at hresult
  split_ifs at hresult with herrors
  obtain rfl := Except.ok.inj hresult
  have hwell := hholds.errors_eq_nil_iff.mp herrors
  refine ⟨fun line hline => ?_, hwell, hholds.toProgram hwell⟩
  obtain ⟨t, t', hstep⟩ := Loop.step_of_foldlM hloop hline
  obtain ⟨lexed, hlexed, -⟩ := Option.map_eq_some_iff.mp hstep
  exact ⟨lexed, hlexed⟩

/-- The loop goes through all lines if lexing ends on each. -/
theorem exists_holds {lines : List (List Char)}
    (hlex : ∀ line ∈ lines, ∃ lexed, collectTokens line = some lexed) :
    ∃ s : ProgramState, s.Holds lines ∧ parseProgram lines = some s.result := by
  have hstep : ∀ line ∈ lines, ∀ s : ProgramState, ∃ s', s.step line = some s' := by
    intro line hline s
    obtain ⟨lexed, hlexed⟩ := hlex line hline
    exact ⟨_, by unfold ProgramState.step; rw [hlexed]; rfl⟩
  obtain ⟨s, hloop⟩ := Loop.foldlM_isSome hstep ProgramState.init
  refine ⟨s, holds_of_foldlM hloop, ?_⟩
  unfold parseProgram
  rw [hloop]
  rfl

/-- Well-formed lines on which lexing ends are accepted. -/
theorem WellFormed.accepted {lines : List (List Char)} (h : WellFormed lines)
    (hlex : ∀ line ∈ lines, ∃ lexed, collectTokens line = some lexed) :
    ∃ program, parseProgram lines = some (.ok program) := by
  obtain ⟨s, hholds, hresult⟩ := exists_holds hlex
  rw [hresult]
  unfold ProgramState.result
  rw [if_pos (hholds.errors_eq_nil_iff.mpr h)]
  exact ⟨_, rfl⟩

/-- `parse_program` is exact on lines on which lexing ends. It returns a program if and only if the
lines are well formed, and the program is then what they say. Otherwise each offending line has an
error under its own number, and every error is under the number of an offending line. -/
theorem parse_program_exact {lines : List (List Char)}
    (hlex : ∀ line ∈ lines, ∃ lexed, collectTokens line = some lexed) :
    ((∃ program, parseProgram lines = some (.ok program)) ↔ WellFormed lines) ∧
      (∀ program, parseProgram lines = some (.ok program) → Says lines program) ∧
        (¬WellFormed lines → ∃ errors, parseProgram lines = some (.error errors) ∧
          (∀ earlier line later, lines = earlier ++ line :: later → Offends line earlier →
            ∃ e ∈ errors, e.line = BitVec.ofNat 32 (earlier.length + 1)) ∧
          ∀ e ∈ errors, ∃ earlier line later, lines = earlier ++ line :: later ∧
            Offends line earlier ∧ e.line = BitVec.ofNat 32 (earlier.length + 1)) := by
  obtain ⟨s, hholds, hresult⟩ := exists_holds hlex
  refine ⟨⟨fun ⟨program, h⟩ => (parseProgram_ok h).2.1, fun hwell => hwell.accepted hlex⟩,
    fun program h => (parseProgram_ok h).2.2, fun hwell => ⟨s.errors, ?_, hholds.reported,
      hholds.offending⟩⟩
  rw [hresult]
  unfold ProgramState.result
  rw [if_neg fun herrors => hwell (hholds.errors_eq_nil_iff.mp herrors)]

/-- A label declared on two lines is reported on the second one. -/
theorem parse_program_exact_duplicate :
    ((∃ program, parseProgram ["L:".toList, "L: halt".toList] = some (.ok program)) ↔
        WellFormed ["L:".toList, "L: halt".toList]) ∧
      (∀ program, parseProgram ["L:".toList, "L: halt".toList] = some (.ok program) →
        Says ["L:".toList, "L: halt".toList] program) ∧
      (¬WellFormed ["L:".toList, "L: halt".toList] → ∃ errors,
        parseProgram ["L:".toList, "L: halt".toList] = some (.error errors) ∧
          (∀ earlier line later, ["L:".toList, "L: halt".toList] = earlier ++ line :: later →
            Offends line earlier → ∃ e ∈ errors, e.line = BitVec.ofNat 32 (earlier.length + 1)) ∧
          ∀ e ∈ errors, ∃ earlier line later,
            ["L:".toList, "L: halt".toList] = earlier ++ line :: later ∧ Offends line earlier ∧
              e.line = BitVec.ofNat 32 (earlier.length + 1)) := by
  refine parse_program_exact fun line hline => Option.isSome_iff_exists.mp ?_
  revert line
  decide +kernel

end SmolGpu.As
