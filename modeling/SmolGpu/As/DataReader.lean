import Mathlib.Logic.Function.Basic
import SmolGpu.As.Numbers
import SmolGpu.Library.Loop
import SmolGpu.Library.Trim

/-!
# The data file reader

`src/sim/aslib/data_reader.cpp`: a file of lines `address: value` for the data memory. `parse_line`
splits a line at its first colon and calls `parse_num` on both sides, and does not look at what the
calls leave. So a line is also loaded if something follows a numeral (`Sloppy`), be it a comment, a
second number, a fraction, or another colon. `data_line_exact_iff` says that all other lines are
read exactly.
-/

namespace SmolGpu.As

open Sim Numeral Trim

/-- `trim_line`. -/
def trimLine (line : List Char) : List Char :=
  (line.dropWhile isWhitespace).rdropWhile isWhitespace

namespace DataReader

/-- `parse_line` of the data reader. -/
def parseLine (line : List Char) : Option (IData × IData) :=
  let line := trimLine line
  match line.findIdx? (· = ':') with
  | none => none
  | some pos =>
    let left := trimLine (line.take pos)
    let right := trimLine (line.drop (pos + 1))
    -- Only the numbers are used, and not what is left of the two sides.
    match (parseNum left).1 with
    | .error _ => none
    | .ok address =>
      match (parseNum right).1 with
      | .error _ => none
      | .ok value => some (address, value)

/-- The body of the loop of `read_data`. The error of the source is a view of a text that no longer
exists when the function has returned; here it is that text. -/
def readLine (data_memory : IData → Option IData) (line : List Char) :
    Except String (IData → Option IData) :=
  match parseLine line with
  | none => .error ("Failed to parse line: '" ++ String.ofList line ++ "'")
  | some (address, value) => .ok (Function.update data_memory address (some value))

/-- `read_data`, on the lines of the file. -/
def readData (lines : List (List Char)) : Except String (IData → Option IData) :=
  lines.foldlM readLine fun _ => none

/-! ## The lines of a data file -/

/-- The text is a numeral and nothing else. -/
def CompleteNumeral (source : List Char) (number : IData) : Prop :=
  ∃ negative base digits, NumeralAt source negative base digits [] ∧
    number.toInt = signedValue negative base digits

/-- Only blanks. -/
def Blank (text : List Char) : Prop := ∀ c ∈ text, isWhitespace c = true

/-- The line is a complete numeral, a colon, and a complete numeral, with blanks around each. -/
def DataLine (line : List Char) (address value : IData) : Prop :=
  ∃ a left b c right d, line = a ++ left ++ b ++ ':' :: (c ++ right ++ d) ∧
    Blank a ∧ Blank b ∧ Blank c ∧ Blank d ∧
      CompleteNumeral left address ∧ CompleteNumeral right value

/-- What stands around the first colon of the line, without the blanks around it. -/
def Around (line left right : List Char) : Prop :=
  ∃ l r, line = l ++ ':' :: r ∧ ':' ∉ l ∧ Trims isWhitespace l left ∧ Trims isWhitespace r right

/-- The text begins with a numeral. -/
def BeginsWithNumeral (source : List Char) : Prop :=
  ∃ negative base digits rest, NumeralAt source negative base digits rest

/-- Both sides of the first colon begin with a numeral, and not both are complete. -/
def Sloppy (line : List Char) : Prop :=
  ∃ left right, Around line left right ∧ BeginsWithNumeral left ∧ BeginsWithNumeral right ∧
    ¬((∃ address, CompleteNumeral left address) ∧ ∃ value, CompleteNumeral right value)

/-- The line is read exactly: `parse_line` returns the two numerals of a line of the file's form,
and every other line makes `read_data` report an error, wherever the line stands. -/
structure DataLineExact (line : List Char) : Prop where
  /-- The lines of the form are parsed to their numerals. -/
  parsed : ∀ address value, parseLine line = some (address, value) ↔ DataLine line address value
  /-- The others make the reader report an error. -/
  reported : (∀ address value, ¬DataLine line address value) →
    ∀ earlier later, ∃ error, readData (earlier ++ line :: later) = .error error

/-! ## Splitting a line -/

section Split

variable {line left right left' right' l r source : List Char} {address value number : IData}

/-- A colon is no blank. -/
theorem isWhitespace_colon : isWhitespace ':' = false := by decide

/-- What is in front of the first colon. -/
theorem takeWhile_colon (hl : ':' ∉ l) : (l ++ ':' :: r).takeWhile (· ≠ ':') = l := by
  refine takeWhile_exact (fun c hc => ?_) fun c hc => ?_
  · have hne : c ≠ ':' := fun h => hl (h ▸ hc)
    simpa using hne
  · obtain rfl := Option.some.inj hc
    simp

/-- A line is split at its first colon, in one way. -/
theorem Around.unique (h : Around line left right) (h' : Around line left' right') :
    left = left' ∧ right = right' := by
  obtain ⟨l, r, rfl, hl, hleft, hright⟩ := h
  obtain ⟨l', r', hline, hl', hleft', hright'⟩ := h'
  have hfront : l = l' := by
    rw [← @takeWhile_colon l r hl, hline, takeWhile_colon hl']
  subst hfront
  obtain ⟨-, rfl⟩ := List.cons.inj (List.append_cancel_left hline)
  exact ⟨hleft.trim_eq.symm.trans hleft'.trim_eq, hright.trim_eq.symm.trans hright'.trim_eq⟩

/-- The first colon is behind a text without one. -/
theorem findIdx?_colon (hl : ':' ∉ l) : (l ++ ':' :: r).findIdx? (· = ':') = some l.length := by
  have hnone : l.findIdx? (· = ':') = none := by
    rw [List.findIdx?_eq_none_iff]
    intro c hc
    have hne : c ≠ ':' := fun h => hl (h ▸ hc)
    simpa using hne
  rw [List.findIdx?_append, hnone, List.findIdx?_cons]
  simp

/-- A line without a colon has no numbers. -/
theorem parseLine_no_colon (h : ':' ∉ line) : parseLine line = none := by
  have hnone : (trimLine line).findIdx? (· = ':') = none := by
    rw [List.findIdx?_eq_none_iff]
    intro c hc
    obtain ⟨front, back, hline, -, -⟩ := (trims_trim (p := isWhitespace) line).form
    have hmem : c ∈ line := by
      rw [hline]
      exact List.mem_append_left _ (List.mem_append_right _ hc)
    have hne : c ≠ ':' := fun hcolon => h (hcolon ▸ hmem)
    simpa using hne
  unfold parseLine
  simp only [hnone]

/-- What the two calls of `parse_num` see of a line with a colon. The blanks at its ends are removed
twice. -/
theorem parseLine_colon (h : ':' ∈ line) : ∃ left right, Around line left right ∧
    ∀ address value, parseLine line = some (address, value) ↔
      (parseNum left).1 = .ok address ∧ (parseNum right).1 = .ok value := by
  -- Trimming the line leaves its colons, as a blank is none.
  obtain ⟨front, back, hline, hfront, hback⟩ := (trims_trim (p := isWhitespace) line).form
  have hblank : ∀ {c}, isWhitespace c = true → c ≠ ':' := by
    rintro c hc rfl
    rw [isWhitespace_colon] at hc
    simp at hc
  have hmem : ':' ∈ trim isWhitespace line := by
    rw [hline] at h
    rcases List.mem_append.mp h with h | h
    · rcases List.mem_append.mp h with h | h
      · exact absurd rfl (hblank (hfront _ h))
      · exact h
    · exact absurd rfl (hblank (hback _ h))
  -- The line is split at the first colon of what is left.
  obtain ⟨l, r, htrim, hl⟩ := List.eq_append_cons_of_mem hmem
  refine ⟨trimLine l, trimLine r, ⟨front ++ l, r ++ back, ?_, ?_, ?_, ?_⟩, fun address value => ?_⟩
  · -- So its two sides are those of the whole line, with the blanks outside.
    rw [hline, htrim]
    simp
  · rintro hmem
    rcases List.mem_append.mp hmem with hmem | hmem
    · exact hblank (hfront _ hmem) rfl
    · exact hl hmem
  · exact (trims_trim l).append_front hfront
  · exact (trims_trim r).append_back hback
  · -- And `parse_line` reads a number from each of them.
    have hpos : (trimLine line).findIdx? (· = ':') = some l.length := by
      show (trim isWhitespace line).findIdx? (· = ':') = _
      rw [htrim, findIdx?_colon hl]
    have htake : (trimLine line).take l.length = l := by
      show (trim isWhitespace line).take _ = _
      rw [htrim, List.take_left]
    have hdrop : (trimLine line).drop (l.length + 1) = r := by
      show (trim isWhitespace line).drop _ = _
      rw [htrim, ← List.drop_drop, List.drop_left]
      rfl
    unfold parseLine
    simp only [hpos, htake, hdrop]
    cases (parseNum (trimLine l)).1 with
    | error _ => simp
    | ok n =>
      cases (parseNum (trimLine r)).1 with
      | error _ => simp
      | ok m => simp

end Split

/-! ## Numerals and blanks -/

section Numerals

variable {line left right source : List Char} {address value number : IData}

/-- A digit is neither a blank nor a colon. -/
theorem isDigit_ne {base : ℕ} {c : Char} (h : IsDigit base c) :
    isWhitespace c = false ∧ c ≠ ':' := by
  have h0 : '0' ≤ c ↔ 48 ≤ c.toNat := Char.le_def
  have hA : 'A' ≤ c ↔ 65 ≤ c.toNat := Char.le_def
  have ha : 'a' ≤ c ↔ 97 ≤ c.toNat := Char.le_def
  have hge : 48 ≤ c.toNat := by
    obtain ⟨d, hd, -⟩ := h
    unfold digit? at hd
    simp only [h0, hA, ha] at hd
    split_ifs at hd <;> omega
  refine ⟨?_, ?_⟩
  · by_contra hblank
    rcases of_decide_eq_true (Bool.of_not_eq_false hblank) with rfl | rfl | rfl | rfl <;>
      exact absurd hge (by decide)
  · rintro rfl
    obtain ⟨d, hd, -⟩ := h
    rw [show digit? ':' = none by decide] at hd
    simp at hd

/-- A complete numeral has no blanks and no colon. -/
theorem CompleteNumeral.no_blank (h : CompleteNumeral source number) :
    ∀ c ∈ source, isWhitespace c = false ∧ c ≠ ':' := by
  obtain ⟨negative, base, digits, hnumeral, -⟩ := h
  obtain ⟨body, rfl, hpre⟩ := hnumeral.form
  rw [List.append_nil] at hpre
  have hdigits : ∀ c ∈ digits, isWhitespace c = false ∧ c ≠ ':' := fun c hc =>
    isDigit_ne (hnumeral.digit c hc)
  -- The mark of the base adds a zero and a letter.
  have hbody : ∀ c ∈ body, isWhitespace c = false ∧ c ≠ ':' := by
    intro c hc
    cases hpre with
    | hexadecimal x rest hx =>
      rcases List.mem_cons.mp hc with rfl | hc
      · decide
      rcases List.mem_cons.mp hc with rfl | hc
      · rcases hx with rfl | rfl <;> decide
      · exact hdigits c hc
    | binary b rest hb =>
      rcases List.mem_cons.mp hc with rfl | hc
      · decide
      rcases List.mem_cons.mp hc with rfl | hc
      · rcases hb with rfl | rfl <;> decide
      · exact hdigits c hc
    | octal => exact hdigits c hc
    | decimal => exact hdigits c hc
  intro c hc
  -- The sign adds a minus.
  cases negative with
  | false => exact hbody c hc
  | true =>
    rcases List.mem_cons.mp hc with rfl | hc
    · decide
    · exact hbody c hc

/-- A numeral is complete when `parse_num` leaves nothing of it. -/
theorem completeNumeral_iff : CompleteNumeral source number ↔ parseNum source = (.ok number, []) :=
  parseNum_ok_iff_numeralAt.symm

/-- A call of `parse_num` returns a number where there is a numeral, whatever is behind it. -/
theorem beginsWithNumeral_iff :
    BeginsWithNumeral source ↔ ∃ number, (parseNum source).1 = .ok number := by
  constructor
  · rintro ⟨negative, base, digits, rest, h⟩
    have hparse : parseNum source = (.ok (signedWord negative base digits), rest) :=
      parseNum_ok_iff_numeralAt.mpr ⟨negative, base, digits, h, h.toInt_signedWord⟩
    exact ⟨_, by rw [hparse]⟩
  · rintro ⟨number, h⟩
    obtain ⟨negative, base, digits, hnumeral, -⟩ :=
      parseNum_ok_iff_numeralAt.mp (Prod.ext h rfl : parseNum source = (.ok number, _))
    exact ⟨negative, base, digits, _, hnumeral⟩

/-- A complete numeral between blanks is what is left without the blanks. -/
theorem CompleteNumeral.trims {a b : List Char} (h : CompleteNumeral source number) (ha : Blank a)
    (hb : Blank b) : Trims isWhitespace (a ++ source ++ b) source where
  form := ⟨a, b, rfl, ha, hb⟩
  head c hc := (h.no_blank c (List.mem_of_head? hc)).1
  last c hc := (h.no_blank c (List.mem_of_getLast? hc)).1

/-- A line is of the file's form if what stands around its first colon is complete. -/
theorem dataLine_iff : DataLine line address value ↔ ∃ left right, Around line left right ∧
    CompleteNumeral left address ∧ CompleteNumeral right value := by
  constructor
  · rintro ⟨a, left, b, c, right, d, rfl, ha, hb, hc, hd, hleft, hright⟩
    refine ⟨left, right, ⟨a ++ left ++ b, c ++ right ++ d, rfl, fun hmem => ?_,
      hleft.trims ha hb, hright.trims hc hd⟩, hleft, hright⟩
    rcases List.mem_append.mp hmem with hmem | hmem
    · rcases List.mem_append.mp hmem with hmem | hmem
      · exact absurd (ha ':' hmem) (by decide)
      · exact (hleft.no_blank ':' hmem).2 rfl
    · exact absurd (hb ':' hmem) (by decide)
  · rintro ⟨left, right, ⟨l, r, rfl, -, hl, hr⟩, hleft, hright⟩
    obtain ⟨a, b, rfl, ha, hb⟩ := hl.form
    obtain ⟨c, d, rfl, hc, hd⟩ := hr.form
    exact ⟨a, left, b, c, right, d, rfl, ha, hb, hc, hd, hleft, hright⟩

/-- A line that is split has a colon. -/
theorem Around.colon (h : Around line left right) : ':' ∈ line := by
  obtain ⟨l, r, rfl, -⟩ := h
  simp

end Numerals

/-! ## Reading -/

/-- A line from which no numbers are read makes `read_data` report an error. -/
theorem readData_error {line : List Char} (h : parseLine line = none)
    (earlier later : List (List Char)) :
    ∃ error, readData (earlier ++ line :: later) = .error error := by
  have hline (data_memory : IData → Option IData) : ∃ error,
      readLine data_memory line = .error error := by
    unfold readLine
    rw [h]
    exact ⟨_, rfl⟩
  exact Loop.foldlM_error hline (by simp) _

/-- A line is read exactly if and only if it is not one with two sides that both begin with a
numeral and are not both complete. -/
theorem data_line_exact_iff (line : List Char) : DataLineExact line ↔ ¬Sloppy line := by
  constructor
  · rintro h ⟨left, right, haround, hleft, hright, hincomplete⟩
    obtain ⟨address, haddress⟩ := beginsWithNumeral_iff.mp hleft
    obtain ⟨value, hvalue⟩ := beginsWithNumeral_iff.mp hright
    -- The line is loaded, so it should be of the file's form.
    obtain ⟨left', right', haround', hread⟩ := parseLine_colon haround.colon
    obtain ⟨rfl, rfl⟩ := haround.unique haround'
    have hline := (h.parsed address value).mp ((hread address value).mpr ⟨haddress, hvalue⟩)
    obtain ⟨left', right', haround', hleft', hright'⟩ := dataLine_iff.mp hline
    obtain ⟨rfl, rfl⟩ := haround.unique haround'
    exact hincomplete ⟨⟨address, hleft'⟩, value, hright'⟩
  · intro h
    have hparsed : ∀ address value,
        parseLine line = some (address, value) ↔ DataLine line address value := by
      intro address value
      rw [dataLine_iff]
      by_cases hcolon : ':' ∈ line
      · obtain ⟨left, right, haround, hread⟩ := parseLine_colon hcolon
        rw [hread]
        constructor
        · rintro ⟨haddress, hvalue⟩
          -- Both sides begin with a numeral, so both are complete.
          have hcomplete : (∃ address, CompleteNumeral left address) ∧
              ∃ value, CompleteNumeral right value := by
            by_contra hnot
            exact h ⟨left, right, haround, beginsWithNumeral_iff.mpr ⟨address, haddress⟩,
              beginsWithNumeral_iff.mpr ⟨value, hvalue⟩, hnot⟩
          obtain ⟨⟨address', hleft⟩, value', hright⟩ := hcomplete
          have haddress' := completeNumeral_iff.mp hleft
          have hvalue' := completeNumeral_iff.mp hright
          rw [haddress'] at haddress
          rw [hvalue'] at hvalue
          obtain rfl := Except.ok.inj haddress
          obtain rfl := Except.ok.inj hvalue
          exact ⟨left, right, haround, hleft, hright⟩
        · rintro ⟨left', right', haround', hleft, hright⟩
          obtain ⟨rfl, rfl⟩ := haround.unique haround'
          rw [completeNumeral_iff.mp hleft, completeNumeral_iff.mp hright]
          exact ⟨rfl, rfl⟩
      · rw [parseLine_no_colon hcolon]
        constructor
        · intro hnone
          cases hnone
        · rintro ⟨left, right, haround, -⟩
          exact absurd haround.colon hcolon
    refine ⟨hparsed, fun hnot earlier later => readData_error ?_ earlier later⟩
    cases hparse : parseLine line with
    | none => rfl
    | some numbers => exact absurd ((hparsed numbers.1 numbers.2).mp hparse) (hnot _ _)

/-- A line with a second number is loaded as its first one. -/
theorem second_number_loaded : ¬∀ line, DataLineExact line := by
  intro h
  have hline := ((h "5 : 6 7".toList).parsed 5 6).mp (by decide +kernel)
  obtain ⟨left, right, haround, -, hright⟩ := dataLine_iff.mp hline
  have haround' : Around "5 : 6 7".toList ['5'] ['6', ' ', '7'] :=
    ⟨['5', ' '], [' ', '6', ' ', '7'], by decide, by decide,
      ⟨⟨[], [' '], rfl, by simp, by simp [isWhitespace]⟩, by simp [isWhitespace],
        by simp [isWhitespace]⟩,
      ⟨⟨[' '], [], rfl, by simp [isWhitespace], by simp⟩, by simp [isWhitespace],
        by simp [isWhitespace]⟩⟩
  obtain ⟨rfl, rfl⟩ := haround.unique haround'
  exact absurd (hright.no_blank ' ' (by decide)).1 (by decide)

end DataReader

end SmolGpu.As
