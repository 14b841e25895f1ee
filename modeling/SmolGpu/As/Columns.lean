import Mathlib.Data.List.Forall2
import SmolGpu.As.Lexemes

/-!
# Columns

The lexer counts the characters that it removes, with two exceptions. A directive is reported at the
column behind it, and the characters that `parse_num` has removed when it fails are not counted. So
the column of a token or an error is the place of its lexeme if and only if the characters that were
lost to malformed numbers in front of it are as many as its own, if it is a directive, and none
otherwise (`columns_faithful_iff`).

`lexemes` is the sequence of lexemes of a line, with their places, as it follows from the characters
alone. `columns_of_scan` says at which columns the lexer reports them.
-/

namespace SmolGpu.As

open Sim

/-! ## Lexemes -/

/-- The kinds of lexemes that the lexer's columns depend on. -/
inductive LexemeKind
  | directive
  | malformed
  | other
  deriving DecidableEq, Repr

/-- A lexeme: the number of characters in front of it, its own, and those of the malformed numbers
in front of it. -/
structure Lexeme where
  start : ℕ
  length : ℕ
  kind : LexemeKind
  lost : ℕ
  deriving DecidableEq, Repr

/-- The number of characters of the lexeme at the front of a source without a blank in front. -/
def lexemeLength : List Char → ℕ
  | [] => 0
  | c :: rest =>
    if c = '-' ∨ isNumeric c 10 then (c :: rest).length - (parseNum (c :: rest)).2.length
    else if isAlphabetic c then ((c :: rest).takeWhile Lexer.isKeywordChar).length
    else if c = '.' then (rest.takeWhile fun c => !isWhitespace c).length + 1
    else 1

/-- The kind of this lexeme. -/
def lexemeKind : List Char → LexemeKind
  | [] => .other
  | c :: rest =>
    if c = '-' ∨ isNumeric c 10 then
      match (parseNum (c :: rest)).1 with
      | .error _ => .malformed
      | .ok _ => .other
    else if c = '.' then .directive
    else .other

/-- The lexemes of the source behind `position` characters, of which `lost` belong to malformed
numbers, up to the end of the line or a comment. -/
def lexemesFrom : ℕ → ℕ → ℕ → List Char → List Lexeme
  | 0, _, _, _ => []
  | count + 1, position, lost, source =>
    let start := position + (source.takeWhile isWhitespace).length
    let source := source.dropWhile isWhitespace
    if source.head?.all (· = '#') then []
    else
      let length := lexemeLength source
      let kind := lexemeKind source
      ⟨start, length, kind, lost⟩ ::
        lexemesFrom count (start + length) (if kind = .malformed then lost + length else lost)
          (source.drop length)

/-- The lexemes of a line. Where lexing ends there are at most as many as the line has
characters. -/
def lexemes (line : List Char) : List Lexeme := lexemesFrom (line.length + 1) 0 0 line

/-- The column of a token or an error. -/
def columnOf : Except Error Token → IData
  | .ok token => token.col
  | .error error => error.column

/-- Every token and error of a line is reported at the place of its lexeme, counted from 1, and the
columns of the tokens are strictly increasing. -/
structure ColumnsFaithful (line : List Char) (results : List (Except Error Token)) : Prop where
  /-- Every column is the place of its lexeme. -/
  lexeme : List.Forall₂ (fun result lexeme => (columnOf result).toNat = lexeme.start + 1) results
    (lexemes line)
  /-- The columns of the tokens increase. -/
  increasing : ((tokensOf results).map fun token => token.col.toNat).Pairwise (· < ·)

/-- How far behind the front of its lexeme the lexer takes the column. -/
def Lexeme.offset (lexeme : Lexeme) : ℕ := if lexeme.kind = .directive then lexeme.length else 0

/-! ## One call -/

namespace Lexer

variable {lexer rest : Lexer} {result : Except Error Token} {c : Char} {source : List Char}

/-- What a call at a lexeme removes, and how it counts it. -/
structure Takes (lexer : Lexer) (result : Except Error Token) (rest : Lexer) : Prop where
  /-- The lexeme is removed. -/
  source : rest.source = lexer.source.drop (lexemeLength lexer.source)
  /-- The token is reported in front of it, but a directive behind it. -/
  reported : columnOf result = lexer.column_number + BitVec.ofNat 32
    (if lexemeKind lexer.source = .directive then lexemeLength lexer.source else 0)
  /-- Its characters are counted, but those of a malformed number. -/
  counted : rest.column_number = lexer.column_number + BitVec.ofNat 32
    (if lexemeKind lexer.source = .malformed then 0 else lexemeLength lexer.source)

/-- A number is taken from the front, with its characters counted. -/
theorem takes_number (hsource : lexer.source = c :: source) (hc : c = '-' ∨ isNumeric c 10 = true) :
    Takes lexer lexer.parseNumber.1 lexer.parseNumber.2 := by
  have hlength : lexemeLength lexer.source =
      lexer.source.length - (parseNum lexer.source).2.length := by
    rw [hsource]
    exact if_pos hc
  have hrest : lexer.source.drop (lexemeLength lexer.source) = (parseNum lexer.source).2 := by
    rw [hlength]
    exact (List.suffix_iff_eq_drop.mp (parseNum_suffix lexer.source)).symm
  have hkind : lexemeKind lexer.source =
      match (parseNum lexer.source).1 with
      | .error _ => .malformed
      | .ok _ => .other := by
    rw [hsource]
    exact if_pos hc
  unfold parseNumber
  cases hparse : parseNum lexer.source with
  | mk number left =>
    rw [hparse] at hlength hrest hkind
    cases number with
    | error error =>
      -- Nothing is counted.
      refine ⟨hrest.symm, ?_, ?_⟩ <;> simp [hkind, columnOf, makeErrorAt]
    | ok number =>
      refine ⟨hrest.symm, ?_, ?_⟩ <;> simp [hkind, hlength, columnOf]

/-- The errors of registers and references are at the column of the word. -/
theorem registerOrLabelRef_error {word : List Char} {col : IData} {error : Error}
    (h : registerOrLabelRef word col = .error error) : error.column = col := by
  rcases registerOrLabelRef_cases word col with
    ⟨reg, -, hok⟩ | ⟨-, ⟨-, hok⟩ | ⟨-, error', herror, hcol⟩⟩
  · rw [hok] at h
    cases h
  · rw [hok] at h
    cases h
  · rw [herror] at h
    obtain rfl := Except.error.inj h
    exact hcol

/-- The error of a word is at the word's column. -/
theorem keywordToken_error {word : List Char} {col : IData} {error : Error}
    (h : keywordToken word col = .error error) : error.column = col := by
  unfold keywordToken at h
  split at h
  · cases h
  · split_ifs at h
    · exact registerOrLabelRef_error h
    · exact registerOrLabelRef_error h

/-- A word is taken from the front, with its characters counted. -/
theorem takes_keyword (hsource : lexer.source = c :: source)
    (hnumber : ¬(c = '-' ∨ isNumeric c 10 = true)) (hletter : isAlphabetic c = true) :
    Takes lexer lexer.parseKeyword.1 lexer.parseKeyword.2 := by
  have hdot : c ≠ '.' := by
    rintro rfl
    exact absurd (isAlphabetic_toNat hletter) (by decide)
  have hlength : lexemeLength lexer.source = lexer.keyword.length := by
    rw [hsource, lexemeLength, if_neg hnumber, if_pos hletter, keyword, hsource]
  have hkind : lexemeKind lexer.source = .other := by
    rw [hsource, lexemeKind, if_neg hnumber, if_neg hdot]
  -- Every token and every error of a keyword has the column of the keyword's first character.
  have hcol : columnOf lexer.parseKeyword.1 = lexer.column_number := by
    rw [parseKeyword_fst]
    cases hword : keywordToken lexer.keyword lexer.column_number with
    | error error => exact keywordToken_error hword
    | ok token =>
      rcases keywordToken_ok hword with ⟨opcode, rfl⟩ | ⟨name, -, rfl⟩ | ⟨tried, reg, -, -, rfl⟩ |
        ⟨-, -, -, rfl⟩
      · rfl
      · rfl
      · rfl
      · rfl
  refine ⟨?_, ?_, ?_⟩
  · rw [hlength]
    rfl
  · rw [hcol, hkind]
    simp
  · rw [hkind, hlength]
    rfl

/-- A character that is a token or an error of its own. -/
theorem takes_single (hsource : lexer.source = c :: source)
    (hnumber : ¬(c = '-' ∨ isNumeric c 10 = true)) (hletter : ¬isAlphabetic c = true)
    (hdot : c ≠ '.') (hcol : columnOf result = lexer.column_number) :
    Takes lexer result lexer.chop := by
  have hlength : lexemeLength lexer.source = 1 := by
    rw [hsource, lexemeLength, if_neg hnumber, if_neg hletter, if_neg hdot]
  have hkind : lexemeKind lexer.source = .other := by
    rw [hsource, lexemeKind, if_neg hnumber, if_neg hdot]
  refine ⟨?_, ?_, ?_⟩
  · rw [hlength]
    rfl
  · rw [hcol, hkind]
    simp
  · rw [hkind, hlength]
    rfl

/-- A directive is reported behind its word, whether there is one of that name or not. -/
theorem parseDirective_column (lexer : Lexer) :
    columnOf lexer.parseDirective.1 = lexer.parseDirective.2.column_number ∧
      lexer.parseDirective.2 = (lexer.chopWhile fun c => !isWhitespace c).2 := by
  unfold parseDirective
  simp only
  split_ifs
  · exact ⟨rfl, rfl⟩
  · exact ⟨rfl, rfl⟩
  · exact ⟨rfl, rfl⟩
  · exact ⟨rfl, rfl⟩

/-- A directive is taken from the front, with its characters counted. -/
theorem takes_directive (hsource : lexer.source = '.' :: source) :
    Takes lexer lexer.chop.parseDirective.1 lexer.chop.parseDirective.2 := by
  have hlength : lexemeLength lexer.source =
      (source.takeWhile fun c => !isWhitespace c).length + 1 := by
    rw [hsource]
    rfl
  have hkind : lexemeKind lexer.source = .directive := by
    rw [hsource]
    rfl
  have hchop : lexer.chop.source = source := by
    unfold chop
    rw [hsource]
    rfl
  obtain ⟨hcol, hrest⟩ := parseDirective_column lexer.chop
  -- All characters of the directive are counted before it is reported.
  have hcount : lexer.chop.parseDirective.2.column_number =
      lexer.column_number + BitVec.ofNat 32 (lexemeLength lexer.source) := by
    rw [hrest, hlength]
    unfold chopWhile
    simp only [hchop]
    rw [Nat.add_comm, BitVec.ofNat_add, ← BitVec.add_assoc]
    rfl
  refine ⟨?_, ?_, ?_⟩
  · rw [hrest, hlength, hsource, List.drop_succ_cons]
    unfold chopWhile
    simp only [hchop]
  · rw [hcol, hcount, hkind]
    simp
  · rw [hcount, hkind]
    simp

/-- A call at a character takes the lexeme there. -/
theorem tokenAt_takes (hsource : lexer.source = c :: source) :
    Takes lexer (lexer.tokenAt c).1 (lexer.tokenAt c).2 := by
  unfold tokenAt
  split_ifs with hnumber hletter hlparen hrparen hcomma hdot
  · exact takes_number hsource hnumber
  · exact takes_keyword hsource hnumber hletter
  · exact takes_single hsource hnumber hletter (by rw [hlparen]; decide) rfl
  · exact takes_single hsource hnumber hletter (by rw [hrparen]; decide) rfl
  · exact takes_single hsource hnumber hletter (by rw [hcomma]; decide) rfl
  · rw [hdot] at hsource
    exact takes_directive hsource
  · exact takes_single hsource hnumber hletter hdot rfl

/-- A call removes the blanks in front of the next lexeme, and takes the lexeme. -/
theorem nextToken_takes (h : lexer.nextToken = (some result, rest)) :
    lexer.trimWhitespace.source.head?.all (· = '#') = false ∧
      Takes lexer.trimWhitespace result rest := by
  obtain ⟨c, source, hsource, hhash, htoken⟩ := nextToken_eq_some h
  have htakes := tokenAt_takes hsource
  rw [htoken] at htakes
  refine ⟨?_, htakes⟩
  rw [hsource]
  simpa using hhash

/-- At the end of a line or a comment there is no lexeme. -/
theorem nextToken_none (h : lexer.nextToken = (none, rest)) :
    lexer.trimWhitespace.source.head?.all (· = '#') = true := by
  obtain ⟨rfl, hend⟩ := nextToken_eq_none h
  rcases hend with hend | ⟨comment, hend⟩
  · rw [hend]
    rfl
  · rw [hend]
    rfl

/-- `trim_whitespace` leaves what is behind the blanks. -/
theorem trimWhitespace_source (lexer : Lexer) :
    lexer.trimWhitespace.source = lexer.source.dropWhile isWhitespace :=
  calc lexer.source.drop (lexer.source.takeWhile isWhitespace).length
      = (lexer.source.takeWhile isWhitespace ++ lexer.source.dropWhile isWhitespace).drop
          (lexer.source.takeWhile isWhitespace).length := by rw [List.takeWhile_append_dropWhile]
    _ = lexer.source.dropWhile isWhitespace := List.drop_left

/-- `trim_whitespace` counts the blanks. -/
theorem trimWhitespace_column (lexer : Lexer) : lexer.trimWhitespace.column_number =
    lexer.column_number + BitVec.ofNat 32 (lexer.source.takeWhile isWhitespace).length := rfl

/-- Only an unsigned numeral that is out of range is left where it is, and then for ever. -/
theorem lexemeLength_pos {calls : ℕ} {results : List (Except Error Token)}
    (h : lexer.nextToken = (some result, rest))
    (hscan : Scan.scan nextToken calls rest = some results) :
    0 < lexemeLength lexer.trimWhitespace.source := by
  obtain ⟨c, source, hsource, hhash, htoken⟩ := nextToken_eq_some h
  have htakes := (nextToken_takes h).2
  by_contra hzero
  have hrest : rest.source = lexer.trimWhitespace.source := by
    rw [htakes.source, Nat.eq_zero_of_not_pos hzero, List.drop_zero]
  by_cases hhuge : HugeNumeral lexer.trimWhitespace.source
  · -- The next call comes to the same numeral.
    rw [← hrest] at hhuge
    obtain ⟨error, hstuck⟩ := nextToken_huge hhuge
    rw [Scan.scan_stuck hstuck calls] at hscan
    simp at hscan
  · have hprogress := tokenAt_progress hsource hhuge
    rw [htoken, hrest] at hprogress
    exact lt_irrefl _ hprogress

end Lexer

/-! ## A line -/

section Lines

variable {line : List Char} {results : List (Except Error Token)} {lexer : Lexer}
  {calls position lost : ℕ}

/-- The lexer's column, where `lost` of the characters in front of it have not been counted. -/
def Counted (lexer : Lexer) (position lost : ℕ) : Prop :=
  lexer.column_number + BitVec.ofNat 32 lost = BitVec.ofNat 32 (position + 1)

/-- The lexemes of a source from which a call returns something. -/
theorem lexemesFrom_some {result : Except Error Token} {rest : Lexer}
    (h : lexer.nextToken = (some result, rest)) :
    lexemesFrom (calls + 1) position lost lexer.source =
      ⟨position + (lexer.source.takeWhile isWhitespace).length,
        lexemeLength lexer.trimWhitespace.source, lexemeKind lexer.trimWhitespace.source, lost⟩ ::
        lexemesFrom calls
          (position + (lexer.source.takeWhile isWhitespace).length +
            lexemeLength lexer.trimWhitespace.source)
          (if lexemeKind lexer.trimWhitespace.source = .malformed then
            lost + lexemeLength lexer.trimWhitespace.source else lost) rest.source := by
  obtain ⟨hhead, htakes⟩ := Lexer.nextToken_takes h
  rw [htakes.source, Lexer.trimWhitespace_source] at *
  rw [lexemesFrom]
  simp only [hhead]
  rfl

/-- Where a call returns nothing there are no tokens left. -/
theorem lexemesFrom_none {rest : Lexer} (h : lexer.nextToken = (none, rest)) :
    lexemesFrom (calls + 1) position lost lexer.source = [] := by
  have hhead := Lexer.nextToken_none h
  rw [Lexer.trimWhitespace_source] at hhead
  rw [lexemesFrom]
  simp only [hhead]
  rfl

/-- The columns at which the lexer reports the lexemes. -/
theorem columns_of_scan (h : Scan.scan Lexer.nextToken calls lexer = some results)
    (hcount : Counted lexer position lost) :
    List.Forall₂ (fun result lexeme => columnOf result + BitVec.ofNat 32 lexeme.lost =
      BitVec.ofNat 32 (lexeme.start + 1 + lexeme.offset)) results
        (lexemesFrom calls position lost lexer.source) := by
  -- By induction on the calls: the count of the characters goes on from lexeme to lexeme.
  induction calls generalizing lexer results position lost with
  | zero => simp [Scan.scan] at h
  | succ calls ih =>
    unfold Scan.scan at h
    cases hnext : lexer.nextToken with
    | mk result rest =>
      rw [hnext] at h
      cases result with
      | none =>
        -- The line has come to its end.
        obtain rfl := Option.some.inj h
        rw [lexemesFrom_none hnext]
        exact .nil
      | some result =>
        -- A call takes one lexeme, and the rest of the line starts behind it.
        obtain ⟨results', hscan, rfl⟩ := Option.map_eq_some_iff.mp h
        have htakes := (Lexer.nextToken_takes hnext).2
        have hreported := htakes.reported
        have hcounted := htakes.counted
        rw [Lexer.trimWhitespace_column] at hreported hcounted
        unfold Counted at hcount
        rw [lexemesFrom_some hnext]
        refine .cons ?_ (ih hscan ?_)
        · -- The column is that of the lexeme, or of its end.
          unfold Lexeme.offset
          rw [hreported]
          simp only
          generalize (if lexemeKind lexer.trimWhitespace.source = .directive then
            lexemeLength lexer.trimWhitespace.source else 0) = offset
          bv_omega
        · -- The count behind it lacks the characters of a malformed number.
          unfold Counted
          rw [hcounted]
          split_ifs with hkind
          · bv_omega
          · bv_omega

/-- The lexemes follow one another. -/
theorem starts_of_scan (h : Scan.scan Lexer.nextToken calls lexer = some results) :
    (lexemesFrom calls position lost lexer.source).Pairwise (fun l l' => l.start < l'.start) ∧
      ∀ l ∈ lexemesFrom calls position lost lexer.source, position ≤ l.start := by
  -- By induction on the calls: every lexeme has a length, so the next one starts behind it.
  induction calls generalizing lexer results position lost with
  | zero => simp [Scan.scan] at h
  | succ calls ih =>
    unfold Scan.scan at h
    cases hnext : lexer.nextToken with
    | mk result rest =>
      rw [hnext] at h
      cases result with
      | none =>
        rw [lexemesFrom_none hnext]
        exact ⟨.nil, by simp⟩
      | some result =>
        obtain ⟨results', hscan, rfl⟩ := Option.map_eq_some_iff.mp h
        have hpos := Lexer.lexemeLength_pos hnext hscan
        rw [lexemesFrom_some hnext]
        obtain ⟨hpairwise, hbound⟩ := ih hscan
        refine ⟨.cons (fun l hl => ?_) hpairwise, fun l hl => ?_⟩
        · have hle := hbound l hl
          show position + _ < l.start
          omega
        · rcases List.mem_cons.mp hl with rfl | hl
          · exact Nat.le_add_right _ _
          · have hle := hbound l hl
            omega

/-- The column of a lexeme is its place if and only if the place is one that a column can be, and as
many characters are not counted as the column is taken too far. -/
theorem column_eq_iff {col : IData} {start offset : ℕ}
    (h : col + BitVec.ofNat 32 lost = BitVec.ofNat 32 (start + 1 + offset)) :
    col.toNat = start + 1 ↔ start + 1 < 2 ^ 32 ∧ lost % 2 ^ 32 = offset % 2 ^ 32 := by
  have hcol := col.isLt
  have hnat := congrArg BitVec.toNat h
  rw [BitVec.toNat_add, BitVec.toNat_ofNat, BitVec.toNat_ofNat] at hnat
  constructor
  · intro heq
    omega
  · rintro ⟨hlt, heq⟩
    omega

/-- A relation that holds of the pairs where a condition holds of the second item, holds of all of
them if the condition holds of all second items. -/
theorem forall₂_iff_forall_mem {α β : Type} {R S : α → β → Prop} {P : β → Prop} {xs : List α}
    {ys : List β} (h : List.Forall₂ R xs ys) (hiff : ∀ x y, R x y → (S x y ↔ P y)) :
    List.Forall₂ S xs ys ↔ ∀ y ∈ ys, P y := by
  induction h with
  | nil => simp
  | cons hxy _ ih => rw [List.forall₂_cons, ih, hiff _ _ hxy, List.forall_mem_cons]

/-- The tokens are results, in their order. -/
theorem columns_sublist (results : List (Except Error Token)) :
    ((tokensOf results).map fun token => token.col.toNat).Sublist
      (results.map fun result => (columnOf result).toNat) := by
  unfold tokensOf
  induction results with
  | nil => exact .slnil
  | cons result results ih =>
    cases result with
    | error error => exact ih.cons _
    | ok token => exact ih.cons_cons _

end Lines

/-- On a line on which lexing ends, every token and error is reported at the place of its lexeme,
and the tokens' columns are strictly increasing, if and only if for each lexeme the characters of
the malformed numbers in front of it are as many as its own, where it is a directive, and none
otherwise. On a line with fewer than `2^32` characters all these numbers are below `2^32`. -/
theorem columns_faithful_iff (line : List Char) (results : List (Except Error Token))
    (h : Scan.Yields Lexer.nextToken (Lexer.ofSource line) results) :
    ColumnsFaithful line results ↔ ∀ lexeme ∈ lexemes line,
      lexeme.start + 1 < 2 ^ 32 ∧ lexeme.lost % 2 ^ 32 = lexeme.offset % 2 ^ 32 := by
  have hscan := scan_of_yields h
  have hcolumns := @columns_of_scan results (Lexer.ofSource line) (line.length + 1) 0 0 hscan rfl
  have hiff := forall₂_iff_forall_mem hcolumns
    (S := fun result lexeme => (columnOf result).toNat = lexeme.start + 1) fun _ _ => column_eq_iff
  constructor
  · intro hfaithful
    exact hiff.mp hfaithful.lexeme
  · intro hcond
    have hlexeme := hiff.mpr hcond
    refine ⟨hlexeme, (List.Pairwise.sublist (columns_sublist results) ?_)⟩
    -- The results are at the places of the lexemes, which follow one another.
    have hmap : results.map (fun result => (columnOf result).toNat) =
        (lexemes line).map fun lexeme => lexeme.start + 1 := by
      rw [← List.forall₂_eq_eq_eq]
      exact List.forall₂_map_left_iff.mpr (List.forall₂_map_right_iff.mpr hlexeme)
    rw [hmap, List.pairwise_map]
    exact (@starts_of_scan results (Lexer.ofSource line) (line.length + 1) 0 0 hscan).1.imp
      fun hlt => Nat.succ_lt_succ hlt

/-- On a line with an instruction only, nothing is lost. -/
theorem columns_faithful_iff_instruction :
    ColumnsFaithful "jal x1, 8".toList [.ok ⟨.mnemonic ⟨.JAL, false⟩, 1⟩,
        .ok ⟨.register ⟨1, .VECTOR⟩, 5⟩, .ok ⟨.comma, 7⟩, .ok ⟨.immediate 8, 9⟩] ↔
      ∀ lexeme ∈ lexemes "jal x1, 8".toList,
        lexeme.start + 1 < 2 ^ 32 ∧ lexeme.lost % 2 ^ 32 = lexeme.offset % 2 ^ 32 :=
  columns_faithful_iff "jal x1, 8".toList _ (Scan.yields_iff.mpr ⟨10, by decide +kernel⟩)

/-- A directive is reported behind its word. -/
theorem directive_column : ¬∀ line results,
    Scan.Yields Lexer.nextToken (Lexer.ofSource line) results → ColumnsFaithful line results := by
  intro h
  have hfaithful := h ".warps 2".toList [.ok ⟨.warpsDirective, 7⟩, .ok ⟨.immediate 2, 8⟩]
    (Scan.yields_iff.mpr ⟨9, by decide +kernel⟩)
  have hlexemes : lexemes ".warps 2".toList = [⟨0, 6, .directive, 0⟩, ⟨7, 1, .other, 0⟩] := by
    decide +kernel
  have hlexeme := hfaithful.lexeme
  rw [hlexemes, List.forall₂_cons] at hlexeme
  exact absurd hlexeme.1 (by decide)

end SmolGpu.As
