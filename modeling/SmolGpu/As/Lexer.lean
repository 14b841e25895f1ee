import SmolGpu.As.ParserUtils
import SmolGpu.Library.Scan
import SmolGpu.Sim.Mnemonic

/-!
# The lexer

`src/sim/aslib/token.hpp` and `src/sim/aslib/lexer.cpp`: the tokens of a source line, with the
columns they are reported at. `nextToken` is a call of `Lexer::next_token`, which returns nothing at
the end of the line or at a comment, and otherwise a token or an error. The iteration of
`Lexer::Iterator`, which goes on after an error until a call returns nothing, is `Scan.scan`.
-/

namespace SmolGpu.As

open Sim

/-- `token::TokenType`. -/
inductive TokenType
  | blocksDirective
  | warpsDirective
  | mnemonic (mnemonic : Mnemonic)
  | label (name : List Char)
  | labelRef (label_name : List Char)
  | immediate (value : WordType)
  | register (register_data : Register)
  | comma
  | lparen
  | rparen
  deriving DecidableEq, Repr

/-- `Token`. -/
structure Token where
  token_type : TokenType
  col : IData
  deriving DecidableEq, Repr

/-- `Token::to_str`. -/
def Token.toStr (t : Token) : String :=
  match t.token_type with
  | .blocksDirective => ".threads"
  | .warpsDirective => ".warps"
  | .mnemonic m => m.toStr
  | .label name => String.ofList name
  | .labelRef label_name => String.ofList label_name
  | .immediate value => toString value.toInt
  | .register register_data => register_data.toStr
  | .comma => "','"
  | .lparen => "'('"
  | .rparen => "')'"

/-- `Lexer`: the column of the next character, counted from 1, and the remaining source. -/
structure Lexer where
  column_number : IData
  source : List Char
  deriving DecidableEq, Repr

namespace Lexer

/-- `Lexer(source)`. -/
def ofSource (source : List Char) : Lexer := ⟨1, source⟩

variable (lexer : Lexer)

/-- `chop` where there is a next character. -/
def chop : Lexer := ⟨lexer.column_number + 1, lexer.source.drop 1⟩

/-- `chop_while`: the characters that are removed, and the lexer behind them. The source counts them
with a 32-bit index, which does not wrap around in a line of fewer than `2^32` characters. -/
def chopWhile (predicate : Char → Bool) : List Char × Lexer :=
  let result := lexer.source.takeWhile predicate
  (result, ⟨lexer.column_number + BitVec.ofNat 32 result.length, lexer.source.drop result.length⟩)

/-- `trim_whitespace`. -/
def trimWhitespace : Lexer := (lexer.chopWhile isWhitespace).2

/-- `make_error` at the current column. -/
def makeError (message : String) : Error := ⟨message, lexer.column_number, 0⟩

/-- `make_error` for an error of `parser_utils`, at a given column. -/
def makeErrorAt (error : Error) (col : IData) : Error := ⟨error.message, col, error.line⟩

/-- `parse_directive`, behind the dot. -/
def parseDirective : Except Error Token × Lexer :=
  let (keyword, lexer) := lexer.chopWhile fun c => !isWhitespace c
  -- The column is that of the character behind the directive.
  if keyword = "blocks".toList then (.ok ⟨.blocksDirective, lexer.column_number⟩, lexer)
  else if keyword = "warps".toList then (.ok ⟨.warpsDirective, lexer.column_number⟩, lexer)
  else if keyword = [] then
    (.error (lexer.makeError
      "Unexpected whitespace after '.',  expected a directive name after '.'"), lexer)
  else (.error (lexer.makeError ("Unknown directive '." ++ String.ofList keyword ++ "'")), lexer)

/-- `parse_number`. The column moves on only when the number is read. -/
def parseNumber : Except Error Token × Lexer :=
  match parseNum lexer.source with
  | (.error error, source) =>
    (.error (makeErrorAt error lexer.column_number), { lexer with source })
  | (.ok number, source) =>
    (.ok ⟨.immediate number, lexer.column_number⟩,
      ⟨lexer.column_number + BitVec.ofNat 32 (lexer.source.length - source.length), source⟩)

/-- A character of a keyword. -/
def isKeywordChar (c : Char) : Bool := isAlphanumeric c || isLabelChar c || c = '.' || c = ':'

/-- The token of a word that is no mnemonic and no label: a register, or a label reference. -/
def registerOrLabelRef (word : List Char) (starting_col : IData) : Except Error Token :=
  -- A word that begins like a register and is none can still be a label reference.
  let reg : Option (Except Error Register) :=
    if word.head? = some 'x' ∨ word.head? = some 's' ∨ word = "pc".toList then some (strToReg word)
    else none
  match reg with
  | some (.ok reg) => .ok ⟨.register reg, starting_col⟩
  | some (.error reg_error) =>
    if strCheckPredicate word isLabelChar then .ok ⟨.labelRef word, starting_col⟩
    else .error (makeErrorAt reg_error starting_col)
  | none =>
    if strCheckPredicate word isLabelChar then .ok ⟨.labelRef word, starting_col⟩
    else .error ⟨"Unexpected keyword '" ++ String.ofList word ++ "'", starting_col, 0⟩

/-- The token of a word, the cases of `parse_keyword`. A colon at the end is removed also when the
rest is no label. -/
def keywordToken (word : List Char) (starting_col : IData) : Except Error Token :=
  match strToMnemonic word with
  | some opcode => .ok ⟨.mnemonic opcode, starting_col⟩
  | none =>
    if word.getLast? = some ':' then
      if strCheckPredicate word.dropLast isLabelChar then .ok ⟨.label word.dropLast, starting_col⟩
      else registerOrLabelRef word.dropLast starting_col
    else registerOrLabelRef word starting_col

/-- `parse_keyword`. -/
def parseKeyword : Except Error Token × Lexer :=
  let (word, rest) := lexer.chopWhile isKeywordChar
  (keywordToken word lexer.column_number, rest)

/-- The part of `next_token` behind `trim_whitespace`, at the character `c`. -/
def tokenAt (c : Char) : Except Error Token × Lexer :=
  if c = '-' ∨ isNumeric c 10 then lexer.parseNumber
  else if isAlphabetic c then lexer.parseKeyword
  else if c = '(' then (.ok ⟨.lparen, lexer.column_number⟩, lexer.chop)
  else if c = ')' then (.ok ⟨.rparen, lexer.column_number⟩, lexer.chop)
  else if c = ',' then (.ok ⟨.comma, lexer.column_number⟩, lexer.chop)
  else if c = '.' then lexer.chop.parseDirective
  else
    (.error ⟨"Unexpected character '" ++ String.singleton c ++ "'", lexer.column_number, 0⟩,
      lexer.chop)

/-- `next_token`: what it returns, and the lexer behind it. -/
def nextToken : Option (Except Error Token) × Lexer :=
  let lexer := lexer.trimWhitespace
  match lexer.source.head? with
  | none => (none, lexer)
  | some c =>
    -- A comment ends the line.
    if c = '#' then (none, lexer)
    else
      let (result, rest) := lexer.tokenAt c
      (some result, rest)

end Lexer

/-- The tokens of a sequence of results. -/
def tokensOf (results : List (Except Error Token)) : List Token :=
  results.filterMap fun
    | .ok token => some token
    | .error _ => none

/-- The errors of a sequence of results. -/
def errorsOf (results : List (Except Error Token)) : List Error :=
  results.filterMap fun
    | .ok _ => none
    | .error error => some error

/-- `collect_tokens`: the tokens and the errors of a line. One call for each character and one for
the end suffice for every line on which the iteration ends. -/
def collectTokens (source : List Char) : Option (List Token × List Error) :=
  (Scan.scan Lexer.nextToken (source.length + 1) (Lexer.ofSource source)).map fun results =>
    (tokensOf results, errorsOf results)

example : collectTokens "L: s.lw s5, 4(s6) # load".toList =
    some ([⟨.label ['L'], 1⟩, ⟨.mnemonic ⟨.LW, true⟩, 4⟩, ⟨.register ⟨5, .SCALAR⟩, 9⟩, ⟨.comma, 11⟩,
      ⟨.immediate 4, 13⟩, ⟨.lparen, 14⟩, ⟨.register ⟨6, .SCALAR⟩, 15⟩, ⟨.rparen, 17⟩], []) := by
  decide +kernel

end SmolGpu.As
