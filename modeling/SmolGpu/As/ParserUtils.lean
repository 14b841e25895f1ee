import SmolGpu.Sim.Instructions

/-!
# Numbers and registers

`src/sim/aslib/parser_utils.cpp` and the character predicates of `common.hpp`: `parse_num` takes a
number from the front of the remaining source, and `str_to_reg` reads the name of a register.
`fromChars` is the standard library's `std::from_chars` for an `int32_t`.

A `std::string_view` is the list of its characters, and a 32-bit value that the source declares as
`int32_t` is read as two's complement. A line is shorter than `2^32` characters, so that the loops'
indices count without wrapping.
-/

namespace SmolGpu.As

open Sim

/-- `word_type`, `std::int32_t`. -/
abbrev WordType := BitVec 32

section Characters

/-- `is_whitespace`. -/
def isWhitespace (c : Char) : Bool := c = ' ' ∨ c = '\t' ∨ c = '\n' ∨ c = '\r'

/-- `is_numeric`. -/
def isNumeric (c : Char) (base : ℕ) : Bool :=
  if 1 < base ∧ base ≤ 10 then '0'.toNat ≤ c.toNat ∧ c.toNat < '0'.toNat + base
  else if base ≤ 10 + 26 then
    '0' ≤ c ∧ c ≤ '9' ∨ 'A'.toNat ≤ c.toNat ∧ c.toNat < 'A'.toNat + base - 10 ∨
      'a'.toNat ≤ c.toNat ∧ c.toNat < 'a'.toNat + base - 10
  else false

/-- `is_alphabetic`. -/
def isAlphabetic (c : Char) : Bool := 'a' ≤ c ∧ c ≤ 'z' ∨ 'A' ≤ c ∧ c ≤ 'Z'

/-- `is_alphanumeric` in base 10. -/
def isAlphanumeric (c : Char) : Bool := isAlphabetic c || isNumeric c 10

/-- `is_label_char`. -/
def isLabelChar (c : Char) : Bool := isAlphanumeric c || c = '_'

end Characters

section FromChars

/-- The errors of `std::from_chars`. -/
inductive Errc
  | invalidArgument
  | resultOutOfRange
  deriving DecidableEq, Repr

/-- `std::make_error_code(ec).message()`. -/
def Errc.message : Errc → String
  | .invalidArgument => "Invalid argument"
  | .resultOutOfRange => "Numerical result out of range"

/-- The value of a digit. -/
def digitValue (c : Char) : ℕ :=
  if '0' ≤ c ∧ c ≤ '9' then c.toNat - '0'.toNat
  else if 'A' ≤ c ∧ c ≤ 'Z' then c.toNat - 'A'.toNat + 10
  else c.toNat - 'a'.toNat + 10

/-- The value of a numeral, the most significant digit first. -/
def natOfDigits (base : ℕ) (digits : List Char) : ℕ :=
  digits.foldl (fun n c => n * base + digitValue c) 0

/-- The longest prefix of digits. -/
def digitRun (base : ℕ) (source : List Char) : List Char := source.takeWhile (isNumeric · base)

/-- `std::from_chars`: an optional minus sign and the longest run of digits, as an `int32_t`, with
the characters behind it. -/
def fromChars (source : List Char) (base : ℕ) : Except Errc (WordType × List Char) :=
  let (is_negative, body) :=
    match source with
    | '-' :: body => (true, body)
    | _ => (false, source)
  let digits := digitRun base body
  let value := natOfDigits base digits
  if digits = [] then .error .invalidArgument
  else if is_negative then
    if value ≤ 2 ^ 31 then .ok (-BitVec.ofNat 32 value, body.drop digits.length)
    else .error .resultOutOfRange
  else if value < 2 ^ 31 then .ok (BitVec.ofNat 32 value, body.drop digits.length)
  else .error .resultOutOfRange

end FromChars

/-- A `sim::Error` without a place. -/
def errorOf (message : String) : Error := ⟨message, 0, 0⟩

/-- The lambda `parse_integral` of `parse_num`. It looks at the digits of any base up to 16 and
fails at the first one that the base lacks. The source counts them with a 32-bit index, which does
not wrap around in a line of fewer than `2^32` characters. -/
def parseIntegral (is_negative : Bool) (base : ℕ) (source : List Char) :
    Except Error WordType × List Char :=
  let digits := digitRun base source
  let rest := source.drop digits.length
  match rest.head? with
  -- A letter of a higher base ends the number with an error; any other character just ends it.
  | some digit =>
    if isNumeric digit 16 then
      (.error (errorOf ("Failed to parse number: '" ++ String.ofList (digits ++ [digit]) ++
        "': Invalid digit '" ++ String.singleton digit ++ "' for base " ++ toString base)), rest)
    else convert digits rest
  | none => convert digits rest
where
  /-- The number that `std::from_chars` reads from the digits; a number that it does not read stays
  in the source. -/
  convert (digits rest : List Char) : Except Error WordType × List Char :=
    match fromChars digits base with
    | .error ec =>
      (.error (errorOf ("Failed to parse number '" ++ String.ofList digits ++ "': " ++ ec.message)),
        source)
    | .ok (result, _) => (.ok (if is_negative then -result else result), rest)

/-- The part of `parse_num` after the sign: the base from the prefix, then the digits. -/
def parseMagnitude (is_negative : Bool) : List Char → Except Error WordType × List Char
  | '0' :: c :: rest =>
    if c = 'x' ∨ c = 'X' then parseIntegral is_negative 16 rest
    else if c = 'b' ∨ c = 'B' then parseIntegral is_negative 2 rest
    -- Any other character behind a zero makes the number octal, with the zero as its first digit.
    else parseIntegral is_negative 8 ('0' :: c :: rest)
  | source => parseIntegral is_negative 10 source

/-- `parse_num`: the number, and the remaining source. -/
def parseNum : List Char → Except Error WordType × List Char
  | [] => (.error (errorOf "Expected a number, found ''"), [])
  | ['-'] => (.error (errorOf "Expected a number, found '-'"), [])
  | '-' :: source => parseMagnitude true source
  | source => parseMagnitude false source

/-- `str_check_predicate`. -/
def strCheckPredicate (str : List Char) (predicate : Char → Bool) : Bool := str.all predicate

/-- The number of `str_to_reg` behind the letter. -/
def regNumber (type : RegisterType) (reg_num_str : List Char) : Except Error Register :=
  match fromChars reg_num_str 10 with
  | .error ec =>
    .error (errorOf ("Failed to parse register number '" ++ String.ofList reg_num_str ++ "': " ++
      ec.message))
  | .ok (reg_num, _) => .ok ⟨reg_num, type⟩

/-- `str_to_reg`. -/
def strToReg (str : List Char) : Except Error Register :=
  if str.length < 2 then .error (errorOf ("Invalid register name: '" ++ String.ofList str ++ "'"))
  else
    match str with
    | 'x' :: reg_num_str => regNumber .VECTOR reg_num_str
    | 's' :: reg_num_str => regNumber .SCALAR reg_num_str
    | _ => .error (errorOf ("Invalid register name: '" ++ String.ofList str ++ "'"))

example : parseNum "-052, x1".toList = (.ok (BitVec.ofInt 32 (-42)), ", x1".toList) := by decide

example : parseNum "2147483648".toList =
    (.error (errorOf "Failed to parse number '2147483648': Numerical result out of range"),
      "2147483648".toList) := by decide

end SmolGpu.As
