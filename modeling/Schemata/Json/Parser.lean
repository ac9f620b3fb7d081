import Schemata.Json.Basic
import Schemata.Json.Decimal

/-!
# Reading JSON

The reader accepts the JSON grammar, the names NaN, Infinity and -Infinity for
numbers, and integers of any size.  Of members with the same name the last value
counts.  A text that stops being JSON is refused with the cause and the place.

The recursive functions take a budget of nested and consecutive values.  Every
value takes at least one character, so the length of the text is enough.
-/

namespace Schemata

/-- Why a text is not JSON. -/
inductive SyntaxError.Cause where
  | missingValue
  | missingName
  | missingColon
  | missingComma
  | extraData
  | unterminatedString
  | controlCharacter
  | unknownEscape
  | unicodeEscape
  | byteOrderMark
deriving DecidableEq

/-- The wording of a cause. -/
def SyntaxError.Cause.message : SyntaxError.Cause → String
  | .missingValue => "Expecting value"
  | .missingName => "Expecting property name enclosed in double quotes"
  | .missingColon => "Expecting ':' delimiter"
  | .missingComma => "Expecting ',' delimiter"
  | .extraData => "Extra data"
  | .unterminatedString => "Unterminated string starting at"
  | .controlCharacter => "Invalid control character at"
  | .unknownEscape => "Invalid \\escape"
  | .unicodeEscape => "Invalid \\uXXXX escape"
  | .byteOrderMark => "Unexpected UTF-8 BOM (decode using utf-8-sig)"

/-- A cause with its place: the number of characters before it, and its line and
column, which start at one. -/
structure SyntaxError where
  cause : SyntaxError.Cause
  position : Nat
  line : Nat
  column : Nat
deriving DecidableEq

namespace SyntaxError

/-- The place after a number of characters of a text; only a line feed ends a line. -/
def atPosition (cause : Cause) (text : List Char) (position : Nat) : SyntaxError :=
  let before := text.take position
  { cause, position,
    line := before.count '\n' + 1,
    column := (before.reverse.takeWhile (· != '\n')).length + 1 }

/-- The message of a refused text. -/
def message (error : SyntaxError) : String :=
  s!"{error.cause.message}: line {error.line} column {error.column} (char {error.position})"

end SyntaxError

namespace Json.Parser

/-- A cause with the number of characters from its place to the end. -/
structure Stop where
  cause : SyntaxError.Cause
  remaining : Nat
deriving DecidableEq

/-- The characters that may stand between tokens. -/
def isBlank (c : Char) : Bool :=
  c == ' ' || c == '\t' || c == '\n' || c == '\r'

/-- Leave out blanks. -/
def skipBlank (text : List Char) : List Char :=
  text.dropWhile isBlank

/-! ## Strings -/

/-- The value of a hexadecimal digit. -/
def hexValue? (c : Char) : Option Nat :=
  if '0' ≤ c ∧ c ≤ '9' then some (c.toNat - '0'.toNat)
  else if 'a' ≤ c ∧ c ≤ 'f' then some (c.toNat - 'a'.toNat + 10)
  else if 'A' ≤ c ∧ c ≤ 'F' then some (c.toNat - 'A'.toNat + 10)
  else none

/-- Four hexadecimal digits with a character after them. -/
def hexQuad? : List Char → Option (Nat × List Char)
  | a :: b :: c :: d :: e :: rest =>
    match hexValue? a, hexValue? b, hexValue? c, hexValue? d with
    | some x, some y, some z, some w => some (((x * 16 + y) * 16 + z) * 16 + w, e :: rest)
    | _, _, _, _ => none
  | _ => none

/-- The character of a one-letter escape. -/
def simpleEscape? (c : Char) : Option Char :=
  if c = '"' ∨ c = '\\' ∨ c = '/' then some c
  else if c = 'b' then some '\x08'
  else if c = 'f' then some '\x0c'
  else if c = 'n' then some '\n'
  else if c = 'r' then some '\r'
  else if c = 't' then some '\t'
  else none

/-- Whether a code unit begins a surrogate pair. -/
def isHighSurrogate (unit : Nat) : Bool :=
  0xD800 ≤ unit && unit < 0xDC00

/-- Whether a code unit ends a surrogate pair. -/
def isLowSurrogate (unit : Nat) : Bool :=
  0xDC00 ≤ unit && unit < 0xE000

/-- The character of a code unit; a surrogate on its own gives the replacement
character. -/
def unitChar (unit : Nat) : Char :=
  if 0xD800 ≤ unit ∧ unit < 0xE000 then '\uFFFD' else Char.ofNat unit

/-- The character of an escape that begins after `\u`, and the rest. -/
def unicodeEscape (text : List Char) : Except Stop (Char × List Char) :=
  match hexQuad? text with
  | none => .error ⟨.unicodeEscape, text.length + 1⟩
  | some (unit, rest) =>
    match isHighSurrogate unit, rest with
    | true, '\\' :: 'u' :: more =>
      if more.length ≤ 4 then .ok (unitChar unit, rest)
      else
        match hexQuad? more with
        | none => .error ⟨.unicodeEscape, more.length + 1⟩
        | some (low, after) =>
          if isLowSurrogate low then
            .ok (Char.ofNat (0x10000 + (unit - 0xD800) * 0x400 + (low - 0xDC00)), after)
          else .ok (unitChar unit, rest)
    | _, _ => .ok (unitChar unit, rest)

/-- The characters of a string up to its closing quotation mark.  `opening` counts
the characters from the opening mark to the end. -/
def string (opening : Nat) : Nat → List Char → Except Stop (List Char × List Char)
  | 0, _ => .error ⟨.unterminatedString, opening⟩
  | _ + 1, [] => .error ⟨.unterminatedString, opening⟩
  | budget + 1, c :: rest =>
    if c = '"' then .ok ([], rest)
    else if c = '\\' then
      match rest with
      | [] => .error ⟨.unterminatedString, opening⟩
      | 'u' :: more => do
        let (char, after) ← unicodeEscape more
        let (chars, after) ← string opening budget after
        return (char :: chars, after)
      | letter :: more =>
        match simpleEscape? letter with
        | none => .error ⟨.unknownEscape, rest.length + 1⟩
        | some char => do
          let (chars, after) ← string opening budget more
          return (char :: chars, after)
    else if c.toNat ≤ 0x1f then .error ⟨.controlCharacter, rest.length + 1⟩
    else do
      let (chars, after) ← string opening budget rest
      return (c :: chars, after)

/-! ## Numbers -/

/-- The number that decimal digits stand for. -/
def decimalValue (digits : List Char) : Nat :=
  digits.foldl (fun n c => n * 10 + (c.toNat - '0'.toNat)) 0

/-- The digits before the point: a zero on its own, or digits without a leading zero. -/
def wholeDigits? : List Char → Option (List Char × List Char)
  | '0' :: rest => some (['0'], rest)
  | c :: rest =>
    if c.isDigit then some (c :: rest.takeWhile Char.isDigit, rest.dropWhile Char.isDigit)
    else none
  | [] => none

/-- The digits after a point; a point without digits does not belong to the number. -/
def fractionDigits : List Char → List Char × List Char
  | '.' :: c :: rest =>
    if c.isDigit then (c :: rest.takeWhile Char.isDigit, rest.dropWhile Char.isDigit)
    else ([], '.' :: c :: rest)
  | text => ([], text)

/-- The exponent; a letter without digits after it does not belong to the number. -/
def exponent? : List Char → Option (Int × List Char)
  | e :: rest =>
    if e = 'e' ∨ e = 'E' then
      let (negative, body) : Bool × List Char :=
        match rest with
        | '-' :: more => (true, more)
        | '+' :: more => (false, more)
        | _ => (false, rest)
      let digits := body.takeWhile Char.isDigit
      if digits.isEmpty then none
      else
        let size : Int := decimalValue digits
        some (if negative then -size else size, body.dropWhile Char.isDigit)
    else none
  | [] => none

/-- A number: an integer unless it has a fraction or an exponent. -/
def number (text : List Char) : Except Stop (Json × List Char) :=
  let (negative, body) : Bool × List Char :=
    match text with
    | '-' :: rest => (true, rest)
    | _ => (false, text)
  match wholeDigits? body with
  | none => .error ⟨.missingValue, text.length⟩
  | some (whole, rest) =>
    let (fraction, rest) := fractionDigits rest
    let exponent := exponent? rest
    if fraction.isEmpty ∧ exponent.isNone then
      let size : Int := decimalValue whole
      .ok (.int (if negative then -size else size), rest)
    else
      let (power, rest) := exponent.getD (0, rest)
      let decimal : Decimal := ⟨decimalValue (whole ++ fraction), power - fraction.length⟩
      .ok (.float (decimal.toBinary64 negative), rest)

/-! ## Values -/

mutual

/-- A value at the front of a text, and the rest. -/
def value : Nat → List Char → Except Stop (Json × List Char)
  | 0, text => .error ⟨.missingValue, text.length⟩
  | budget + 1, text =>
    match text with
    | '"' :: rest => do
      let (chars, rest) ← string text.length text.length rest
      return (.str (String.ofList chars), rest)
    | '{' :: rest =>
      match skipBlank rest with
      | '}' :: rest => .ok (.obj [], rest)
      | rest => do
        let (members, rest) ← members budget [] rest
        return (.obj members, rest)
    | '[' :: rest =>
      match skipBlank rest with
      | ']' :: rest => .ok (.arr [], rest)
      | rest => do
        let (items, rest) ← items budget rest
        return (.arr items, rest)
    | 'n' :: 'u' :: 'l' :: 'l' :: rest => .ok (.null, rest)
    | 't' :: 'r' :: 'u' :: 'e' :: rest => .ok (.bool true, rest)
    | 'f' :: 'a' :: 'l' :: 's' :: 'e' :: rest => .ok (.bool false, rest)
    | 'N' :: 'a' :: 'N' :: rest => .ok (.float .nan, rest)
    | 'I' :: 'n' :: 'f' :: 'i' :: 'n' :: 'i' :: 't' :: 'y' :: rest =>
      .ok (.float (.infinity false), rest)
    | '-' :: 'I' :: 'n' :: 'f' :: 'i' :: 'n' :: 'i' :: 't' :: 'y' :: rest =>
      .ok (.float (.infinity true), rest)
    | _ => number text

/-- The items of an array up to its closing bracket. -/
def items : Nat → List Char → Except Stop (List Json × List Char)
  | 0, text => .error ⟨.missingValue, text.length⟩
  | budget + 1, text => do
    let (item, rest) ← value budget text
    match skipBlank rest with
    | ']' :: rest => return ([item], rest)
    | ',' :: rest =>
      let (more, rest) ← items budget (skipBlank rest)
      return (item :: more, rest)
    | rest => .error ⟨.missingComma, rest.length⟩

/-- The members of an object up to its closing brace, after those already read. -/
def members : Nat → Table String Json → List Char → Except Stop (Table String Json × List Char)
  | 0, _, text => .error ⟨.missingValue, text.length⟩
  | budget + 1, known, text =>
    match text with
    | '"' :: rest => do
      let (name, rest) ← string text.length text.length rest
      match skipBlank rest with
      | ':' :: rest =>
        let (content, rest) ← value budget (skipBlank rest)
        let known := known.put (String.ofList name) content
        match skipBlank rest with
        | '}' :: rest => return (known, rest)
        | ',' :: rest => members budget known (skipBlank rest)
        | rest => .error ⟨.missingComma, rest.length⟩
      | rest => .error ⟨.missingColon, rest.length⟩
    | _ => .error ⟨.missingName, text.length⟩

end

/-- A text that holds one value and blanks around it. -/
def document (text : List Char) : Except Stop Json :=
  if text.head? = some '\uFEFF' then .error ⟨.byteOrderMark, text.length⟩
  else do
    let start := skipBlank text
    let (result, rest) ← value (2 * start.length + 1) start
    let rest := skipBlank rest
    if rest.isEmpty then return result else .error ⟨.extraData, rest.length⟩

end Json.Parser

/-- The value that a text holds. -/
def Json.parse (text : String) : Except SyntaxError Json :=
  let chars := text.toList
  match Json.Parser.document chars with
  | .ok value => .ok value
  | .error stop => .error (.atPosition stop.cause chars (chars.length - stop.remaining))

end Schemata
