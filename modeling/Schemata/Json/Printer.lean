import Schemata.Json.Basic
import Schemata.Json.Decimal

/-!
# JSON text

A value is printed on one line or over several.  On one line the items are
separated by a comma and a space.  Over several lines every item has its own line,
indented by one unit for each level; empty arrays and objects stay on one line.

Only the quotation mark, the backslash and the control characters up to U+001F are
escaped.
-/

namespace Schemata

/-- How a value is laid out. -/
inductive Layout where
  | compact
  | indented (unit : List Char)
deriving DecidableEq

namespace Layout

/-- The break before an item at a depth. -/
def lineBreak : Layout → Nat → List Char
  | .compact, _ => []
  | .indented unit, depth => '\n' :: (List.replicate depth unit).flatten

/-- What stands between two items at a depth. -/
def separator : Layout → Nat → List Char
  | .compact, _ => [',', ' ']
  | .indented unit, depth => ',' :: lineBreak (.indented unit) depth

end Layout

namespace Json

/-- A lower-case hexadecimal digit. -/
def hexDigit (n : Nat) : Char :=
  (Nat.toDigits 16 n).headD '0'

/-- A character inside quotation marks. -/
def escaped (c : Char) : List Char :=
  if c = '"' then ['\\', '"']
  else if c = '\\' then ['\\', '\\']
  else if c = '\n' then ['\\', 'n']
  else if c = '\r' then ['\\', 'r']
  else if c = '\t' then ['\\', 't']
  else if c = '\x08' then ['\\', 'b']
  else if c = '\x0c' then ['\\', 'f']
  else if c.toNat < 0x20 then
    ['\\', 'u', '0', '0', hexDigit (c.toNat / 16), hexDigit (c.toNat % 16)]
  else [c]

/-- A text between quotation marks. -/
def quoted (text : List Char) : List Char :=
  '"' :: text.flatMap escaped ++ ['"']

mutual

/-- The text of a value whose first line is at a depth. -/
def printAt (layout : Layout) (depth : Nat) : Json → List Char
  | .null => ['n', 'u', 'l', 'l']
  | .bool true => ['t', 'r', 'u', 'e']
  | .bool false => ['f', 'a', 'l', 's', 'e']
  | .int value => (toString value).toList
  | .float value => value.text
  | .str value => quoted value.toList
  | .arr [] => ['[', ']']
  | .arr (item :: items) =>
    '[' :: layout.lineBreak (depth + 1) ++ printAt layout (depth + 1) item ++
      (printItems layout (depth + 1) items ++ layout.lineBreak depth ++ [']'])
  | .obj [] => ['{', '}']
  | .obj ((name, value) :: members) =>
    '{' :: layout.lineBreak (depth + 1) ++ quoted name.toList ++ ':' :: ' ' ::
      printAt layout (depth + 1) value ++
      (printMembers layout (depth + 1) members ++ layout.lineBreak depth ++ ['}'])

/-- The items after the first, each with the separator before it. -/
def printItems (layout : Layout) (depth : Nat) : List Json → List Char
  | [] => []
  | item :: items =>
    layout.separator depth ++ printAt layout depth item ++ printItems layout depth items

/-- The members after the first, each with the separator before it. -/
def printMembers (layout : Layout) (depth : Nat) : List (String × Json) → List Char
  | [] => []
  | (name, value) :: members =>
    layout.separator depth ++ quoted name.toList ++ ':' :: ' ' ::
      printAt layout depth value ++ printMembers layout depth members

end

/-- The text of a value. -/
def print (layout : Layout) (value : Json) : String :=
  String.ofList (value.printAt layout 0)

/-- The text of a value on one line. -/
def compactText (value : Json) : String :=
  value.print .compact

end Json

end Schemata
