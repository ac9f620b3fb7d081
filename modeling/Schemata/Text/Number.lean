import Schemata.Text.Lines

/-!
# Integers in texts

An integer in a text is a sign and decimal digits of any script, with blanks around
it.  One low line may stand between two digits.  The separators U+001C to U+001F are
no blanks here.
-/

namespace Schemata.Text

/-- The zeros of the decimal digits of Unicode 14; nine digits follow each. -/
def zeros : List Nat :=
  [0x30, 0x660, 0x6F0, 0x7C0, 0x966, 0x9E6, 0xA66, 0xAE6, 0xB66, 0xBE6, 0xC66, 0xCE6, 0xD66,
    0xDE6, 0xE50, 0xED0, 0xF20, 0x1040, 0x1090, 0x17E0, 0x1810, 0x1946, 0x19D0, 0x1A80, 0x1A90,
    0x1B50, 0x1BB0, 0x1C40, 0x1C50, 0xA620, 0xA8D0, 0xA900, 0xA9D0, 0xA9F0, 0xAA50, 0xABF0,
    0xFF10, 0x104A0, 0x10D30, 0x11066, 0x110F0, 0x11136, 0x111D0, 0x112F0, 0x11450, 0x114D0,
    0x11650, 0x116C0, 0x11730, 0x118E0, 0x11950, 0x11C50, 0x11D50, 0x11DA0, 0x16A60, 0x16AC0,
    0x16B50, 0x1D7CE, 0x1D7D8, 0x1D7E2, 0x1D7EC, 0x1D7F6, 0x1E140, 0x1E2F0, 0x1E950, 0x1FBF0]

/-- The value of a decimal digit. -/
def digit? (c : Char) : Option Nat :=
  (zeros.find? fun first => first ≤ c.toNat && c.toNat < first + 10).map (c.toNat - ·)

/-- The digits of a number, which come in groups between low lines. -/
def digits? (text : List Char) : Option (List Nat) :=
  let groups := splitAt '_' text
  if groups.any List.isEmpty then none else groups.flatten.mapM digit?

/-- Characters that may stand around a number. -/
def isPadding (c : Char) : Bool :=
  isBlank c && !(0x1c ≤ c.toNat && c.toNat ≤ 0x1f)

/-- Remove what may stand around a number. -/
def unpad (text : List Char) : List Char :=
  ((text.dropWhile isPadding).reverse.dropWhile isPadding).reverse

/-- The integer of a text. -/
def integer? (text : List Char) : Option Int :=
  let value (digits : List Nat) : Int := (digits.foldl (fun n d => n * 10 + d) 0 : Nat)
  match unpad text with
  | '-' :: rest => (digits? rest).map fun digits => -value digits
  | '+' :: rest => (digits? rest).map value
  | rest => (digits? rest).map value

end Schemata.Text
