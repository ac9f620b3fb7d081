import Schemata.Text.Lines

/-!
# Documentation texts

A documentation text is cleaned before it is used: tabs become blanks, the indentation
that all lines but the first share is removed, and so are blanks before the first line
and empty lines at both ends.  Its summary is the first paragraph on one line.
-/

namespace Schemata.Docstring

/-- The number of blanks before a line, or nothing for a line of blanks. -/
def indentation? (line : List Char) : Option Nat :=
  let content := Text.trimLeft line
  if content.isEmpty then none else some (line.length - content.length)

/-- The least of some numbers. -/
def least? (numbers : List Nat) : Option Nat :=
  numbers.foldl (fun known n => some ((known.map (min n)).getD n)) none

/-- The lines of a documentation text without common indentation and without empty
lines at both ends. -/
def cleanLines (text : List Char) : List (List Char) :=
  match Text.splitAt '\n' (Text.expandTabs 8 0 text) with
  | [] => []
  | first :: rest =>
    let margin := (least? (rest.filterMap indentation?)).getD 0
    let lines := Text.trimLeft first :: rest.map (·.drop margin)
    ((lines.dropWhile (·.isEmpty)).reverse.dropWhile (·.isEmpty)).reverse

/-- The characters before the first empty line. -/
def firstParagraph : List Char → List Char
  | '\n' :: '\n' :: _ => []
  | c :: rest => c :: firstParagraph rest
  | [] => []

/-- The first paragraph of a documentation text on one line, or nothing for an empty
text. -/
def summary? (text : String) : Option String :=
  let clean := Text.join ['\n'] (cleanLines text.toList)
  if clean.isEmpty then none
  else
    let lines := (Text.lines (firstParagraph clean)).map Text.trim
    some (String.ofList (Text.join [' '] lines))

end Schemata.Docstring
