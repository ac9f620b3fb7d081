/-!
# Blanks and lines

Blanks are the characters that are removed from the ends of a line; line ends are
those that split a text into lines.  Both follow Unicode and take in the separators
U+001C to U+001F.
-/

namespace Schemata.Text

/-- Characters that count as blank. -/
def isBlank (c : Char) : Bool :=
  let n := c.toNat
  (0x09 ≤ n && n ≤ 0x0d) || (0x1c ≤ n && n ≤ 0x20) || n == 0x85 || n == 0xa0 || n == 0x1680 ||
    (0x2000 ≤ n && n ≤ 0x200a) || n == 0x2028 || n == 0x2029 || n == 0x202f || n == 0x205f ||
    n == 0x3000

/-- Characters that end a line. -/
def isLineEnd (c : Char) : Bool :=
  let n := c.toNat
  (0x0a ≤ n && n ≤ 0x0d) || (0x1c ≤ n && n ≤ 0x1e) || n == 0x85 || n == 0x2028 || n == 0x2029

/-- Remove blanks at the front. -/
def trimLeft (text : List Char) : List Char :=
  text.dropWhile isBlank

/-- Remove blanks at both ends. -/
def trim (text : List Char) : List Char :=
  (trimLeft (trimLeft text).reverse).reverse

/-- The lines of a text without their ends; a carriage return and the line feed after
it end one line, and an end that closes the text opens no further line. -/
def lines : List Char → List (List Char)
  | [] => []
  | '\r' :: '\n' :: rest => [] :: lines rest
  | c :: rest =>
    if isLineEnd c then [] :: lines rest
    else
      match lines rest with
      | first :: others => (c :: first) :: others
      | [] => [[c]]

/-- Split a text at every occurrence of a character. -/
def splitAt (mark : Char) : List Char → List (List Char)
  | [] => [[]]
  | c :: rest =>
    match splitAt mark rest with
    | first :: others => if c == mark then [] :: first :: others else (c :: first) :: others
    | [] => [[]]

/-- Join texts with a text between them. -/
def join (between : List Char) : List (List Char) → List Char
  | [] => []
  | [text] => text
  | text :: rest => text ++ between ++ join between rest

/-- Replace tabs by blanks up to the next column that is a multiple of the width. -/
def expandTabs (width : Nat) : Nat → List Char → List Char
  | _, [] => []
  | column, c :: rest =>
    if c = '\t' then
      let fill := width - column % width
      List.replicate fill ' ' ++ expandTabs width (column + fill) rest
    else if c = '\n' ∨ c = '\r' then c :: expandTabs width 0 rest
    else c :: expandTabs width (column + 1) rest

end Schemata.Text
