import Schemata.Json.Parser
import Schemata.Text.Lines
import Schemata.Text.Quoted

/-!
# Tokens of expressions

An expression is one line of names, numbers, quoted texts and marks.  Brackets may hold
line ends; outside of them a line end is the end of the expression.  The line begins
without blanks.
-/

namespace Schemata.Expression

/-- A token of an expression. -/
inductive Token where
  | identifier (spelling : String)
  | number (value : Json)
  | quotation (content : String)
  | symbol (spelling : String)

namespace Token

/-- Whether a character separates tokens. -/
def isSpace (c : Char) : Bool :=
  c = ' ' || c = '\t' || c = '\x0c'

/-- Whether a character ends a line. -/
def isLineEnd (c : Char) : Bool :=
  c = '\n' || c = '\r'

/-- Whether a name can begin with a character. -/
def startsName (c : Char) : Bool :=
  c.isAlpha || c = '_' || (c.toNat ≥ 0x80 && !CharRange.anyContains Quoted.unprintable c)

/-- Whether a character can stand in a name. -/
def isNameChar (c : Char) : Bool :=
  startsName c || c.isDigit

/-! ## Quoted texts -/

/-- The number of hexadecimal digits. -/
def hexNumber? (digits : List Char) : Option Nat :=
  digits.foldlM (fun n c =>
    if c.isDigit then some (n * 16 + (c.toNat - '0'.toNat))
    else if 'a' ≤ c ∧ c ≤ 'f' then some (n * 16 + (c.toNat - 'a'.toNat + 10))
    else if 'A' ≤ c ∧ c ≤ 'F' then some (n * 16 + (c.toNat - 'A'.toNat + 10))
    else none) 0

/-- The character that stands for itself or a control character after a backslash. -/
def escape? : Char → Option Char
  | '\\' => some '\\'
  | '\'' => some '\''
  | '"' => some '"'
  | 'a' => some '\x07'
  | 'b' => some '\x08'
  | 'f' => some '\x0c'
  | 'n' => some '\n'
  | 'r' => some '\r'
  | 't' => some '\t'
  | 'v' => some '\x0b'
  | _ => none

/-- The content of a quoted text up to the mark that closes it, and what follows. -/
def readText (mark : Char) (long raw : Bool) : List Char → Option (List Char × List Char)
  | [] => none
  | '\\' :: 'x' :: a :: b :: rest =>
    if raw then (readText mark long raw rest).map fun (text, after) => ('\\' :: 'x' :: a :: b :: text, after)
    else do
      let n ← hexNumber? [a, b]
      let (text, after) ← readText mark long raw rest
      return (Char.ofNat n :: text, after)
  | '\\' :: 'u' :: a :: b :: c :: d :: rest =>
    if raw then
      (readText mark long raw rest).map fun (text, after) =>
        ('\\' :: 'u' :: a :: b :: c :: d :: text, after)
    else do
      let n ← hexNumber? [a, b, c, d]
      let (text, after) ← readText mark long raw rest
      return (Char.ofNat n :: text, after)
  | '\\' :: c :: rest => do
    let (text, after) ← readText mark long raw rest
    if raw then return ('\\' :: c :: text, after)
    else if c = '\n' then return (text, after)
    else if ['x', 'u', 'U', 'N'].contains c then none
    else
      match escape? c with
      | some c => return (c :: text, after)
      | none => return ('\\' :: c :: text, after)
  | c :: rest =>
    if c = mark && !long then some ([], rest)
    else if c = mark && long && [mark, mark].isPrefixOf rest then some ([], rest.drop 2)
    else if isLineEnd c && !long then none
    else (readText mark long raw rest).map fun (text, after) => (c :: text, after)

/-- A quoted text that begins with a mark, and what follows it. -/
def quotedText (mark : Char) (raw : Bool) (rest : List Char) : Option (List Char × List Char) :=
  if [mark, mark].isPrefixOf rest then readText mark true raw (rest.drop 2)
  else readText mark false raw rest

/-- The words before a quoted text, and whether backslashes then stand for themselves. -/
def textMarker? : String → Option Bool
  | "u" | "U" => some false
  | "r" | "R" => some true
  | _ => none

/-! ## Numbers -/

/-- The characters of a number at the beginning, and what follows them. -/
def spanNumber : List Char → List Char × List Char
  | [] => ([], [])
  | 'e' :: '-' :: rest =>
    let (digits, after) := spanNumber rest
    ('e' :: '-' :: digits, after)
  | 'e' :: '+' :: rest =>
    let (digits, after) := spanNumber rest
    ('e' :: '+' :: digits, after)
  | c :: rest =>
    if isNameChar c || c = '.' then
      let (digits, after) := spanNumber rest
      (c :: digits, after)
    else ([], c :: rest)

/-- The number with a zero on either side of a bare point. -/
def padPoint (text : List Char) : List Char :=
  let whole := text.takeWhile (· != '.')
  let rest := text.dropWhile (· != '.')
  let whole := if whole.isEmpty then ['0'] else whole
  match rest with
  | '.' :: c :: rest => if c.isDigit then whole ++ '.' :: c :: rest else whole ++ '.' :: '0' :: c :: rest
  | ['.'] => whole ++ ['.', '0']
  | rest => whole ++ rest

/-- The base that the letter after a zero stands for. -/
def base? : Char → Option Nat
  | 'x' | 'X' => some 16
  | 'o' | 'O' => some 8
  | 'b' | 'B' => some 2
  | _ => none

/-- The value of digits in a base of at most sixteen. -/
def digits? (base : Nat) (text : List Char) : Option Nat :=
  text.foldlM (fun n c => do
    let digit ← hexNumber? [c]
    if digit < base then some (n * base + digit) else none) 0

/-- The value of a number in base ten. -/
def decimal? (text : List Char) : Option Json :=
  if text.all (· = '0') then some (.int 0)
  else
    match Json.parse (String.ofList (padPoint text)) with
    | .ok value => some value
    | .error _ => none

/-- The value of a number.  A low line may stand between two digits, and after the base. -/
def number? (text : List Char) : Option Json :=
  match text with
  | '0' :: c :: rest =>
    match base? c with
    | some base =>
      let digits := if rest.head? = some '_' then rest.drop 1 else rest
      if (Text.splitAt '_' digits).any List.isEmpty then none
      else (digits? base (digits.filter (· != '_'))).map fun n => .int n
    | none => plain? text
  | text => plain? text
where
  /-- The value of a number without a base. -/
  plain? (text : List Char) : Option Json :=
    if (Text.splitAt '_' text).any List.isEmpty then none
    else decimal? (text.filter (· != '_'))

/-! ## Scanning -/

/-- Marks of more than one character. -/
def longMarks : List String :=
  ["...", "**", "//", "<<", ">>", "==", "!=", "<=", ">=", ":="]

/-- Marks of one character. -/
def shortMarks : List Char :=
  ['(', ')', '[', ']', '\x7b', '\x7d', '.', ',', ':', '|', '+', '-', '*', '/', '%', '@', '&', '^',
    '~', '<', '>']

/-- The mark at the beginning, and what follows it. -/
def mark? (text : List Char) : Option (String × List Char) :=
  match longMarks.find? fun mark => mark.toList.isPrefixOf text with
  | some mark => some (mark, text.drop mark.length)
  | none =>
    match text with
    | c :: rest => if shortMarks.contains c then some (c.toString, rest) else none
    | [] => none

/-- The number of open brackets after a mark. -/
def nest (depth : Nat) (mark : String) : Nat :=
  if ["(", "[", "\x7b"].contains mark then depth + 1
  else if [")", "]", "\x7d"].contains mark then depth - 1
  else depth

/-- What follows the end of a comment. -/
def afterComment (text : List Char) : List Char :=
  text.dropWhile (!isLineEnd ·)

/-- Whether a text holds nothing but blanks and comments. -/
def holdsNothing (text : List Char) : Bool :=
  (Text.lines text).all fun line =>
    match line.dropWhile isSpace with
    | [] => true
    | c :: _ => c = '#'

/-- Scan the tokens of a text after the given number of open brackets, with a budget of
characters. -/
def scanFrom : Nat → Nat → List Char → Option (List Token)
  | 0, _, _ => some []
  | _ + 1, _, [] => some []
  | budget + 1, depth, c :: rest =>
    if isSpace c then scanFrom budget depth rest
    else if c = '#' then scanFrom budget depth (afterComment rest)
    else if isLineEnd c then
      if depth = 0 then if holdsNothing rest then some [] else none
      else scanFrom budget depth rest
    else if c = '\\' then
      match rest with
      | '\n' :: next :: rest => scanFrom budget depth (next :: rest)
      | _ => none
    else if c = '\'' || c = '"' then do
      let (content, rest) ← quotedText c false rest
      return .quotation (String.ofList content) :: (← scanFrom budget depth rest)
    else if startsName c then
      let word := String.ofList (c :: rest.takeWhile isNameChar)
      match textMarker? word, rest.dropWhile isNameChar with
      | some raw, q :: rest =>
        if q = '\'' || q = '"' then do
          let (content, rest) ← quotedText q raw rest
          return .quotation (String.ofList content) :: (← scanFrom budget depth rest)
        else do return .identifier word :: (← scanFrom budget depth (q :: rest))
      | none, q :: rest =>
        if q = '\'' || q = '"' then none
        else do return .identifier word :: (← scanFrom budget depth (q :: rest))
      | _, [] => some [.identifier word]
    else if c.isDigit || (c = '.' && (rest.head?.any Char.isDigit)) then do
      let (digits, rest) := spanNumber (c :: rest)
      return .number (← number? digits) :: (← scanFrom budget depth rest)
    else do
      let (mark, rest) ← mark? (c :: rest)
      return .symbol mark :: (← scanFrom budget (nest depth mark) rest)

/-- The text from its first line that holds something, which must not begin with
blanks. -/
def firstLine : Nat → List Char → Option (List Char)
  | 0, _ => none
  | budget + 1, text =>
    let margin := text.takeWhile isSpace
    match text.dropWhile isSpace with
    | [] => none
    | c :: rest =>
      if isLineEnd c then firstLine budget rest
      else if c = '#' then firstLine budget (afterComment rest)
      else if (margin.reverse.takeWhile (· != '\x0c')).isEmpty then some (c :: rest)
      else none

/-- The tokens of a text. -/
def scan (text : List Char) : Option (List Token) := do
  let text ← firstLine (text.length + 1) text
  scanFrom (text.length + 1) 0 text

end Token

end Schemata.Expression
