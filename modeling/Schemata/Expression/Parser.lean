import Schemata.Error
import Schemata.Expression.Token

/-!
# Expressions

The texts of annotations are expressions: names, attributes, items in brackets, bars
between types, and the operators around them.  A text that is no expression is
malformed, and an empty one is a fault of its own.

Tighter operators have a higher power; {lit}`markPower?` gives the powers.
-/

namespace Schemata

/-- An expression. -/
inductive Expression where
  | name (text : String)
  | text (content : String)
  | value (content : Json)
  | dots
  | attribute (base : Expression) (name : String)
  | item (base index : Expression)
  | bar (left right : Expression)
  | either (left right : Expression)
  | both (left right : Expression)
  | negation (operand : Expression)
  | choice (condition first second : Expression)
  /-- Arithmetic or a comparison. -/
  | operation (symbol : String) (left right : Expression)
  | sign (symbol : String) (operand : Expression)
  | call (callee : Expression) (arguments : List Expression)
  | tuple (items : List Expression)
  | list (items : List Expression)
  /-- A set, or a table with its keys and values in order. -/
  | collection (items : List Expression)
  /-- A part of a list. -/
  | range (bounds : List Expression)
  /-- A function without a name. -/
  | function

namespace Expression

/-- Words that are no names. -/
def reserved : List String :=
  ["False", "None", "True", "and", "as", "assert", "async", "await", "break", "class",
    "continue", "def", "del", "elif", "else", "except", "finally", "for", "from", "global", "if",
    "import", "in", "is", "lambda", "nonlocal", "not", "or", "pass", "raise", "return", "try",
    "while", "with", "yield"]

/-- An operator between two operands. -/
structure Infix where
  power : Nat
  combine : Expression → Expression → Expression

/-- The operator of arithmetic or a comparison. -/
def Infix.plain (power : Nat) (symbol : String) : Infix :=
  ⟨power, .operation symbol⟩

/-- The power of an operator of arithmetic or a comparison. -/
def markPower? : String → Option Nat
  | "<" | ">" | "==" | "!=" | "<=" | ">=" => some 4
  | "^" => some 6
  | "&" => some 7
  | "<<" | ">>" => some 8
  | "+" | "-" => some 9
  | "*" | "/" | "//" | "%" | "@" => some 10
  | "**" => some 12
  | _ => none

/-- The operator that tokens begin with, and the tokens after it. -/
def infix? : List Token → Option (Infix × List Token)
  | .identifier "or" :: rest => some (⟨1, .either⟩, rest)
  | .identifier "and" :: rest => some (⟨2, .both⟩, rest)
  | .identifier "not" :: .identifier "in" :: rest => some (.plain 4 "not in", rest)
  | .identifier "is" :: .identifier "not" :: rest => some (.plain 4 "!=", rest)
  | .identifier "is" :: rest => some (.plain 4 "==", rest)
  | .identifier "in" :: rest => some (.plain 4 "in", rest)
  | .symbol "|" :: rest => some (⟨5, .bar⟩, rest)
  | .symbol mark :: rest => (markPower? mark).map fun power => (.plain power mark, rest)
  | _ => none

/-- The texts that tokens begin with as one, and the tokens after them. -/
def joinTexts (known : String) : List Token → String × List Token
  | .quotation content :: rest => joinTexts (known ++ content) rest
  | rest => (known, rest)

/-- The tokens after the end of a list, which is a mark or the end of all tokens. -/
def afterEnd? : Option String → List Token → Option (List Token)
  | none, [] => some []
  | some close, .symbol mark :: rest => if mark == close then some rest else none
  | _, _ => none

/-- Whether a word is a name. -/
def isName (word : String) : Bool :=
  !reserved.contains word

/-- Expressions between brackets: one that no comma follows stands for itself. -/
def group : List Expression × Bool → Expression
  | ([only], false) => only
  | (items, _) => .tuple items

/-- The tokens after the colon that ends the parameters of a function, after the given
number of open brackets. -/
def afterParameters? (depth : Nat) : List Token → Option (List Token)
  | [] => none
  | .symbol mark :: rest =>
    if depth = 0 && mark == ":" then some rest
    else afterParameters? (Token.nest depth mark) rest
  | _ :: rest => afterParameters? depth rest

mutual

/-- An expression, and the tokens after it. -/
def expression : Nat → List Token → Option (Expression × List Token)
  | 0, _ => none
  | budget + 1, .identifier "lambda" :: rest => do
    let (_, rest) ← expression budget (← afterParameters? 0 rest)
    return (.function, rest)
  | budget + 1, tokens => do
    let (first, rest) ← operators budget 1 tokens
    match rest with
    | .identifier "if" :: rest =>
      let (condition, rest) ← operators budget 1 rest
      match rest with
      | .identifier "else" :: rest =>
        let (second, rest) ← expression budget rest
        return (.choice condition first second, rest)
      | _ => none
    | rest => return (first, rest)

/-- Operands with operators of at least the given power between them. -/
def operators : Nat → Nat → List Token → Option (Expression × List Token)
  | 0, _, _ => none
  | budget + 1, power, tokens => do
    let (left, rest) ← operand budget power tokens
    continued budget power left rest

/-- The operators of at least the given power after a left operand. -/
def continued : Nat → Nat → Expression → List Token → Option (Expression × List Token)
  | 0, _, _, _ => none
  | budget + 1, power, left, tokens =>
    match infix? tokens with
    | none => some (left, tokens)
    | some (operator, rest) =>
      if power ≤ operator.power then do
        let (right, rest) ← operators budget (operator.power + 1) rest
        continued budget power (operator.combine left right) rest
      else some (left, tokens)

/-- An operand with the operators before it. -/
def operand : Nat → Nat → List Token → Option (Expression × List Token)
  | 0, _, _ => none
  | budget + 1, power, .identifier "not" :: rest =>
    if power ≤ 3 then do
      let (operand, rest) ← operators budget 3 rest
      return (.negation operand, rest)
    else none
  | budget + 1, _, .symbol mark :: rest =>
    if mark == "-" || mark == "+" || mark == "~" then do
      let (operand, rest) ← operators budget 11 rest
      return (.sign mark operand, rest)
    else do
      let (base, rest) ← atom budget (.symbol mark :: rest)
      suffix budget base rest
  | budget + 1, _, tokens => do
    let (base, rest) ← atom budget tokens
    suffix budget base rest

/-- A name, a value, or a list in brackets. -/
def atom : Nat → List Token → Option (Expression × List Token)
  | 0, _ => none
  | _ + 1, .identifier "None" :: rest => some (.value .null, rest)
  | _ + 1, .identifier "True" :: rest => some (.value (.bool true), rest)
  | _ + 1, .identifier "False" :: rest => some (.value (.bool false), rest)
  | _ + 1, .identifier word :: rest => if isName word then some (.name word, rest) else none
  | _ + 1, .number n :: rest => some (.value n, rest)
  | _ + 1, .quotation content :: rest =>
    let (content, rest) := joinTexts content rest
    some (.text content, rest)
  | _ + 1, .symbol "..." :: rest => some (.dots, rest)
  | _ + 1, .symbol "(" :: .symbol ")" :: rest => some (.tuple [], rest)
  | _ + 1, .symbol "[" :: .symbol "]" :: rest => some (.list [], rest)
  | _ + 1, .symbol "\x7b" :: .symbol "\x7d" :: rest => some (.collection [], rest)
  | budget + 1, .symbol "\x7b" :: rest => do
    let (found, rest) ← entries budget rest
    return (.collection found, rest)
  | budget + 1, .symbol "(" :: rest => do
    let (found, rest) ← items budget (some ")") rest
    return (group found, rest)
  | budget + 1, .symbol "[" :: rest => do
    let (found, rest) ← items budget (some "]") rest
    return (.list found.1, rest)
  | _ + 1, _ => none

/-- Attributes, items and arguments after an expression. -/
def suffix : Nat → Expression → List Token → Option (Expression × List Token)
  | 0, _, _ => none
  | budget + 1, base, .symbol "." :: .identifier word :: rest =>
    if isName word then suffix budget (.attribute base word) rest else none
  | budget + 1, base, .symbol "[" :: rest => do
    let (found, rest) ← indices budget rest
    suffix budget (.item base (group found)) rest
  | budget + 1, base, .symbol "(" :: .symbol ")" :: rest => suffix budget (.call base []) rest
  | budget + 1, base, .symbol "(" :: rest => do
    let (found, rest) ← items budget (some ")") rest
    suffix budget (.call base found.1) rest
  | _ + 1, _, .symbol "." :: _ => none
  | _ + 1, base, tokens => some (base, tokens)

/-- Expressions with commas between them up to an end, and whether there is a comma. -/
def items : Nat → Option String → List Token →
    Option ((List Expression × Bool) × List Token)
  | 0, _, _ => none
  | budget + 1, close, tokens => do
    let (first, rest) ← expression budget tokens
    match rest with
    | .symbol "," :: rest =>
      match afterEnd? close rest with
      | some rest => return (([first], true), rest)
      | none =>
        let (others, rest) ← items budget close rest
        return ((first :: others.1, true), rest)
    | rest => return (([first], false), ← afterEnd? close rest)

/-- The members of a set or table up to the end of it. -/
def entries : Nat → List Token → Option (List Expression × List Token)
  | 0, _ => none
  | budget + 1, tokens => do
    let (first, rest) ← expression budget tokens
    let (found, rest) ← match rest with
      | .symbol ":" :: rest => do
        let (second, rest) ← expression budget rest
        pure ([first, second], rest)
      | rest => pure ([first], rest)
    match rest with
    | .symbol "\x7d" :: rest | .symbol "," :: .symbol "\x7d" :: rest => return (found, rest)
    | .symbol "," :: rest => do
      let (others, rest) ← entries budget rest
      return (found ++ others, rest)
    | _ => none

/-- What stands in brackets after an expression, and whether there is a comma. -/
def indices : Nat → List Token → Option ((List Expression × Bool) × List Token)
  | 0, _ => none
  | budget + 1, tokens => do
    let (first, rest) ← index budget tokens
    match rest with
    | .symbol "]" :: rest => return (([first], false), rest)
    | .symbol "," :: .symbol "]" :: rest => return (([first], true), rest)
    | .symbol "," :: rest => do
      let (others, rest) ← indices budget rest
      return ((first :: others.1, true), rest)
    | _ => none

/-- An expression, or expressions with colons between them, each of which can be left
out. -/
def index : Nat → List Token → Option (Expression × List Token)
  | 0, _ => none
  | budget + 1, .symbol ":" :: rest => do
    let (bounds, rest) ← bounds budget rest
    return (.range bounds, rest)
  | budget + 1, tokens => do
    let (first, rest) ← expression budget tokens
    match rest with
    | .symbol ":" :: rest => do
      let (bounds, rest) ← bounds budget rest
      return (.range (first :: bounds), rest)
    | rest => return (first, rest)

/-- The bounds after the first colon of a range. -/
def bounds : Nat → List Token → Option (List Expression × List Token)
  | 0, _ => none
  | _ + 1, .symbol "]" :: rest => some ([], .symbol "]" :: rest)
  | _ + 1, .symbol "," :: rest => some ([], .symbol "," :: rest)
  | budget + 1, .symbol ":" :: rest => bounds budget rest
  | budget + 1, tokens => do
    let (bound, rest) ← expression budget tokens
    match rest with
    | .symbol ":" :: rest => do
      let (others, rest) ← bounds budget rest
      return (bound :: others, rest)
    | rest => return ([bound], rest)

end

/-- The expression that a text is. -/
def parse? (text : List Char) : Option Expression := do
  let tokens ← Token.scan text
  let (found, _) ← items (8 * tokens.length + 8) none tokens
  return group found

/-- The expression that the text of an annotation is.  A star before it asks for the
items of a type, of which there are none. -/
def ofText (text : String) : Except Error Expression :=
  let found := match text.toList with
    | '*' :: rest => (parse? rest).map fun found => .sign "*" found
    | chars => parse? chars
  match found with
  | some found => .ok found
  | none => .error (if text.isEmpty then .emptyText else .malformedText)

end Expression

end Schemata
