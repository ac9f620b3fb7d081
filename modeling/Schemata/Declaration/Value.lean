import Schemata.Declaration.Attribute

/-!
# Values among hints

An annotation may stand for a value instead of a type: a text, a number, several values,
or a member of an enumeration of texts or integers, which is one itself.  This file says
what such values are in conditions, in arithmetic and in comparisons.
-/

namespace Schemata

namespace Declarations

variable (ds : Declarations)

/-- The text that a hint is: a plain text, or a member of an enumeration of texts. -/
def textOf? (hint : Hint) : Option String :=
  match hint with
  | .text content => some content
  | .member key name => do
    let cls ← ds.class? key
    if ds.mixin? cls = some "str" then (ds.memberValue? key name).map Json.toWord else none
  | _ => none

/-- The integer that a hint is: a number or truth value, or a member of an enumeration of
integers. -/
def integerOf? (hint : Hint) : Option Int :=
  match hint with
  | .value content => content.integer?
  | .member key name => do
    let cls ← ds.class? key
    if ds.mixin? cls = some "int" then (ds.memberValue? key name).bind Json.integer? else none
  | _ => none

/-- Whether what a hint stands for counts as true. -/
def isTruthy (hint : Hint) : Bool :=
  match hint with
  | .nothing => false
  | .text content => !content.isEmpty
  | .value content => content.isTruthy
  | .tuple items => !items.isEmpty
  | .member key name =>
    match (ds.class? key).bind ds.mixin?, ds.memberValue? key name with
    | some _, some content => content.isTruthy
    | _, _ => true
  | _ => true

/-- A truth value as a hint. -/
def truth (holds : Bool) : Hint :=
  .value (.bool holds)

/-- How many bits hold either of two integers, with one for the sign. -/
def sharedWidth (a b : Int) : Nat :=
  Nat.log2 (max a.natAbs b.natAbs) + 2

/-- The bits of an integer, its sign repeated, as many as it shares with another. -/
def signedBits (a b : Int) : BitVec (sharedWidth a b) :=
  .ofInt _ a

/-- The result of an operator between integers. -/
def ofIntegers? (symbol : String) (a b : Int) : Option Hint :=
  let number (n : Int) : Option Hint := some (.value (.int n))
  match symbol with
  | "+" => number (a + b)
  | "-" => number (a - b)
  | "*" => number (a * b)
  | "//" => if b = 0 then none else number (Int.fdiv a b)
  | "%" => if b = 0 then none else number (Int.fmod a b)
  | "<" => some (truth (a < b))
  | ">" => some (truth (b < a))
  | "<=" => some (truth (a ≤ b))
  | ">=" => some (truth (b ≤ a))
  | "|" => number (signedBits a b ||| .ofInt _ b).toInt
  | "&" => number (signedBits a b &&& .ofInt _ b).toInt
  | "^" => number (signedBits a b ^^^ .ofInt _ b).toInt
  | _ => none

/-- The result of an operator that keeps truth values. -/
def ofTruths? (symbol : String) (a b : Bool) : Option Hint :=
  match symbol with
  | "|" => some (truth (a || b))
  | "&" => some (truth (a && b))
  | "^" => some (truth (a != b))
  | _ => none

/-- The result of an operator between texts. -/
def ofTexts? (symbol : String) (a b : String) : Option Hint :=
  match symbol with
  | "+" => some (.text (a ++ b))
  | "<" => some (truth (decide (a < b)))
  | ">" => some (truth (decide (b < a)))
  | "<=" => some (truth (decide (a ≤ b)))
  | ">=" => some (truth (decide (b ≤ a)))
  | _ => none

/-- The result of an operator that does not build a type. -/
def operate (symbol : String) (left right : Hint) : Except Error Hint :=
  let found := match symbol, left, right with
    | "==", _, _ => some (truth (left == right))
    | "!=", _, _ => some (truth (left != right))
    | "in", _, .tuple items => some (truth (items.contains left))
    | "not in", _, .tuple items => some (truth (!items.contains left))
    | "|", .value (.bool a), .value (.bool b) | "&", .value (.bool a), .value (.bool b)
    | "^", .value (.bool a), .value (.bool b) => ofTruths? symbol a b
    | _, _, _ =>
      match ds.integerOf? left, ds.integerOf? right with
      | some a, some b => ofIntegers? symbol a b
      | _, _ =>
        match ds.textOf? left, ds.textOf? right with
        | some a, some b => ofTexts? symbol a b
        | _, _ => none
  match found with
  | some hint => .ok hint
  | none => .error .wrongType

/-- A number with a sign before it. -/
def signed (symbol : String) (hint : Hint) : Except Error Hint :=
  match symbol, hint, ds.integerOf? hint with
  | "-", _, some n => .ok (.value (.int (-n)))
  | "+", _, some n => .ok (.value (.int n))
  | "~", _, some n => .ok (.value (.int (-n - 1)))
  | "-", .value (.float x), _ => .ok (.value (.float x.negate))
  | "+", .value (.float x), _ => .ok (.value (.float x))
  | _, _, _ => .error .wrongType

/-- One of several values, counted from zero, or below zero from the end. -/
def itemAt (items : List Hint) (position : Option Int) : Except Error Hint :=
  match position with
  | none => .error .wrongType
  | some position =>
    let position := if position < 0 then position + items.length else position
    let found := if position < 0 then none else items[position.toNat]?
    match found with
    | some item => .ok item
    | none => .error .missingItem

/-- What a value holds under an index in brackets after it. -/
def partOf (base index : Hint) : Except Error Hint :=
  match base with
  | .tuple items => itemAt items (ds.integerOf? index)
  | .value (.arr items) => itemAt (items.map .ofLiteral) (ds.integerOf? index)
  | .text content =>
    itemAt (content.toList.map fun c => .text c.toString) (ds.integerOf? index)
  | .value (.obj members) =>
    if !index.isKey then .error .wrongType
    else
      match (ds.textOf? index).bind (Table.find? members) with
      | some found => .ok (.ofLiteral found)
      | none => .error .unknownMember
  | _ => .error .wrongType

end Declarations

end Schemata
