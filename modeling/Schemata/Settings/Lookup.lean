import Schemata.Error
import Schemata.Json.Basic

/-!
# Looking settings up

Settings come as a JSON value that should be an object.  A value of another type is
not refused at once: asking whether it mentions a key has an answer for texts and
arrays too, and only taking the value of the key fails.
-/

namespace Schemata.Json

/-- Whether a text occurs inside another. -/
def occursIn (part : List Char) : List Char → Bool
  | [] => part.isEmpty
  | c :: rest => part.isPrefixOf (c :: rest) || occursIn part rest

/-- Whether a value mentions a key: an object as a name, an array as an item, a text
as a part. -/
def mentions (key : String) : Json → Except Error Bool
  | .obj members => .ok (Table.has members key)
  | .arr items => .ok (items.any (·.isText key))
  | .str text => .ok (occursIn key.toList text.toList)
  | _ => .error .wrongType

/-- The value of a key that is mentioned. -/
def mentioned (key : String) (value : Json) : Except Error (Option Json) := do
  if ← value.mentions key then
    match value.member? key with
    | some content => return some content
    | none => .error .wrongType
  else return none

/-- The values that a value runs through. -/
def elements (value : Json) : Except Error (List Json) :=
  match value.elements? with
  | some elements => .ok elements
  | none => .error .wrongType

end Schemata.Json
