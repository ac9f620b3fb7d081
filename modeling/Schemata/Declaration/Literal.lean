import Schemata.Json.Printer
import Schemata.Text.Quoted

/-!
# Literals

A JSON value stands for a literal of the language, which is displayed with single
quotes and with the language's names for null and the truth values.
-/

namespace Schemata.Json

mutual

/-- A value as the language displays it. -/
def literalDisplay : Json → String
  | .null => "None"
  | .bool true => "True"
  | .bool false => "False"
  | .int value => toString value
  | .float .nan => "nan"
  | .float (.infinity negative) => if negative then "-inf" else "inf"
  | .float value => String.ofList value.text
  | .str content => quote content
  | .arr items => "[" ++ ", ".intercalate (itemDisplays items) ++ "]"
  | .obj members => "\x7b" ++ ", ".intercalate (memberDisplays members) ++ "\x7d"

/-- Values as the language displays them. -/
def itemDisplays : List Json → List String
  | [] => []
  | item :: items => literalDisplay item :: itemDisplays items

/-- The members of an object as the language displays them. -/
def memberDisplays : List (String × Json) → List String
  | [] => []
  | (name, value) :: members =>
    (quote name ++ ": " ++ literalDisplay value) :: memberDisplays members

end

/-- A value made a text: a text is one already. -/
def toWord : Json → String
  | .str content => content
  | value => value.literalDisplay

end Schemata.Json
