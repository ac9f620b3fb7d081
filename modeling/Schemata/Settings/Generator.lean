import Schemata.Json.Printer
import Schemata.Settings.Flags
import Schemata.Settings.Introspection

/-!
# Settings of the generator

The settings file of the command line: the flags of both dialects, the settings of
the introspection and the indentation of the output.
-/

namespace Schemata

namespace Layout

/-- The integers below this one, down to its negative, fit into a machine word. -/
def wordLimit : Nat :=
  Nat.pow 2 63

/-- A number of spaces that no memory holds. -/
def memoryLimit : Nat :=
  Nat.pow 2 40

/-- The layout that indents by a number of spaces, none when it is below zero.  The
number has to fit into a machine word with a sign, and the spaces into memory. -/
def ofWidth (width : Int) : Except Error Layout :=
  if width < -wordLimit ∨ wordLimit ≤ width then .error .uncountable
  else if memoryLimit ≤ width then .error .outOfMemory
  else .ok (.indented (List.replicate width.toNat ' '))

/-- The layout for an indentation: none for null, a number of spaces, or a text. -/
def ofJson : Json → Except Error Layout
  | .null => .ok .compact
  | .str unit => .ok (.indented unit.toList)
  | value =>
    match value.integer? with
    | some width => ofWidth width
    | none => .error .wrongType

end Layout

/-- All settings of the generator. -/
structure GeneratorSettings where
  jsonSchema : Flags := Flags.initial .jsonSchema
  tool : Flags := Flags.initial .tool
  introspection : IntrospectionSettings := {}
  indent : Json := .int 2

namespace GeneratorSettings

/-- Settings from an object; keys that are not mentioned keep their defaults. -/
def ofJson (data : Json) : Except Error GeneratorSettings := do
  let initial : GeneratorSettings := {}
  let jsonSchema ← match ← data.mentioned "json_schema" with
    | some value => Flags.ofJson .jsonSchema value
    | none => pure initial.jsonSchema
  let tool ← match ← data.mentioned "function_calling" with
    | some value => Flags.ofJson .tool value
    | none => pure initial.tool
  let introspection ← match ← data.mentioned "introspection" with
    | some value => IntrospectionSettings.ofJson value
    | none => pure initial.introspection
  let indent ← data.mentioned "indent"
  return { jsonSchema, tool, introspection, indent := indent.getD initial.indent }

/-- The settings as an object. -/
def toJson (settings : GeneratorSettings) : Json :=
  .obj [("json_schema", settings.jsonSchema.toJson),
    ("function_calling", settings.tool.toJson),
    ("introspection", settings.introspection.toJson),
    ("indent", settings.indent)]

end GeneratorSettings

end Schemata
