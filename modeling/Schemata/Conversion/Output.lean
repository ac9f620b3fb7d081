import Schemata.Conversion.Document
import Schemata.Settings.Generator

/-!
# Texts of documents

A document is written with an indentation, which is given as a JSON value and checked
after the conversion.
-/

namespace Schemata.TypeGraph

/-- The text of a graph's JSON Schema document. -/
def schemaText (graph : TypeGraph) (flags : Flags) (name : Option String) (indent : Json) :
    Except Error String := do
  let document ← graph.toSchemaDocument flags (graph.documentName name)
  return document.encode (← Layout.ofJson indent)

/-- The text of a graph's tool schema. -/
def toolText (graph : TypeGraph) (flags : Flags) (indent : Json) : Except Error String := do
  let document ← graph.toToolDocument flags
  return document.encode (← Layout.ofJson indent)

end Schemata.TypeGraph
