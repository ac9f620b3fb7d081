import Schemata.Conversion.Fragment
import Schemata.Schema.Rendering

/-!
# Documents of type graphs

The two documents of a type graph: a JSON Schema document for any root, and a tool
schema for a root that refers to an object.
-/

namespace Schemata

/-- The address of the schema language in strict documents. -/
def draftAddress : String :=
  "https://json-schema.org/draft/2020-12/schema"

/-- A table, or nothing when it is empty. -/
def nonEmpty? {α : Type} (table : List α) : Option (List α) :=
  if table.isEmpty then none else some table

/-- An array, or null when it is empty. -/
def Json.orNull : Json → Json
  | .arr [] => .null
  | value => value

namespace TypeGraph

/-- The name of a document: the given one unless it is empty, else the graph's own. -/
def documentName (graph : TypeGraph) : Option String → String
  | some name => if name.isEmpty then graph.defaultName else name
  | none => graph.defaultName

/-- The body of a JSON Schema document whose root has the given fragment.  Only
objects with properties and choices are written into the body. -/
def schemaBody (flags : Flags) (name : String) (root : Definition)
    (defs : Table TypeId Definition) : SchemaBody :=
  let strict := flags.strict.isTruthy
  let frame : SchemaBody := {
    schemaUri := if strict then .str draftAddress else .null
    id := if strict then .str name else .null
    defs := nonEmpty? defs }
  match root with
  | .object head (some properties) required _ =>
    { frame with
      description := head.description
      properties := nonEmpty? properties
      required := required.orNull }
  | .oneOf description options discriminator =>
    { frame with description, oneOf := some options, discriminator }
  | _ => frame

/-- The JSON Schema document of a graph. -/
def toSchemaDocument (graph : TypeGraph) (flags : Flags) (name : String) :
    Except Error SchemaDocument :=
  let conversion : Conversion := { graph, flags, dialect := .jsonSchema }
  match conversion.convert graph.root none |>.run {} with
  | (.error error, _) => .error error
  | (.ok root, state) => .ok {
      name := .str name
      strict := flags.strict
      body := schemaBody flags name root state.defs }

/-- The object that the root refers to, under its identifier. -/
def toolRoot (graph : TypeGraph) : Except Error (TypeId × ObjectType TypeRef) :=
  match graph.root with
  | .inline _ _ => .error (.invalidGraph .inlineToolRoot none)
  | .named id _ => do
    match ← graph.node id with
    | .object type => return (id, type)
    | node => .error (.invalidGraph (.toolRootNotObject node.typeName) (some id))

/-- The tool schema of a graph, which is named after its root object. -/
def toToolDocument (graph : TypeGraph) (flags : Flags) : Except Error ToolDocument := do
  let (id, type) ← graph.toolRoot
  let conversion : Conversion := { graph, flags, dialect := .tool }
  match conversion.objectBody conversion.convert type (some id) |>.run {} with
  | (.error error, _) => .error error
  | (.ok definition, state) =>
    let (properties, required) := match definition with
      | .object _ (some properties) required _ => (properties, required)
      | _ => ([], .arr [])
    return {
      name := .str type.name
      description := .str (type.description.getD "")
      strict := flags.strict
      parameters := {
        properties := some properties
        required
        defs := nonEmpty? state.defs } }

end TypeGraph

end Schemata
