import Schemata.Error
import Schemata.Json.Parser
import Schemata.Schema.Definition

/-!
# Decoding schema documents

The kind of a fragment is chosen by the keywords that are present, in this order:
{lit}`oneOf`, {lit}`anyOf`, {lit}`allOf`, {lit}`$ref`, {lit}`items`,
{lit}`properties` or the type {lit}`object`, the type {lit}`array`.  A fragment with
none of them is a value.  Keyword values are kept as they are.

The readings of a JSON value are computed from the readings of its parts, so decoding
follows the value.
-/

namespace Schemata

/-- The ways in which a JSON value can be read inside a schema. -/
structure Reading where
  /-- The value itself. -/
  raw : Json
  /-- The value as one fragment. -/
  fragment : Except Error Definition
  /-- The value as the alternatives of a combination. -/
  options : Except Error (List Definition)
  /-- The value as fragments by name. -/
  table : Except Error (Table String Definition)

/-- Refuse a value that is not an object. -/
def notObject {α : Type} (part : String) (value : Json) : Except Error α :=
  .error (.undecodable (.notObject part value.typeName))

/-- Decode a discriminator block. -/
def DiscriminatorBlock.ofJson : Json → Except Error DiscriminatorBlock
  | .obj members => .ok {
      propertyName := (Table.find? members "propertyName").getD "type"
      mapping := (Table.find? members "mapping").getD .null }
  | value => notObject "discriminator" value

/-- Decode a discriminator block unless it is absent. -/
def DiscriminatorBlock.ofJson? (value : Json) : Except Error (Option DiscriminatorBlock) :=
  if value.isNull then .ok none else do return some (← DiscriminatorBlock.ofJson value)

namespace Reading

/-- The value of a keyword, or null. -/
def rawOf (parts : Table String Reading) (name : String) : Json :=
  ((parts.find? name).map (·.raw)).getD .null

/-- The first type of a fragment that is not null, or the type itself. -/
def primaryType : Json → Json
  | .arr types => ((types.find? fun type => !type.isText nullType).getD (.str nullType))
  | type => type

/-- The fragments by name under a keyword, unless it is absent. -/
def table? (parts : Table String Reading) (name : String) :
    Except Error (Option (Table String Definition)) :=
  match parts.find? name with
  | none => .ok none
  | some part => if part.raw.isNull then .ok none else do return some (← part.table)

/-- The keywords of a fragment with a type. -/
def headOf (parts : Table String Reading) (type : Json) : TypedHead :=
  { type
    description := rawOf parts "description"
    nullable := rawOf parts "nullable"
    default := rawOf parts "default"
    const := rawOf parts "const" }

/-- The type of a fragment, or the one that goes without saying. -/
def typeOf (parts : Table String Reading) (default : String) : Json :=
  ((parts.find? "type").map (·.raw)).getD (.str default)

/-- The fragment that an object with the given keywords is. -/
def fragmentOf (parts : Table String Reading) : Except Error Definition :=
  let description := rawOf parts "description"
  let primary := primaryType (rawOf parts "type")
  match parts.find? "oneOf", parts.find? "anyOf", parts.find? "allOf", parts.find? "$ref",
      parts.find? "items" with
  | some part, _, _, _, _ => do
    let options ← part.options
    let discriminator ← DiscriminatorBlock.ofJson? (rawOf parts "discriminator")
    return .oneOf description options discriminator
  | none, some part, _, _, _ => do return .anyOf description (← part.options)
  | none, none, some part, _, _ => do return .allOf description (← part.options)
  | none, none, none, some part, _ => .ok (.reference part.raw description)
  | none, none, none, none, some part => do
    let items ← part.fragment
    return .array (headOf parts (typeOf parts "array")) (some items)
  | none, none, none, none, none =>
    if parts.has "properties" || primary.isText "object" then do
      let properties ← table? parts "properties"
      let additional ← match parts.find? "additionalProperties" with
        | none => pure (Additional.plain .null)
        | some part =>
          match part.raw with
          | .obj _ => do pure (Additional.schema (← part.fragment))
          | value => pure (Additional.plain value)
      return .object (headOf parts (typeOf parts "object")) properties (rawOf parts "required")
        additional
    else if primary.isText "array" then
      .ok (.array (headOf parts (typeOf parts "array")) none)
    else .ok (.value (headOf parts (typeOf parts "string")) (rawOf parts "enum"))

/-- The readings of a value that has no parts to read. -/
def ofScalar (value : Json) : Reading :=
  { raw := value
    fragment := notObject "definition" value
    options :=
      match value.elements? with
      | none => .error .wrongType
      | some elements => elements.mapM (notObject "definition")
    table := notObject "properties" value }

mutual

/-- The readings of a value. -/
def ofJson : Json → Reading
  | .arr items =>
    { ofScalar (.arr items) with
      options := (ofItems items).mapM (·.fragment) }
  | .obj members =>
    let parts := ofMembers members
    { ofScalar (.obj members) with
      fragment := fragmentOf parts
      table := parts.mapM fun part => do return (part.1, ← part.2.fragment) }
  | value => ofScalar value

/-- The readings of the items of an array. -/
def ofItems : List Json → List Reading
  | [] => []
  | item :: items => ofJson item :: ofItems items

/-- The readings of the members of an object. -/
def ofMembers : List (String × Json) → List (String × Reading)
  | [] => []
  | (name, value) :: members => (name, ofJson value) :: ofMembers members

end

end Reading

/-- Decode one fragment. -/
def Definition.decode (value : Json) : Except Error Definition :=
  (Reading.ofJson value).fragment

/-- Decode the body of a document. -/
def SchemaBody.decode : Json → Except Error SchemaBody
  | .obj members => do
    let parts := Reading.ofMembers members
    let properties ← Reading.table? parts "properties"
    let oneOf ← match Table.find? parts "oneOf" with
      | none => pure none
      | some part => if part.raw.isNull then pure none else do pure (some (← part.options))
    let discriminator ← DiscriminatorBlock.ofJson? (Reading.rawOf parts "discriminator")
    let defs ← Reading.table? parts "$defs"
    return {
      schemaUri := Reading.rawOf parts "$schema"
      id := Reading.rawOf parts "$id"
      type := Reading.typeOf parts "object"
      description := Reading.rawOf parts "description"
      properties
      required := Reading.rawOf parts "required"
      additional := Reading.rawOf parts "additionalProperties"
      oneOf, discriminator, defs }
  | value => notObject "schema" value

/-- The object that a text holds. -/
def parseObject (text : String) : Except Error (List (String × Json)) :=
  match Json.parse text with
  | .error error => .error (.undecodable (.notJson error))
  | .ok (.obj members) => .ok members
  | .ok value => notObject "document" value

/-- Decode the text of a JSON Schema document. -/
def SchemaDocument.decode (text : String) : Except Error SchemaDocument := do
  let members ← parseObject text
  match Table.find? members "name" with
  | none => .error (.undecodable .unnamedDocument)
  | some name =>
    let body ← SchemaBody.decode ((Table.find? members "schema").getD (.obj []))
    return {
      name
      strict := .bool ((Table.find? members "strict").getD (.bool false)).isTruthy
      description := (Table.find? members "description").getD .null
      body }

/-- Decode the text of a tool. -/
def ToolDocument.decode (text : String) : Except Error ToolDocument := do
  let members ← parseObject text
  let type := (Table.find? members "type").getD .null
  match Table.find? members "name" with
  | none => .error (.undecodable .notToolDocument)
  | some name =>
    if type.isText "function" then do
      let parameters ← SchemaBody.decode ((Table.find? members "parameters").getD (.obj []))
      return {
        name
        description := (Table.find? members "description").getD ""
        strict := .bool ((Table.find? members "strict").getD (.bool true)).isTruthy
        parameters }
    else .error (.undecodable .notToolDocument)

end Schemata
