import Schemata.Json.Basic

/-!
# Schema documents

A schema document has a body, and the body is made of fragments: one per property,
array item, map value, alternative or shared definition.  Keywords keep the JSON
value that they were given, and null stands for an absent keyword.

The nullability of a fragment has two spellings: the marker {lit}`nullable`, and the
union of its type with {lit}`null`.  {lit}`asUnion` turns the first into the second.
-/

namespace Schemata

/-- The keywords that fragments with a type share. -/
structure TypedHead where
  type : Json
  description : Json := .null
  nullable : Json := .null
  default : Json := .null
  const : Json := .null

/-- The block that says how a value announces its alternative. -/
structure DiscriminatorBlock where
  propertyName : Json := "type"
  mapping : Json := .null

/-- What an object fragment says about members that it does not name: nothing or a
plain value, or a fragment for their values. -/
inductive Additional (δ : Type) where
  | plain (value : Json)
  | schema (fragment : δ)

/-- A fragment of a schema. -/
inductive Definition where
  | value (head : TypedHead) (enum : Json)
  | array (head : TypedHead) (items : Option Definition)
  | object (head : TypedHead) (properties : Option (List (String × Definition)))
      (required : Json) (additional : Additional Definition)
  | reference (target description : Json)
  | oneOf (description : Json) (options : List Definition)
      (discriminator : Option DiscriminatorBlock)
  | anyOf (description : Json) (options : List Definition)
  | allOf (description : Json) (options : List Definition)

/-- The body of a schema document. -/
structure SchemaBody where
  schemaUri : Json := .null
  id : Json := .null
  type : Json := "object"
  description : Json := .null
  properties : Option (Table String Definition) := none
  required : Json := .null
  additional : Json := .bool false
  oneOf : Option (List Definition) := none
  discriminator : Option DiscriminatorBlock := none
  defs : Option (Table String Definition) := none

/-- A named JSON Schema document. -/
structure SchemaDocument where
  name : Json
  strict : Json := .bool false
  description : Json := .null
  body : SchemaBody

/-- A tool in the function-calling dialect. -/
structure ToolDocument where
  type : Json := "function"
  name : Json
  description : Json := ""
  strict : Json := .bool true
  parameters : SchemaBody

/-! ## Nullability -/

/-- The type that values of null have. -/
def nullType : String := "null"

namespace TypedHead

/-- The types of a union: those of an array, or the one type. -/
def types (head : TypedHead) : List Json :=
  match head.type with
  | .arr items => items
  | type => [type]

/-- Replace the nullable marker by a union with null. -/
def asUnion (head : TypedHead) : TypedHead :=
  if head.nullable.isTruthy then
    let types := head.types
    { head with
      type := .arr (if types.any (·.isText nullType) then types else types ++ [.str nullType])
      nullable := .null }
  else head

end TypedHead

namespace Definition

/-- The keywords of a fragment with a type. -/
def head? : Definition → Option TypedHead
  | .value head _ => some head
  | .array head _ => some head
  | .object head _ _ _ => some head
  | _ => none

/-- Change the keywords of a fragment with a type; other fragments stay as they are. -/
def mapHead (change : TypedHead → TypedHead) : Definition → Definition
  | .value head enum => .value (change head) enum
  | .array head items => .array (change head) items
  | .object head properties required additional =>
    .object (change head) properties required additional
  | other => other

/-- Replace the nullable marker of a fragment with a type by a union with null. -/
def asUnion (definition : Definition) : Definition :=
  definition.mapHead TypedHead.asUnion

/-- Replace the description. -/
def withDescription (description : Json) : Definition → Definition
  | .reference target _ => .reference target description
  | .oneOf _ options discriminator => .oneOf description options discriminator
  | .anyOf _ options => .anyOf description options
  | .allOf _ options => .allOf description options
  | typed => typed.mapHead fun head => { head with description }

end Definition

end Schemata
