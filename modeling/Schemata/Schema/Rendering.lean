import Schemata.Json.Printer
import Schemata.Schema.Definition

/-!
# Rendering schema documents

Every fragment and document has one rendering as a JSON object, with its keywords in
a fixed order and absent keywords left out, so equal documents have equal text.
-/

namespace Schemata

/-- A keyword with its value, or nothing for an absent one. -/
def keyword (name : String) (value : Json) : List (String × Json) :=
  if value.isNull then [] else [(name, value)]

namespace TypedHead

/-- The keywords before those of a fragment's own kind. -/
def opening (head : TypedHead) : List (String × Json) :=
  ("type", head.type) :: keyword "description" head.description ++
    keyword "nullable" head.nullable

/-- The keywords after those of a fragment's own kind. -/
def closing (head : TypedHead) : List (String × Json) :=
  keyword "default" head.default ++ keyword "const" head.const

end TypedHead

/-- The rendering of a discriminator block. -/
def DiscriminatorBlock.toJson (block : DiscriminatorBlock) : Json :=
  .obj (("propertyName", block.propertyName) :: keyword "mapping" block.mapping)

/-- The keyword of a discriminator block. -/
def DiscriminatorBlock.entry : Option DiscriminatorBlock → List (String × Json)
  | none => []
  | some block => [("discriminator", block.toJson)]

namespace Definition

mutual

/-- The rendering of a fragment. -/
def toJson : Definition → Json
  | .value head enum => .obj (head.opening ++ keyword "enum" enum ++ head.closing)
  | .array head items => .obj (head.opening ++ itemsEntry items ++ head.closing)
  | .object head properties required additional =>
    .obj (head.opening ++ propertiesEntry properties ++ keyword "required" required ++
      additionalEntry additional ++ head.closing)
  | .reference target description =>
    .obj (("$ref", target) :: keyword "description" description)
  | .oneOf description options discriminator =>
    .obj (keyword "description" description ++ ("oneOf", .arr (toJsons options)) ::
      DiscriminatorBlock.entry discriminator)
  | .anyOf description options =>
    .obj (keyword "description" description ++ [("anyOf", .arr (toJsons options))])
  | .allOf description options =>
    .obj (keyword "description" description ++ [("allOf", .arr (toJsons options))])

/-- The renderings of several fragments. -/
def toJsons : List Definition → List Json
  | [] => []
  | option :: options => option.toJson :: toJsons options

/-- The renderings of named fragments. -/
def toMembers : List (String × Definition) → List (String × Json)
  | [] => []
  | (name, definition) :: rest => (name, definition.toJson) :: toMembers rest

/-- The keyword for the items of an array. -/
def itemsEntry : Option Definition → List (String × Json)
  | none => []
  | some items => [("items", items.toJson)]

/-- The keyword for the properties of an object. -/
def propertiesEntry : Option (List (String × Definition)) → List (String × Json)
  | none => []
  | some properties => [("properties", .obj (toMembers properties))]

/-- The keyword for members that an object does not name. -/
def additionalEntry : Additional Definition → List (String × Json)
  | .plain content => keyword "additionalProperties" content
  | .schema fragment => [("additionalProperties", fragment.toJson)]

end

end Definition

/-- The keyword for named fragments. -/
def tableEntry (name : String) : Option (Table String Definition) → List (String × Json)
  | none => []
  | some table => [(name, .obj (Definition.toMembers table))]

/-- The rendering of a body. -/
def SchemaBody.toJson (body : SchemaBody) : Json :=
  .obj (keyword "$schema" body.schemaUri ++ keyword "$id" body.id ++ ("type", body.type) ::
    keyword "description" body.description ++ tableEntry "properties" body.properties ++
    keyword "required" body.required ++ keyword "additionalProperties" body.additional ++
    (match body.oneOf with
      | none => []
      | some options => [("oneOf", .arr (Definition.toJsons options))]) ++
    DiscriminatorBlock.entry body.discriminator ++ tableEntry "$defs" body.defs)

/-- The rendering of a JSON Schema document. -/
def SchemaDocument.toJson (document : SchemaDocument) : Json :=
  .obj (("name", document.name) :: ("strict", document.strict) ::
    keyword "description" document.description ++ [("schema", document.body.toJson)])

/-- The rendering of a tool. -/
def ToolDocument.toJson (document : ToolDocument) : Json :=
  .obj [("type", document.type), ("name", document.name),
    ("description", document.description), ("strict", document.strict),
    ("parameters", document.parameters.toJson)]

/-- The text of a JSON Schema document. -/
def SchemaDocument.encode (document : SchemaDocument) (layout : Layout) : String :=
  document.toJson.print layout

/-- The text of a tool. -/
def ToolDocument.encode (document : ToolDocument) (layout : Layout) : String :=
  document.toJson.print layout

end Schemata
