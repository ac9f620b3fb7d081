import Schemata.Schema.Definition

/-!
# Equality of schema documents

Two documents are the same when they have the same kinds of fragments and equal
values in every field.  Values compare as JSON values do, so a document that holds
NaN is not the same as itself.
-/

namespace Schemata

/-- Whether two optional parts are both absent, or both present and related. -/
def sameOption {α : Type} (same : α → α → Bool) : Option α → Option α → Bool
  | none, none => true
  | some a, some b => same a b
  | _, _ => false

/-- Equality of shared keywords. -/
def TypedHead.same (a b : TypedHead) : Bool :=
  a.type.same b.type && a.description.same b.description && a.nullable.same b.nullable &&
    a.default.same b.default && a.const.same b.const

/-- Equality of discriminator blocks. -/
def DiscriminatorBlock.same (a b : DiscriminatorBlock) : Bool :=
  a.propertyName.same b.propertyName && a.mapping.same b.mapping

namespace Definition

mutual

/-- Equality of fragments. -/
def same : Definition → Definition → Bool
  | .value head enum, .value head' enum' => head.same head' && enum.same enum'
  | .array head items, .array head' items' => head.same head' && sameItems items items'
  | .object head properties required additional, .object head' properties' required' additional' =>
    head.same head' && sameProperties properties properties' && required.same required' &&
      sameAdditional additional additional'
  | .reference target description, .reference target' description' =>
    target.same target' && description.same description'
  | .oneOf description options discriminator, .oneOf description' options' discriminator' =>
    description.same description' && sameAll options options' &&
      sameOption DiscriminatorBlock.same discriminator discriminator'
  | .anyOf description options, .anyOf description' options' =>
    description.same description' && sameAll options options'
  | .allOf description options, .allOf description' options' =>
    description.same description' && sameAll options options'
  | _, _ => false

/-- Equality of the items of arrays. -/
def sameItems : Option Definition → Option Definition → Bool
  | none, none => true
  | some a, some b => same a b
  | _, _ => false

/-- Equality of alternatives, one by one. -/
def sameAll : List Definition → List Definition → Bool
  | [], [] => true
  | a :: as, b :: bs => same a b && sameAll as bs
  | _, _ => false

/-- Equality of properties. -/
def sameProperties : Option (List (String × Definition)) → Option (List (String × Definition)) → Bool
  | none, none => true
  | some table, some others => table.length == others.length && sameTable table others
  | _, _ => false

/-- Whether each named fragment has an equal one of that name on the other side. -/
def sameTable : List (String × Definition) → List (String × Definition) → Bool
  | [], _ => true
  | (name, definition) :: rest, others =>
    (match Table.find? others name with
      | some other => same definition other
      | none => false) && sameTable rest others

/-- Equality of what is said about members without a name. -/
def sameAdditional : Additional Definition → Additional Definition → Bool
  | .plain a, .plain b => a.same b
  | .schema a, .schema b => same a b
  | _, _ => false

end

end Definition

/-- Equality of bodies. -/
def SchemaBody.same (a b : SchemaBody) : Bool :=
  a.schemaUri.same b.schemaUri && a.id.same b.id && a.type.same b.type &&
    a.description.same b.description &&
    Definition.sameProperties a.properties b.properties && a.required.same b.required &&
    a.additional.same b.additional && sameOption Definition.sameAll a.oneOf b.oneOf &&
    sameOption DiscriminatorBlock.same a.discriminator b.discriminator &&
    Definition.sameProperties a.defs b.defs

/-- Equality of JSON Schema documents. -/
def SchemaDocument.same (a b : SchemaDocument) : Bool :=
  a.name.same b.name && a.strict.same b.strict && a.description.same b.description &&
    a.body.same b.body

/-- Equality of tools. -/
def ToolDocument.same (a b : ToolDocument) : Bool :=
  a.type.same b.type && a.name.same b.name && a.description.same b.description &&
    a.strict.same b.strict && a.parameters.same b.parameters

end Schemata
