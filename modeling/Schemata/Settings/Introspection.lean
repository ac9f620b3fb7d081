import Schemata.Settings.Lookup

/-!
# Settings of the introspection

These settings say which annotations are descriptions, where their text is found,
and how a polymorphic value announces its subtype.
-/

namespace Schemata

/-- How annotations and hierarchies are read. -/
structure IntrospectionSettings where
  /-- Names of the annotation classes that are descriptions; case does not matter. -/
  annotationNames : List Json :=
    [.str "description", .str "llmdescription", .str "jsonpropertydescription",
      .str "jsonclassdescription", .str "p"]
  /-- Attributes that may hold the text, in the order in which they are tried. -/
  valueAttributes : List Json := [.str "value", .str "description"]
  /-- The property that announces the subtype. -/
  discriminatorProperty : Json := "type"
  /-- Whether every polymorphic value has that property. -/
  discriminatorRequired : Json := .bool true

namespace IntrospectionSettings

/-- Settings from an object; keys that are not mentioned keep their defaults. -/
def ofJson (data : Json) : Except Error IntrospectionSettings := do
  let initial : IntrospectionSettings := {}
  let list (key : String) (default : List Json) : Except Error (List Json) := do
    match ← data.mentioned key with
    | some value => value.elements
    | none => return default
  let annotationNames ← list "description_annotation_names" initial.annotationNames
  let valueAttributes ← list "description_value_attributes" initial.valueAttributes
  let property ← data.mentioned "discriminator_property"
  let required ← data.mentioned "discriminator_required"
  return {
    annotationNames, valueAttributes
    discriminatorProperty := property.getD initial.discriminatorProperty
    discriminatorRequired := required.getD initial.discriminatorRequired }

/-- The settings as an object. -/
def toJson (settings : IntrospectionSettings) : Json :=
  .obj [("description_annotation_names", .arr settings.annotationNames),
    ("description_value_attributes", .arr settings.valueAttributes),
    ("discriminator_property", settings.discriminatorProperty),
    ("discriminator_required", settings.discriminatorRequired)]

end IntrospectionSettings

end Schemata
