import Schemata.Attempt
import Schemata.Graph.Basic
import Schemata.Json.Printer
import Schemata.Schema.Definition
import Schemata.Settings.Flags

/-!
# Converting type graphs to schema fragments

A reference is converted to a fragment.  Objects are written where they are used,
except that an object met inside itself becomes a pointer: to the whole document when
it is the root, else to an entry of the shared definitions, which is then added when
the object is complete.  Subtypes of a polymorphic type are always shared
definitions.

The conversion keeps three things: the shared definitions in the order in which they
are completed, the identifiers whose conversion is under way, and the identifiers
that some pointer already promises.

The functions that convert one layer take the conversion of the references below it.
{lit}`reference` closes the loop with a budget of nested references.
-/

namespace Schemata

/-- What a conversion keeps while it walks a graph. -/
structure ConversionState where
  /-- The shared definitions. -/
  defs : Table TypeId Definition := []
  /-- The objects and polymorphic types whose conversion is under way. -/
  inProgress : List TypeId := []
  /-- The objects that must become shared definitions when they are complete. -/
  pending : List TypeId := []

/-- A step of a conversion. -/
abbrev Convert := Attempt ConversionState

/-- The conversion of the references below a node, given the node that holds them. -/
abbrev ConvertRef := TypeRef → Option TypeId → Convert Definition

/-- What a conversion is about. -/
structure Conversion where
  graph : TypeGraph
  flags : Flags
  dialect : Dialect

/-- The pointer to a shared definition. -/
def defsPointer (id : TypeId) : String :=
  "#/$defs/" ++ id

/-- The name under which a value stands in an object: a text itself, any other value
its JSON text. -/
def Json.memberName : Json → String
  | .str name => name
  | value => value.compactText

/-- A text, or null for none. -/
def Json.ofText? : Option String → Json
  | some text => .str text
  | none => .null

/-- The schema type of a scalar. -/
def PrimitiveKind.schemaType : PrimitiveKind → String
  | .string => "string"
  | .boolean => "boolean"
  | .int | .long => "integer"
  | .float | .double => "number"

namespace ConversionState

/-- Note that the conversion of a node is under way. -/
def start (id : Option TypeId) (state : ConversionState) : ConversionState :=
  match id with
  | some id =>
    if state.inProgress.contains id then state
    else { state with inProgress := id :: state.inProgress }
  | none => state

/-- Note that the conversion of a node has ended. -/
def stop (id : Option TypeId) (state : ConversionState) : ConversionState :=
  match id with
  | some id => { state with inProgress := state.inProgress.filter (· != id) }
  | none => state

/-- Note that a pointer promises a shared definition. -/
def promise (id : TypeId) (state : ConversionState) : ConversionState :=
  if state.pending.contains id then state else { state with pending := id :: state.pending }

/-- Add a shared definition. -/
def share (id : TypeId) (definition : Definition) (state : ConversionState) : ConversionState :=
  { state with defs := state.defs.put id definition }

end ConversionState

namespace Conversion

variable (c : Conversion)

/-- The marker of a nullable fragment. -/
def marker (nullable : Bool) : Json :=
  if nullable then .bool true else .null

/-- A fragment that allows null only. -/
def nullFragment : Definition :=
  .value { type := .str nullType } .null

/-- A pointer, which cannot carry a marker: the nullable one is an alternative to null. -/
def pointer (target : String) (nullable : Bool) : Definition :=
  let reference := Definition.reference (.str target) .null
  if nullable then .anyOf .null [reference, nullFragment] else reference

/-- Carry out the conversion of a node that is under way meanwhile. -/
def during {α : Type} (id : Option TypeId) (step : Convert α) : Convert α :=
  Attempt.bind (Attempt.modify (·.start id)) fun _ => step.andThen (·.stop id)

/-! ## Objects -/

/-- The names of the properties that an object requires. -/
def requiredNames (type : ObjectType TypeRef) : List PropertyName :=
  let selected :=
    if c.dialect = .tool ∧ c.flags.strict.isTruthy then type.properties
    else if c.flags.respectDefaults.isTruthy then type.properties.filter (!·.hasDefault)
    else if c.flags.requireNullable.isTruthy then type.properties
    else type.properties.filter (!·.type.nullable)
  selected.map (·.name)

/-- Dress the fragment of a property's type: a required property has a union in place
of the marker, the tool dialect always has; then come the default and the description. -/
def dress (property : Property TypeRef) (required : Bool) (definition : Definition) :
    Definition :=
  let definition :=
    if required || c.dialect = .tool then definition.asUnion else definition
  let definition :=
    if property.default.isNull then definition
    else if c.flags.strict.isTruthy && required then
      definition.mapHead fun head => { head with const := property.default }
    else definition.mapHead fun head => { head with default := property.default }
  match property.description with
  | some text => definition.withDescription (.str text)
  | none => definition

/-- The fragment of a property. -/
def property (below : ConvertRef) (property : Property TypeRef) (required : Bool)
    (owner : Option TypeId) : Convert Definition := do
  return c.dress property required (← below property.type owner)

/-- The fragments of properties by name; of properties with one name the last counts. -/
def properties (below : ConvertRef) (required : List PropertyName) (owner : Option TypeId)
    (known : Table PropertyName Definition) : List (Property TypeRef) →
    Convert (Table PropertyName Definition)
  | [] => pure known
  | p :: rest => do
    let definition ← c.property below p (required.contains p.name) owner
    properties below required owner (known.put p.name definition) rest

/-- The fragment of an object written out, never a pointer to it. -/
def objectBody (below : ConvertRef) (type : ObjectType TypeRef) (id : Option TypeId) :
    Convert Definition := do
  let required := c.requiredNames type
  let table ← during id (c.properties below required id [] type.properties)
  let names := (type.properties.map (·.name)).filter required.contains
  return .object { type := "object", description := .ofText? type.description }
    (some (table.map fun entry => (entry.1.memberName, entry.2))) (.arr names)
    (.plain (.bool false))

/-- Mark a fragment written out as nullable. -/
def markNullable (nullable : Bool) (definition : Definition) : Definition :=
  if nullable then definition.mapHead fun head => { head with nullable := .bool true }
  else definition

/-- The fragment of an object where it is used. -/
def object (below : ConvertRef) (type : ObjectType TypeRef) (nullable : Bool) :
    Option TypeId → Convert Definition
  | none => do return markNullable nullable (← c.objectBody below type none)
  | some id => do
    let state ← Attempt.get
    if state.inProgress.contains id then
      if c.graph.root.id? = some id then return pointer "#" nullable
      else do
        Attempt.modify (·.promise id)
        return pointer (defsPointer id) nullable
    else if state.defs.has id then return pointer (defsPointer id) nullable
    else do
      let definition ← c.objectBody below type (some id)
      let state ← Attempt.get
      if state.pending.contains id then do
        Attempt.modify (·.share id definition)
        if c.graph.root.id? = some id then return markNullable nullable definition
        else return pointer (defsPointer id) nullable
      else return markNullable nullable definition

/-! ## Polymorphic types -/

/-- The fragment of a subtype, which is an object written out. -/
def variantBody (below : ConvertRef) (id : TypeId) (owner : Option TypeId) :
    Convert Definition := do
  match ← Attempt.ofExcept (c.graph.node id owner) with
  | .object type => c.objectBody below type (some id)
  | _ => below (.named id false) owner

/-- Share the fragment of a subtype unless it is shared or under way. -/
def variant (below : ConvertRef) (owner : Option TypeId) (variant : Variant TypeRef) :
    Convert Unit := do
  let state ← Attempt.get
  if state.defs.has variant.id then return ()
  else if state.inProgress.contains variant.id then Attempt.modify (·.promise variant.id)
  else do
    let definition ← c.variantBody below variant.id owner
    Attempt.modify (·.share variant.id definition)

/-- The block that announces the subtype, which strict documents leave out. -/
def discriminatorBlock (discriminator : Option Discriminator) : Option DiscriminatorBlock :=
  match discriminator with
  | none => none
  | some discriminator =>
    if c.flags.strict.isTruthy then none
    else some {
      propertyName := discriminator.propertyName
      mapping := match discriminator.mapping with
        | none => .null
        | some mapping => .obj (mapping.map fun entry => (entry.1, .str (defsPointer entry.2))) }

/-- The fragment of a polymorphic type: a choice between pointers to its subtypes.
The choice cannot take null in, so the nullable one is an alternative to null. -/
def polymorphic (below : ConvertRef) (type : PolymorphicType TypeRef) (nullable : Bool)
    (id : Option TypeId) : Convert Definition := do
  let state ← Attempt.get
  if !id.any state.inProgress.contains then
    during id (Attempt.forEach type.variants (c.variant below id))
  let options := type.variants.map fun variant =>
    Definition.reference (.str (defsPointer variant.id)) .null
  let discriminator := c.discriminatorBlock type.discriminator
  let description := Json.ofText? type.description
  if nullable then
    return .anyOf description [.oneOf .null options discriminator, nullFragment]
  else return .oneOf description options discriminator

/-! ## Nodes and references -/

/-- The fragment of a node that a reference leads to. -/
def node (below : ConvertRef) (node : Node) (nullable : Bool) (id : Option TypeId) :
    Convert Definition :=
  let head (type : String) (description : Option String) : TypedHead :=
    { type := .str type, description := .ofText? description, nullable := marker nullable }
  match node with
  | .primitive kind description =>
    pure (.value (head kind.schemaType description) .null)
  | .enumeration type =>
    pure (.value (head "string" type.description) (.arr (type.entries.map .str)))
  | .list element description => do
    let items ← below element id
    return .array (head "array" description) (some items.asUnion)
  | .map _ value description => do
    let values ← below value id
    return .object (head "object" description) none .null (.schema values.asUnion)
  | .object type => c.object below type nullable id
  | .polymorphic type => c.polymorphic below type nullable id
  | .other typeName => Attempt.fail (.invalidGraph (.unknownNode typeName) id)

/-- One layer of the conversion of a reference that a node holds. -/
def layer (below : ConvertRef) : ConvertRef
  | .inline node nullable, owner =>
    if node.needsName then
      Attempt.fail (.invalidGraph (.unsupportedInline node.typeName) owner)
    else c.node below node nullable none
  | .named id nullable, owner => do
    let node ← Attempt.ofExcept (c.graph.node id owner)
    c.node below node nullable (some id)

/-- The fragment of a reference, with a budget of nested references. -/
def reference : Nat → ConvertRef
  | 0 => fun _ _ => Attempt.fail .endless
  | budget + 1 => c.layer (reference budget)

/-- A budget for the whole graph.  No object or polymorphic type is converted inside
itself, lists and maps with names lie between two of them, and each holds the nodes
written inside it. -/
def budget : Nat :=
  let size := c.graph.nodes.length + 1
  let depth := (c.graph.references.map fun ref => ref.1.depth).foldl max 0
  size * size * (depth + 2)

/-- The fragment of a reference. -/
def convert : ConvertRef :=
  c.reference c.budget

end Conversion

end Schemata
