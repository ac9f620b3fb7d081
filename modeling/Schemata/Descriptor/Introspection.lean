import Schemata.Descriptor.Basic
import Schemata.Introspection.Outcome

/-!
# Type graphs of descriptors

A named node takes the serial name of its descriptor as identifier, and a subtype the
simple names of its sealed descriptor and itself.  Which descriptors are subtypes is
found before any node is built, breadth first from the root, so the identifier of a
descriptor does not depend on where it is met.

The functions that read one descriptor take the reading of those that it points at;
{lit}`reference` closes the loop with a budget of nested references.
-/

namespace Schemata

/-- The scalar that a kind stands for. -/
def DescriptorKind.primitive? : DescriptorKind → Option PrimitiveKind
  | .string | .char => some .string
  | .boolean => some .boolean
  | .byte | .short | .int => some .int
  | .long => some .long
  | .float => some .float
  | .double => some .double
  | _ => none

namespace Catalog

/-- The qualified identifiers of the subtypes of one descriptor; an identifier given
before stays. -/
def nameSubtypes (catalog : Catalog) (descriptor : Descriptor)
    (ids : Table DescriptorKey TypeId) : Table DescriptorKey TypeId :=
  match descriptor.kind, catalog.subtypes? descriptor with
  | .sealed, some subtypes =>
    subtypes.foldl (fun ids key =>
      match Table.find? catalog key with
      | some subtype =>
        if Table.has ids key then ids
        else Table.put ids key (Session.qualify descriptor.simpleName subtype.simpleName)
      | none => ids) ids
  | _, _ => ids

/-- Walk the descriptors breadth first and name the subtypes. -/
def walk (catalog : Catalog) : Nat → List DescriptorKey → List DescriptorKey →
    Table DescriptorKey TypeId → Table DescriptorKey TypeId
  | 0, _, _, ids => ids
  | _ + 1, [], _, ids => ids
  | budget + 1, key :: pending, seen, ids =>
    if seen.contains key then walk catalog budget pending seen ids
    else
      match Table.find? catalog key with
      | none => walk catalog budget pending (key :: seen) ids
      | some descriptor =>
        walk catalog budget (pending ++ descriptor.elements.map (·.descriptor)) (key :: seen)
          (catalog.nameSubtypes descriptor ids)

/-- The identifiers of all subtypes that the root leads to. -/
def subtypeIds (catalog : Catalog) (root : DescriptorKey) : Table DescriptorKey TypeId :=
  let elements := catalog.flatMap fun entry => entry.2.elements
  catalog.walk (elements.length + 2) [root] [] []

end Catalog

/-- What an introspection of descriptors is about. -/
structure DescriptorIntrospection where
  catalog : Catalog
  settings : IntrospectionSettings
  /-- The qualified identifiers of subtypes. -/
  subtypeIds : Table DescriptorKey TypeId

namespace DescriptorIntrospection

/-- A step of an introspection of descriptors. -/
abbrev Step := Session.Step DescriptorKey Unit

/-- The reading of the descriptors that one points at. -/
abbrev Below := DescriptorKey → Bool → Step TypeRef

variable (c : DescriptorIntrospection)

/-- The identifier of a descriptor's node. -/
def typeId (key : DescriptorKey) (descriptor : Descriptor) : TypeId :=
  (c.subtypeIds.find? key).getD descriptor.serialName

/-- The first description among annotations. -/
def describe (annotations : List Annotation) : Step (Option String) :=
  Attempt.ofExcept (c.settings.describe annotations)

/-- The element of a list or map descriptor at an index. -/
def elementAt (descriptor : Descriptor) (index : Nat) : Step Element :=
  match descriptor.elements[index]? with
  | some element => pure element
  | none =>
    Attempt.fail (.invalidGraph (.missingElements descriptor.kind.name (index + 1))
      (some descriptor.serialName))

/-- The property of an element. -/
def property (below : Below) (element : Element) : Step (Property TypeRef) := do
  let type ← below element.descriptor element.nullable
  let description ← c.describe element.annotations
  return { name := element.name, type, description, hasDefault := element.isOptional }

/-- The node of an object. -/
def objectNode (below : Below) (descriptor : Descriptor) : Step (Option Node) := do
  let properties ← Attempt.mapEach descriptor.elements (c.property below)
  let description ← c.describe descriptor.annotations
  return some (.object {
    name := descriptor.serialName
    properties
    required := (descriptor.elements.filter (!·.isOptional)).map fun element => element.name
    description })

/-- The node of an enumeration. -/
def enumNode (descriptor : Descriptor) : Step (Option Node) := do
  let description ← c.describe descriptor.annotations
  return some (.enumeration {
    name := descriptor.serialName
    entries := descriptor.elements.map (·.name)
    description })

/-- The serial name and the identifier of a subtype. -/
def subtype (below : Below) (key : DescriptorKey) : Step (String × TypeId) := do
  let ref ← below key false
  match ref.id?, Table.find? c.catalog key with
  | some id, some descriptor => return (descriptor.serialName, id)
  | _, _ => Attempt.fail .missingAttribute

/-- The failure of a sealed descriptor that does not hold its subtypes where they belong. -/
def sealedFault (descriptor : Descriptor) : Error :=
  .invalidGraph (.sealedLayout (descriptor.elements[1]?.map (·.name))) (some descriptor.serialName)

/-- The node of a sealed descriptor. -/
def polymorphicNode (below : Below) (descriptor : Descriptor) : Step (Option Node) := do
  match c.catalog.subtypes? descriptor with
  | none => Attempt.fail (sealedFault descriptor)
  | some keys => do
    let subtypes ← Attempt.mapEach keys (c.subtype below)
    let description ← c.describe descriptor.annotations
    return some (.polymorphic {
      base := descriptor.serialName
      variants := subtypes.map fun subtype => ⟨subtype.2, .named subtype.2 false⟩
      discriminator := some (c.settings.discriminator (Table.ofEntries subtypes))
      description })

/-- The node that stands for a descriptor of an unsupported kind. -/
def emptyNode (descriptor : Descriptor) : Step (Option Node) := do
  let description ← c.describe descriptor.annotations
  return some (.object { name := descriptor.serialName, description })

/-- The reference to a descriptor that was not met before. -/
def fresh (below : Below) (key : DescriptorKey) (descriptor : Descriptor) (nullable : Bool) :
    Step TypeRef :=
  let id := c.typeId key descriptor
  match descriptor.kind.primitive? with
  | some kind => Session.remembering key (.inline (.primitive kind none) nullable)
  | none =>
    match descriptor.kind with
    | .enumeration => Session.refer key id nullable (c.enumNode descriptor)
    | .record | .singleton => Session.refer key id nullable (c.objectNode below descriptor)
    | .list => do
      let element ← elementAt descriptor 0
      let ref ← below element.descriptor element.nullable
      Session.remembering key (.inline (.list ref none) nullable)
    | .map => do
      let keys ← elementAt descriptor 0
      let values ← elementAt descriptor 1
      let keyRef ← below keys.descriptor keys.nullable
      let valueRef ← below values.descriptor values.nullable
      Session.remembering key (.inline (.map keyRef valueRef none) nullable)
    | .sealed => Session.refer key id nullable (c.polymorphicNode below descriptor)
    | kind => do
      Session.report ("Unsupported descriptor kind " ++ kind.display ++ " for '" ++
        descriptor.serialName ++ "', emitting an empty object")
      Session.refer key id nullable (c.emptyNode descriptor)

/-- One layer of the reading of a descriptor. -/
def layer (below : Below) : Below := fun key nullable => do
  let session ← Attempt.get
  match session.cached? key nullable with
  | some ref => return ref
  | none =>
    match Table.find? c.catalog key with
    | some descriptor => c.fresh below key descriptor nullable
    | none => Attempt.fail (.unresolvedName key)

/-- The reference to a descriptor, with a budget of nested references. -/
def reference : Nat → Below
  | 0 => fun _ _ => Attempt.fail .endless
  | budget + 1 => c.layer (reference budget)

/-- A budget for the whole catalog: no named node is built inside itself, and lists
and maps lie between two of them. -/
def budget : Nat :=
  (c.catalog.length + 1) * (c.catalog.length + 1) + 1

end DescriptorIntrospection

/-- The type graph of a root descriptor. -/
def Catalog.introspect (catalog : Catalog) (settings : IntrospectionSettings)
    (root : DescriptorKey) : Introspected :=
  let c : DescriptorIntrospection :=
    { catalog, settings, subtypeIds := catalog.subtypeIds root }
  (Session.introspect () (c.reference c.budget root false)).1

end Schemata
