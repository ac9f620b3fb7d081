import Schemata.Error
import Schemata.Table

/-!
# Type graphs

A type graph holds a root reference and a table of named nodes.  A reference either
names a node of the table or holds a node itself, and nullability belongs to the
reference, so one node can be nullable in one place and not in another.

Node types are generic in the references they hold; {lit}`TypeRef` closes the loop.
-/

namespace Schemata

/-- The kinds of scalars. -/
inductive PrimitiveKind where
  | string
  | boolean
  | int
  | long
  | float
  | double
deriving DecidableEq

/-- The name of a property: a text, except that the property that announces a subtype
is called whatever the settings say. -/
abbrev PropertyName := Json

/-- A property of an object type. -/
structure Property (ρ : Type) where
  name : PropertyName
  type : ρ
  description : Option String := none
  /-- Whether the source declares a default. -/
  hasDefault : Bool := false
  /-- The default when it is a literal, or the fixed tag of a subtype; null for none. -/
  default : Json := .null

/-- An object type with its properties in the order of declaration. -/
structure ObjectType (ρ : Type) where
  name : String
  properties : List (Property ρ) := []
  required : List PropertyName := []
  description : Option String := none

/-- An enumeration with its entries in the order of declaration. -/
structure EnumType where
  name : String
  entries : List String := []
  description : Option String := none

/-- How a polymorphic value announces its subtype. -/
structure Discriminator where
  propertyName : PropertyName := "type"
  /-- Whether every value has that property, as the settings say it. -/
  required : Json := .bool true
  /-- The identifier for each value of the property. -/
  mapping : Option (Table String TypeId) := none

/-- A subtype of a polymorphic type. -/
structure Variant (ρ : Type) where
  id : TypeId
  ref : ρ

/-- A polymorphic type with its subtypes. -/
structure PolymorphicType (ρ : Type) where
  base : String
  variants : List (Variant ρ) := []
  discriminator : Option Discriminator := none
  description : Option String := none

/-- A node whose references have the type `ρ`. -/
inductive NodeOf (ρ : Type) where
  | primitive (kind : PrimitiveKind) (description : Option String)
  | list (element : ρ) (description : Option String)
  | map (key value : ρ) (description : Option String)
  | object (type : ObjectType ρ)
  | enumeration (type : EnumType)
  | polymorphic (type : PolymorphicType ρ)
  /-- A node of a type that the conversions do not know. -/
  | other (typeName : String)

/-- A reference to a type. -/
inductive TypeRef where
  /-- The node itself. -/
  | inline (node : NodeOf TypeRef) (nullable : Bool)
  /-- The node of that name in the graph's table. -/
  | named (id : TypeId) (nullable : Bool)

/-- A node of a type graph. -/
abbrev Node := NodeOf TypeRef

instance : Inhabited TypeRef := ⟨.named "" false⟩

namespace NodeOf

variable {ρ : Type}

/-- The name of a node's type, as messages and default document names give it. -/
def typeName : NodeOf ρ → String
  | .primitive .. => "PrimitiveNode"
  | .list .. => "ListNode"
  | .map .. => "MapNode"
  | .object _ => "ObjectNode"
  | .enumeration _ => "EnumNode"
  | .polymorphic _ => "PolymorphicNode"
  | .other name => name

/-- Whether a node has an identity of its own and must be referenced by name. -/
def needsName : NodeOf ρ → Bool
  | .object _ | .enumeration _ | .polymorphic _ => true
  | _ => false

/-- The references that a node holds, in the order of declaration. -/
def children : NodeOf ρ → List ρ
  | .list element _ => [element]
  | .map key value _ => [key, value]
  | .object type => type.properties.map (·.type)
  | .polymorphic type => type.variants.map (·.ref)
  | _ => []

end NodeOf

namespace TypeRef

/-- Whether null is a value of the reference. -/
def nullable : TypeRef → Bool
  | .inline _ nullable => nullable
  | .named _ nullable => nullable

/-- Replace the nullability of a reference. -/
def withNullable (nullable : Bool) : TypeRef → TypeRef
  | .inline node _ => .inline node nullable
  | .named id _ => .named id nullable

/-- The identifier of a reference by name. -/
def id? : TypeRef → Option TypeId
  | .named id _ => some id
  | .inline _ _ => none

@[simp] theorem nullable_withNullable (nullable : Bool) (ref : TypeRef) :
    (ref.withNullable nullable).nullable = nullable := by
  cases ref <;> rfl

@[simp] theorem id?_withNullable (nullable : Bool) (ref : TypeRef) :
    (ref.withNullable nullable).id? = ref.id? := by
  cases ref <;> rfl

mutual

/-- How many nodes a reference holds one inside the other. -/
def depth : TypeRef → Nat
  | .inline node _ => nodeDepth node + 1
  | .named _ _ => 0

/-- How many nodes the containers below a node hold one inside the other. -/
def nodeDepth : NodeOf TypeRef → Nat
  | .list element _ => depth element
  | .map key value _ => max (depth key) (depth value)
  | _ => 0

end

end TypeRef

/-- A root reference and the named nodes reachable from it, in the order in which
they were discovered. -/
structure TypeGraph where
  root : TypeRef
  nodes : Table TypeId Node

namespace TypeGraph

/-- The named node, which a reference from the given place asks for. -/
def node (graph : TypeGraph) (id : TypeId) (referencedFrom : Option TypeId := none) :
    Except Error Node :=
  match graph.nodes.find? id with
  | some node => .ok node
  | none => .error (.dangling id referencedFrom)

/-- The name of a document about the graph: the root's identifier, or the type of the
root node. -/
def defaultName (graph : TypeGraph) : String :=
  match graph.root with
  | .named id _ => id
  | .inline node _ => node.typeName

/-- All references that the root and the table hold, with the node that holds each. -/
def references (graph : TypeGraph) : List (TypeRef × Option TypeId) :=
  (graph.root, none) ::
    graph.nodes.flatMap fun entry => entry.2.children.map fun ref => (ref, some entry.1)

end TypeGraph

end Schemata
