import Schemata.Introspection.Annotation

/-!
# Descriptors

A descriptor says how a type is serialized: its serial name, its kind and its
elements.  Descriptors point at one another by key, in any way, cycles included.

A sealed descriptor has two elements: the first announces the subtype, and the
elements of the second, which is named {lit}`value`, are the subtypes.
-/

namespace Schemata

/-- The kinds of descriptors. -/
inductive DescriptorKind where
  | string
  | char
  | boolean
  | byte
  | short
  | int
  | long
  | float
  | double
  | enumeration
  | record
  | singleton
  | list
  | map
  | sealed
  | unbounded
  | contextual
deriving DecidableEq

namespace DescriptorKind

/-- The name of a kind. -/
def name : DescriptorKind → String
  | .string => "string"
  | .char => "char"
  | .boolean => "boolean"
  | .byte => "byte"
  | .short => "short"
  | .int => "int"
  | .long => "long"
  | .float => "float"
  | .double => "double"
  | .enumeration => "enum"
  | .record => "class"
  | .singleton => "object"
  | .list => "list"
  | .map => "map"
  | .sealed => "sealed"
  | .unbounded => "open"
  | .contextual => "contextual"

/-- All kinds. -/
def all : List DescriptorKind :=
  [.string, .char, .boolean, .byte, .short, .int, .long, .float, .double, .enumeration, .record,
    .singleton, .list, .map, .sealed, .unbounded, .contextual]

/-- The kind of a name. -/
def ofName? (name : String) : Option DescriptorKind :=
  all.find? (·.name == name)

/-- A kind as warnings show it. -/
def display (kind : DescriptorKind) : String :=
  let name := kind.name
  "<DescriptorKind." ++ name.toUpper ++ ": " ++ quote name ++ ">"

end DescriptorKind

/-- Names a descriptor. -/
abbrev DescriptorKey := String

/-- A slot of a descriptor: a property, an item, a key, a value or a subtype. -/
structure Element where
  name : String
  descriptor : DescriptorKey
  nullable : Bool := false
  /-- Whether it has a default and may be left out. -/
  isOptional : Bool := false
  annotations : List Annotation := []

/-- How a type is serialized. -/
structure Descriptor where
  serialName : String
  kind : DescriptorKind
  elements : List Element := []
  annotations : List Annotation := []

/-- Descriptors by key. -/
abbrev Catalog := Table DescriptorKey Descriptor

namespace Descriptor

/-- The serial name after its last point. -/
def simpleName (descriptor : Descriptor) : String :=
  String.ofList (descriptor.serialName.toList.reverse.takeWhile (· != '.')).reverse

/-- The element that holds the subtypes of a well-formed sealed descriptor. -/
def valueElement? (descriptor : Descriptor) : Option Element :=
  match descriptor.elements with
  | _ :: element :: _ => if element.name == "value" then some element else none
  | _ => none

end Descriptor

namespace Catalog

/-- The subtypes of a well-formed sealed descriptor. -/
def subtypes? (catalog : Catalog) (descriptor : Descriptor) : Option (List DescriptorKey) := do
  let element ← descriptor.valueElement?
  let holder ← Table.find? catalog element.descriptor
  return holder.elements.map (·.descriptor)

end Catalog

end Schemata
