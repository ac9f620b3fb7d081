import Schemata.Proofs.Conversion.Outline

/-!
# Positions in a document

Fragments stand in a document at any depth: as values of properties, as items of arrays, as
values of maps, as alternatives of choices and as shared definitions.  A position says which
of these a fragment is, and for the value of a property also which names the object around it
requires.

Main results:

- Definition {lit}`SchemaBody.Holds`: the fragments of a document, each with its position.
- Theorem {lit}`Definition.parts_outline`: the keywords of a fragment other than those for the
  fragments in it do not matter for its parts.
-/

namespace Schemata

/-- The items of an array; other values list nothing. -/
def Json.listed : Json → List Json
  | .arr items => items
  | _ => []

/-- An empty array lists what an absent one does. -/
@[simp] theorem Json.listed_orNull (value : Json) : value.orNull.listed = value.listed := by
  cases value with
  | arr items => cases items <;> rfl
  | _ => rfl

/-- Where a fragment stands in what is directly around it. -/
inductive Position where
  /-- The value of a property, in an object that requires the given names. -/
  | property (name : String) (required : List Json)
  /-- The items of an array. -/
  | items
  /-- The values of a map. -/
  | values
  /-- An alternative of a choice. -/
  | alternative
  /-- A shared definition. -/
  | shared (id : String)

namespace Definition

/-- The fragments directly in a fragment. -/
def parts : Definition → List (Position × Definition)
  | .value _ _ | .reference _ _ => []
  | .array _ items => items.toList.map fun fragment => (.items, fragment)
  | .object _ properties required additional =>
    (properties.getD []).map (fun entry => (.property entry.1 required.listed, entry.2)) ++
      match additional with
      | .plain _ => []
      | .schema fragment => [(.values, fragment)]
  | .oneOf _ options _ | .anyOf _ options | .allOf _ options =>
    options.map fun fragment => (.alternative, fragment)

/-- What is said of all parts of an array is said of its items. -/
theorem forall_mem_parts_array (P : Definition → Prop) {head : TypedHead}
    {items : Option Definition} :
    (∀ part ∈ (Definition.array head items).parts, P part.2) ↔ ∀ fragment ∈ items, P fragment := by
  cases items <;> simp [parts]

/-- What is said of all parts of an object is said of its properties and of the values of its
map. -/
theorem forall_mem_parts_object (P : Definition → Prop) {head : TypedHead}
    {properties : Option (List (String × Definition))} {required : Json}
    {additional : Additional Definition} :
    (∀ part ∈ (Definition.object head properties required additional).parts, P part.2) ↔
      (∀ table ∈ properties, ∀ entry ∈ table, P entry.2) ∧
        ∀ fragment, additional = .schema fragment → P fragment := by
  refine List.forall_mem_append.trans (and_congr (List.forall_mem_map.trans ?_) ?_)
  · cases properties <;> simp
  · cases additional <;> simp

/-- A fragment bears the nullable marker. -/
def isMarked (definition : Definition) : Bool :=
  definition.head?.any fun head => !head.nullable.isNull

variable {definition : Definition}

/-- Fragments with one outline have the same parts. -/
theorem parts_outline : definition.outline.parts = definition.parts := by
  cases definition <;> rfl

@[simp] theorem isMarked_withDescription (description : Json) :
    (definition.withDescription description).isMarked = definition.isMarked := by
  cases definition <;> rfl

/-- A change that keeps the marker keeps a fragment marked or unmarked. -/
theorem isMarked_mapHead {change : TypedHead → TypedHead}
    (same : ∀ head, (change head).nullable = head.nullable) :
    (definition.mapHead change).isMarked = definition.isMarked := by
  cases definition <;> simp [isMarked, mapHead, head?, same]

end Definition

namespace SchemaBody

/-- The fragments directly in a document. -/
def parts (body : SchemaBody) : List (Position × Definition) :=
  (body.properties.getD []).map (fun entry => (.property entry.1 body.required.listed, entry.2)) ++
    (body.oneOf.getD []).map (fun fragment => (.alternative, fragment)) ++
    (body.defs.getD []).map fun entry => (.shared entry.1, entry.2)

/-- What is said of all parts of a document is said of its properties, its alternatives and its
shared definitions. -/
theorem forall_mem_parts (P : Definition → Prop) (body : SchemaBody) :
    (∀ part ∈ body.parts, P part.2) ↔
      (∀ table ∈ body.properties, ∀ entry ∈ table, P entry.2) ∧
        (∀ options ∈ body.oneOf, ∀ option ∈ options, P option) ∧
        ∀ table ∈ body.defs, ∀ entry ∈ table, P entry.2 := by
  rw [parts, List.append_assoc, List.forall_mem_append, List.forall_mem_append,
    List.forall_mem_map, List.forall_mem_map, List.forall_mem_map]
  refine and_congr ?_ (and_congr ?_ ?_)
  · cases body.properties <;> simp
  · cases body.oneOf <;> simp
  · cases body.defs <;> simp

/-- A document holds a fragment in a position, at any depth of its body or of its shared
definitions. -/
inductive Holds (body : SchemaBody) : Position → Definition → Prop
  | part {position : Position} {definition : Definition} (mem : (position, definition) ∈ body.parts) :
      Holds body position definition
  | within {around position : Position} {definition inner : Definition}
      (outer : Holds body around definition) (mem : (position, inner) ∈ definition.parts) :
      Holds body position inner

end SchemaBody

end Schemata
