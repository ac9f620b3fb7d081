import Schemata.Schema.Definition
import Schemata.Table

/-!
# Unions in place of markers

A fragment can have every nullable marker in it, at any depth, replaced by a union.  A
marker can be replaced first inside the fragment and then at its own type, and what a
property adds to the fragment of its type can be added before or after.

Main results:

- Definition {lit}`Definition.withUnions`: a fragment with a union in place of every
  nullable marker.
- Theorem {lit}`Definition.asUnion_partsWithUnions`: the markers inside a fragment and then
  the one at its own type are all markers.
- Theorem {lit}`Definition.withUnions_asUnion`: replacing the marker at its own type
  beforehand makes no difference.
-/

namespace Schemata

/-- A head that is a union already stays as it is. -/
theorem TypedHead.asUnion_asUnion (head : TypedHead) : head.asUnion.asUnion = head.asUnion := by
  by_cases marked : head.nullable.isTruthy = true
  · have hunmarked : head.asUnion.nullable = .null := by rw [asUnion, if_pos marked]
    rw [asUnion.eq_def head.asUnion, hunmarked, if_neg]
    simp [Json.isTruthy]
  · have hsame : head.asUnion = head := by rw [asUnion, if_neg marked]
    rw [hsame, hsame]

namespace Definition

mutual

/-- A fragment with a union in place of every nullable marker, at any depth. -/
def withUnions : Definition → Definition
  | .value head enum => .value head.asUnion enum
  | .array head items => .array head.asUnion (itemsWithUnions items)
  | .object head properties required additional =>
    .object head.asUnion (propertiesWithUnions properties) required
      (additionalWithUnions additional)
  | .reference target description => .reference target description
  | .oneOf description options discriminator =>
    .oneOf description (optionsWithUnions options) discriminator
  | .anyOf description options => .anyOf description (optionsWithUnions options)
  | .allOf description options => .allOf description (optionsWithUnions options)

/-- Fragments with unions in place of their markers. -/
def optionsWithUnions : List Definition → List Definition
  | [] => []
  | option :: options => option.withUnions :: optionsWithUnions options

/-- Named fragments with unions in place of their markers. -/
def membersWithUnions : List (String × Definition) → List (String × Definition)
  | [] => []
  | (name, definition) :: rest => (name, definition.withUnions) :: membersWithUnions rest

/-- The fragment for items with unions in place of its markers. -/
def itemsWithUnions : Option Definition → Option Definition
  | none => none
  | some items => some items.withUnions

/-- The fragments of properties with unions in place of their markers. -/
def propertiesWithUnions :
    Option (List (String × Definition)) → Option (List (String × Definition))
  | none => none
  | some properties => some (membersWithUnions properties)

/-- The fragment for members without a name with unions in place of its markers. -/
def additionalWithUnions : Additional Definition → Additional Definition
  | .plain content => .plain content
  | .schema fragment => .schema fragment.withUnions

end

/-- A fragment with unions in place of the markers inside it; the marker at its own type
stays. -/
def partsWithUnions : Definition → Definition
  | .value head enum => .value head enum
  | .array head items => .array head (itemsWithUnions items)
  | .object head properties required additional =>
    .object head (propertiesWithUnions properties) required (additionalWithUnions additional)
  | other => other.withUnions

/-- A table of fragments with unions in place of their markers. -/
def tableWithUnions {κ : Type} (table : Table κ Definition) : Table κ Definition :=
  table.map fun entry => (entry.1, entry.2.withUnions)

theorem membersWithUnions_eq (members : List (String × Definition)) :
    membersWithUnions members = tableWithUnions members := by
  induction members with
  | nil => rfl
  | cons member members ih => rw [membersWithUnions, ih]; rfl

theorem optionsWithUnions_eq_map (options : List Definition) :
    optionsWithUnions options = options.map withUnions := by
  induction options with
  | nil => rfl
  | cons option options ih => rw [optionsWithUnions, ih, List.map_cons]

/-! ## Tables -/

variable {κ : Type}

@[simp] theorem keys_tableWithUnions (table : Table κ Definition) :
    (tableWithUnions table).keys = table.keys := by
  rw [tableWithUnions, Table.keys, Table.keys, List.map_map]
  rfl

/-- Rewriting a table with one more entry is adding the rewritten entry. -/
theorem tableWithUnions_put [BEq κ] (table : Table κ Definition) (key : κ)
    (definition : Definition) :
    tableWithUnions (table.put key definition) =
      (tableWithUnions table).put key definition.withUnions :=
  Table.map_put ..

@[simp] theorem has_tableWithUnions [BEq κ] [LawfulBEq κ] (table : Table κ Definition) (key : κ) :
    (tableWithUnions table).has key = table.has key := by
  rw [Bool.eq_iff_iff, Table.has_iff_mem_keys, Table.has_iff_mem_keys, keys_tableWithUnions]

/-! ## The order of replacements -/

/-- The markers inside a fragment and then the one at its own type are all markers. -/
theorem asUnion_partsWithUnions (definition : Definition) :
    definition.partsWithUnions.asUnion = definition.withUnions := by
  cases definition <;> simp [partsWithUnions, withUnions, asUnion, mapHead]

theorem partsWithUnions_mapHead (change : TypedHead → TypedHead) (definition : Definition) :
    (definition.mapHead change).partsWithUnions = definition.partsWithUnions.mapHead change := by
  cases definition <;> simp [partsWithUnions, withUnions, mapHead]

/-- A fragment is rewritten at its head and in its parts. -/
theorem partsWithUnions_asUnion (definition : Definition) :
    definition.asUnion.partsWithUnions = definition.withUnions := by
  rw [asUnion, partsWithUnions_mapHead]
  exact asUnion_partsWithUnions definition

/-- A fragment that is a union at its head stays as it is. -/
theorem asUnion_asUnion (definition : Definition) :
    definition.asUnion.asUnion = definition.asUnion := by
  cases definition <;> simp [asUnion, mapHead, TypedHead.asUnion_asUnion]

/-- Replacing the marker at its own type beforehand makes no difference. -/
theorem withUnions_asUnion (definition : Definition) :
    definition.asUnion.withUnions = definition.withUnions := by
  rw [← asUnion_partsWithUnions, partsWithUnions_asUnion, ← asUnion_partsWithUnions,
    asUnion_asUnion]

/-- A change of the keywords that neither reads nor writes the type and the marker can be
made before or after. -/
theorem withUnions_mapHead {change : TypedHead → TypedHead}
    (commutes : ∀ head, (change head).asUnion = change head.asUnion) (definition : Definition) :
    (definition.mapHead change).withUnions = definition.withUnions.mapHead change := by
  cases definition <;> simp [withUnions, mapHead, commutes]

/-- A description does not touch the unions. -/
theorem withUnions_withDescription (description : Json) (definition : Definition) :
    (definition.withDescription description).withUnions =
      definition.withUnions.withDescription description := by
  have hhead : ∀ head : TypedHead, ({ head with description } : TypedHead).asUnion =
      { head.asUnion with description } := by
    intro head
    by_cases marked : head.nullable.isTruthy = true <;>
      simp [TypedHead.asUnion, TypedHead.types, marked]
  cases definition <;> simp [withUnions, withDescription, mapHead, hhead]

end Definition

end Schemata
