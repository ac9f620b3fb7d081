import Schemata.Proofs.Conversion.Run

/-!
# Outlines of fragments

What is in a fragment, and where it points, is told by its outline: the fragment without its
description and the keywords that fragments with a type share.  A conversion changes only
these keywords and descriptions of a fragment that it has, when it marks it as nullable or
dresses it for a property.

Main results:

- Theorem {lit}`outline_dress`: the fragment of a property has the outline of the fragment of
  its type.
- Theorem {lit}`Definition.eq_object_of_outline`: the outline tells an object with properties.
-/

namespace Schemata

namespace Definition

/-- A fragment without its description and the keywords that fragments with a type share. -/
def outline : Definition → Definition
  | .value _ enum => .value { type := .null } enum
  | .array _ items => .array { type := .null } items
  | .object _ properties required additional =>
    .object { type := .null } properties required additional
  | .reference target _ => .reference target .null
  | .oneOf _ options discriminator => .oneOf .null options discriminator
  | .anyOf _ options => .anyOf .null options
  | .allOf _ options => .allOf .null options

variable {definition : Definition}

@[simp] theorem outline_mapHead (change : TypedHead → TypedHead) :
    (definition.mapHead change).outline = definition.outline := by
  cases definition <;> rfl

@[simp] theorem outline_asUnion : definition.asUnion.outline = definition.outline :=
  outline_mapHead _

@[simp] theorem outline_withDescription (description : Json) :
    (definition.withDescription description).outline = definition.outline := by
  cases definition <;> rfl

/-- An object with properties has the outline of such objects only. -/
theorem eq_object_of_outline {other : Definition} (h : definition.outline = other.outline)
    {head : TypedHead} {members : List (String × Definition)} {required : Json}
    {additional : Additional Definition}
    (object : definition = .object head (some members) required additional) :
    ∃ inner, other = .object inner (some members) required additional := by
  subst object
  cases other <;> cases h
  exact ⟨_, rfl⟩

end Definition

namespace Conversion

variable {c : Conversion}

@[simp] theorem outline_markNullable (nullable : Bool) (definition : Definition) :
    (markNullable nullable definition).outline = definition.outline := by
  cases nullable
  · rfl
  · exact Definition.outline_mapHead _

@[simp] theorem outline_dress (property : Property TypeRef) (required : Bool)
    (definition : Definition) :
    (c.dress property required definition).outline = definition.outline := by
  have hunite : (c.unite required definition).outline = definition.outline := by
    unfold unite
    split <;> simp
  have hsettle (fragment : Definition) :
      (c.settle property required fragment).outline = fragment.outline := by
    unfold settle
    split
    · rfl
    · split <;> simp
  have hdescribe (fragment : Definition) :
      (describe property fragment).outline = fragment.outline := by
    unfold describe
    split <;> simp
  rw [dress_eq, hdescribe, hsettle, hunite]

end Conversion

end Schemata
