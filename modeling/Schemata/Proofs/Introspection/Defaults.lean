import Mathlib.Data.List.Forall2
import Schemata.Graph.Basic

/-!
# Required properties of introspected objects

A property of a declaration that has a default may be left out, any other one is required.
Each way to read a declaration notes the required names on its own, from what it reads, next
to the properties that it makes.
-/

namespace Schemata

/-- An object requires its properties without a default, and no others. -/
def ObjectType.RequiresByDefault (type : ObjectType TypeRef) : Prop :=
  type.required = (type.properties.filter (!·.hasDefault)).map (·.name)

/-- All objects in the table of a graph require their properties without a default. -/
def TypeGraph.RequiresByDefault (graph : TypeGraph) : Prop :=
  ∀ id type, graph.nodes.find? id = some (.object type) → type.RequiresByDefault

/-- The names that are required of what is declared are those of its properties without a
default, when the properties correspond to it one by one. -/
theorem map_name_filter_hasDefault {α : Type} {name : α → PropertyName} {hasDefault : α → Bool}
    {declared : List α} {properties : List (Property TypeRef)}
    (h : List.Forall₂ (fun item property => property.name = name item ∧
      property.hasDefault = hasDefault item) declared properties) :
    (declared.filter (!hasDefault ·)).map name =
      (properties.filter (!·.hasDefault)).map (·.name) := by
  induction h with
  | nil => rfl
  | @cons item property _ _ hfirst _ ih =>
      rcases hfirst with ⟨hname, hdefault⟩
      rw [List.filter_cons, List.filter_cons, hdefault]
      split
      · rw [List.map_cons, List.map_cons, ih, hname]
      · exact ih

end Schemata
