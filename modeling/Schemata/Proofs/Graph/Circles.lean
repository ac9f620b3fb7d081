import Mathlib.Data.Fintype.Card
import Mathlib.Data.Fintype.EquivFin
import Mathlib.Data.Fintype.Sets
import Mathlib.Order.RelClasses
import Schemata.Proofs.Graph.Containers

/-!
# Lists and maps that contain themselves

A list leads to its elements and a map to its values.  A node that is written inside another
one ends sooner than that one, so only names lead in a circle, and a table has finitely many
of them.  Where no list and no map of the table contains itself, every chain of lists and maps
therefore comes to an end.

Main results:

- Definition {lit}`TypeGraph.ContainersEnd`: no list and no map contains itself.
- Theorem {lit}`TypeGraph.ContainersEnd.exists_lasts`: every chain of lists and maps ends then.
-/

namespace Schemata.TypeGraph

variable (graph : TypeGraph)

/-- The list or map that a reference leads to has the other reference as its contents. -/
def Encloses (outer inner : TypeRef) : Prop :=
  graph.contents? outer = some inner

/-- No list and no map of the table contains itself through lists and maps alone, be they
under names or written inside one another. -/
def ContainersEnd : Prop :=
  ∀ id nullable other,
    ¬ Relation.TransGen graph.Encloses (.named id nullable) (.named id other)

variable {graph}

/-- Nullability does not show in what a name leads to. -/
theorem transGen_named {id : TypeId} {nullable : Bool} {inner : TypeRef}
    (h : Relation.TransGen graph.Encloses (.named id nullable) inner) (other : Bool) :
    Relation.TransGen graph.Encloses (.named id other) inner := by
  rcases Relation.TransGen.head'_iff.mp h with ⟨middle, first, rest⟩
  exact .head' (show graph.Encloses (.named id other) middle from first) rest

/-- An endless chain comes to a name from which it is endless. -/
theorem IsEndless.exists_named {ref : TypeRef} (h : graph.IsEndless ref) :
    ∃ id nullable, Relation.ReflTransGen graph.Encloses ref (.named id nullable) ∧
      graph.IsEndless (.named id nullable) := by
  induction hdepth : ref.depth using Nat.strong_induction_on generalizing ref with
  | _ depth ih =>
      cases ref with
      | named id nullable => exact ⟨id, nullable, .refl, h⟩
      | inline node nullable =>
          rcases h.contents with ⟨contents, hstep, hrest⟩
          have hless : contents.depth < depth := hdepth ▸ depth_contents hstep
          rcases ih _ hless hrest rfl with ⟨id, other, hchain, hendless⟩
          exact ⟨id, other, .head hstep hchain, hendless⟩

/-- What has contents under a name is in the table. -/
theorem mem_keys_of_contents {id : TypeId} {nullable : Bool} {contents : TypeRef}
    (h : graph.contents? (.named id nullable) = some contents) : id ∈ graph.nodes.keys := by
  rcases Option.bind_eq_some_iff.mp h with ⟨node, found, -⟩
  exact Table.mem_keys_of_find? found

/-- A name of the table leads to another one through lists and maps alone. -/
def Surrounds (graph : TypeGraph) (inner outer : { id // id ∈ graph.nodes.keys }) : Prop :=
  ∃ nullable, Relation.TransGen graph.Encloses (.named outer.1 false) (.named inner.1 nullable)

/-- The table has finitely many names, so they are well-founded when none leads to itself. -/
theorem ContainersEnd.wellFounded (h : graph.ContainersEnd) : WellFounded graph.Surrounds := by
  have : IsTrans _ graph.Surrounds := by
    refine ⟨fun inner middle outer => ?_⟩
    rintro ⟨nullable, hinner⟩ ⟨other, houter⟩
    exact ⟨nullable, houter.trans (transGen_named hinner other)⟩
  have : Std.Irrefl graph.Surrounds := by
    refine ⟨fun name => ?_⟩
    rintro ⟨nullable, hself⟩
    exact h name.1 false nullable hself
  exact Finite.wellFounded_of_trans_of_irrefl _

/-- Where no list and no map contains itself no chain is endless.  From a name with an endless
chain it would go on to another such name, and so forth. -/
theorem ContainersEnd.not_isEndless (h : graph.ContainersEnd) (ref : TypeRef) :
    ¬ graph.IsEndless ref := by
  have hnames (name : { id // id ∈ graph.nodes.keys }) (nullable : Bool) :
      ¬ graph.IsEndless (.named name.1 nullable) := by
    induction name using h.wellFounded.induction generalizing nullable with
    | _ name ih =>
        intro hendless
        rcases hendless.contents with ⟨contents, hstep, hrest⟩
        rcases hrest.exists_named with ⟨id, other, hchain, hnext⟩
        rcases hnext.contents with ⟨further, hfurther, -⟩
        have hleads : Relation.TransGen graph.Encloses (.named name.1 nullable) (.named id other) :=
          .head' hstep hchain
        exact ih ⟨id, mem_keys_of_contents hfurther⟩ ⟨other, transGen_named hleads false⟩ other hnext
  intro hendless
  rcases hendless.exists_named with ⟨id, nullable, -, hnext⟩
  rcases hnext.contents with ⟨contents, hstep, -⟩
  exact hnames ⟨id, mem_keys_of_contents hstep⟩ nullable hnext

/-- Where no list and no map contains itself every chain of them ends. -/
theorem ContainersEnd.exists_lasts (h : graph.ContainersEnd) (ref : TypeRef) :
    ∃ length, graph.Lasts length ref := by
  have hends := h.not_isEndless ref
  simpa only [IsEndless, not_forall, not_not] using hends

end Schemata.TypeGraph
