import Mathlib.Data.Finset.Card
import Schemata.Proofs.Graph.Reachability

/-!
# Chains of lists and maps

A list leads to its elements and a map to its values, so from every reference there goes
one chain of lists and maps.  It ends at a reference that is neither, or it goes on
without end; whether a list or map of the table occurs in it twice decides that.

Main results:

- Definition {lit}`Lasts`: the chain from a reference has a given length.
- Theorem {lit}`Lasts.length_lt`: a chain that ends is shorter than a bound that the size
  of the graph gives.
- Theorem {lit}`IsEndless.contents`: an endless chain goes on from a list or map with the
  chain of its contents.
-/

namespace Schemata

/-- The elements of a list, or the values of a map. -/
def NodeOf.contents? : Node → Option TypeRef
  | .list element _ => some element
  | .map _ value _ => some value
  | _ => none

namespace TypeGraph

variable (graph : TypeGraph)

/-- The contents of the list or map that a reference leads to. -/
def contents? : TypeRef → Option TypeRef
  | .inline node _ => node.contents?
  | .named id _ => (graph.nodes.find? id).bind NodeOf.contents?

/-- The chain of lists and maps from a reference has the given length. -/
inductive Lasts : Nat → TypeRef → Prop
  | last {ref : TypeRef} (ends : graph.contents? ref = none) : Lasts 0 ref
  | more {ref contents : TypeRef} {length : Nat} (step : graph.contents? ref = some contents)
      (rest : Lasts length contents) : Lasts (length + 1) ref

/-- The chain of lists and maps from a reference has no end. -/
def IsEndless (ref : TypeRef) : Prop :=
  ∀ length, ¬ graph.Lasts length ref

variable {graph} {ref : TypeRef} {length : Nat}

/-- A chain has one length. -/
theorem Lasts.unique {other : Nat} (h : graph.Lasts length ref) (hother : graph.Lasts other ref) :
    length = other := by
  induction h generalizing other with
  | last hend =>
      cases hother with
      | last => rfl
      | more step => rw [hend] at step; cases step
  | more step rest ih =>
      cases hother with
      | last hend => rw [hend] at step; cases step
      | more step' rest' =>
          rw [step, Option.some.injEq] at step'
          subst step'
          rw [ih rest']

/-- Nullability does not show in a chain. -/
theorem Lasts.named {id : TypeId} {nullable : Bool} (h : graph.Lasts length (.named id nullable))
    (other : Bool) : graph.Lasts length (.named id other) := by
  cases h with
  | last hend => exact .last hend
  | more step rest => exact .more step rest

/-- An endless chain goes on with an endless chain. -/
theorem IsEndless.contents (h : graph.IsEndless ref) :
    ∃ contents, graph.contents? ref = some contents ∧ graph.IsEndless contents := by
  cases hstep : graph.contents? ref with
  | none => exact absurd (.last hstep) (h 0)
  | some contents =>
      refine ⟨contents, rfl, ?_⟩
      intro length rest
      exact h (length + 1) (.more hstep rest)

/-! ## The length of a chain -/

/-- The nodes written one inside the other bound those in a list or map. -/
theorem depth_contents {node : Node} {nullable : Bool} {contents : TypeRef}
    (h : node.contents? = some contents) :
    contents.depth < (TypeRef.inline node nullable).depth := by
  cases node with
  | list element description =>
      cases h
      simp only [TypeRef.depth, TypeRef.nodeDepth]
      omega
  | map key value description =>
      cases h
      simp only [TypeRef.depth, TypeRef.nodeDepth]
      omega
  | primitive | object | enumeration | polymorphic | other => cases h

/-- No reference of the root or of a node of the table holds more nodes one inside the
other. -/
def IsDepthBound (graph : TypeGraph) (depth : Nat) : Prop :=
  ∀ entry ∈ graph.references, entry.1.depth ≤ depth

/-- The references of a node of the table are within the bound. -/
theorem IsDepthBound.child {depth : Nat} (bound : graph.IsDepthBound depth) {id : TypeId}
    {node : Node} (found : graph.nodes.find? id = some node) {child : TypeRef}
    (mem : child ∈ node.children) : child.depth ≤ depth := by
  refine bound (child, some id) ?_
  simp only [references, List.mem_cons, List.mem_flatMap, List.mem_map]
  exact Or.inr ⟨(id, node), Table.mem_of_find? found, child, mem, rfl⟩

/-- What a list or a map contains is one of its children. -/
theorem mem_children_of_contents {node : Node} {contents : TypeRef}
    (h : node.contents? = some contents) : contents ∈ node.children := by
  cases node <;> cases h <;> simp [NodeOf.children]

open Classical in
/-- The identifiers of the table whose chains are no longer than a given length. -/
noncomputable def within (graph : TypeGraph) (length : Nat) : Finset TypeId :=
  graph.nodes.keys.toFinset.filter fun id => ∃ n ≤ length, graph.Lasts n (.named id false)

/-- An identifier is within a length when its chain ends after as many steps at most. -/
theorem mem_within {id : TypeId} :
    id ∈ graph.within length ↔
      id ∈ graph.nodes.keys ∧ ∃ n ≤ length, graph.Lasts n (.named id false) := by
  simp [within]

/-- No more identifiers are within a length than the table has nodes. -/
theorem card_within_le : (graph.within length).card ≤ graph.nodes.length := by
  have hsubset : graph.within length ⊆ graph.nodes.keys.toFinset := fun id hid =>
    List.mem_toFinset.mpr (mem_within.mp hid).1
  calc
    (graph.within length).card ≤ graph.nodes.keys.toFinset.card := Finset.card_le_card hsubset
    _ ≤ graph.nodes.keys.length := List.toFinset_card_le _
    _ = graph.nodes.length := List.length_map _

/-- A greater length has all identifiers of a smaller one. -/
theorem within_subset_succ : graph.within length ⊆ graph.within (length + 1) := by
  intro id hid
  rw [mem_within] at hid ⊢
  rcases hid with ⟨hkey, n, hn, hlasts⟩
  exact ⟨hkey, n, by omega, hlasts⟩

/-- The identifier of a chain counts only from the length of that chain on. -/
theorem card_within_lt {id : TypeId} {nullable : Bool} (hkey : id ∈ graph.nodes.keys)
    (h : graph.Lasts (length + 1) (.named id nullable)) :
    (graph.within length).card < (graph.within (length + 1)).card := by
  refine Finset.card_lt_card ⟨within_subset_succ, fun hsubset => ?_⟩
  have hid : id ∈ graph.within (length + 1) := mem_within.mpr ⟨hkey, _, le_rfl, h.named false⟩
  rcases mem_within.mp (hsubset hid) with ⟨-, n, hn, hlasts⟩
  have hsame := hlasts.unique (h.named false)
  omega

/-- Every list or map of the table in a chain has a shorter chain than those before it,
and between two of them lie as many as a reference can hold one inside the other. -/
theorem Lasts.le_card {depth : Nat} (bound : graph.IsDepthBound depth)
    (h : graph.Lasts length ref) :
    length ≤ (graph.within length).card * (depth + 1) + ref.depth := by
  induction h with
  | last => omega
  | @more ref contents length step rest ih =>
      have hmono : (graph.within length).card ≤ (graph.within (length + 1)).card :=
        Finset.card_le_card within_subset_succ
      cases ref with
      | inline node nullable =>
          have hdepth : contents.depth < (TypeRef.inline node nullable).depth :=
            depth_contents step
          have hmul := Nat.mul_le_mul_right (depth + 1) hmono
          omega
      | named id nullable =>
          rcases Option.bind_eq_some_iff.mp step with ⟨node, found, hcontents⟩
          have hkey : id ∈ graph.nodes.keys := Table.mem_keys_of_find? found
          have hless := card_within_lt hkey (.more step rest)
          have hdepth := bound.child found (mem_children_of_contents hcontents)
          have hmul := Nat.mul_le_mul_right (depth + 1) (Nat.succ_le_of_lt hless)
          rw [Nat.succ_mul] at hmul
          omega

/-- A chain that ends is shorter than a bound that the size of the graph gives. -/
theorem Lasts.length_lt {depth : Nat} (bound : graph.IsDepthBound depth)
    (h : graph.Lasts length ref) (hdepth : ref.depth ≤ depth) :
    length < (graph.nodes.length + 1) * (depth + 1) := by
  have hlength := h.le_card bound
  have hcard : (graph.within length).card ≤ graph.nodes.length := card_within_le
  have hmul := Nat.mul_le_mul_right (depth + 1) hcard
  rw [Nat.succ_mul]
  omega

end TypeGraph

end Schemata
