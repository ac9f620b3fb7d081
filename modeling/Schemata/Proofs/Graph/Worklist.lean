import Mathlib.Algebra.GroupWithZero.Nat
import Schemata.Proofs.Graph.Validity

/-!
# Validation with a worklist

Validation can keep a list of the references that are still to be checked, each with the node
of the table that it stands in.  The list begins with the references of the root and of all
nodes, the last one first.  A step takes the first reference, checks it alone, and puts the
references of the node that it holds in front of the others, under the same owner.

Whatever is in the list at any step, the graph holds under the owner listed with it.  So the
first reference that a step refuses is one that the graph holds, and the failure names the
place where it does.

Main results:

- Theorem {lit}`validate_eq_drain`: validation is the run of the worklist.
- Theorem {lit}`IsHeld.step`: every step keeps to references that the graph holds.
- Theorem {lit}`validate_reports`: validation succeeds exactly when all that the graph holds
  is legal, and it fails for an offending reference, naming the node that contains it.
-/

namespace Schemata

namespace TypeRef

/-! ## One reference -/

/-- Check a reference alone, without the references of the node that it holds. -/
def checkAlone (graph : TypeGraph) (owner : Option TypeId) : TypeRef → Except Error Unit
  | .named id _ => do discard (graph.node id owner)
  | .inline node _ =>
    if node.needsName then .error (.invalidGraph (.inlinedNode node.typeName) owner) else .ok ()

/-- The references of the node that a reference holds. -/
def parts : TypeRef → List TypeRef
  | .named .. => []
  | .inline node _ => node.children

variable {graph : TypeGraph} {owner : Option TypeId}

/-- A reference contains its parts. -/
theorem contains_of_mem_parts {ref part : TypeRef} (mem : part ∈ ref.parts) :
    ref.Contains part := by
  cases ref with
  | named id nullable => cases mem
  | inline node nullable => exact .child mem .self

/-- Items of a list are together no larger than the list, nor are parts of them. -/
theorem sum_le_sizeOf {α : Type} [SizeOf α] (size : α → Nat) (h : ∀ item, size item ≤ sizeOf item)
    (items : List α) : (items.map size).sum ≤ sizeOf items := by
  induction items with
  | nil => simp
  | cons first rest ih =>
      have hfirst := h first
      simp only [List.map_cons, List.sum_cons, List.cons.sizeOf_spec]
      omega

/-- Together the parts of a reference are smaller than it. -/
theorem sum_sizeOf_parts_lt (ref : TypeRef) : (ref.parts.map sizeOf).sum < sizeOf ref := by
  cases ref with
  | named id nullable => simp [parts]
  | inline node nullable =>
      cases node with
      | primitive | enumeration | other => simp [parts, NodeOf.children]
      | list element =>
          simp [parts, NodeOf.children]
          omega
      | map key value =>
          simp [parts, NodeOf.children]
          omega
      | object type =>
          have hsum := sum_le_sizeOf (fun property : Property TypeRef => sizeOf property.type)
            (by rintro ⟨⟩; simp; omega) type.properties
          cases type
          simp [parts, NodeOf.children, Function.comp_def] at hsum ⊢
          omega
      | polymorphic type =>
          have hsum := sum_le_sizeOf (fun variant : Variant TypeRef => sizeOf variant.ref)
            (by rintro ⟨⟩; simp) type.variants
          cases type
          simp [parts, NodeOf.children, Function.comp_def] at hsum ⊢
          omega

/-- Checking a reference is checking it alone and then its parts, the last one first. -/
theorem check_eq (ref : TypeRef) :
    ref.check graph owner =
      (ref.checkAlone graph owner >>= fun _ => ref.parts.reverse.forM (·.check graph owner)) := by
  cases ref with
  | named id nullable =>
      rw [check, checkAlone, parts]
      cases graph.node id owner <;> rfl
  | inline node nullable =>
      rw [check, checkAlone, parts]
      cases node with
      | primitive | object | enumeration | polymorphic | other => rfl
      | list element =>
          rw [checkNode]
          cases hcheck : element.check graph owner <;>
            simp [NodeOf.needsName, NodeOf.children, hcheck]
      | map key value =>
          rw [checkNode]
          cases hvalue : value.check graph owner <;> cases hkey : key.check graph owner <;>
            simp [NodeOf.needsName, NodeOf.children, hvalue, hkey]

/-- How a reference offends, and the failure that says so. -/
inductive Offends (graph : TypeGraph) (owner : Option TypeId) : TypeRef → Error → Prop
  /-- The name is not known. -/
  | dangling {id : TypeId} {nullable : Bool} (missing : id ∉ graph.nodes.keys) :
      Offends graph owner (.named id nullable) (.dangling id owner)
  /-- The node needs a name. -/
  | inlined {node : Node} {nullable : Bool} (named : node.needsName = true) :
      Offends graph owner (.inline node nullable)
        (.invalidGraph (.inlinedNode node.typeName) owner)

/-- What offends is not legal. -/
theorem Offends.not_isLegal {ref : TypeRef} {error : Error} (h : ref.Offends graph owner error) :
    ¬ ref.IsLegal (· ∈ graph.nodes.keys) := by
  cases h with
  | dangling missing => exact missing
  | inlined named => simp [IsLegal, named]

/-- A reference that fails alone offends. -/
theorem offends_of_checkAlone {ref : TypeRef} {error : Error}
    (h : ref.checkAlone graph owner = .error error) : ref.Offends graph owner error := by
  cases ref with
  | named id nullable =>
      cases hfound : graph.nodes.find? id with
      | some node =>
          rw [checkAlone, TypeGraph.node, hfound] at h
          cases h
      | none =>
          rw [checkAlone, TypeGraph.node, hfound] at h
          cases h
          refine .dangling fun known => ?_
          rw [← Table.has_iff_mem_keys, Table.has, hfound] at known
          cases known
  | inline node nullable =>
      rw [checkAlone] at h
      split at h
      · rename_i named
        cases h
        exact .inlined named
      · cases h

end TypeRef

namespace TypeGraph

variable {graph : TypeGraph}

/-! ## The worklist -/

/-- The references of a reference that was taken, the last one first. -/
def successors (ref : TypeRef) (owner : Option TypeId) : List (TypeRef × Option TypeId) :=
  ref.parts.reverse.map fun part => (part, owner)

/-- Check the listed references, the first one next, and all that they contain. -/
def drain (graph : TypeGraph) : List (TypeRef × Option TypeId) → Except Error Unit
  | [] => .ok ()
  | (ref, owner) :: pending => do
    ref.checkAlone graph owner
    drain graph (successors ref owner ++ pending)
termination_by pending => (pending.map fun entry => sizeOf entry.1).sum
decreasing_by
  have hparts := ref.sum_sizeOf_parts_lt
  simp [successors, Function.comp_def] at hparts ⊢
  omega

/-- The worklist does what checking the listed references one by one does. -/
theorem drain_eq_forM (pending : List (TypeRef × Option TypeId)) :
    graph.drain pending = pending.forM fun (ref, owner) => ref.check graph owner := by
  fun_induction drain graph pending with
  | case1 => rfl
  | case2 ref owner pending ih =>
      let check : TypeRef × Option TypeId → Except Error Unit := fun (ref, owner) =>
        ref.check graph owner
      have hparts : (successors ref owner).forM check =
          ref.parts.reverse.forM (·.check graph owner) := List.forM_map ..
      calc
        _ = ref.checkAlone graph owner >>= fun _ => (successors ref owner ++ pending).forM check := by
          rw [ih]
        _ = ref.checkAlone graph owner >>= fun _ =>
              (successors ref owner).forM check >>= fun _ => pending.forM check := by
          rw [show (successors ref owner ++ pending).forM check =
            ((successors ref owner).forM check >>= fun _ => pending.forM check) from
              List.forM_append ..]
        _ = ref.check graph owner >>= fun _ => pending.forM check := by
          rw [hparts, TypeRef.check_eq, bind_assoc]
        _ = ((ref, owner) :: pending).forM check := rfl

/-- Validation is the run of the worklist. -/
theorem validate_eq_drain : graph.validate = graph.drain graph.references.reverse :=
  (drain_eq_forM _).symm

/-! ## What is in the worklist -/

/-- The graph holds every listed reference under the owner listed with it. -/
def IsHeld (graph : TypeGraph) (pending : List (TypeRef × Option TypeId)) : Prop :=
  ∀ entry ∈ pending, graph.Holds entry.2 entry.1

/-- The worklist begins with references that the graph holds. -/
theorem isHeld_references : graph.IsHeld graph.references.reverse := by
  rintro ⟨ref, owner⟩ mem
  exact holds_iff.mpr ⟨ref, List.mem_reverse.mp mem, .self⟩

/-- Every step keeps to references that the graph holds: the parts of a reference stand where
it stands. -/
theorem IsHeld.step {ref : TypeRef} {owner : Option TypeId}
    {pending : List (TypeRef × Option TypeId)} (h : graph.IsHeld ((ref, owner) :: pending)) :
    graph.IsHeld (successors ref owner ++ pending) := by
  intro entry mem
  rcases List.mem_append.mp mem with mem | mem
  · rcases List.mem_map.mp mem with ⟨part, hpart, rfl⟩
    have hheld : graph.Holds owner ref := h _ (List.mem_cons_self ..)
    exact hheld.trans (TypeRef.contains_of_mem_parts (List.mem_reverse.mp hpart))
  · exact h entry (List.mem_cons_of_mem _ mem)

/-- A run of the worklist that fails has met a reference that the graph holds and that
offends. -/
theorem IsHeld.exists_offends {pending : List (TypeRef × Option TypeId)} {error : Error}
    (h : graph.IsHeld pending) (hfails : graph.drain pending = .error error) :
    ∃ owner ref, graph.Holds owner ref ∧ ref.Offends graph owner error := by
  fun_induction drain graph pending with
  | case1 => cases hfails
  | case2 ref owner pending ih =>
      rcases bind_eq_error_iff.mp hfails with halone | ⟨_, -, hrest⟩
      · exact ⟨owner, ref, h _ (List.mem_cons_self ..), TypeRef.offends_of_checkAlone halone⟩
      · exact ih h.step hrest

/-! ## Validation -/

/-- Validation succeeds exactly when all that the graph holds is legal.  When it fails, the
graph holds an offending reference, and the failure names it and the node of the table that
contains it, or no node for a reference inside the root. -/
theorem validate_reports (graph : TypeGraph) :
    (graph.validate = .ok () ↔
      ∀ owner ref, graph.Holds owner ref → ref.IsLegal (· ∈ graph.nodes.keys)) ∧
    ∀ error, graph.validate = .error error →
      ∃ owner ref, graph.Holds owner ref ∧ ¬ ref.IsLegal (· ∈ graph.nodes.keys) ∧
        ref.Offends graph owner error := by
  refine ⟨validate_eq_ok_iff, ?_⟩
  intro error hfails
  rw [validate_eq_drain] at hfails
  rcases isHeld_references.exists_offends hfails with ⟨owner, ref, hheld, hoffends⟩
  exact ⟨owner, ref, hheld, hoffends.not_isLegal, hoffends⟩

/-- Notes with lists of tags by language, and no tag in the table. -/
def looseTags : TypeGraph where
  root := .inline (.list (.named "Note" false) none) false
  nodes := [
    ("Note", .object {
      name := "Note", properties := [
        { name := "tags", type := .inline (.map (.inline (.primitive .string none) false)
            (.inline (.list (.named "Tag" false) none) true) none) false }] })]

/-- Its validation reports the missing tag in the note. -/
theorem looseTags_reports :
    looseTags.validate = .error (.dangling "Tag" (some "Note")) ∧
    ∃ owner ref, looseTags.Holds owner ref ∧ ¬ ref.IsLegal (· ∈ looseTags.nodes.keys) ∧
      ref.Offends looseTags owner (.dangling "Tag" (some "Note")) :=
  ⟨rfl, (validate_reports looseTags).2 _ rfl⟩

end TypeGraph

end Schemata
