import Schemata.Proofs.Conversion.Description

/-!
# Reachable nodes stand in the document

When all pointers of a document resolve and no property hides another one, the document
writes out every node that is reachable from the root.  In particular it points at every
listed subtype.

Main results:

- Theorem {lit}`Presents.of_reaches`: every reachable node is written out.
- Theorem {lit}`Presents.mem_of_lists`: every listed subtype is pointed at.
-/

namespace Schemata

namespace Conversion

variable (c : Conversion) (pointers : List Json)

/-- The node is written out, and the pointers in it are among the given ones. -/
def Presents (id : TypeId) : Prop :=
  ∃ definition, c.Written id definition ∧ definition.pointers ⊆ pointers

/-- The given pointers lead to nodes that are written out: those to shared definitions,
and the root. -/
structure Complete : Prop where
  shared : ∀ id, .str (defsPointer id) ∈ pointers → c.Presents pointers id
  root : ∀ id ∈ c.graph.root.targets, c.Presents pointers id

variable {c} {pointers}

/-- What a described reference leads to is written out. -/
theorem Describes.presents (complete : c.Complete pointers) {ref : TypeRef}
    {definition : Definition} (h : c.Describes ref definition)
    (among : definition.pointers ⊆ pointers) :
    ∀ id ∈ ref.targets, c.Presents pointers id := by
  have named {id : TypeId} {nullable : Bool} {definition : Definition}
      (h : c.Describes (.named id nullable) definition) (apart : ¬ definition.IsPointer)
      (among : definition.pointers ⊆ pointers) :
      ∀ other ∈ (TypeRef.named id nullable).targets, c.Presents pointers other := by
    intro other hother
    rcases h.written apart with ⟨plain, hplain, hpointers⟩
    rw [List.mem_singleton.mp hother]
    exact ⟨plain, hplain, hpointers ▸ among⟩
  induction h with
  | primitive node =>
      cases node with
      | inline => exact fun id hid => absurd hid List.not_mem_nil
      | named found => exact named (.primitive (.named found)) not_false among
  | enumeration node =>
      cases node with
      | inline unnamed => cases unnamed
      | named found => exact named (.enumeration (.named found)) not_false among
  | list node element ih =>
      cases node with
      | inline =>
          rw [Definition.pointers_array] at among
          exact ih among
      | named found => exact named (.list (.named found) element) not_false among
  | map node value ih =>
      cases node with
      | inline =>
          rw [Definition.pointers_map] at among
          exact ih among
      | named found => exact named (.map (.named found) value) not_false among
  | object node length parts =>
      exact named (.object node length parts) (not_isPointer_object _ _ _) among
  | choice node => exact named (.choice node) (not_isPointer_choice _ _) among
  | root _ root =>
      intro id hid
      rcases TypeRef.id?_eq_some_iff.mp root with ⟨nullable, href⟩
      rw [List.mem_singleton.mp hid]
      exact complete.root _ (href ▸ List.mem_singleton.mpr rfl)
  | shared node =>
      intro id hid
      refine complete.shared id (among ?_)
      rw [List.mem_singleton.mp hid, pointers_pointer]
      exact List.mem_singleton.mpr rfl

/-- What a node that is written out leads to is written out. -/
theorem Written.presents (complete : c.Complete pointers) (names : c.graph.DistinctNames)
    {id : TypeId} {definition : Definition} (h : c.Written id definition)
    (among : definition.pointers ⊆ pointers) {node : Node}
    (found : c.graph.nodes.find? id = some node) :
    ∀ other ∈ node.targets, c.Presents pointers other := by
  rcases h with ⟨describes, apart⟩
  cases describes with
  | primitive leads | enumeration leads =>
      cases leads with
      | named leads =>
          cases leads.symm.trans found
          exact fun other hother => absurd hother List.not_mem_nil
  | list leads element =>
      cases leads with
      | named leads =>
          cases leads.symm.trans found
          rw [Definition.pointers_array] at among
          exact element.presents complete among
  | map leads value =>
      cases leads with
      | named leads =>
          cases leads.symm.trans found
          rw [Definition.pointers_map] at among
          exact value.presents complete among
  | @object _ _ type fragments leads length parts =>
      cases leads.symm.trans found
      intro other hother
      rcases List.mem_flatMap.mp hother with ⟨property, hproperty, htarget⟩
      rw [← List.map_fst_zip (Nat.le_of_eq length.symm)] at hproperty
      rcases List.mem_map.mp hproperty with ⟨part, hpart, rfl⟩
      refine (parts part hpart).presents complete (fun target hpointer => among ?_) other htarget
      rw [pointers_markNullable, pointers_objectFragment]
      exact pointers_subset_memberTable length (names id type leads) hpart hpointer
  | choice leads =>
      cases leads.symm.trans found
      intro other hother
      rcases List.mem_map.mp hother with ⟨variant, hvariant, rfl⟩
      exact complete.shared _ (among (mem_pointers_choiceFragment.mpr ⟨variant, hvariant, rfl⟩))
  | root | shared => exact absurd (isPointer_pointer ..) apart

/-- Every reachable node is written out, when the node is known at all. -/
theorem Presents.of_reaches (complete : c.Complete pointers) (names : c.graph.DistinctNames)
    {id : TypeId} (h : c.graph.Reaches id) : c.Presents pointers id := by
  induction h with
  | root target => exact complete.root _ target
  | step _ found target ih =>
      rcases ih with ⟨definition, hwritten, among⟩
      exact hwritten.presents complete names among found _ target

/-- Every listed subtype is pointed at. -/
theorem Presents.mem_of_lists (complete : c.Complete pointers) (names : c.graph.DistinctNames)
    {id : TypeId} (h : c.graph.Lists id) : .str (defsPointer id) ∈ pointers := by
  rcases h with ⟨base, type, hbase, hfound, hid⟩
  rcases Presents.of_reaches complete names hbase with ⟨definition, hwritten, among⟩
  rcases List.mem_map.mp hid with ⟨variant, hvariant, rfl⟩
  rw [hwritten.eq_choice hfound] at among
  exact among (mem_pointers_choiceFragment.mpr ⟨variant, hvariant, rfl⟩)

end Conversion

end Schemata
