import Schemata.Proofs.Conversion.Pointers
import Schemata.Proofs.Conversion.Progress

/-!
# Fragments and the references they describe

The fragment that a conversion yields for a reference depends on the state: one object is
written out here and pointed at there.  The relation {lit}`Describes` leaves the state
out.  It relates a reference to each fragment that the conversion can yield for it.

Main results:

- Theorem {lit}`Runs.describes`: the results of a run describe what they were asked for,
  and its shared definitions are written out.
- Theorem {lit}`Describes.written`: a fragment that is written out describes its node also
  where the node is not nullable.
-/

namespace Schemata

/-- The fragment is a pointer, or a choice between a pointer and null. -/
def Definition.IsPointer : Definition → Prop
  | .reference _ _ => True
  | .anyOf _ (.reference _ _ :: _) => True
  | _ => False

namespace Conversion

variable (c : Conversion)

/-- The fragments that describe a reference. -/
inductive Describes : TypeRef → Definition → Prop
  | primitive {ref : TypeRef} {kind : PrimitiveKind} {description : Option String}
      (node : c.graph.Leads ref (.primitive kind description)) :
      Describes ref (.value (headFor kind.schemaType description ref.nullable) .null)
  | enumeration {ref : TypeRef} {type : EnumType}
      (node : c.graph.Leads ref (.enumeration type)) :
      Describes ref (.value (headFor "string" type.description ref.nullable)
        (.arr (type.entries.map .str)))
  | list {ref element : TypeRef} {description : Option String} {items : Definition}
      (node : c.graph.Leads ref (.list element description))
      (element : Describes element items) :
      Describes ref (.array (headFor "array" description ref.nullable) (some items.asUnion))
  | map {ref key value : TypeRef} {description : Option String} {values : Definition}
      (node : c.graph.Leads ref (.map key value description))
      (value : Describes value values) :
      Describes ref (.object (headFor "object" description ref.nullable) none .null
        (.schema values.asUnion))
  | object {id : TypeId} {nullable : Bool} {type : ObjectType TypeRef}
      {fragments : List Definition} (node : c.graph.nodes.find? id = some (.object type))
      (length : fragments.length = type.properties.length)
      (parts : ∀ part ∈ type.properties.zip fragments, Describes part.1.type part.2) :
      Describes (.named id nullable) (markNullable nullable (c.objectFragment type fragments))
  | choice {id : TypeId} {nullable : Bool} {type : PolymorphicType TypeRef}
      (node : c.graph.nodes.find? id = some (.polymorphic type)) :
      Describes (.named id nullable) (c.choiceFragment type nullable)
  | root {id : TypeId} {nullable : Bool} {type : ObjectType TypeRef}
      (node : c.graph.nodes.find? id = some (.object type))
      (root : c.graph.root.id? = some id) :
      Describes (.named id nullable) (pointer "#" nullable)
  | shared {id : TypeId} {nullable : Bool} {type : ObjectType TypeRef}
      (node : c.graph.nodes.find? id = some (.object type)) :
      Describes (.named id nullable) (pointer (defsPointer id) nullable)

/-- The fragment describes the node of that name, without null, and is written out. -/
structure Written (id : TypeId) (definition : Definition) : Prop where
  describes : c.Describes (.named id false) definition
  apart : ¬ definition.IsPointer

/-- Every shared definition is written out for the node that it is the definition of. -/
def WritesShared (state : ConversionState) : Prop :=
  ∀ entry ∈ state.defs, c.Written entry.1 entry.2

/-- The fragments describe the types of the properties one by one. -/
structure DescribesAll (properties : List (Property TypeRef)) (fragments : List Definition) :
    Prop where
  length : fragments.length = properties.length
  parts : ∀ part ∈ properties.zip fragments, c.Describes part.1.type part.2

/-- What a job yields describes what it was asked for. -/
def DescribesJob : Job → Prop
  | .fragment ref result => c.Describes ref result
  | .body _ type fragments => c.DescribesAll type.properties fragments
  | .properties listed fragments => c.DescribesAll listed fragments
  | .variants _ => True

variable {c} {job : Job} {state after : ConversionState}

/-! ## Written fragments -/

/-- A pointer is one, nullable or not. -/
theorem isPointer_pointer (target : String) (nullable : Bool) :
    (pointer target nullable).IsPointer := by
  cases nullable <;> trivial

/-- An object written out is no pointer. -/
theorem not_isPointer_object (type : ObjectType TypeRef) (fragments : List Definition)
    (nullable : Bool) :
    ¬ (markNullable nullable (c.objectFragment type fragments)).IsPointer := by
  cases nullable <;> exact not_false

/-- A choice between subtypes is no pointer. -/
theorem not_isPointer_choice (type : PolymorphicType TypeRef) (nullable : Bool) :
    ¬ (c.choiceFragment type nullable).IsPointer := by
  cases nullable <;> exact not_false

/-- Only objects are described by pointers. -/
theorem Describes.object_of_isPointer {ref : TypeRef} {definition : Definition}
    (h : c.Describes ref definition) (pointer : definition.IsPointer) :
    ∃ id nullable, ref = .named id nullable ∧ c.graph.IsObject id := by
  cases h with
  | primitive | enumeration | list | map => cases pointer
  | object node => exact ⟨_, _, rfl, _, node⟩
  | choice => exact absurd pointer (not_isPointer_choice _ _)
  | root node => exact ⟨_, _, rfl, _, node⟩
  | shared node => exact ⟨_, _, rfl, _, node⟩

/-- An object whose properties are described is written out by its fragment. -/
theorem Written.object {id : TypeId} {type : ObjectType TypeRef} {fragments : List Definition}
    (node : c.graph.nodes.find? id = some (.object type))
    (parts : c.DescribesAll type.properties fragments) :
    c.Written id (c.objectFragment type fragments) where
  describes := show c.Describes _ (markNullable false _) from
    .object node parts.length parts.parts
  apart := not_isPointer_object type fragments false

/-- A fragment for a node that is not an object is written out. -/
theorem Written.of_not_object {id : TypeId} {definition : Definition}
    (h : c.Describes (.named id false) definition) (other : ¬ c.graph.IsObject id) :
    c.Written id definition where
  describes := h
  apart pointer := by
    rcases h.object_of_isPointer pointer with ⟨id', nullable, same, hobject⟩
    cases same
    exact other hobject

/-- The fragment that is written out for an object is that of its properties. -/
theorem Written.eq_object {id : TypeId} {definition : Definition} {type : ObjectType TypeRef}
    (h : c.Written id definition) (found : c.graph.nodes.find? id = some (.object type)) :
    ∃ fragments, c.DescribesAll type.properties fragments ∧
      definition = c.objectFragment type fragments := by
  rcases h with ⟨describes, apart⟩
  cases describes with
  | primitive leads | enumeration leads | list leads | map leads =>
      cases leads with
      | named leads => cases leads.symm.trans found
  | object leads length parts =>
      cases leads.symm.trans found
      exact ⟨_, ⟨length, parts⟩, rfl⟩
  | choice leads => cases leads.symm.trans found
  | root | shared => exact absurd (isPointer_pointer ..) apart

/-- The fragment that is written out for a polymorphic type is its choice. -/
theorem Written.eq_choice {id : TypeId} {definition : Definition}
    {type : PolymorphicType TypeRef} (h : c.Written id definition)
    (found : c.graph.nodes.find? id = some (.polymorphic type)) :
    definition = c.choiceFragment type false := by
  rcases h with ⟨describes, apart⟩
  cases describes with
  | primitive leads | enumeration leads | list leads | map leads =>
      cases leads with
      | named leads => cases leads.symm.trans found
  | object leads | root leads | shared leads => cases leads.symm.trans found
  | choice leads =>
      cases leads.symm.trans found
      rfl

/-- What is written out describes a node of the graph. -/
theorem Written.exists_node {id : TypeId} {definition : Definition} (h : c.Written id definition) :
    ∃ node, c.graph.nodes.find? id = some node := by
  rcases h with ⟨describes, -⟩
  cases describes with
  | primitive leads | enumeration leads | list leads | map leads =>
      cases leads with
      | named leads => exact ⟨_, leads⟩
  | object leads | choice leads | root leads | shared leads => exact ⟨_, leads⟩

/-- A fragment that is written out where a node may be null has a written fragment beside
it for the node without null, with the same pointers. -/
theorem Describes.written {id : TypeId} {nullable : Bool} {definition : Definition}
    (h : c.Describes (.named id nullable) definition) (apart : ¬ definition.IsPointer) :
    ∃ plain, c.Written id plain ∧ plain.pointers = definition.pointers := by
  cases h with
  | primitive node =>
      cases node with
      | named found =>
          exact ⟨_, ⟨.primitive (.named found), not_false⟩, rfl⟩
  | enumeration node =>
      cases node with
      | named found =>
          exact ⟨_, ⟨.enumeration (.named found), not_false⟩, rfl⟩
  | list node element =>
      cases node with
      | named found =>
          exact ⟨_, ⟨.list (.named found) element, not_false⟩, rfl⟩
  | map node value =>
      cases node with
      | named found =>
          exact ⟨_, ⟨.map (.named found) value, not_false⟩, rfl⟩
  | object node length parts =>
      exact ⟨_, .object node ⟨length, parts⟩, (pointers_markNullable ..).symm⟩
  | choice node =>
      refine ⟨_, ⟨.choice node, not_isPointer_choice _ _⟩, ?_⟩
      rw [pointers_choiceFragment, pointers_choiceFragment]
  | root | shared => exact absurd (isPointer_pointer ..) apart

/-! ## Runs yield descriptions -/

/-- A definition that is written out may be added to the shared ones. -/
theorem WritesShared.share (h : c.WritesShared state) {id : TypeId} {definition : Definition}
    (written : c.Written id definition) : c.WritesShared (state.share id definition) := by
  intro entry hentry
  rcases ConversionState.mem_share_defs _ _ _ hentry with rfl | hentry
  · exact written
  · exact h entry hentry

/-- A state with the same shared definitions has them written out, too. -/
theorem WritesShared.of_eq (h : c.WritesShared state) (same : after.defs = state.defs) :
    c.WritesShared after := by
  intro entry hentry
  exact h entry (same ▸ hentry)

/-- The results of a run describe what they were asked for, and the shared definitions
stay written out. -/
theorem Runs.describes (h : c.Runs job state after) (before : c.WritesShared state) :
    c.WritesShared after ∧ c.DescribesJob job := by
  induction h with
  | primitive node => exact ⟨before, .primitive node⟩
  | enumeration node => exact ⟨before, .enumeration node⟩
  | list node _ element => exact (element before).imp_right (.list node)
  | map node _ value => exact (value before).imp_right (.map node)
  | rootInside node _ root => exact ⟨before, .root node root⟩
  | objectInside node => exact ⟨before.of_eq (ConversionState.promise_defs ..), .shared node⟩
  | objectShared node => exact ⟨before, .shared node⟩
  | objectInPlace node _ _ _ body =>
      exact (body before).imp_right fun parts => .object node parts.length parts.parts
  | objectPromised node _ _ _ _ body =>
      rcases body before with ⟨hshared, parts⟩
      exact ⟨hshared.share (.object node parts), .shared node⟩
  | rootPromised node _ _ _ _ body =>
      rcases body before with ⟨hshared, parts⟩
      exact ⟨hshared.share (.object node parts), .object node parts.length parts.parts⟩
  | choiceInside node => exact ⟨before, .choice node⟩
  | choice node _ _ variants =>
      exact ⟨(variants (before.of_eq (ConversionState.start_defs ..))).1, .choice node⟩
  | body _ _ _ properties => exact properties (before.of_eq (ConversionState.start_defs ..))
  | noProperties => exact ⟨before, rfl, fun part hpart => absurd hpart List.not_mem_nil⟩
  | property _ _ head tail =>
      rcases head before with ⟨hshared, hfirst⟩
      rcases tail hshared with ⟨hshared, hrest⟩
      exact ⟨hshared, congrArg Nat.succ hrest.length,
        List.forall_mem_cons.mpr ⟨hfirst, hrest.parts⟩⟩
  | noVariants => exact ⟨before, trivial⟩
  | variantShared _ _ tail => exact tail before
  | variantInside _ _ tail => exact tail (before.of_eq (ConversionState.promise_defs ..))
  | variantObject _ node _ _ body tail =>
      rcases body before with ⟨hshared, parts⟩
      exact tail (hshared.share (.object node parts))
  | variantOther _ _ found other _ _ written tail =>
      rcases written before with ⟨hshared, hdescribes⟩
      refine tail (hshared.share (.of_not_object hdescribes ?_))
      rintro ⟨type, hobject⟩
      rw [found, Option.some.injEq] at hobject
      exact other type hobject

/-- A first run starts without shared definitions. -/
theorem Runs.describes_first (h : c.Runs job {} after) :
    c.WritesShared after ∧ c.DescribesJob job :=
  h.describes fun _ hentry => absurd hentry List.not_mem_nil

end Conversion

end Schemata
