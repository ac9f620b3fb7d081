import Schemata.Descriptor.Introspection
import Schemata.Proofs.Introspection.Steps

/-!
# The graphs of descriptors

Reading a descriptor hands out a reference and builds only nodes that the reference leads
to.  That holds of a layer when it holds of the layers below for the keys that the reading
goes on to, so it holds with any budget, and a graph that comes out has neither loose ends nor
nodes beside the way.

Main results:

- Theorem {lit}`readsFrom_layer`: one layer reads what it hands out when the layers below
  do, in the sessions in which it asks them.
- Theorem {lit}`introspect_isComplete`: the graph of a root descriptor is complete, and its
  table holds exactly the names that the root leads to.
-/

namespace Schemata

/-- The keys that the reading of a descriptor goes on to. -/
def Catalog.parts (catalog : Catalog) (descriptor : Descriptor) : List DescriptorKey :=
  match descriptor.kind with
  | .record | .singleton => descriptor.elements.map (·.descriptor)
  | .list => (descriptor.elements.take 1).map (·.descriptor)
  | .map => (descriptor.elements.take 2).map (·.descriptor)
  | .sealed => (catalog.subtypes? descriptor).getD []
  | _ => []

namespace DescriptorIntrospection

open Session (ReadsFrom Builds)

variable {c : DescriptorIntrospection} {below : Below} {failure : Error → Prop}
variable {base session : Session DescriptorKey Unit} {descriptor : Descriptor}

/-- From any sound session that extends a given one, the reading of a key reads the reference
that it hands out, or fails as a condition says. -/
def ReadsKey (failure : Error → Prop) (base : Session DescriptorKey Unit) (below : Below)
    (key : DescriptorKey) : Prop :=
  ∀ nullable, ReadsFrom True failure base (fun ref => [ref]) (below key nullable)

/-- Whatever a reading hands out leads to all nodes that it builds. -/
def IsThorough (below : Below) : Prop :=
  ∀ key nullable base, ReadsFrom True (fun _ => True) base (fun ref => [ref]) (below key nullable)

/-- One of the first elements is among the keys that they point at. -/
theorem mem_firstKeys {element : Element} {index count : Nat}
    (h : descriptor.elements[index]? = some element) (less : index < count) :
    element.descriptor ∈ (descriptor.elements.take count).map (·.descriptor) := by
  have htake : (descriptor.elements.take count)[index]? = some element := by
    rw [List.getElem?_take_of_lt less]
    exact h
  exact List.mem_map_of_mem (List.mem_of_getElem? htake)

section Parts

-- a reading of its own fails for many causes, but never for its budget
variable (own : ∀ error, error ≠ .endless → failure error)
include own

theorem readsFrom_describe (annotations : List Annotation) :
    ReadsFrom True failure base (fun _ => []) (c.describe annotations) := by
  refine Session.readsFrom_ofExcept fun error herror => own error ?_
  cases c.settings.describe_eq_error herror <;> simp

/-- The property of an element reads the reference in it. -/
theorem readsFrom_property {element : Element}
    (hbelow : ReadsKey failure base below element.descriptor) :
    ReadsFrom True failure base (fun property => [property.type]) (c.property below element) :=
  .followed (hbelow _) (readsFrom_describe own _) fun _ _ => rfl

/-- The node of a record or a singleton reads the references in its properties. -/
theorem builds_object (sound : session.IsSound)
    (hbelow : ∀ element ∈ descriptor.elements, ReadsKey failure session below element.descriptor) :
    Builds True failure session (c.objectNode below descriptor) := by
  have hproperties : ReadsFrom True failure session
      (List.flatMap fun property => [property.type])
      (Attempt.mapEach descriptor.elements (c.property below)) :=
    .mapEach fun element mem => readsFrom_property own (hbelow element mem)
  rw [Builds, objectNode]
  refine (hproperties session (.refl session) sound).bind fun properties middle h => ?_
  refine (readsFrom_describe own _ middle h.grows h.sound).bind fun description after hquiet => ?_
  refine ⟨_, rfl, trivial, ?_⟩
  rw [NodeOf.children, List.map_eq_flatMap]
  simpa using h.append hquiet

/-- An enumeration is built without a reference. -/
theorem builds_enumeration (descriptor : Descriptor) (sound : session.IsSound) :
    Builds True failure session (c.enumNode descriptor) := by
  rw [Builds, enumNode]
  exact (readsFrom_describe own _ session (.refl session) sound).bind fun description after h =>
    ⟨_, rfl, trivial, h⟩

theorem builds_empty (descriptor : Descriptor) (sound : session.IsSound) :
    Builds True failure session (c.emptyNode descriptor) := by
  rw [Builds, emptyNode]
  exact (readsFrom_describe own _ session (.refl session) sound).bind fun description after h =>
    ⟨_, rfl, trivial, h⟩

/-- A subtype is read into the reference to its identifier. -/
theorem readsFrom_subtype {key : DescriptorKey} (hbelow : ReadsKey failure base below key) :
    ReadsFrom True failure base (fun subtype => [.named subtype.2 false])
      (c.subtype below key) := by
  intro session later sound
  rw [subtype]
  refine (hbelow false session later sound).bind fun ref after h => ?_
  split
  · rename_i id descriptor named found
    exact h.renull named
  · exact own _ (by simp)

/-- The node of a sealed descriptor reads the references to its subtypes. -/
theorem builds_polymorphic (sound : session.IsSound)
    (hbelow : ∀ keys ∈ c.catalog.subtypes? descriptor, ∀ key ∈ keys,
      ReadsKey failure session below key) :
    Builds True failure session (c.polymorphicNode below descriptor) := by
  rw [Builds, polymorphicNode]
  split
  · exact own _ (by simp [sealedFault])
  · rename_i keys held
    have hsubtypes : ReadsFrom True failure session
        (List.flatMap fun subtype => [.named subtype.2 false])
        (Attempt.mapEach keys (c.subtype below)) :=
      .mapEach fun key mem => readsFrom_subtype own (hbelow keys held key mem)
    refine (hsubtypes session (.refl session) sound).bind fun subtypes middle h => ?_
    refine (readsFrom_describe own _ middle h.grows h.sound).bind fun description after hquiet => ?_
    refine ⟨_, rfl, ?_, ?_⟩
    · exact Session.isConsistent_of_entries ..
    · rw [NodeOf.children, List.map_map, List.map_eq_flatMap]
      simpa using h.append hquiet

/-- The element at an index is given, or the reading fails. -/
theorem readsFrom_elementAt_bind {α : Type} {index : Nat} {next : Element → Step α}
    {refs : α → List TypeRef}
    (h : ∀ element, descriptor.elements[index]? = some element →
      ReadsFrom True failure base refs (next element)) :
    ReadsFrom True failure base refs (elementAt descriptor index >>= next) := by
  intro session later sound
  rw [Attempt.meets_bind, elementAt]
  split
  · exact h _ ‹_› session later sound
  · exact own _ (by simp)

/-- The cases are the kinds of descriptors: scalars, containers and named nodes.  What a list
or map contains is read in the session at hand, what a named node holds with the slot of the
node reserved. -/
theorem readsFrom_fresh (key : DescriptorKey) (nullable : Bool)
    (contained : descriptor.kind = .list ∨ descriptor.kind = .map →
      ∀ part ∈ c.catalog.parts descriptor, ReadsKey failure base below part)
    (held : ∀ session, base.Extends session → c.typeId key descriptor ∉ session.slots.keys →
      ∀ part ∈ c.catalog.parts descriptor,
        ReadsKey failure (session.reserve (c.typeId key descriptor)) below part) :
    ReadsFrom True failure base (fun ref => [ref]) (c.fresh below key descriptor nullable) := by
  have hrefer (builder : Step (Option Node))
      (hbuild : ∀ session, base.Extends session → c.typeId key descriptor ∉ session.slots.keys →
        (session.reserve (c.typeId key descriptor)).IsSound →
        Builds True failure (session.reserve (c.typeId key descriptor)) builder) :
      ReadsFrom True failure base (fun ref => [ref])
        (Session.refer key (c.typeId key descriptor) nullable builder) := fun session later sound =>
    Session.Reads.refer sound
      (fun outside => hbuild session later outside (sound.reserve outside)) key nullable
  rw [fresh]
  split
  · intro session later sound
    exact Session.handsOn_remembering key _ _ _ (.known sound (session.accepts_primitive _ _ _))
  · split
    · exact hrefer _ fun session _ _ sound => builds_enumeration own descriptor sound
    · rename_i kind
      refine hrefer _ fun session later outside sound => builds_object own sound ?_
      intro element mem
      exact held session later outside _ (by rw [Catalog.parts, kind]; exact List.mem_map_of_mem mem)
    · rename_i kind
      refine hrefer _ fun session later outside sound => builds_object own sound ?_
      intro element mem
      exact held session later outside _ (by rw [Catalog.parts, kind]; exact List.mem_map_of_mem mem)
    · rename_i kind
      refine readsFrom_elementAt_bind own fun element helement => ?_
      have hpart := contained (Or.inl kind) element.descriptor
        (by rw [Catalog.parts, kind]; exact mem_firstKeys helement Nat.zero_lt_one)
      exact .list (hpart _) (Session.handsOn_remembering key) nullable
    · rename_i kind
      refine readsFrom_elementAt_bind own fun keys hkeys => ?_
      refine readsFrom_elementAt_bind own fun values hvalues => ?_
      have hfirst := contained (Or.inr kind) keys.descriptor
        (by rw [Catalog.parts, kind]; exact mem_firstKeys hkeys Nat.zero_lt_two)
      have hsecond := contained (Or.inr kind) values.descriptor
        (by rw [Catalog.parts, kind]; exact mem_firstKeys hvalues Nat.one_lt_two)
      exact .map (hfirst _) (hsecond _) (Session.handsOn_remembering key) nullable
    · rename_i kind
      refine hrefer _ fun session later outside sound => builds_polymorphic own sound ?_
      intro keys hkeys part mem
      exact held session later outside _ (by rw [Catalog.parts, kind, hkeys]; exact mem)
    · exact .prepend (Session.readsFrom_report _) fun _ =>
        hrefer _ fun session _ _ sound => builds_empty own descriptor sound

/-- One layer reads what it hands out when the layers below do, in the sessions in which it
asks them. -/
theorem readsFrom_layer (key : DescriptorKey)
    (contained : ∀ descriptor, Table.find? c.catalog key = some descriptor →
      descriptor.kind = .list ∨ descriptor.kind = .map →
      ∀ part ∈ c.catalog.parts descriptor, ReadsKey failure base below part)
    (held : ∀ descriptor, Table.find? c.catalog key = some descriptor →
      ∀ session, base.Extends session → c.typeId key descriptor ∉ session.slots.keys →
      ∀ part ∈ c.catalog.parts descriptor,
        ReadsKey failure (session.reserve (c.typeId key descriptor)) below part) :
    ReadsKey failure base (c.layer below) key := by
  intro nullable session later sound
  rw [layer, Attempt.meets_bind, Attempt.meets_get]
  split
  · rename_i ref cached
    exact .cached sound cached
  · split
    · rename_i descriptor found
      exact readsFrom_fresh own key nullable (contained descriptor found) (held descriptor found)
        session later sound
    · exact own _ (by simp)

end Parts

/-- With any budget, reading a descriptor reads what it hands out. -/
theorem isThorough_reference (budget : Nat) : IsThorough (c.reference budget) := by
  induction budget with
  | zero => exact fun _ _ _ _ _ _ => trivial
  | succ budget ih =>
      intro key nullable base
      exact readsFrom_layer (fun _ _ => trivial) key (fun _ _ _ part _ nullable => ih part nullable _)
        (fun _ _ _ _ _ part _ nullable => ih part nullable _) nullable

end DescriptorIntrospection

/-- The graph of a root descriptor is complete, and its table holds exactly the names that
the root leads to. -/
theorem Catalog.introspect_isComplete {catalog : Catalog} {settings : IntrospectionSettings}
    {root : DescriptorKey} {graph : TypeGraph}
    (h : (catalog.introspect settings root).graph = .ok graph) :
    graph.IsComplete ∧
      ∀ id, id ∈ graph.nodes.keys ↔ graph.root.Visits graph.nodes.find? id := by
  rw [introspect, Session.introspect_graph_eq_ok_iff] at h
  rcases h with ⟨ref, after, hrun, rfl⟩
  let c : DescriptorIntrospection := ⟨catalog, settings, catalog.subtypeIds root⟩
  have hthorough : DescriptorIntrospection.IsThorough (c.reference c.budget) :=
    DescriptorIntrospection.isThorough_reference c.budget
  have hreads : ({ memory := () } : Session DescriptorKey Unit).Reads True [ref] after :=
    (hthorough root false _ _ (.refl _) (Session.isSound_start ())).of_ok hrun
  exact ⟨hreads.isComplete, fun id => hreads.mem_keys_iff⟩

/-- A sealed descriptor with a subtype that holds a map back to it. -/
def linkedCatalog : Catalog :=
  [("text", { serialName := "String", kind := .string }),
    ("Shape", { serialName := "app.Shape", kind := .sealed, elements :=
      [{ name := "type", descriptor := "text" }, { name := "value", descriptor := "shapes" }] }),
    ("shapes", { serialName := "Shapes", kind := .contextual, elements :=
      [{ name := "Group", descriptor := "Group" }] }),
    ("Group", { serialName := "app.Group", kind := .record, elements :=
      [{ name := "parts", descriptor := "parts", nullable := true }] }),
    ("parts", { serialName := "Map", kind := .map, elements :=
      [{ name := "0", descriptor := "text" }, { name := "1", descriptor := "Shape" }] })]

/-- Its graph is complete, and the root leads to the descriptor and its subtype. -/
theorem linkedCatalog_isComplete : ∃ graph,
    (linkedCatalog.introspect {} "Shape").graph = .ok graph ∧
    graph.nodes.keys = ["app.Shape", "Shape.Group"] ∧ graph.IsComplete ∧
    ∀ id, id ∈ graph.nodes.keys ↔ graph.root.Visits graph.nodes.find? id := by
  have hgraph : (linkedCatalog.introspect {} "Shape").graph = .ok _ := rfl
  exact ⟨_, hgraph, rfl, Catalog.introspect_isComplete hgraph⟩

end Schemata
