import Schemata.Proofs.Descriptor.Introspection
import Schemata.Proofs.Descriptor.Naming

/-!
# What the nodes of descriptors show

A reference to a descriptor is a scalar, a list or map of such references, or the identifier
of the descriptor.  Every node of a graph shows a descriptor that has the identifier of the
node: an enumeration its entries, a sealed descriptor the identifiers of its subtypes, an
object its elements.

Every step keeps that, for a slot is filled only by the builder of the descriptor that asked
for it first.  Which of several descriptors with one identifier that is the node does not
tell, except that it carries the serial name of the one.

Main results:

- Definition {lit}`Catalog.Refers`, {lit}`Catalog.Depicts`: the references and the nodes of
  descriptors.
- Theorem {lit}`DescriptorIntrospection.isFaithful_reference`: the reading of a descriptor
  hands out references to it.
- Theorem {lit}`Catalog.depicts_introspect`: every node of a graph shows a descriptor.
-/

namespace Schemata

/-- The name of an object, an enumeration or a polymorphic type. -/
def NodeOf.name? : Node → Option String
  | .object type => some type.name
  | .enumeration type => some type.name
  | .polymorphic type => some type.base
  | _ => none

/-- The descriptor becomes a node of the table. -/
def Descriptor.IsNamed (descriptor : Descriptor) : Prop :=
  descriptor.kind.primitive? = none ∧ descriptor.kind ≠ .list ∧ descriptor.kind ≠ .map

instance (descriptor : Descriptor) : Decidable descriptor.IsNamed :=
  inferInstanceAs (Decidable (_ ∧ _))

namespace Catalog

variable (catalog : Catalog) (root : DescriptorKey)

/-- The keys that are read when the graph of a root is made. -/
inductive Reads : DescriptorKey → Prop
  | root : Reads root
  | part {key other : DescriptorKey} {descriptor : Descriptor} (earlier : Reads key)
      (found : Table.find? catalog key = some descriptor)
      (mem : other ∈ catalog.parts descriptor) : Reads other

/-- A descriptor that is read and becomes a node of the table. -/
structure HasNode (entry : Entry) : Prop where
  read : catalog.Reads root entry.1
  found : Table.find? catalog entry.1 = some entry.2
  named : entry.2.IsNamed

/-- The references to a descriptor. -/
inductive Refers : DescriptorKey → TypeRef → Prop
  | primitive {key : DescriptorKey} {descriptor : Descriptor} {kind : PrimitiveKind}
      {nullable : Bool} (found : Table.find? catalog key = some descriptor)
      (scalar : descriptor.kind.primitive? = some kind) :
      Refers key (.inline (.primitive kind none) nullable)
  | list {key : DescriptorKey} {descriptor : Descriptor} {element : Element} {ref : TypeRef}
      {nullable : Bool} (found : Table.find? catalog key = some descriptor)
      (kind : descriptor.kind = .list) (first : descriptor.elements[0]? = some element)
      (items : Refers element.descriptor ref) : Refers key (.inline (.list ref none) nullable)
  | map {key : DescriptorKey} {descriptor : Descriptor} {first second : Element}
      {keys values : TypeRef} {nullable : Bool}
      (found : Table.find? catalog key = some descriptor) (kind : descriptor.kind = .map)
      (hfirst : descriptor.elements[0]? = some first)
      (hsecond : descriptor.elements[1]? = some second) (hkeys : Refers first.descriptor keys)
      (hvalues : Refers second.descriptor values) :
      Refers key (.inline (.map keys values none) nullable)
  | named {entry : Entry} {nullable : Bool} (found : Table.find? catalog entry.1 = some entry.2)
      (named : entry.2.IsNamed) : Refers entry.1 (.named (catalog.typeId root entry) nullable)

/-- The nodes of a descriptor. -/
inductive Depicts (descriptor : Descriptor) : Node → Prop
  | enumeration {description : Option String} (kind : descriptor.kind = .enumeration) :
      Depicts descriptor (.enumeration {
        name := descriptor.serialName
        entries := descriptor.elements.map (·.name)
        description })
  | object {properties : List (Property TypeRef)} {description : Option String}
      (kind : descriptor.kind = .record ∨ descriptor.kind = .singleton)
      (parts : List.Forall₂ (fun (element : Element) (property : Property TypeRef) =>
        property.name = .str element.name ∧ property.hasDefault = element.isOptional ∧
          catalog.Refers root element.descriptor property.type) descriptor.elements properties) :
      Depicts descriptor (.object {
        name := descriptor.serialName
        properties
        required := (descriptor.elements.filter (!·.isOptional)).map fun element => element.name
        description })
  | polymorphic {keys : List DescriptorKey} {subtypes : List (String × TypeId)}
      {discriminator : Discriminator} {description : Option String}
      (kind : descriptor.kind = .sealed) (held : catalog.subtypes? descriptor = some keys)
      (parts : List.Forall₂ (fun key subtype =>
        catalog.Refers root key (.named (Prod.snd subtype) false)) keys subtypes) :
      Depicts descriptor (.polymorphic {
        base := descriptor.serialName
        variants := subtypes.map fun subtype => ⟨subtype.2, .named subtype.2 false⟩
        discriminator := some discriminator
        description })
  | empty {description : Option String} (alone : catalog.parts descriptor = []) :
      Depicts descriptor (.object { name := descriptor.serialName, description })

variable {catalog} {root} {key : DescriptorKey} {descriptor : Descriptor} {ref : TypeRef}

/-- Subtypes are the elements of a descriptor that the sealed one points at. -/
theorem exists_holder {keys : List DescriptorKey} (held : catalog.subtypes? descriptor = some keys) :
    ∃ element ∈ descriptor.elements, ∃ holder,
      Table.find? catalog element.descriptor = some holder ∧
        keys = holder.elements.map (·.descriptor) := by
  rw [subtypes?] at held
  rcases Option.bind_eq_some_iff.mp held with ⟨element, helement, hrest⟩
  rcases Option.bind_eq_some_iff.mp hrest with ⟨holder, hholder, hkeys⟩
  refine ⟨element, ?_, holder, hholder, (Option.some.inj hkeys).symm⟩
  rw [Descriptor.valueElement?] at helement
  split at helement
  · rename_i first second rest hparts
    split at helement
    · cases helement
      rw [hparts]
      exact List.mem_cons_of_mem _ (List.mem_cons_self ..)
    · cases helement
  · cases helement

/-- What the reading of a descriptor goes on to is pointed at by its elements, or by those of
the descriptor that holds its subtypes. -/
theorem Leads.part {other : DescriptorKey} (h : catalog.Leads root key)
    (found : Table.find? catalog key = some descriptor) (mem : other ∈ catalog.parts descriptor) :
    catalog.Leads root other := by
  have hpoints : ∀ elements : List Element, elements ⊆ descriptor.elements →
      other ∈ elements.map (·.descriptor) → catalog.Leads root other := by
    intro elements hsubset hmem
    rcases List.mem_map.mp hmem with ⟨element, helement, rfl⟩
    exact h.step found (hsubset helement)
  rw [parts] at mem
  split at mem
  · exact hpoints _ (List.Subset.refl _) mem
  · exact hpoints _ (List.Subset.refl _) mem
  · exact hpoints _ (List.take_subset ..) mem
  · exact hpoints _ (List.take_subset ..) mem
  · cases held : catalog.subtypes? descriptor with
    | none =>
        rw [held] at mem
        cases mem
    | some keys =>
        rw [held] at mem
        rcases exists_holder held with ⟨element, helement, holder, hholder, rfl⟩
        rcases List.mem_map.mp mem with ⟨slot, hslot, rfl⟩
        exact (h.step found helement).step hholder hslot
  · cases mem

/-- The root leads to all that is read. -/
theorem Reads.leads (h : catalog.Reads root key) : catalog.Leads root key := by
  induction h with
  | root => exact .root
  | part _ found mem ih => exact ih.part found mem

/-- Nullability does not show in what a reference refers to. -/
theorem Refers.withNullable (h : catalog.Refers root key ref) (nullable : Bool) :
    catalog.Refers root key (ref.withNullable nullable) := by
  cases h with
  | primitive found scalar => exact .primitive found scalar
  | list found kind first items => exact .list found kind first items
  | map found kind hfirst hsecond hkeys hvalues =>
      exact .map found kind hfirst hsecond hkeys hvalues
  | named found named => exact .named found named

/-- A descriptor with a node of its own is referred to by name. -/
theorem Refers.eq_named {entry : Entry} (h : catalog.Refers root entry.1 ref)
    (found : Table.find? catalog entry.1 = some entry.2) (named : entry.2.IsNamed) :
    ∃ nullable, ref = .named (catalog.typeId root entry) nullable := by
  rcases entry with ⟨key, descriptor⟩
  cases h with
  | primitive found' scalar =>
      cases found.symm.trans found'
      rw [named.1] at scalar
      cases scalar
  | list found' kind =>
      cases found.symm.trans found'
      exact absurd kind named.2.1
  | map found' kind =>
      cases found.symm.trans found'
      exact absurd kind named.2.2
  | @named entry nullable found' =>
      cases found.symm.trans found'
      exact ⟨nullable, rfl⟩

/-- The reading of a scalar goes on to nothing. -/
theorem parts_of_primitive {kind : PrimitiveKind} (scalar : descriptor.kind.primitive? = some kind) :
    catalog.parts descriptor = [] := by
  cases hkind : descriptor.kind <;> simp_all [parts, DescriptorKind.primitive?]

/-- A reference to a descriptor without a node contains references to what the reading of
the descriptor goes on to. -/
theorem Refers.part {other : DescriptorKey} (h : catalog.Refers root key ref)
    (found : Table.find? catalog key = some descriptor) (unnamed : ¬ descriptor.IsNamed)
    (mem : other ∈ catalog.parts descriptor) :
    ∃ inner, ref.Contains inner ∧ catalog.Refers root other inner := by
  cases h with
  | primitive found' scalar =>
      cases found.symm.trans found'
      rw [parts_of_primitive scalar] at mem
      cases mem
  | @list _ _ element ref nullable found' kind first items =>
      cases found.symm.trans found'
      have helement : other = element.descriptor := by
        simpa [parts, kind, List.take_add_one, first] using mem
      exact ⟨ref, .child (List.mem_singleton.mpr rfl) .self, helement ▸ items⟩
  | @map _ _ first second keys values nullable found' kind hfirst hsecond hkeys hvalues =>
      cases found.symm.trans found'
      have hother : other = first.descriptor ∨ other = second.descriptor := by
        simpa [parts, kind, List.take_add_one, hfirst, hsecond] using mem
      rcases hother with rfl | rfl
      · exact ⟨keys, .child (List.mem_cons_self ..) .self, hkeys⟩
      · exact ⟨values, .child (List.mem_cons_of_mem _ (List.mem_singleton.mpr rfl)) .self, hvalues⟩
  | named found' named =>
      cases found.symm.trans found'
      exact absurd named unnamed

/-- A node has references to what the reading of its descriptor goes on to. -/
theorem Depicts.part {other : DescriptorKey} {node : Node}
    (h : catalog.Depicts root descriptor node) (mem : other ∈ catalog.parts descriptor) :
    ∃ child ∈ node.children, catalog.Refers root other child := by
  cases h with
  | enumeration kind =>
      rw [parts, kind] at mem
      cases mem
  | object kind hproperties =>
      have helements : catalog.parts descriptor = descriptor.elements.map (·.descriptor) := by
        rcases kind with kind | kind <;> rw [parts, kind]
      rw [helements, List.mem_map] at mem
      rcases mem with ⟨element, helement, rfl⟩
      rcases Attempt.exists_of_mem_right hproperties.flip helement with ⟨property, hproperty, href⟩
      exact ⟨property.type, List.mem_map_of_mem hproperty, href.2.2⟩
  | @polymorphic keys subtypes _ _ kind held hsubtypes =>
      have hkey : other ∈ keys := by
        simpa [parts, kind, held] using mem
      rcases Attempt.exists_of_mem_right hsubtypes.flip hkey with ⟨subtype, hsubtype, href⟩
      refine ⟨.named subtype.2 false, ?_, href⟩
      rw [NodeOf.children, List.map_map]
      exact List.mem_map_of_mem hsubtype
  | empty alone =>
      rw [alone] at mem
      cases mem

/-- A node carries the serial name of its descriptor. -/
theorem Depicts.name?_eq {node : Node} (h : catalog.Depicts root descriptor node) :
    node.name? = some descriptor.serialName := by
  cases h <;> rfl

end Catalog

namespace DescriptorIntrospection

/-- Every reference that a session keeps refers to its descriptor, and every node that it
built shows a descriptor with the identifier of the node. -/
structure Shows (catalog : Catalog) (root : DescriptorKey) (session : Session DescriptorKey Unit) :
    Prop where
  refs : ∀ entry ∈ session.refs, catalog.Refers root entry.1 entry.2
  nodes : ∀ id node, (id, some node) ∈ session.slots →
    ∃ entry, catalog.HasNode root entry ∧ catalog.typeId root entry = id ∧
      catalog.Depicts root entry.2 node

/-- A step that succeeds with a certain result keeps what sessions show. -/
def Keeps {α : Type} (catalog : Catalog) (root : DescriptorKey) (step : Step α)
    (success : α → Prop) : Prop :=
  ∀ session, Shows catalog root session →
    step.Meets session (fun result after => Shows catalog root after ∧ success result)
      fun _ _ => True

/-- What is read of a descriptor refers to it. -/
def IsFaithful (catalog : Catalog) (root : DescriptorKey) (below : Below) : Prop :=
  ∀ key nullable, catalog.Reads root key →
    Keeps catalog root (below key nullable) (catalog.Refers root key)

variable {α β : Type} {c : DescriptorIntrospection} {root key : DescriptorKey} {below : Below}
variable {catalog : Catalog} {descriptor : Descriptor}

/-! ## Steps -/

theorem keeps_pure {result : α} {success : α → Prop} (h : success result) :
    Keeps catalog root (pure result) success :=
  fun _ hshows => ⟨hshows, h⟩

theorem keeps_fail (error : Error) (success : α → Prop) :
    Keeps catalog root (Attempt.fail error) success :=
  fun _ _ => trivial

/-- A step after another may rely on the result that the first one keeps. -/
theorem Keeps.bind {first : Step α} {next : α → Step β} {between : α → Prop} {success : β → Prop}
    (h : Keeps catalog root first between)
    (hnext : ∀ result, between result → Keeps catalog root (next result) success) :
    Keeps catalog root (first >>= next) success :=
  fun session hshows => (h session hshows).bind fun result after hafter =>
    hnext result hafter.2 after hafter.1

theorem keeps_describe (annotations : List Annotation) :
    Keeps catalog root (c.describe annotations) fun _ => True :=
  fun _ hshows => Attempt.meets_ofExcept.mpr ⟨fun _ _ => ⟨hshows, trivial⟩, fun _ _ => trivial⟩

theorem keeps_report (line : String) : Keeps catalog root (Session.report line) fun _ => True :=
  fun _ hshows => ⟨⟨hshows.refs, hshows.nodes⟩, trivial⟩

/-- The element at an index is the one there. -/
theorem keeps_elementAt (index : Nat) :
    Keeps catalog root (elementAt descriptor index)
      (descriptor.elements[index]? = some ·) := by
  rw [elementAt]
  split
  · exact keeps_pure ‹_›
  · exact keeps_fail _ _

/-- The reference to a descriptor can be remembered. -/
theorem keeps_remembering {ref : TypeRef} (h : catalog.Refers root key ref) :
    Keeps catalog root (Session.remembering key ref) (catalog.Refers root key) := by
  intro session hshows
  refine ⟨⟨?_, hshows.nodes⟩, h⟩
  intro entry mem
  rcases Table.mem_put mem with hnew | hold
  · rw [hnew]
    exact h.withNullable false
  · exact hshows.refs entry hold

/-- Steps over a list relate each item to its result. -/
theorem Keeps.mapEach {items : List α} {step : α → Step β} {related : α → β → Prop}
    (h : ∀ item ∈ items, Keeps catalog root (step item) (related item)) :
    Keeps catalog root (Attempt.mapEach items step) (List.Forall₂ related items) :=
  fun _ hshows => Attempt.Meets.mapEach (fun item mem => h item mem) hshows

/-! ## Nodes -/

/-- A builder gives a node that shows the descriptor. -/
def Draws (catalog : Catalog) (root : DescriptorKey) (descriptor : Descriptor)
    (builder : Step (Option Node)) : Prop :=
  Keeps catalog root builder fun built =>
    ∃ node, built = some node ∧ catalog.Depicts root descriptor node

/-- The builder for an enumeration draws it. -/
theorem draws_enumNode (kind : descriptor.kind = .enumeration) :
    Draws catalog root descriptor (c.enumNode descriptor) := by
  rw [enumNode]
  exact (keeps_describe _).bind fun description _ => keeps_pure ⟨_, rfl, .enumeration kind⟩

/-- The empty object draws a descriptor without parts. -/
theorem draws_emptyNode (alone : catalog.parts descriptor = []) :
    Draws catalog root descriptor (c.emptyNode descriptor) := by
  rw [emptyNode]
  exact (keeps_describe _).bind fun description _ => keeps_pure ⟨_, rfl, .empty alone⟩

/-- The property of an element shows its name, its default and its reference. -/
theorem keeps_property (hbelow : IsFaithful catalog root below) {element : Element}
    (read : catalog.Reads root element.descriptor) :
    Keeps catalog root (c.property below element) fun property =>
      property.name = .str element.name ∧ property.hasDefault = element.isOptional ∧
        catalog.Refers root element.descriptor property.type := by
  rw [property]
  refine (hbelow _ _ read).bind fun type htype => ?_
  exact (keeps_describe _).bind fun description _ => keeps_pure ⟨rfl, rfl, htype⟩

/-- The builder for records and singletons draws them. -/
theorem draws_objectNode (hbelow : IsFaithful catalog root below)
    (kind : descriptor.kind = .record ∨ descriptor.kind = .singleton)
    (reads : ∀ other ∈ catalog.parts descriptor, catalog.Reads root other) :
    Draws catalog root descriptor (c.objectNode below descriptor) := by
  have hparts : catalog.parts descriptor = descriptor.elements.map (·.descriptor) := by
    rcases kind with kind | kind <;> rw [Catalog.parts, kind]
  have hread : ∀ element ∈ descriptor.elements, catalog.Reads root element.descriptor :=
    fun element mem => reads _ (hparts ▸ List.mem_map_of_mem mem)
  rw [objectNode]
  refine (Keeps.mapEach fun element mem => keeps_property hbelow (hread element mem)).bind
    fun properties hproperties => ?_
  exact (keeps_describe _).bind fun description _ => keeps_pure ⟨_, rfl, .object kind hproperties⟩

/-- The identifier handed out for a subtype refers to its descriptor. -/
theorem keeps_subtype (hbelow : IsFaithful catalog root below) (read : catalog.Reads root key) :
    Keeps catalog root (c.subtype below key)
      fun subtype => catalog.Refers root key (.named subtype.2 false) := by
  rw [subtype]
  refine (hbelow key false read).bind fun ref href => ?_
  split
  · rename_i id descriptor named found
    cases ref with
    | inline node nullable => cases named
    | named other nullable =>
        cases named
        exact keeps_pure (href.withNullable false)
  · exact keeps_fail _ _

/-- The builder for a sealed descriptor draws it. -/
theorem draws_polymorphicNode (hbelow : IsFaithful c.catalog root below)
    (kind : descriptor.kind = .sealed)
    (reads : ∀ other ∈ c.catalog.parts descriptor, c.catalog.Reads root other) :
    Draws c.catalog root descriptor (c.polymorphicNode below descriptor) := by
  rw [polymorphicNode]
  split
  · exact keeps_fail _ _
  · rename_i keys held
    have hparts : c.catalog.parts descriptor = keys := by
      rw [Catalog.parts, kind, held]
      rfl
    refine (Keeps.mapEach fun key mem => keeps_subtype hbelow (reads key (hparts ▸ mem))).bind
      fun subtypes hsubtypes => ?_
    exact (keeps_describe _).bind fun description _ =>
      keeps_pure ⟨_, rfl, .polymorphic kind held hsubtypes⟩

/-! ## References -/

/-- A reserved slot shows nothing yet. -/
theorem Shows.reserve {session : Session DescriptorKey Unit} (h : Shows catalog root session)
    (id : TypeId) : Shows catalog root (session.reserve id) := by
  refine ⟨h.refs, fun other node mem => ?_⟩
  rcases Table.mem_put mem with hnew | hold
  · cases hnew
  · exact h.nodes other node hold

/-- A slot is filled with what its builder draws. -/
theorem keeps_register {builder : Step (Option Node)} {entry : Catalog.Entry}
    (node : catalog.HasNode root entry) (h : Draws catalog root entry.2 builder) :
    Keeps catalog root (Session.register (catalog.typeId root entry) builder) fun _ => True := by
  intro session hshows
  refine Session.meets_register (fun _ => ⟨hshows, trivial⟩) fun _ => ?_
  refine (h _ (hshows.reserve (catalog.typeId root entry))).imp ?_
  rintro _ after ⟨hafter, drawn, rfl, hdepicts⟩
  refine ⟨⟨hafter.refs, fun id other mem => ?_⟩, trivial⟩
  rcases Table.mem_put mem with hnew | hold
  · cases hnew
    exact ⟨entry, node, rfl, hdepicts⟩
  · exact hafter.nodes id other hold

/-- A named reference to a descriptor refers to it when its builder draws it. -/
theorem keeps_refer {builder : Step (Option Node)} {entry : Catalog.Entry}
    (node : catalog.HasNode root entry) (h : Draws catalog root entry.2 builder) (nullable : Bool) :
    Keeps catalog root (Session.refer entry.1 (catalog.typeId root entry) nullable builder)
      (catalog.Refers root entry.1) := by
  rw [Session.refer, Attempt.bind_eq]
  exact (keeps_register node h).bind fun _ _ =>
    keeps_remembering (.named node.found node.named)

/-- The cases are the kinds of descriptors: scalars, containers and named nodes. -/
theorem keeps_fresh (hbelow : IsFaithful c.catalog root below)
    (ids : c.subtypeIds = c.catalog.subtypeIds root) (read : c.catalog.Reads root key)
    (found : Table.find? c.catalog key = some descriptor) (nullable : Bool) :
    Keeps c.catalog root (c.fresh below key descriptor nullable) (c.catalog.Refers root key) := by
  have hopen : ∀ other ∈ c.catalog.parts descriptor, c.catalog.Reads root other :=
    fun other mem => read.part found mem
  have hid : c.typeId key descriptor = c.catalog.typeId root (key, descriptor) := by
    rw [typeId, ids, Catalog.typeId]
  have hrefer : ∀ builder, descriptor.IsNamed → Draws c.catalog root descriptor builder →
      Keeps c.catalog root (Session.refer key (c.typeId key descriptor) nullable builder)
        (c.catalog.Refers root key) := by
    intro builder named h
    have hnode : c.catalog.HasNode root (key, descriptor) := ⟨read, found, named⟩
    rw [hid]
    exact keeps_refer hnode h nullable
  rw [fresh]
  split
  · exact keeps_remembering (.primitive found ‹_›)
  · rename_i scalar
    have hnamed : descriptor.kind ≠ .list → descriptor.kind ≠ .map → descriptor.IsNamed :=
      fun list map => ⟨scalar, list, map⟩
    split
    · rename_i kind
      exact hrefer _ (hnamed (by simp [kind]) (by simp [kind])) (draws_enumNode kind)
    · rename_i kind
      exact hrefer _ (hnamed (by simp [kind]) (by simp [kind]))
        (draws_objectNode hbelow (Or.inl kind) hopen)
    · rename_i kind
      exact hrefer _ (hnamed (by simp [kind]) (by simp [kind]))
        (draws_objectNode hbelow (Or.inr kind) hopen)
    · rename_i kind
      have hread : ∀ {element : Element}, descriptor.elements[0]? = some element →
          c.catalog.Reads root element.descriptor := by
        intro element helement
        refine hopen _ ?_
        rw [Catalog.parts, kind]
        exact mem_firstKeys helement Nat.zero_lt_one
      refine (keeps_elementAt 0).bind fun element helement => ?_
      refine (hbelow _ _ (hread helement)).bind fun ref href => ?_
      exact keeps_remembering (.list found kind helement href)
    · rename_i kind
      have hread : ∀ {index : Nat} {element : Element}, descriptor.elements[index]? = some element →
          index < 2 → c.catalog.Reads root element.descriptor := by
        intro index element helement less
        refine hopen _ ?_
        rw [Catalog.parts, kind]
        exact mem_firstKeys helement less
      refine (keeps_elementAt 0).bind fun first hfirst => ?_
      refine (keeps_elementAt 1).bind fun second hsecond => ?_
      refine (hbelow _ _ (hread hfirst Nat.zero_lt_two)).bind fun keys hkeys => ?_
      refine (hbelow _ _ (hread hsecond Nat.one_lt_two)).bind fun values hvalues => ?_
      exact keeps_remembering (.map found kind hfirst hsecond hkeys hvalues)
    · rename_i kind
      exact hrefer _ (hnamed (by simp [kind]) (by simp [kind]))
        (draws_polymorphicNode hbelow kind hopen)
    · rename_i enumeration record singleton list map sealed
      refine (keeps_report _).bind fun _ _ => hrefer _ (hnamed list map) (draws_emptyNode ?_)
      rw [Catalog.parts]
      split
      · exact absurd ‹_› record
      · exact absurd ‹_› singleton
      · exact absurd ‹_› list
      · exact absurd ‹_› map
      · exact absurd ‹_› sealed
      · rfl

/-- One layer reads references to descriptors when the layers below do. -/
theorem isFaithful_layer (hbelow : IsFaithful c.catalog root below)
    (ids : c.subtypeIds = c.catalog.subtypeIds root) : IsFaithful c.catalog root (c.layer below) := by
  intro key nullable read session hshows
  rw [layer, Attempt.meets_bind, Attempt.meets_get]
  split
  · rename_i ref cached
    rw [Session.cached?, Option.map_eq_some_iff] at cached
    rcases cached with ⟨kept, hkept, rfl⟩
    have href := hshows.refs _ (Table.mem_of_find? hkept)
    exact ⟨hshows, href.withNullable nullable⟩
  · split
    · rename_i descriptor found
      exact keeps_fresh hbelow ids read found nullable session hshows
    · trivial

/-- With any budget, what is read of a descriptor refers to it. -/
theorem isFaithful_reference (ids : c.subtypeIds = c.catalog.subtypeIds root) (budget : Nat) :
    IsFaithful c.catalog root (c.reference budget) := by
  induction budget with
  | zero => exact fun _ _ _ _ _ => trivial
  | succ budget ih => exact isFaithful_layer ih ids

end DescriptorIntrospection

/-- The root of a graph refers to the root descriptor, and every node shows a descriptor
that is read and has the identifier of the node. -/
theorem Catalog.depicts_introspect {catalog : Catalog} {settings : IntrospectionSettings}
    {root : DescriptorKey} {graph : TypeGraph}
    (h : (catalog.introspect settings root).graph = .ok graph) :
    catalog.Refers root root graph.root ∧
      ∀ id node, (id, node) ∈ graph.nodes → ∃ entry, catalog.HasNode root entry ∧
        catalog.typeId root entry = id ∧ catalog.Depicts root entry.2 node := by
  rw [introspect, Session.introspect_graph_eq_ok_iff] at h
  rcases h with ⟨ref, after, hrun, rfl⟩
  have hstart : DescriptorIntrospection.Shows catalog root { memory := () } := by
    constructor <;> simp
  let c : DescriptorIntrospection := ⟨catalog, settings, catalog.subtypeIds root⟩
  have hfaithful : DescriptorIntrospection.IsFaithful catalog root (c.reference c.budget) :=
    DescriptorIntrospection.isFaithful_reference (c := c) rfl c.budget
  rcases (hfaithful root false .root _ hstart).of_ok hrun with ⟨hshows, href⟩
  exact ⟨href, fun id node mem => hshows.nodes id node (Session.mem_nodes.mp mem)⟩

end Schemata
