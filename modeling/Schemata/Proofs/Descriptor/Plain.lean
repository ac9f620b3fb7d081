import Mathlib.Data.List.Forall2
import Schemata.Proofs.Descriptor.Depiction

/-!
# The plain reading of descriptors

What the graph of a root descriptor should be can be said without a session.  A reference is
read from the descriptor and the nullability of its use, and a node from the descriptor alone:
a descriptor in it is read anew, with the nullability of that use.  The table lists the
descriptors with nodes in the order in which a depth-first walk from the root first comes to
them.  Each of the three is determined by the catalog, so there is one such graph at most.

Main results:

- Definition {lit}`Catalog.PlainRef`, {lit}`Catalog.PlainNode`: references and nodes without
  a session.
- Definition {lit}`Catalog.Preorder`: the order of the table.
- Theorem {lit}`Catalog.IsPlainGraph.unique`: there is one plain graph at most.
-/

namespace Schemata

namespace Catalog

/-! ## References, nodes and their order -/

section Definitions

variable (catalog : Catalog) (root : DescriptorKey) (settings : IntrospectionSettings)

/-- The reference to a descriptor for a use with a certain nullability. -/
inductive PlainRef : DescriptorKey → Bool → TypeRef → Prop
  | primitive {key : DescriptorKey} {descriptor : Descriptor} {kind : PrimitiveKind}
      {nullable : Bool} (found : Table.find? catalog key = some descriptor)
      (scalar : descriptor.kind.primitive? = some kind) :
      PlainRef key nullable (.inline (.primitive kind none) nullable)
  | list {key : DescriptorKey} {descriptor : Descriptor} {element : Element} {ref : TypeRef}
      {nullable : Bool} (found : Table.find? catalog key = some descriptor)
      (kind : descriptor.kind = .list) (first : descriptor.elements[0]? = some element)
      (items : PlainRef element.descriptor element.nullable ref) :
      PlainRef key nullable (.inline (.list ref none) nullable)
  | map {key : DescriptorKey} {descriptor : Descriptor} {first second : Element}
      {keys values : TypeRef} {nullable : Bool}
      (found : Table.find? catalog key = some descriptor) (kind : descriptor.kind = .map)
      (hfirst : descriptor.elements[0]? = some first)
      (hsecond : descriptor.elements[1]? = some second)
      (hkeys : PlainRef first.descriptor first.nullable keys)
      (hvalues : PlainRef second.descriptor second.nullable values) :
      PlainRef key nullable (.inline (.map keys values none) nullable)
  | named {key : DescriptorKey} {descriptor : Descriptor} {nullable : Bool}
      (found : Table.find? catalog key = some descriptor) (named : descriptor.IsNamed) :
      PlainRef key nullable (.named (catalog.typeId root (key, descriptor)) nullable)

/-- The property of an element. -/
structure PlainProperty (element : Element) (property : Property TypeRef) : Prop where
  type : catalog.PlainRef root element.descriptor element.nullable property.type
  described : settings.describe element.annotations = .ok property.description
  written : property = {
    name := element.name
    type := property.type
    description := property.description
    hasDefault := element.isOptional }

/-- The serial name and the identifier of a subtype. -/
structure PlainSubtype (key : DescriptorKey) (subtype : String × TypeId) : Prop where
  name : (Table.find? catalog key).map (·.serialName) = some subtype.1
  ref : catalog.PlainRef root key false (.named subtype.2 false)

/-- The node of a descriptor. -/
inductive PlainNode (descriptor : Descriptor) : Node → Prop
  | enumeration {description : Option String} (kind : descriptor.kind = .enumeration)
      (described : settings.describe descriptor.annotations = .ok description) :
      PlainNode descriptor (.enumeration {
        name := descriptor.serialName
        entries := descriptor.elements.map (·.name)
        description })
  | object {properties : List (Property TypeRef)} {description : Option String}
      (kind : descriptor.kind = .record ∨ descriptor.kind = .singleton)
      (parts : List.Forall₂ (catalog.PlainProperty root settings) descriptor.elements properties)
      (described : settings.describe descriptor.annotations = .ok description) :
      PlainNode descriptor (.object {
        name := descriptor.serialName
        properties
        required := (descriptor.elements.filter (!·.isOptional)).map fun element => element.name
        description })
  | polymorphic {keys : List DescriptorKey} {subtypes : List (String × TypeId)}
      {description : Option String} (kind : descriptor.kind = .sealed)
      (held : catalog.subtypes? descriptor = some keys)
      (parts : List.Forall₂ (catalog.PlainSubtype root) keys subtypes)
      (described : settings.describe descriptor.annotations = .ok description) :
      PlainNode descriptor (.polymorphic {
        base := descriptor.serialName
        variants := subtypes.map fun subtype => ⟨subtype.2, .named subtype.2 false⟩
        discriminator := some (settings.discriminator (Table.ofEntries subtypes))
        description })
  | empty {description : Option String}
      (kind : descriptor.kind = .unbounded ∨ descriptor.kind = .contextual)
      (described : settings.describe descriptor.annotations = .ok description) :
      PlainNode descriptor (.object { name := descriptor.serialName, description })

/-- From some keys on, a depth-first walk adds descriptors with nodes to those that it has
come to, each when it first comes to it and before what it goes on to. -/
inductive Preorder : List DescriptorKey → List Entry → List Entry → Prop
  | done {seen : List Entry} : Preorder [] seen seen
  | again {key : DescriptorKey} {descriptor : Descriptor} {rest : List DescriptorKey}
      {seen after : List Entry} (found : Table.find? catalog key = some descriptor)
      (named : descriptor.IsNamed) (known : (key, descriptor) ∈ seen)
      (tail : Preorder rest seen after) : Preorder (key :: rest) seen after
  | first {key : DescriptorKey} {descriptor : Descriptor} {rest : List DescriptorKey}
      {seen middle after : List Entry} (found : Table.find? catalog key = some descriptor)
      (named : descriptor.IsNamed) (new : (key, descriptor) ∉ seen)
      (inside : Preorder (catalog.parts descriptor) (seen ++ [(key, descriptor)]) middle)
      (tail : Preorder rest middle after) : Preorder (key :: rest) seen after
  | through {key : DescriptorKey} {descriptor : Descriptor} {rest : List DescriptorKey}
      {seen middle after : List Entry} (found : Table.find? catalog key = some descriptor)
      (unnamed : ¬ descriptor.IsNamed)
      (inside : Preorder (catalog.parts descriptor) seen middle)
      (tail : Preorder rest middle after) : Preorder (key :: rest) seen after

/-- The graph of a root descriptor without a session: its root is the reference to it, and its
table has the nodes of descriptors in the order in which a depth-first walk first comes to
them. -/
structure IsPlainGraph (graph : TypeGraph) : Prop where
  ref : catalog.PlainRef root root false graph.root
  nodes : ∃ order, catalog.Preorder [root] [] order ∧
    List.Forall₂ (fun entry slot => slot.1 = catalog.typeId root entry ∧
      catalog.PlainNode root settings entry.2 slot.2) order graph.nodes

end Definitions

variable {catalog : Catalog} {root key : DescriptorKey} {settings : IntrospectionSettings}
variable {descriptor : Descriptor} {nullable : Bool} {ref : TypeRef}

/-! ## One plain reading -/

/-- A reference for another use differs in its nullability only. -/
theorem PlainRef.withNullable (h : catalog.PlainRef root key nullable ref) (other : Bool) :
    catalog.PlainRef root key other (ref.withNullable other) := by
  cases h with
  | primitive found scalar => exact .primitive found scalar
  | list found kind first items => exact .list found kind first items
  | map found kind hfirst hsecond hkeys hvalues =>
      exact .map found kind hfirst hsecond hkeys hvalues
  | named found named => exact .named found named

/-- A scalar does not become a node of the table. -/
theorem not_isNamed_of_primitive {kind : PrimitiveKind}
    (scalar : descriptor.kind.primitive? = some kind) : ¬ descriptor.IsNamed := by
  rintro ⟨none, -⟩
  rw [scalar] at none
  cases none

theorem not_isNamed_of_list (kind : descriptor.kind = .list) : ¬ descriptor.IsNamed :=
  fun named => named.2.1 kind

theorem not_isNamed_of_map (kind : descriptor.kind = .map) : ¬ descriptor.IsNamed :=
  fun named => named.2.2 kind

/-- There is one reference for each use of a descriptor. -/
theorem PlainRef.unique {other : TypeRef} (h : catalog.PlainRef root key nullable ref)
    (h' : catalog.PlainRef root key nullable other) : ref = other := by
  induction h generalizing other with
  | primitive found scalar =>
      cases h' with
      | primitive found' scalar' =>
          cases found.symm.trans found'
          cases scalar.symm.trans scalar'
          rfl
      | list found' kind | map found' kind =>
          cases found.symm.trans found'
          rw [kind] at scalar
          cases scalar
      | named found' named =>
          cases found.symm.trans found'
          exact absurd named (not_isNamed_of_primitive scalar)
  | list found kind first items ih =>
      cases h' with
      | primitive found' scalar =>
          cases found.symm.trans found'
          rw [kind] at scalar
          cases scalar
      | list found' kind' first' items' =>
          cases found.symm.trans found'
          cases first.symm.trans first'
          rw [ih items']
      | map found' kind' =>
          cases found.symm.trans found'
          cases kind.symm.trans kind'
      | named found' named =>
          cases found.symm.trans found'
          exact absurd named (not_isNamed_of_list kind)
  | map found kind hfirst hsecond hkeys hvalues ihkeys ihvalues =>
      cases h' with
      | primitive found' scalar =>
          cases found.symm.trans found'
          rw [kind] at scalar
          cases scalar
      | list found' kind' =>
          cases found.symm.trans found'
          cases kind.symm.trans kind'
      | map found' kind' hfirst' hsecond' hkeys' hvalues' =>
          cases found.symm.trans found'
          cases hfirst.symm.trans hfirst'
          cases hsecond.symm.trans hsecond'
          rw [ihkeys hkeys', ihvalues hvalues']
      | named found' named =>
          cases found.symm.trans found'
          exact absurd named (not_isNamed_of_map kind)
  | named found named =>
      cases h' with
      | primitive found' scalar =>
          cases found.symm.trans found'
          exact absurd named (not_isNamed_of_primitive scalar)
      | list found' kind =>
          cases found.symm.trans found'
          exact absurd named (not_isNamed_of_list kind)
      | map found' kind =>
          cases found.symm.trans found'
          exact absurd named (not_isNamed_of_map kind)
      | named found' =>
          cases found.symm.trans found'
          rfl

/-- An element has one plain property at most. -/
theorem plainProperty_rightUnique : Relator.RightUnique (catalog.PlainProperty root settings) := by
  intro element property other h h'
  have htype := h.type.unique h'.type
  have hdescription : property.description = other.description :=
    Except.ok.inj (h.described.symm.trans h'.described)
  calc property
      = { name := element.name, type := property.type, description := property.description,
          hasDefault := element.isOptional } := h.written
    _ = { name := element.name, type := other.type, description := other.description,
          hasDefault := element.isOptional } := by rw [htype, hdescription]
    _ = other := h'.written.symm

/-- A key has one plain subtype at most. -/
theorem plainSubtype_rightUnique : Relator.RightUnique (catalog.PlainSubtype root) := by
  intro key subtype other h h'
  have hname : subtype.1 = other.1 := Option.some.inj (h.name.symm.trans h'.name)
  have hid : subtype.2 = other.2 := (TypeRef.named.inj (h.ref.unique h'.ref)).1
  exact Prod.ext hname hid

/-- A descriptor has one node. -/
theorem PlainNode.unique {node other : Node} (h : catalog.PlainNode root settings descriptor node)
    (h' : catalog.PlainNode root settings descriptor other) : node = other := by
  cases h with
  | enumeration kind described =>
      cases h' with
      | enumeration _ described' =>
          cases described.symm.trans described'
          rfl
      | object kind' | polymorphic kind' | empty kind' => simp [kind] at kind'
  | object kind parts described =>
      cases h' with
      | object _ parts' described' =>
          cases described.symm.trans described'
          rw [plainProperty_rightUnique.forall₂ parts parts']
      | enumeration kind' | polymorphic kind' | empty kind' =>
          rcases kind with kind | kind <;> simp [kind] at kind'
  | polymorphic kind held parts described =>
      cases h' with
      | polymorphic _ held' parts' described' =>
          cases described.symm.trans described'
          cases held.symm.trans held'
          rw [plainSubtype_rightUnique.forall₂ parts parts']
      | enumeration kind' | object kind' | empty kind' => simp [kind] at kind'
  | empty kind described =>
      cases h' with
      | empty _ described' =>
          cases described.symm.trans described'
          rfl
      | enumeration kind' | object kind' | polymorphic kind' =>
          rcases kind with kind | kind <;> simp [kind] at kind'

/-- A walk from given keys adds the same descriptors whenever it is made. -/
theorem Preorder.unique {keys : List DescriptorKey} {seen after other : List Entry}
    (h : catalog.Preorder keys seen after) (h' : catalog.Preorder keys seen other) :
    after = other := by
  induction h generalizing other with
  | done =>
      cases h'
      rfl
  | again found named known tail ih =>
      cases h' with
      | again _ _ _ tail' => exact ih tail'
      | first found' _ new =>
          cases found.symm.trans found'
          exact absurd known new
      | through found' unnamed =>
          cases found.symm.trans found'
          exact absurd named unnamed
  | first found named new inside tail ihinside ihtail =>
      cases h' with
      | again found' _ known =>
          cases found.symm.trans found'
          exact absurd known new
      | first found' _ _ inside' tail' =>
          cases found.symm.trans found'
          cases ihinside inside'
          exact ihtail tail'
      | through found' unnamed =>
          cases found.symm.trans found'
          exact absurd named unnamed
  | through found unnamed inside tail ihinside ihtail =>
      cases h' with
      | again found' named | first found' named =>
          cases found.symm.trans found'
          exact absurd named unnamed
      | through found' _ inside' tail' =>
          cases found.symm.trans found'
          cases ihinside inside'
          exact ihtail tail'

/-- There is one plain graph at most. -/
theorem IsPlainGraph.unique {graph other : TypeGraph}
    (h : catalog.IsPlainGraph root settings graph)
    (h' : catalog.IsPlainGraph root settings other) : graph = other := by
  rcases h with ⟨href, order, horder, hnodes⟩
  rcases h' with ⟨href', order', horder', hnodes'⟩
  cases horder.unique horder'
  have hunique : Relator.RightUnique fun (entry : Entry) (slot : TypeId × Node) =>
      slot.1 = catalog.typeId root entry ∧ catalog.PlainNode root settings entry.2 slot.2 :=
    fun entry slot slot' hslot hslot' =>
      Prod.ext (hslot.1.trans hslot'.1.symm) (hslot.2.unique hslot'.2)
  have hroot := href.unique href'
  have htable := hunique.forall₂ hnodes hnodes'
  cases graph
  cases other
  cases hroot
  cases htable
  rfl

end Catalog

end Schemata
