import Mathlib.Data.List.Forall2
import Schemata.Proofs.Graph.Reachability
import Schemata.Proofs.Graph.Validity

/-!
# Graphs under other identifiers

The identifiers of a graph are names and mean nothing else: a graph may be written down under
other ones.  More generally a graph may resemble another one as far as references lead from the
root.  There it has the same kinds of nodes under changed identifiers, while the keys of maps,
the references beside the identifiers of subtypes, the order of the table and everything out of
reach are its own.

Main results:

- Definition {lit}`TypeGraph.rename`: a graph with every identifier in it changed.
- Definition {lit}`TypeGraph.Corresponds`: a graph resembles another one within reach.
- Theorem {lit}`TypeGraph.corresponds_rename`: a renamed graph resembles the graph when the
  change keeps identifiers apart.
- Theorem {lit}`TypeGraph.Agrees.of_eq`: so does a graph with the same root and, within reach,
  the same nodes, under the identifiers as they are.
-/

namespace Schemata

/-! ## Changing identifiers -/

/-- A discriminator that leads to changed identifiers. -/
def Discriminator.rename (change : TypeId → TypeId) (discriminator : Discriminator) :
    Discriminator :=
  { discriminator with
    mapping := discriminator.mapping.map fun mapping =>
      mapping.map fun entry => (entry.1, change entry.2) }

theorem Discriminator.rename_id (discriminator : Discriminator) :
    discriminator.rename id = discriminator := by
  simp [rename]

namespace TypeRef

variable (change : TypeId → TypeId)

mutual

/-- A reference with every identifier in it changed. -/
def rename : TypeRef → TypeRef
  | .inline node nullable => .inline (renameNode node) nullable
  | .named id nullable => .named (change id) nullable

/-- A node with every identifier in it changed. -/
def renameNode : NodeOf TypeRef → NodeOf TypeRef
  | .primitive kind description => .primitive kind description
  | .list element description => .list (rename element) description
  | .map key value description => .map (rename key) (rename value) description
  | .object ⟨name, properties, required, description⟩ =>
    .object ⟨name, renameProperties properties, required, description⟩
  | .enumeration type => .enumeration type
  | .polymorphic ⟨base, variants, discriminator, description⟩ =>
    .polymorphic
      ⟨base, renameVariants variants, discriminator.map (·.rename change), description⟩
  | .other typeName => .other typeName

/-- Properties with every identifier in them changed. -/
def renameProperties : List (Property TypeRef) → List (Property TypeRef)
  | [] => []
  | ⟨name, type, description, hasDefault, default⟩ :: rest =>
    ⟨name, rename type, description, hasDefault, default⟩ :: renameProperties rest

/-- Subtypes with every identifier in them changed. -/
def renameVariants : List (Variant TypeRef) → List (Variant TypeRef)
  | [] => []
  | ⟨id, ref⟩ :: rest => ⟨change id, rename ref⟩ :: renameVariants rest

end

end TypeRef

/-- A graph with every identifier in it changed. -/
def TypeGraph.rename (change : TypeId → TypeId) (graph : TypeGraph) : TypeGraph where
  root := graph.root.rename change
  nodes := graph.nodes.map fun entry => (change entry.1, TypeRef.renameNode change entry.2)

/-! ## Resemblance -/

/-- Two properties that differ in their types only, which are related. -/
inductive Property.Resembles {ρ : Type} (related : ρ → ρ → Prop) : Property ρ → Property ρ → Prop
  | retype {name : PropertyName} {type type' : ρ} {description : Option String} {hasDefault : Bool}
      {default : Json} (same : related type type') :
      Resembles related { name, type, description, hasDefault, default }
        { name, type := type', description, hasDefault, default }

/-- Two nodes of one kind whose references are related, with changed identifiers of subtypes.
Nothing is said about the keys of maps and about the references to subtypes. -/
inductive NodeOf.Resembles {ρ : Type} (change : TypeId → TypeId) (related : ρ → ρ → Prop) :
    NodeOf ρ → NodeOf ρ → Prop
  | primitive {kind : PrimitiveKind} {description : Option String} :
      Resembles change related (.primitive kind description) (.primitive kind description)
  | list {element element' : ρ} {description : Option String} (same : related element element') :
      Resembles change related (.list element description) (.list element' description)
  | map {key key' value value' : ρ} {description : Option String} (same : related value value') :
      Resembles change related (.map key value description) (.map key' value' description)
  | object {type : ObjectType ρ} {properties : List (Property ρ)}
      (same : List.Forall₂ (Property.Resembles related) type.properties properties) :
      Resembles change related (.object type) (.object { type with properties })
  | enumeration {type : EnumType} :
      Resembles change related (.enumeration type) (.enumeration type)
  | polymorphic {type : PolymorphicType ρ} {variants : List (Variant ρ)}
      (same : variants.map (·.id) = type.variants.map fun variant => change variant.id) :
      Resembles change related (.polymorphic type)
        (.polymorphic { type with
          variants, discriminator := type.discriminator.map (·.rename change) })
  | other {typeName : String} : Resembles change related (.other typeName) (.other typeName)

/-- Two references to nodes that resemble one another, or to changed identifiers. -/
inductive TypeRef.Resembles (change : TypeId → TypeId) : TypeRef → TypeRef → Prop
  | inline {node node' : NodeOf TypeRef} {nullable : Bool}
      (same : NodeOf.Resembles change (Resembles change) node node') :
      Resembles change (.inline node nullable) (.inline node' nullable)
  | named {id : TypeId} {nullable : Bool} :
      Resembles change (.named id nullable) (.named (change id) nullable)

/-- A node that resembles another one, with the references in it. -/
abbrev Node.Resembles (change : TypeId → TypeId) (node node' : Node) : Prop :=
  NodeOf.Resembles change (TypeRef.Resembles change) node node'

variable {change : TypeId → TypeId}

namespace TypeRef.Resembles

variable {ref ref' : TypeRef}

theorem nullable_eq (h : ref.Resembles change ref') : ref'.nullable = ref.nullable := by
  cases h <;> rfl

theorem id?_eq (h : ref.Resembles change ref') : ref'.id? = ref.id?.map change := by
  cases h <;> rfl

end TypeRef.Resembles

namespace NodeOf.Resembles

variable {ρ : Type} {related : ρ → ρ → Prop} {node node' : NodeOf ρ}

theorem typeName_eq (h : node.Resembles change related node') : node'.typeName = node.typeName := by
  cases h <;> rfl

theorem needsName_eq (h : node.Resembles change related node') :
    node'.needsName = node.needsName := by
  cases h <;> rfl

end NodeOf.Resembles

/-! ## Renamed graphs -/

namespace TypeRef

theorem renameProperties_eq_map (properties : List (Property TypeRef)) :
    renameProperties change properties =
      properties.map fun property => { property with type := property.type.rename change } := by
  induction properties with
  | nil => rfl
  | cons property rest ih => rw [renameProperties, ih, List.map_cons]

theorem renameVariants_eq_map (variants : List (Variant TypeRef)) :
    renameVariants change variants =
      variants.map fun variant => ⟨change variant.id, variant.ref.rename change⟩ := by
  induction variants with
  | nil => rfl
  | cons variant rest ih => rw [renameVariants, ih, List.map_cons]

/-- A node resembles a renamed one when the references in it do. -/
theorem resembles_renameNode {node : Node}
    (each : ∀ child ∈ node.children, child.Resembles change (child.rename change)) :
    node.Resembles change (renameNode change node) := by
  cases node with
  | primitive => exact .primitive
  | list element => exact .list (each _ (List.mem_singleton.mpr rfl))
  | map key value => exact .map (each _ (List.mem_cons_of_mem _ (List.mem_singleton.mpr rfl)))
  | object type =>
      have hproperties : List.Forall₂ (Property.Resembles (TypeRef.Resembles change))
          type.properties (renameProperties change type.properties) := by
        rw [renameProperties_eq_map, List.forall₂_map_right_iff, List.forall₂_same]
        exact fun property hproperty => .retype (each _ (List.mem_map_of_mem hproperty))
      exact .object hproperties
  | enumeration => exact .enumeration
  | polymorphic type =>
      have hvariants : (renameVariants change type.variants).map (·.id) =
          type.variants.map fun variant => change variant.id := by
        rw [renameVariants_eq_map, List.map_map]
        rfl
      exact .polymorphic hvariants
  | other => exact .other

/-- A reference resembles what it is renamed to. -/
theorem resembles_rename (ref : TypeRef) : ref.Resembles change (ref.rename change) := by
  induction ref using children_induction with
  | named id nullable => exact .named
  | inline node nullable ih => exact .inline (resembles_renameNode ih)

/-- The nodes of a graph resemble the renamed ones. -/
theorem resembles_renamed (node : Node) : node.Resembles change (renameNode change node) :=
  resembles_renameNode fun child _ => resembles_rename child

/-- A node is renamed to itself when no identifier is changed. -/
theorem renameNode_id {node : Node} (each : ∀ child ∈ node.children, child.rename id = child) :
    renameNode id node = node := by
  cases node with
  | primitive | enumeration | other => rfl
  | list element => rw [renameNode, each _ (List.mem_singleton.mpr rfl)]
  | map key value =>
      rw [renameNode, each _ (List.mem_cons_self ..),
        each _ (List.mem_cons_of_mem _ (List.mem_singleton.mpr rfl))]
  | object type =>
      have hproperties : renameProperties id type.properties = type.properties := by
        rw [renameProperties_eq_map]
        refine (List.map_congr_left fun property hproperty => ?_).trans (List.map_id _)
        rw [each _ (List.mem_map_of_mem hproperty), id]
      exact congrArg (fun properties => NodeOf.object { type with properties }) hproperties
  | polymorphic type =>
      have hvariants : renameVariants id type.variants = type.variants := by
        rw [renameVariants_eq_map]
        refine (List.map_congr_left fun variant hvariant => ?_).trans (List.map_id _)
        rw [each _ (List.mem_map_of_mem hvariant), id, id]
      have hdiscriminator : type.discriminator.map (·.rename id) = type.discriminator := by
        cases type.discriminator with
        | none => rfl
        | some discriminator => rw [Option.map_some, discriminator.rename_id]
      exact congrArg₂ (fun variants discriminator =>
        NodeOf.polymorphic { type with variants, discriminator }) hvariants hdiscriminator

/-- A reference is renamed to itself when no identifier is changed. -/
theorem rename_id (ref : TypeRef) : ref.rename id = ref := by
  induction ref using children_induction with
  | named id nullable => rfl
  | inline node nullable ih => rw [rename, renameNode_id ih]

end TypeRef

namespace TypeGraph

variable {graph other : TypeGraph}

/-- Another graph resembles a graph as far as references lead from the root: the roots do, and
for every reachable identifier either both have nodes that do, or neither has a node. -/
structure Corresponds (change : TypeId → TypeId) (graph other : TypeGraph) : Prop where
  root : graph.root.Resembles change other.root
  nodes : ∀ id, graph.Reaches id → Option.Rel (Node.Resembles change) (graph.nodes.find? id)
    (other.nodes.find? (change id))

/-- A graph resembles the renamed one when the change keeps identifiers apart. -/
theorem corresponds_rename (injective : change.Injective) (graph : TypeGraph) :
    graph.Corresponds change (graph.rename change) where
  root := graph.root.resembles_rename
  nodes := by
    intro id _
    rw [rename, Table.find?_mapEntries fun _ _ => injective.beq_eq]
    cases graph.nodes.find? id with
    | none => exact .none
    | some node => exact .some (TypeRef.resembles_renamed node)

/-- Another graph has the same root and, under every reachable identifier, the same node or no
node either.  The keys of maps need not be the same. -/
def Agrees (graph other : TypeGraph) : Prop :=
  graph.Corresponds id other

/-- Graphs agree that have the same root and, as far as it leads, the same nodes. -/
theorem Agrees.of_eq (root : other.root = graph.root)
    (nodes : ∀ id, graph.Reaches id → other.nodes.find? id = graph.nodes.find? id) :
    graph.Agrees other where
  root := by
    have hroot : graph.root.Resembles id (graph.root.rename id) := graph.root.resembles_rename
    rwa [TypeRef.rename_id, ← congrArg (TypeRef.Resembles id graph.root) root] at hroot
  nodes := by
    intro known reached
    rw [id, nodes known reached]
    cases graph.nodes.find? known with
    | none => exact .none
    | some node =>
        have hnode : node.Resembles id (TypeRef.renameNode id node) :=
          TypeRef.resembles_renamed node
        rw [TypeRef.renameNode_id fun child _ => child.rename_id] at hnode
        exact .some hnode

end TypeGraph

end Schemata
