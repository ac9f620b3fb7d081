import Schemata.Proofs.Attempt
import Schemata.Proofs.Conversion.Run
import Schemata.Proofs.Graph.Reachability
import Schemata.Proofs.Graph.Validity

/-!
# Failures of a conversion

Validation walks over all references of a graph, a conversion only over those that it
meets.  On a valid graph, a conversion finds every node that it looks for and meets no
node that needs a name where it is used.  What is left is a list or map that contains
itself without end.

Main results:

- Theorem {lit}`failsOnly_reference`: with any budget, converting a reference that the
  graph admits fails only for want of an end.
- Theorem {lit}`failure_of_validate`: on a valid graph no conversion reports a dangling
  reference, and an illegal shape is that of the root of a tool schema.
-/

namespace Schemata

/-- The references that the conversion of a node goes on to: the keys of maps are left out, and
subtypes go by their identifiers. -/
def NodeOf.followed : Node → List TypeRef
  | .list element _ => [element]
  | .map _ value _ => [value]
  | .object type => type.properties.map (·.type)
  | .polymorphic type => type.variants.map fun variant => .named variant.id false
  | _ => []

namespace TypeGraph

variable (graph : TypeGraph)

/-- Every node that a graph holds is of a type that the conversions know. -/
structure HasKnownNodes : Prop where
  table : ∀ id name, (id, .other name) ∉ graph.nodes
  inline : ∀ owner name nullable, ¬ graph.Holds owner (.inline (.other name) nullable)

/-- Every reference to a subtype goes by the identifier of the subtype. -/
def RefersToVariants : Prop :=
  ∀ id type, (id, .polymorphic type) ∈ graph.nodes →
    ∀ variant ∈ type.variants, variant.ref.id? = some variant.id

/-- A reference can be converted: all that it contains is legal and of a known type. -/
def Admits (ref : TypeRef) : Prop :=
  ∀ inner, ref.Contains inner →
    inner.IsLegal (· ∈ graph.nodes.keys) ∧ ∀ name nullable, inner ≠ .inline (.other name) nullable

/-- The references of the root and of all nodes of the table can be converted. -/
structure IsConvertible : Prop where
  root : graph.Admits graph.root
  children : ∀ id node, graph.nodes.find? id = some node → ∀ child ∈ node.children,
    graph.Admits child
  known : ∀ id name, graph.nodes.find? id ≠ some (.other name)
  variants : ∀ id type, graph.nodes.find? id = some (.polymorphic type) →
    ∀ variant ∈ type.variants, variant.id ∈ graph.nodes.keys

variable {graph}

/-- The children of an admitted inline node are admitted. -/
theorem Admits.child {node : Node} {nullable : Bool} (h : graph.Admits (.inline node nullable)) :
    ∀ child ∈ node.children, graph.Admits child :=
  fun _ mem inner inside => h inner (.child mem inside)

/-- An admitted reference to an identifier has its node in the graph. -/
theorem Admits.node {id : TypeId} {nullable : Bool} (h : graph.Admits (.named id nullable)) :
    ∃ node, graph.nodes.find? id = some node := by
  have hkey : id ∈ graph.nodes.keys := (h _ .self).1
  rw [← Table.has_iff_mem_keys] at hkey
  exact Option.isSome_iff_exists.mp hkey

/-- A reference by a known name can be converted. -/
theorem admits_named {id : TypeId} {nullable : Bool} (known : id ∈ graph.nodes.keys) :
    graph.Admits (.named id nullable) := by
  intro inner inside
  rw [TypeRef.contains_named] at inside
  subst inside
  exact ⟨known, by simp⟩

/-- In a valid graph of known nodes every reference can be converted. -/
theorem isConvertible_of_validate (known : graph.HasKnownNodes) (own : graph.RefersToVariants)
    (valid : graph.validate = .ok ()) : graph.IsConvertible := by
  have hlegal := validate_eq_ok_iff.mp valid
  have hadmits : ∀ owner ref, graph.Holds owner ref →
      ref.IsLegal (· ∈ graph.nodes.keys) ∧ ∀ name nullable, ref ≠ .inline (.other name) nullable := by
    intro owner ref hheld
    refine ⟨hlegal owner ref hheld, ?_⟩
    rintro name nullable rfl
    exact known.inline owner name nullable hheld
  have hchildren : ∀ id node, graph.nodes.find? id = some node → ∀ child ∈ node.children,
      graph.Admits child := fun id node found child mem inner inside =>
    hadmits (some id) inner (.entry (Table.mem_of_find? found) mem inside)
  refine ⟨fun inner inside => hadmits none inner (.root inside), hchildren, ?_, ?_⟩
  · intro id name found
    exact known.table id name (Table.mem_of_find? found)
  · intro id type found variant hvariant
    have hadmitted := hchildren id _ found variant.ref (List.mem_map_of_mem hvariant)
    have hnamed := own id type (Table.mem_of_find? found) variant hvariant
    rcases TypeRef.id?_eq_some_iff.mp hnamed with ⟨nullable, href⟩
    rw [href] at hadmitted
    exact (hadmitted _ .self).1

end TypeGraph

namespace Conversion

variable {c : Conversion} {below : ConvertRef} {owner : Option TypeId}

/-! ## Ways in which a conversion fails -/

section Steps

variable {failure : Error → Prop}

/-- Bracketing a step by an identifier in progress adds no failures. -/
theorem failsOnly_during {α : Type} {id : Option TypeId} {step : Convert α}
    (h : step.FailsOnly failure) : (during id step).FailsOnly failure := by
  rw [during, Attempt.bind_eq]
  exact (Attempt.failsOnly_modify _).bind fun _ => h.andThen _

/-- Converting properties fails only where converting one of their types does. -/
theorem failsOnly_properties {required : List PropertyName}
    {properties : List (Property TypeRef)} {known : Table PropertyName Definition}
    (h : ∀ property ∈ properties, (below property.type owner).FailsOnly failure) :
    (c.properties below required owner known properties).FailsOnly failure := by
  induction properties generalizing known with
  | nil => exact Attempt.failsOnly_pure _
  | cons first rest ih =>
      rw [List.forall_mem_cons] at h
      rw [Conversion.properties]
      exact (h.1.bind fun _ => Attempt.failsOnly_pure _).bind fun _ => ih h.2

/-- An object body fails only where one of its properties does. -/
theorem failsOnly_objectBody {type : ObjectType TypeRef} {id : Option TypeId}
    (h : ∀ property ∈ type.properties, (below property.type id).FailsOnly failure) :
    (c.objectBody below type id).FailsOnly failure := by
  rw [objectBody]
  have hproperties : (c.properties below (c.requiredNames type) id [] type.properties).FailsOnly
      failure := failsOnly_properties h
  exact (failsOnly_during hproperties).bind fun _ => Attempt.failsOnly_pure _

/-- An object reference fails only where one of the properties does. -/
theorem failsOnly_object {type : ObjectType TypeRef} {nullable : Bool} {id : TypeId}
    (h : ∀ property ∈ type.properties, (below property.type (some id)).FailsOnly failure) :
    (c.object below type nullable (some id)).FailsOnly failure := by
  have hbody : (c.objectBody below type (some id)).FailsOnly failure := failsOnly_objectBody h
  rw [object]
  refine Attempt.failsOnly_get.bind fun state => ?_
  split
  · split
    · exact Attempt.failsOnly_pure _
    · exact (Attempt.failsOnly_modify _).bind fun _ => Attempt.failsOnly_pure _
  · split
    · exact Attempt.failsOnly_pure _
    · refine hbody.bind fun definition => Attempt.failsOnly_get.bind fun after => ?_
      split
      · refine (Attempt.failsOnly_modify _).bind fun _ => ?_
        split <;> exact Attempt.failsOnly_pure _
      · exact Attempt.failsOnly_pure _

/-- A subtype is written out when it is an object, else it is converted by its name. -/
theorem failsOnly_variant {variant : Variant TypeRef}
    (missing : c.graph.nodes.find? variant.id = none → failure (.dangling variant.id owner))
    (object : ∀ type, c.graph.nodes.find? variant.id = some (.object type) →
      ∀ property ∈ type.properties, (below property.type (some variant.id)).FailsOnly failure)
    (other : (∃ node, c.graph.nodes.find? variant.id = some node) →
      (below (.named variant.id false) owner).FailsOnly failure) :
    (c.variant below owner variant).FailsOnly failure := by
  have hbody : (c.variantBody below variant.id owner).FailsOnly failure := by
    rw [variantBody, TypeGraph.node]
    cases hfound : c.graph.nodes.find? variant.id with
    | none => exact fun _ => missing hfound
    | some node =>
        rw [Attempt.ofExcept_ok_bind]
        split
        · exact failsOnly_objectBody (object _ hfound)
        · exact other ⟨node, hfound⟩
  rw [Conversion.variant]
  refine Attempt.failsOnly_get.bind fun state => ?_
  split
  · exact Attempt.failsOnly_pure _
  · split
    · exact Attempt.failsOnly_modify _
    · exact hbody.bind fun _ => Attempt.failsOnly_modify _

/-- A polymorphic reference fails only where one of the variants does. -/
theorem failsOnly_polymorphic {type : PolymorphicType TypeRef} {nullable : Bool} {id : TypeId}
    (h : ∀ variant ∈ type.variants, (c.variant below (some id) variant).FailsOnly failure) :
    (c.polymorphic below type nullable (some id)).FailsOnly failure := by
  have hvariants : (Attempt.forEach type.variants (c.variant below (some id))).FailsOnly failure :=
    .forEach h
  intro state
  rw [Attempt.FailsIn, Attempt.Meets, run_polymorphic]
  by_cases inside : id ∈ state.inProgress
  · rw [if_pos inside]
    trivial
  · rw [if_neg inside]
    exact ((failsOnly_during hvariants).bind fun _ => Attempt.failsOnly_pure _) state

/-- The conversion of the node that a reference leads to fails as those of the references that
it goes on to, as those of the subtypes, or because the type of the node is not known. -/
theorem failsOnly_node {ref : TypeRef} {node : Node} (leads : c.graph.Leads ref node)
    (followed : ∀ child ∈ node.followed, (below child ref.id?).FailsOnly failure)
    (variants : ∀ type, node = .polymorphic type → ∀ variant ∈ type.variants,
      (c.variant below ref.id? variant).FailsOnly failure)
    (unknown : ∀ name, node = .other name → failure (.invalidGraph (.unknownNode name) ref.id?)) :
    (c.node below node ref.nullable ref.id?).FailsOnly failure := by
  cases node with
  | primitive | enumeration => exact Attempt.failsOnly_pure _
  | list element description =>
      rw [Conversion.node]
      have helement := followed element (List.mem_singleton.mpr rfl)
      exact helement.bind fun _ => Attempt.failsOnly_pure _
  | map key value description =>
      rw [Conversion.node]
      have hvalue := followed value (List.mem_singleton.mpr rfl)
      exact hvalue.bind fun _ => Attempt.failsOnly_pure _
  | object type =>
      rcases leads.exists_id rfl with ⟨id, hid⟩
      rw [hid] at followed ⊢
      exact failsOnly_object fun property hproperty =>
        followed _ (List.mem_map_of_mem hproperty)
  | polymorphic type =>
      rcases leads.exists_id rfl with ⟨id, hid⟩
      rw [hid] at variants ⊢
      exact failsOnly_polymorphic (variants type rfl)
  | other name => exact Attempt.failsOnly_fail (unknown name rfl)

end Steps

/-! ## References that can be converted -/

/-- Every reference that can be converted is converted, unless lists and maps contain one
another without end. -/
def Succeeds (c : Conversion) (below : ConvertRef) : Prop :=
  ∀ ref owner, c.graph.Admits ref → (below ref owner).FailsOnly (· = .endless)

/-- What a convertible reference leads to goes on to convertible references. -/
theorem admits_followed (convertible : c.graph.IsConvertible) {ref : TypeRef} {node : Node}
    (leads : c.graph.Leads ref node) (admits : c.graph.Admits ref) :
    ∀ child ∈ node.followed, c.graph.Admits child := by
  have hchildren : ∀ child ∈ node.children, c.graph.Admits child := by
    cases leads with
    | inline unnamed => exact admits.child
    | named found => exact convertible.children _ _ found
  intro child mem
  cases node with
  | primitive | enumeration | other => cases mem
  | list | object => exact hchildren child mem
  | map key value description =>
      rw [NodeOf.followed, List.mem_singleton] at mem
      exact hchildren child (by simp [NodeOf.children, mem])
  | polymorphic type =>
      rcases List.mem_map.mp mem with ⟨variant, hvariant, rfl⟩
      cases leads with
      | inline unnamed => cases unnamed
      | named found => exact TypeGraph.admits_named (convertible.variants _ _ found _ hvariant)

/-- Over a convertible graph one layer succeeds wherever the calls below it do. -/
theorem succeeds_layer (hbelow : c.Succeeds below) (convertible : c.graph.IsConvertible) :
    c.Succeeds (c.layer below) := by
  have hnode : ∀ {ref : TypeRef} {node : Node}, c.graph.Leads ref node → c.graph.Admits ref →
      (c.node below node ref.nullable ref.id?).FailsOnly (· = .endless) := by
    intro ref node leads admits
    have hfollowed := admits_followed convertible leads admits
    refine failsOnly_node leads (fun child mem => hbelow _ _ (hfollowed child mem)) ?_ ?_
    · rintro type rfl variant hvariant
      have hadmits := hfollowed _ (List.mem_map_of_mem hvariant)
      rcases hadmits.node with ⟨node, found⟩
      refine failsOnly_variant ?_ ?_ fun _ => hbelow _ _ hadmits
      · intro missing
        rw [missing] at found
        cases found
      · intro type hobject property hproperty
        exact hbelow _ _ (convertible.children _ _ hobject _ (List.mem_map_of_mem hproperty))
    · rintro name rfl
      cases leads with
      | inline unnamed => exact absurd rfl ((admits _ .self).2 name _)
      | named found => exact absurd found (convertible.known _ name)
  intro ref owner admits
  cases ref with
  | inline node nullable =>
      have unnamed : node.needsName = false := (admits _ .self).1
      rw [layer, if_neg (by simp [unnamed])]
      exact hnode (.inline unnamed) admits
  | named id nullable =>
      rcases admits.node with ⟨node, found⟩
      rw [layer, TypeGraph.node_eq_ok_iff.mpr found, Attempt.ofExcept_ok_bind]
      exact hnode (.named found) admits

/-- With any budget, converting a reference that the graph admits fails only for want of
an end. -/
theorem failsOnly_reference (convertible : c.graph.IsConvertible) (budget : Nat) :
    c.Succeeds (c.reference budget) := by
  induction budget with
  | zero => exact fun _ _ _ => Attempt.failsOnly_fail rfl
  | succ budget ih => exact succeeds_layer ih convertible

end Conversion

/-! ## Documents -/

namespace TypeGraph

variable {graph : TypeGraph} {flags : Flags}

/-- Over a convertible graph the only failure left for a schema document is recursion without end.
-/
theorem IsConvertible.toSchemaDocument (h : graph.IsConvertible) {name : String} {error : Error}
    (hfails : graph.toSchemaDocument flags name = .error error) : error = .endless := by
  let c : Conversion := ⟨graph, flags, .jsonSchema⟩
  have hroot : (c.convert graph.root none).FailsOnly (· = .endless) :=
    Conversion.failsOnly_reference h c.budget graph.root none h.root
  rcases run_of_toSchemaDocument_eq_error hfails with ⟨after, hrun⟩
  exact (hroot {}).of_error hrun

/-- The root of a tool schema is inline, or names a node that is no object. -/
def LacksToolRoot (graph : TypeGraph) : Prop :=
  graph.root.id? = none ∨
    ∃ id node, graph.root.id? = some id ∧ graph.nodes.find? id = some node ∧
      ∀ type, node ≠ .object type

/-- Looking for the root of a tool schema fails only for a root that cannot be one. -/
theorem IsConvertible.toolRoot (h : graph.IsConvertible) {error : Error}
    (hfails : graph.toolRoot = .error error) :
    graph.LacksToolRoot ∧ ∃ fault id, error = .invalidGraph fault id := by
  have hadmits := h.root
  rw [TypeGraph.toolRoot] at hfails
  rw [LacksToolRoot]
  cases hroot : graph.root with
  | inline node nullable =>
      rw [hroot] at hfails
      cases hfails
      exact ⟨Or.inl rfl, _, _, rfl⟩
  | named id nullable =>
      rw [hroot] at hadmits hfails
      rcases hadmits.node with ⟨node, found⟩
      have hnode : graph.node id = .ok node := node_eq_ok_iff.mpr found
      simp only [hnode, ok_bind] at hfails
      split at hfails
      · cases hfails
      · rename_i other
        cases hfails
        exact ⟨Or.inr ⟨id, node, rfl, found, other⟩, _, _, rfl⟩

/-- A tool document of a convertible graph may fail in one more way: its root is no object. -/
theorem IsConvertible.toToolDocument (h : graph.IsConvertible) {error : Error}
    (hfails : graph.toToolDocument flags = .error error) :
    error = .endless ∨ graph.LacksToolRoot ∧ ∃ fault id, error = .invalidGraph fault id := by
  let c : Conversion := ⟨graph, flags, .tool⟩
  rcases run_of_toToolDocument_eq_error hfails with hroot | ⟨id, type, after, hroot, hrun⟩
  · exact Or.inr (h.toolRoot hroot)
  · have found : graph.nodes.find? id = some (.object type) := (toolRoot_eq_ok_iff.mp hroot).2
    have hbody : (c.objectBody c.convert type (some id)).FailsOnly (· = .endless) :=
      Conversion.failsOnly_objectBody fun property hproperty =>
        Conversion.failsOnly_reference h c.budget _ _
          (h.children _ _ found _ (List.mem_map_of_mem hproperty))
    exact Or.inl ((hbody {}).of_error hrun)

/-- On a valid graph of known nodes whose subtypes are referred to by their own
identifiers, neither conversion meets a dangling reference, and only the root of a tool
schema can have an illegal shape: it is inline or no object.  What else fails are lists
and maps without end. -/
theorem failure_of_validate (known : graph.HasKnownNodes) (own : graph.RefersToVariants)
    (valid : graph.validate = .ok ()) (flags : Flags) :
    (∀ name error, graph.toSchemaDocument flags name = .error error → error = .endless) ∧
    ∀ error, graph.toToolDocument flags = .error error →
      error = .endless ∨ graph.LacksToolRoot ∧ ∃ fault id, error = .invalidGraph fault id := by
  have hconvertible := isConvertible_of_validate known own valid
  exact ⟨fun name error h => hconvertible.toSchemaDocument h,
    fun error h => hconvertible.toToolDocument h⟩

/-- A hierarchy below a list of maps, whose subtypes refer back to the list. -/
def shelvedHierarchy : TypeGraph where
  root := .inline (.list (.inline (.map (.inline (.primitive .string none) false)
    (.named "Base" true) none) false) none) false
  nodes := [
    ("Base", .polymorphic { base := "Base", variants := [⟨"Leaf", .named "Leaf" false⟩] }),
    ("Leaf", .object {
      name := "Leaf", properties := [
        { name := "next", type := .inline (.list (.named "Leaf" false) none) true },
        { name := "base", type := .named "Base" false }] })]

theorem shelvedHierarchy_hasKnownNodes : shelvedHierarchy.HasKnownNodes := by
  constructor
  · intro id name mem
    simp [shelvedHierarchy] at mem
  · intro owner name nullable held
    rcases holds_iff.mp held with ⟨outer, houter, inside⟩
    have hlisted : shelvedHierarchy.references.map Prod.fst = [shelvedHierarchy.root,
        .named "Leaf" false, .inline (.list (.named "Leaf" false) none) true,
        .named "Base" false] := rfl
    have hmem := hlisted ▸ List.mem_map_of_mem (f := Prod.fst) houter
    simp only [List.mem_cons, List.not_mem_nil, or_false] at hmem
    rcases hmem with rfl | rfl | rfl | rfl <;>
      simp [shelvedHierarchy, NodeOf.children] at inside

theorem shelvedHierarchy_refersToVariants : shelvedHierarchy.RefersToVariants := by
  intro id type mem variant hvariant
  simp only [shelvedHierarchy, List.mem_cons, List.not_mem_nil, or_false, Prod.mk.injEq,
    NodeOf.polymorphic.injEq, reduceCtorEq, and_false] at mem
  rcases mem with ⟨-, rfl⟩
  simp at hvariant
  simp [hvariant, TypeRef.id?]

/-- Neither conversion of it fails but for its root, which is inline. -/
theorem shelvedHierarchy_failure :
    shelvedHierarchy.HasKnownNodes ∧ shelvedHierarchy.RefersToVariants ∧
    shelvedHierarchy.validate = .ok () ∧
    (∀ name error, shelvedHierarchy.toSchemaDocument (.initial .jsonSchema) name = .error error →
      error = .endless) ∧
    ∀ error, shelvedHierarchy.toToolDocument (.initial .jsonSchema) = .error error →
      error = .endless ∨
        shelvedHierarchy.LacksToolRoot ∧ ∃ fault id, error = .invalidGraph fault id := by
  have known := shelvedHierarchy_hasKnownNodes
  have own := shelvedHierarchy_refersToVariants
  have valid : shelvedHierarchy.validate = .ok () := by rfl
  exact ⟨known, own, valid, failure_of_validate known own valid _⟩

end TypeGraph

end Schemata
