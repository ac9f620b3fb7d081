import Schemata.Graph.Basic

/-!
# Reachable nodes

A node is reachable when references lead to it from the root: through the types of
properties, the elements of lists, the values of maps and the identifiers of subtypes.
The keys of maps lead nowhere, since members of objects have texts as names.
-/

namespace Schemata

namespace TypeRef

mutual

/-- The identifiers that a reference leads to without passing through the table. -/
def targets : TypeRef → List TypeId
  | .named id _ => [id]
  | .inline node _ => inlineTargets node

/-- The identifiers below a node that stands where it is used. -/
def inlineTargets : NodeOf TypeRef → List TypeId
  | .list element _ => targets element
  | .map _ value _ => targets value
  | _ => []

end

/-- A reference with an identifier is one by name. -/
theorem id?_eq_some_iff {ref : TypeRef} {id : TypeId} :
    ref.id? = some id ↔ ∃ nullable, ref = .named id nullable := by
  cases ref with
  | inline node nullable => simp [id?]
  | named other nullable => simp [id?, eq_comm]

end TypeRef

/-- The identifiers that a node of the table leads to. -/
def NodeOf.targets : Node → List TypeId
  | .list element _ => element.targets
  | .map _ value _ => value.targets
  | .object type => type.properties.flatMap (·.type.targets)
  | .polymorphic type => type.variants.map (·.id)
  | _ => []

namespace TypeGraph

variable (graph : TypeGraph)

/-- The identifier is that of an object. -/
def IsObject (id : TypeId) : Prop :=
  ∃ type, graph.nodes.find? id = some (.object type)

/-- The identifier is that of a polymorphic type. -/
def IsPolymorphic (id : TypeId) : Prop :=
  ∃ type, graph.nodes.find? id = some (.polymorphic type)

/-- The identifiers that are reachable from the root. -/
inductive Reaches : TypeId → Prop
  | root {id : TypeId} (target : id ∈ graph.root.targets) : Reaches id
  | step {id other : TypeId} {node : Node} (origin : Reaches id)
      (found : graph.nodes.find? id = some node) (target : other ∈ node.targets) :
      Reaches other

/-- A reachable polymorphic type lists the identifier among its subtypes. -/
def Lists (id : TypeId) : Prop :=
  ∃ base type, graph.Reaches base ∧ graph.nodes.find? base = some (.polymorphic type) ∧
    id ∈ type.variants.map (·.id)

/-- The identifier is that of a polymorphic type which is itself listed as a subtype. -/
def Nested (id : TypeId) : Prop :=
  graph.Lists id ∧ graph.IsPolymorphic id

/-- No property of an object of the table has the name of an earlier one. -/
def DistinctNames : Prop :=
  ∀ id type, graph.nodes.find? id = some (.object type) →
    type.properties.Pairwise fun earlier later => (later.name == earlier.name) = false

/-- Subtypes lead from a polymorphic type to the identifier, through any number of other
polymorphic types. -/
inductive Descends : TypeId → TypeId → Prop
  | subtype {base id : TypeId} {type : PolymorphicType TypeRef}
      (found : graph.nodes.find? base = some (.polymorphic type))
      (mem : id ∈ type.variants.map (·.id)) : Descends base id
  | through {base middle id : TypeId} {type : PolymorphicType TypeRef}
      (found : graph.nodes.find? base = some (.polymorphic type))
      (mem : middle ∈ type.variants.map (·.id)) (rest : Descends middle id) : Descends base id

/-- Subtypes form trees: no two polymorphic types share a subtype, and none is below
itself. -/
structure IsForest : Prop where
  parent : ∀ first second type other id,
    graph.nodes.find? first = some (.polymorphic type) →
    graph.nodes.find? second = some (.polymorphic other) →
    id ∈ type.variants.map (·.id) → id ∈ other.variants.map (·.id) → first = second
  acyclic : ∀ id, ¬ graph.Descends id id

/-- The identifier of the root is a listed subtype. -/
def ListsRoot : Prop :=
  ∃ id, graph.root.id? = some id ∧ graph.Lists id

/-- The root is an object, or a polymorphic type that does not allow null.  Documents
write these into the body. -/
def HasBody : Prop :=
  ∃ id, graph.root.id? = some id ∧
    (graph.IsObject id ∨ graph.IsPolymorphic id ∧ graph.root.nullable = false)

variable {graph} {id : TypeId}

/-- No identifier is that of an object and of a polymorphic type. -/
theorem IsPolymorphic.not_isObject (h : graph.IsPolymorphic id) : ¬ graph.IsObject id := by
  rintro ⟨type, hobject⟩
  rcases h with ⟨other, hpolymorphic⟩
  rw [hobject] at hpolymorphic
  cases hpolymorphic

/-- What subtypes lead to is a subtype of the last polymorphic type on the way. -/
theorem Descends.exists_parent {base : TypeId} (h : graph.Descends base id) :
    ∃ parent type, graph.nodes.find? parent = some (.polymorphic type) ∧
      id ∈ type.variants.map (·.id) ∧ (base = parent ∨ graph.Descends base parent) := by
  induction h with
  | subtype found mem => exact ⟨_, _, found, mem, Or.inl rfl⟩
  | through found mem _ ih =>
      rcases ih with ⟨parent, type, hparent, hid, rfl | hrest⟩
      · exact ⟨_, type, hparent, hid, Or.inr (.subtype found mem)⟩
      · exact ⟨parent, type, hparent, hid, Or.inr (.through found mem hrest)⟩

/-- In a forest, of two types above a third one is above the other. -/
theorem IsForest.comparable (forest : graph.IsForest) {first second : TypeId}
    (h : graph.Descends first id) (other : graph.Descends second id) :
    first = second ∨ graph.Descends first second ∨ graph.Descends second first := by
  induction h with
  | subtype found mem =>
      rcases other.exists_parent with ⟨parent, type, hparent, hid, habove⟩
      obtain rfl := forest.parent _ _ _ _ _ found hparent mem hid
      exact habove.imp Eq.symm Or.inr
  | through found mem _ ih =>
      rcases ih other with rfl | hbelow | habove
      · exact Or.inr (Or.inl (.subtype found mem))
      · exact Or.inr (Or.inl (.through found mem hbelow))
      · rcases habove.exists_parent with ⟨parent, type, hparent, hid, habove⟩
        obtain rfl := forest.parent _ _ _ _ _ found hparent mem hid
        exact habove.imp Eq.symm Or.inr

/-- In a forest no subtype is below another one of the same polymorphic type. -/
theorem IsForest.not_descends_sibling (forest : graph.IsForest) {base first second : TypeId}
    {type : PolymorphicType TypeRef} (found : graph.nodes.find? base = some (.polymorphic type))
    (hfirst : first ∈ type.variants.map (·.id)) (hsecond : second ∈ type.variants.map (·.id)) :
    ¬ graph.Descends first second := by
  intro h
  rcases h.exists_parent with ⟨parent, other, hparent, hid, habove⟩
  obtain rfl := forest.parent _ _ _ _ _ found hparent hsecond hid
  rcases habove with rfl | habove
  · exact forest.acyclic _ (.subtype found hfirst)
  · exact forest.acyclic _ (.through found hfirst habove)

/-- In a forest the subtypes of a polymorphic type have nothing below them in common. -/
theorem IsForest.eq_of_siblings (forest : graph.IsForest) {base first second : TypeId}
    {type : PolymorphicType TypeRef} (found : graph.nodes.find? base = some (.polymorphic type))
    (hfirst : first ∈ type.variants.map (·.id)) (hsecond : second ∈ type.variants.map (·.id))
    (h : id = first ∨ graph.Descends first id) (other : id = second ∨ graph.Descends second id) :
    first = second := by
  have hcomparable : first = second ∨ graph.Descends first second ∨ graph.Descends second first := by
    rcases h with rfl | h
    · exact other.imp_right Or.inr
    · rcases other with rfl | other
      · exact Or.inr (Or.inl h)
      · exact forest.comparable h other
  rcases hcomparable with same | hbelow | habove
  · exact same
  · exact absurd hbelow (forest.not_descends_sibling found hfirst hsecond)
  · exact absurd habove (forest.not_descends_sibling found hsecond hfirst)

/-- A listed subtype is reachable. -/
theorem Lists.reaches (h : graph.Lists id) : graph.Reaches id := by
  rcases h with ⟨base, type, hbase, hfound, hid⟩
  exact .step hbase hfound hid

/-- What holds of the subtypes of every node of the table holds of the listed ones. -/
theorem Lists.forall_of_nodes {motive : TypeId → Prop}
    (h : ∀ entry ∈ graph.nodes, ∀ type, entry.2 = .polymorphic type →
      ∀ variant ∈ type.variants, motive variant.id) :
    ∀ id, graph.Lists id → motive id := by
  rintro id ⟨base, type, _, found, hid⟩
  rcases List.mem_map.mp hid with ⟨variant, hvariant, rfl⟩
  exact h _ (Table.mem_of_find? found) type rfl variant hvariant

/-- Names are distinct when they are in every node of the table. -/
theorem DistinctNames.of_nodes
    (h : ∀ entry ∈ graph.nodes, ∀ type, entry.2 = .object type →
      type.properties.Pairwise fun earlier later => (later.name == earlier.name) = false) :
    graph.DistinctNames :=
  fun _ type found => h _ (Table.mem_of_find? found) type rfl

end TypeGraph

end Schemata
