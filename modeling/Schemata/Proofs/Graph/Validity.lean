import Schemata.Graph.Validation

/-!
# Valid type graphs

A reference contains itself and, when it holds a node, all that the references of that
node contain.  A graph holds what its root contains and what the references of the
nodes in its table contain, and validation looks at exactly these references.

Main results:

- Definition {lit}`TypeRef.IsLegal`: a reference is legal when its name is known, or when
  the node that it holds needs no name.
- Definition {lit}`TypeRef.Visits`: the names that a reference leads to, directly and through
  the nodes of a table.
- Theorem {lit}`check_eq_ok_iff`: checking a reference succeeds exactly when all that it
  contains is legal.
- Theorem {lit}`validate_eq_ok_iff`: validation succeeds exactly when all that the graph
  holds is legal.
-/

namespace Schemata

namespace TypeRef

/-- What a reference contains: itself, and what the references of its node contain. -/
inductive Contains : TypeRef → TypeRef → Prop
  | self {ref : TypeRef} : Contains ref ref
  | child {node : Node} {nullable : Bool} {child ref : TypeRef} (mem : child ∈ node.children)
      (inside : Contains child ref) : Contains (.inline node nullable) ref

/-- A reference is legal when its name is known, or when it holds a node that needs no
name. -/
def IsLegal (known : TypeId → Prop) : TypeRef → Prop
  | .named id _ => known id
  | .inline node _ => node.needsName = false

@[simp] theorem contains_named {id : TypeId} {nullable : Bool} {ref : TypeRef} :
    (named id nullable).Contains ref ↔ ref = .named id nullable := by
  constructor
  · intro h
    cases h
    rfl
  · rintro rfl
    exact .self

@[simp] theorem contains_inline {node : Node} {nullable : Bool} {ref : TypeRef} :
    (inline node nullable).Contains ref ↔
      ref = .inline node nullable ∨ ∃ child ∈ node.children, child.Contains ref := by
  constructor
  · intro h
    cases h with
    | self => exact Or.inl rfl
    | child mem inside => exact Or.inr ⟨_, mem, inside⟩
  · rintro (rfl | ⟨child, mem, inside⟩)
    · exact .self
    · exact .child mem inside

/-- What is contained in something contained is contained. -/
theorem Contains.trans {outer middle inner : TypeRef} (h : outer.Contains middle)
    (inside : middle.Contains inner) : outer.Contains inner := by
  induction h with
  | self => exact inside
  | child mem _ ih => exact .child mem (ih inside)

/-- A child is smaller than the node that holds it. -/
theorem sizeOf_lt_of_mem_children {node : Node} {child : TypeRef} (mem : child ∈ node.children) :
    sizeOf child < sizeOf node := by
  cases node with
  | primitive | enumeration | other => simp [NodeOf.children] at mem
  | list element =>
      rw [NodeOf.children, List.mem_singleton] at mem
      subst mem
      simp
      omega
  | map key value =>
      simp only [NodeOf.children, List.mem_cons, List.not_mem_nil, or_false] at mem
      rcases mem with rfl | rfl <;> simp <;> omega
  | object type =>
      rw [NodeOf.children, List.mem_map] at mem
      rcases mem with ⟨property, hproperty, rfl⟩
      have hlist := List.sizeOf_lt_of_mem hproperty
      cases type
      cases property
      simp at hlist ⊢
      omega
  | polymorphic type =>
      rw [NodeOf.children, List.mem_map] at mem
      rcases mem with ⟨variant, hvariant, rfl⟩
      have hlist := List.sizeOf_lt_of_mem hvariant
      cases type
      cases variant
      simp at hlist ⊢
      omega

/-- Induction on a reference, through the references of the node that it holds. -/
@[elab_as_elim]
theorem children_induction {motive : TypeRef → Prop}
    (named : ∀ id nullable, motive (.named id nullable))
    (inline : ∀ node nullable, (∀ child ∈ node.children, motive child) →
      motive (.inline node nullable)) (ref : TypeRef) : motive ref :=
  match ref with
  | .named id nullable => named id nullable
  | .inline node nullable =>
      inline node nullable fun child _ => children_induction named inline child
termination_by sizeOf ref
decreasing_by
  have hchild : sizeOf child < sizeOf node := sizeOf_lt_of_mem_children ‹_›
  rw [TypeRef.inline.sizeOf_spec]
  omega

/-! ## The names that a reference leads to -/

/-- The names in a reference, and the names in the references of the nodes that these
names stand for. -/
inductive Visits (node? : TypeId → Option Node) : TypeRef → TypeId → Prop
  | here {ref : TypeRef} {id : TypeId} {nullable : Bool} (inside : ref.Contains (.named id nullable)) :
      Visits node? ref id
  | onward {ref child : TypeRef} {id other : TypeId} {node : Node} {nullable : Bool}
      (earlier : Visits node? ref id) (found : node? id = some node) (mem : child ∈ node.children)
      (inside : child.Contains (.named other nullable)) : Visits node? ref other

/-- A reference holds all names that another one holds. -/
def Mentions (outer ref : TypeRef) : Prop :=
  ∀ id nullable, ref.Contains (.named id nullable) → ∃ other, outer.Contains (.named id other)

/-- A reference mentions what it contains. -/
theorem Contains.mentions {outer ref : TypeRef} (h : outer.Contains ref) : outer.Mentions ref :=
  fun _ nullable inside => ⟨nullable, h.trans inside⟩

/-- Nullability does not show in the names of a reference. -/
theorem mentions_named (id : TypeId) (nullable other : Bool) :
    (named id nullable).Mentions (named id other) := by
  intro name _ inside
  rw [contains_named, named.injEq] at inside
  exact ⟨nullable, inside.1 ▸ .self⟩

namespace Visits

variable {node? node?' : TypeId → Option Node} {ref : TypeRef} {id : TypeId}

/-- More nodes lead further. -/
theorem mono (h : Visits node? ref id)
    (more : ∀ id node, node? id = some node → node?' id = some node) : Visits node?' ref id := by
  induction h with
  | here inside => exact .here inside
  | onward _ found mem inside ih => exact .onward ih (more _ _ found) mem inside

/-- A reference leads where those lead whose names it mentions. -/
theorem of_mentions {outer : TypeRef} (h : Visits node? ref id) (mentions : outer.Mentions ref) :
    Visits node? outer id := by
  induction h with
  | here inside =>
      rcases mentions _ _ inside with ⟨nullable, hinside⟩
      exact .here hinside
  | onward _ found mem inside ih => exact .onward ih found mem inside

/-- A name leads where the references of its node lead. -/
theorem of_child {name : TypeId} {nullable : Bool} {node : Node} {child : TypeRef}
    (h : Visits node? child id) (found : node? name = some node) (mem : child ∈ node.children) :
    Visits node? (.named name nullable) id := by
  induction h with
  | here inside => exact .onward (.here .self) found mem inside
  | onward _ found' mem' inside ih => exact .onward ih found' mem' inside

end Visits

variable {graph : TypeGraph} {owner : Option TypeId}

/-- Checking a node where it is used succeeds exactly when it needs no name and checking
its references succeeds. -/
theorem checkNode_eq_ok_iff {node : Node} :
    checkNode graph owner node = .ok () ↔
      node.needsName = false ∧ ∀ child ∈ node.children, child.check graph owner = .ok () := by
  cases node with
  | primitive | other => simp [checkNode, NodeOf.needsName, NodeOf.children]
  | object | enumeration | polymorphic => simp [checkNode, NodeOf.needsName]
  | list element => simp [checkNode, NodeOf.needsName, NodeOf.children]
  | map key value =>
      have hsplit {description : Option String} :
          checkNode graph owner (.map key value description) = .ok () ↔
            value.check graph owner = .ok () ∧ key.check graph owner = .ok () := by
        rw [checkNode, bind_eq_ok_iff]
        constructor
        · rintro ⟨_, hvalue, hkey⟩
          exact ⟨hvalue, hkey⟩
        · rintro ⟨hvalue, hkey⟩
          exact ⟨(), hvalue, hkey⟩
      simp [hsplit, NodeOf.needsName, NodeOf.children, and_comm]

/-- A named reference passes the check when the table has its node. -/
theorem check_named_eq_ok_iff {id : TypeId} {nullable : Bool} :
    check graph owner (.named id nullable) = .ok () ↔ id ∈ graph.nodes.keys := by
  rw [check, TypeGraph.node, ← Table.has_iff_mem_keys, Table.has]
  cases graph.nodes.find? id with
  | none =>
      constructor
      · intro h
        cases h
      · intro h
        cases h
  | some node => exact ⟨fun _ => rfl, fun _ => rfl⟩

/-- Checking a reference succeeds exactly when all that it contains is legal. -/
theorem check_eq_ok_iff {ref : TypeRef} :
    ref.check graph owner = .ok () ↔
      ∀ inner, ref.Contains inner → inner.IsLegal (· ∈ graph.nodes.keys) := by
  induction ref using children_induction with
  | named id nullable => simp [check_named_eq_ok_iff, IsLegal]
  | inline node nullable ih =>
      rw [check, checkNode_eq_ok_iff]
      constructor
      · rintro ⟨unnamed, hchildren⟩ inner hinner
        rcases contains_inline.mp hinner with rfl | ⟨child, mem, inside⟩
        · exact unnamed
        · exact (ih child mem).mp (hchildren child mem) inner inside
      · intro hlegal
        refine ⟨hlegal _ .self, ?_⟩
        intro child mem
        rw [ih child mem]
        exact fun inner inside => hlegal inner (.child mem inside)

end TypeRef

namespace TypeGraph

variable {graph : TypeGraph}

/-- The references that a graph holds, with the node of the table that each stands in. -/
inductive Holds (graph : TypeGraph) : Option TypeId → TypeRef → Prop
  | root {ref : TypeRef} (inside : graph.root.Contains ref) : Holds graph none ref
  | entry {id : TypeId} {node : Node} {child ref : TypeRef} (mem : (id, node) ∈ graph.nodes)
      (member : child ∈ node.children) (inside : child.Contains ref) : Holds graph (some id) ref

/-- A graph holds what a reference that it holds contains. -/
theorem Holds.trans {owner : Option TypeId} {ref inner : TypeRef} (h : graph.Holds owner ref)
    (inside : ref.Contains inner) : graph.Holds owner inner := by
  cases h with
  | root outside => exact .root (outside.trans inside)
  | entry mem member outside => exact .entry mem member (outside.trans inside)

/-- Every reference that the graph lists contains only what the graph holds. -/
theorem holds_iff {owner : Option TypeId} {ref : TypeRef} :
    graph.Holds owner ref ↔ ∃ outer, (outer, owner) ∈ graph.references ∧ outer.Contains ref := by
  constructor
  · intro h
    cases h with
    | root inside => exact ⟨_, by simp [references], inside⟩
    | @entry id node child _ mem hchild inside =>
        refine ⟨child, ?_, inside⟩
        simp only [references, List.mem_cons, List.mem_flatMap, List.mem_map]
        exact Or.inr ⟨(id, node), mem, child, hchild, rfl⟩
  · rintro ⟨outer, houter, inside⟩
    simp only [references, List.mem_cons, List.mem_flatMap, List.mem_map] at houter
    rcases houter with houter | ⟨⟨id, node⟩, mem, child, hchild, houter⟩
    · cases houter
      exact .root inside
    · cases houter
      exact .entry mem hchild inside

/-- Validation succeeds exactly when all that the graph holds is legal. -/
theorem validate_eq_ok_iff :
    graph.validate = .ok () ↔
      ∀ owner ref, graph.Holds owner ref → ref.IsLegal (· ∈ graph.nodes.keys) := by
  rw [validate, forM_eq_ok_iff]
  constructor
  · intro hchecks owner ref hheld
    rcases holds_iff.mp hheld with ⟨outer, houter, inside⟩
    have hcheck := hchecks (outer, owner) (List.mem_reverse.mpr houter)
    exact TypeRef.check_eq_ok_iff.mp hcheck ref inside
  · rintro hlegal ⟨outer, owner⟩ houter
    rw [TypeRef.check_eq_ok_iff]
    intro ref inside
    exact hlegal owner ref (holds_iff.mpr ⟨outer, List.mem_reverse.mp houter, inside⟩)

end TypeGraph

end Schemata
