import Schemata.Proofs.Conversion.Failure

/-!
# The node that a failure names

A conversion that fails for a reference says which node of the table holds it.  The name of
the node goes with the references of the node itself, and with what a subtype or a list of the
table goes on to.  A list or map that stands where it is used has no name of its own, and what
is inside it is converted without one.  So a reference that offends there is reported like one
in the root, while validation names the node for it.

Main results:

- Definition {lit}`TypeGraph.Meets`: the references that a conversion comes to, with the node
  of the table that holds each of them and whether a list or map stands between the two.
- Theorem {lit}`Conversion.isExplained_reference`: with any budget, a conversion that fails for a
  reference tells the holder of one that offends, unless a list or map stands between.
- Theorem {lit}`toSchemaDocument_namesHolder`: when a failure names the holder.
-/

namespace Schemata

namespace TypeGraph

/-- The references that a conversion comes to, with the node of the table that holds each of
them, or none for the root, and whether it is nested in a node that stands where it is used. -/
inductive Meets (graph : TypeGraph) : Option TypeId → Bool → TypeRef → Prop
  | root : Meets graph none false graph.root
  | entry {holder : Option TypeId} {nested nullable : Bool} {id : TypeId} {node : Node}
      {child : TypeRef} (earlier : Meets graph holder nested (.named id nullable))
      (found : graph.nodes.find? id = some node) (mem : child ∈ node.followed) :
      Meets graph (some id) false child
  | inside {holder : Option TypeId} {nested nullable : Bool} {node : Node} {child : TypeRef}
      (earlier : Meets graph holder nested (.inline node nullable))
      (unnamed : node.needsName = false) (mem : child ∈ node.followed) :
      Meets graph holder true child

/-- What a conversion is told of the node that holds a reference: nested references come
without it. -/
def told (holder : Option TypeId) (nested : Bool) : Option TypeId :=
  if nested then none else holder

end TypeGraph

/-- How a reference stops a conversion, and the failure that says so. -/
inductive TypeRef.Stops (graph : TypeGraph) (owner : Option TypeId) : TypeRef → Error → Prop
  /-- The name is not known. -/
  | dangling {id : TypeId} {nullable : Bool} (missing : id ∉ graph.nodes.keys) :
      Stops graph owner (.named id nullable) (.dangling id owner)
  /-- The node needs a name. -/
  | inlined {node : Node} {nullable : Bool} (named : node.needsName = true) :
      Stops graph owner (.inline node nullable)
        (.invalidGraph (.unsupportedInline node.typeName) owner)

/-- A reference that stops a conversion is not legal. -/
theorem TypeRef.Stops.not_isLegal {graph : TypeGraph} {owner : Option TypeId} {ref : TypeRef}
    {error : Error} (h : ref.Stops graph owner error) :
    ¬ ref.IsLegal (· ∈ graph.nodes.keys) := by
  cases h with
  | dangling missing => exact missing
  | inlined named => simp [IsLegal, named]

/-- The node that a failure names. -/
def Error.owner? : Error → Option TypeId
  | .dangling _ owner | .invalidGraph _ owner => owner
  | _ => none

/-- The error a reference stops with names the owner it was converted for. -/
theorem TypeRef.Stops.owner?_eq {graph : TypeGraph} {owner : Option TypeId} {ref : TypeRef}
    {error : Error} (h : ref.Stops graph owner error) : error.owner? = owner := by
  cases h <;> rfl

/-- A failure is about a reference: its name is not known, or its node needs a name. -/
inductive Error.IsAboutReference : Error → Prop
  | dangling (id : TypeId) (owner : Option TypeId) : IsAboutReference (.dangling id owner)
  | inlined (typeName : String) (owner : Option TypeId) :
      IsAboutReference (.invalidGraph (.unsupportedInline typeName) owner)

namespace TypeGraph

variable {graph : TypeGraph} {holder : Option TypeId} {nested : Bool} {ref : TypeRef}

/-- A node that stands where it is used goes on to references that it holds. -/
theorem mem_children_of_followed {node : Node} (unnamed : node.needsName = false) {child : TypeRef}
    (mem : child ∈ node.followed) : child ∈ node.children := by
  cases node with
  | primitive | enumeration | other => cases mem
  | object | polymorphic => cases unnamed
  | list element description => exact mem
  | map key value description => exact List.mem_cons_of_mem _ mem

/-- What no node of the table holds is in the root. -/
theorem Meets.contains_root (h : graph.Meets none nested ref) : graph.root.Contains ref := by
  generalize hholder : (none : Option TypeId) = holder at h
  induction h with
  | root => exact .self
  | entry => cases hholder
  | inside _ unnamed mem ih =>
      exact (ih hholder).trans (.child (mem_children_of_followed unnamed mem) .self)

/-- What a node of the table holds is in a reference that the node goes on to, and one that it
is nested in has no name. -/
theorem Meets.exists_followed {id : TypeId} (h : graph.Meets (some id) nested ref) :
    ∃ node, graph.nodes.find? id = some node ∧ ∃ child ∈ node.followed, child.Contains ref ∧
      (nested = true → child.id? = none) := by
  generalize hholder : some id = holder at h
  induction h with
  | root => cases hholder
  | entry _ found mem =>
      cases hholder
      exact ⟨_, found, _, mem, .self, nofun⟩
  | inside _ unnamed mem ih =>
      rcases ih hholder with ⟨node, found, child, hchild, hinside, -⟩
      refine ⟨node, found, child, hchild,
        hinside.trans (.child (mem_children_of_followed unnamed mem) .self), fun _ => ?_⟩
      cases hinside <;> rfl

/-- A failure names the node of the table that holds a reference which offends as it says, and
no node only for a reference in the root. -/
def NamesHolder (graph : TypeGraph) (error : Error) : Prop :=
  ∃ holder nested ref, graph.Meets holder nested ref ∧ ref.Stops graph holder error

/-- A failure is for want of an end or a node of an unknown type, or it is about a reference
that the conversion came to, and says what the conversion was told of its holder. -/
def Explains (graph : TypeGraph) (error : Error) : Prop :=
  error = .endless ∨ (∃ typeName id, error = .invalidGraph (.unknownNode typeName) id) ∨
    ∃ holder nested ref, graph.Meets holder nested ref ∧
      ref.Stops graph (told holder nested) error

end TypeGraph

namespace Conversion

variable {c : Conversion} {below : ConvertRef}

/-- Every reference that a conversion comes to is converted, or fails as can be explained. -/
def IsExplained (c : Conversion) (below : ConvertRef) : Prop :=
  ∀ holder nested ref, c.graph.Meets holder nested ref →
    (below ref (TypeGraph.told holder nested)).FailsOnly c.graph.Explains

/-- A subtype is looked up for the polymorphic type that lists it. -/
theorem failsOnly_variant_explained (hbelow : c.IsExplained below) {base : TypeId}
    {variant : Variant TypeRef} (met : c.graph.Meets (some base) false (.named variant.id false)) :
    (c.variant below (some base) variant).FailsOnly c.graph.Explains := by
  refine failsOnly_variant ?_ ?_ fun _ => hbelow _ _ _ met
  · intro missing
    have hstops : (TypeRef.named variant.id false).Stops c.graph (some base)
        (.dangling variant.id (some base)) :=
      .dangling fun known => by
        rw [← Table.has_iff_mem_keys, Table.has, missing] at known
        cases known
    exact Or.inr (Or.inr ⟨_, _, _, met, hstops⟩)
  · intro type found property mem
    exact hbelow (some variant.id) false _ (.entry met found (List.mem_map_of_mem mem))

/-- The node that a reference leads to goes on with its own name, or with none when it stands
where it is used. -/
theorem failsOnly_node_explained (hbelow : c.IsExplained below) {holder : Option TypeId}
    {nested : Bool} {ref : TypeRef} {node : Node} (leads : c.graph.Leads ref node)
    (met : c.graph.Meets holder nested ref) :
    (c.node below node ref.nullable ref.id?).FailsOnly c.graph.Explains := by
  refine failsOnly_node leads ?_ ?_ fun name _ => Or.inr (Or.inl ⟨name, _, rfl⟩)
  · intro child mem
    cases leads with
    | inline unnamed => exact hbelow holder true child (met.inside unnamed mem)
    | named found => exact hbelow (some _) false child (met.entry found mem)
  · rintro type rfl variant hvariant
    cases leads with
    | inline unnamed => cases unnamed
    | named found =>
        exact failsOnly_variant_explained hbelow (met.entry found (List.mem_map_of_mem hvariant))

/-- One layer explains its failures when the calls below explain theirs. -/
theorem isExplained_layer (hbelow : c.IsExplained below) : c.IsExplained (c.layer below) := by
  intro holder nested ref met
  cases ref with
  | inline node nullable =>
      rw [layer]
      split
      · rename_i named
        exact Attempt.failsOnly_fail (Or.inr (Or.inr ⟨_, _, _, met, .inlined named⟩))
      · rename_i unnamed
        exact failsOnly_node_explained hbelow (.inline (Bool.eq_false_iff.mpr unnamed)) met
  | named id nullable =>
      rw [layer, TypeGraph.node]
      cases found : c.graph.nodes.find? id with
      | none =>
          refine fun _ => Or.inr (Or.inr ⟨_, _, _, met, .dangling fun known => ?_⟩)
          rw [← Table.has_iff_mem_keys, Table.has, found] at known
          cases known
      | some node =>
          rw [Attempt.ofExcept_ok_bind]
          exact failsOnly_node_explained hbelow (.named found) met

/-- With any budget, a conversion that fails for a reference says what it was told of its
holder. -/
theorem isExplained_reference (c : Conversion) (budget : Nat) :
    c.IsExplained (c.reference budget) := by
  induction budget with
  | zero => exact fun _ _ _ _ => Attempt.failsOnly_fail (Or.inl rfl)
  | succ budget ih => exact isExplained_layer ih

end Conversion

namespace TypeGraph

variable {graph : TypeGraph} {flags : Flags} {name : String} {error : Error}

/-- A document that cannot be made fails as can be explained. -/
theorem explains_of_toSchemaDocument
    (h : graph.toSchemaDocument flags name = .error error) : graph.Explains error := by
  let c : Conversion := ⟨graph, flags, .jsonSchema⟩
  have hroot : (c.convert graph.root none).FailsOnly graph.Explains :=
    c.isExplained_reference c.budget none false graph.root .root
  rcases run_of_toSchemaDocument_eq_error h with ⟨after, hrun⟩
  exact (hroot {}).of_error hrun

/-- A failure about a reference says what the conversion was told of the holder of a reference
that offends so: the node of the table, or none where the reference is in the root or nested
in a list or map that stands where it is used.  So it names the holder when no nested
reference of a node offends, and it does not when all that offend are such. -/
theorem toSchemaDocument_namesHolder (h : graph.toSchemaDocument flags name = .error error)
    (about : error.IsAboutReference) :
    (∃ holder nested ref, graph.Meets holder nested ref ∧
      ref.Stops graph (told holder nested) error) ∧
    ((∀ id ref, graph.Meets (some id) true ref → ref.IsLegal (· ∈ graph.nodes.keys)) →
      graph.NamesHolder error) ∧
    ((∀ holder nested ref, graph.Meets holder nested ref →
        ¬ ref.IsLegal (· ∈ graph.nodes.keys) → nested = true ∧ holder ≠ none) →
      ¬ graph.NamesHolder error) := by
  have hexplained : ∃ holder nested ref, graph.Meets holder nested ref ∧
      ref.Stops graph (told holder nested) error := by
    rcases explains_of_toSchemaDocument h with rfl | ⟨typeName, id, rfl⟩ | hstops
    · cases about
    · cases about
    · exact hstops
  refine ⟨hexplained, ?_, ?_⟩
  · intro legal
    rcases hexplained with ⟨holder, nested, ref, met, stops⟩
    refine ⟨holder, nested, ref, met, ?_⟩
    cases nested with
    | false => exact stops
    | true =>
        cases holder with
        | none => exact stops
        | some id => exact absurd (legal id ref met) stops.not_isLegal
  · rintro nests ⟨holder, nested, ref, met, stops⟩
    rcases hexplained with ⟨holder', nested', ref', met', stops'⟩
    have hnested := (nests holder' nested' ref' met' stops'.not_isLegal).1
    refine (nests holder nested ref met stops.not_isLegal).2 ?_
    calc holder
      _ = error.owner? := stops.owner?_eq.symm
      _ = told holder' nested' := stops'.owner?_eq
      _ = none := if_pos hnested

/-- A note with an author and a list of what it is related to. -/
def relatedNote (author related : TypeRef) : TypeGraph where
  root := .named "Note" false
  nodes := [
    ("Note", .object {
      name := "Note", properties := [
        { name := "author", type := author },
        { name := "related", type := .inline (.list related none) false }] })]

/-- The note itself is named for an author without a node. -/
theorem relatedNote_namesHolder :
    (relatedNote (.named "Person" true) (.named "Note" false)).toSchemaDocument
      (.initial .jsonSchema) "Note" = .error (.dangling "Person" (some "Note")) ∧
    (relatedNote (.named "Person" true) (.named "Note" false)).NamesHolder
      (.dangling "Person" (some "Note")) := by
  have hfails : (relatedNote (.named "Person" true) (.named "Note" false)).toSchemaDocument
      (.initial .jsonSchema) "Note" = .error (.dangling "Person" (some "Note")) := by
    rfl
  refine ⟨hfails, (toSchemaDocument_namesHolder hfails (.dangling ..)).2.1 ?_⟩
  intro id ref met
  rcases met.exists_followed with ⟨node, found, child, mem, inside, unnamed⟩
  have hentry := Table.mem_of_find? found
  simp only [relatedNote, List.mem_singleton, Prod.mk.injEq] at hentry
  rcases hentry with ⟨rfl, rfl⟩
  simp only [NodeOf.followed, List.map_cons, List.map_nil, List.mem_cons, List.not_mem_nil,
    or_false] at mem
  rcases mem with rfl | rfl
  · cases unnamed rfl
  · rcases TypeRef.contains_inline.mp inside with rfl | ⟨item, hitem, inside⟩
    · rfl
    · rw [NodeOf.children, List.mem_singleton] at hitem
      rw [hitem, TypeRef.contains_named] at inside
      rw [inside]
      exact List.mem_singleton.mpr rfl

/-- In a list of the note, a reference without a node and a node without a name are reported
without the note, which validation does name. -/
theorem relatedNote_not_namesHolder :
    let text : TypeRef := .inline (.primitive .string none) false
    let missing := relatedNote text (.named "Person" false)
    let inlined := relatedNote text (.inline (.enumeration { name := "Color" }) false)
    missing.toSchemaDocument (.initial .jsonSchema) "Note" = .error (.dangling "Person" none) ∧
    inlined.toSchemaDocument (.initial .jsonSchema) "Note" =
      .error (.invalidGraph (.unsupportedInline "EnumNode") none) ∧
    ¬ missing.NamesHolder (.dangling "Person" none) ∧
    ¬ inlined.NamesHolder (.invalidGraph (.unsupportedInline "EnumNode") none) ∧
    missing.validate = .error (.dangling "Person" (some "Note")) ∧
    inlined.validate = .error (.invalidGraph (.inlinedNode "EnumNode") (some "Note")) := by
  intro text missing inlined
  have hroot : ∀ graph : TypeGraph, graph.root = .named "Note" false →
      "Note" ∈ graph.nodes.keys → ∀ error, error.owner? = none → ¬ graph.NamesHolder error := by
    rintro graph hroot known error howner ⟨holder, nested, ref, met, stops⟩
    obtain rfl := stops.owner?_eq.symm.trans howner
    have hinside := met.contains_root
    rw [hroot, TypeRef.contains_named] at hinside
    subst hinside
    exact stops.not_isLegal known
  refine ⟨rfl, rfl, hroot _ rfl ?_ _ rfl, hroot _ rfl ?_ _ rfl, rfl, rfl⟩
  · exact List.mem_singleton.mpr rfl
  · exact List.mem_singleton.mpr rfl

end TypeGraph

end Schemata
