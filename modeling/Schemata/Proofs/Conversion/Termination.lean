import Schemata.Proofs.Conversion.Budget
import Schemata.Proofs.Graph.Circles

/-!
# Conversions come to an end

Every reference that a conversion opens is nearer to an end than the one around it: fewer
identifiers of the table are left that are not under way, or as many are left and the chain of
lists and maps is shorter.  The budget of a graph has a place for each pair of the two, so where
no list and no map contains itself it is not used up, whatever else the graph holds: dangling
references, objects inside themselves, hierarchies inside their own subtypes.

Main results:

- Theorem {lit}`ends_reference`: a conversion of a reference that fits its budget comes to an
  end.
- Theorem {lit}`TypeGraph.ends_of_containersEnd`: both documents of a graph come to an end, and
  no identifier is begun inside itself meanwhile.
-/

namespace Schemata

namespace Conversion

variable {c : Conversion} {depth : Nat}

/-! ## Conversions that end -/

/-- Not to fail for want of an end spreads outwards: no budget is spent but in the parts inside. -/
theorem spreads_ends : c.Spreads fun _ _ error _ => error ≠ .endless where
  stuck _ ends := ends
  outwards _ ends := ends
  ended _ _ ends := ends

/-- A conversion of a reference that fits comes to an end.  What it calls for fits, too, and it
makes no other calls. -/
theorem ends_reference (bound : c.graph.IsDepthBound depth) (ends : c.graph.ContainersEnd)
    {budget : Nat} {ref : TypeRef} {state : ConversionState}
    (h : c.Fits depth budget (.fragment ref) state) (owner : Option TypeId) :
    (c.reference budget ref owner).FailsIn state fun error _ => error ≠ .endless := by
  induction budget generalizing ref state owner with
  | zero =>
      rcases ends.exists_lasts ref with ⟨length, hlasts⟩
      exact absurd (h.2 length hlasts) (Nat.not_lt_zero _)
  | succ budget ih =>
      have hanswers : c.AnswerAlike (fun _ _ error _ => error ≠ .endless) (c.reference budget)
          (c.reference budget) (.fragment ref) state :=
        fun _ _ asks other => .of_fails (ih (h.asked bound asks) other)
      exact (runsAs_layer (runs_of_reference budget) spreads_ends hanswers owner).fails

/-- The conversion of the body of an object that fits comes to an end. -/
theorem ends_objectBody (bound : c.graph.IsDepthBound depth) (ends : c.graph.ContainersEnd)
    {budget : Nat} {id : TypeId} {type : ObjectType TypeRef} {state : ConversionState}
    (h : c.Fits depth budget (.body id type) state) :
    (c.objectBody (c.reference budget) type (some id)).FailsIn state
      fun error _ => error ≠ .endless := by
  have hanswers : c.AnswerAlike (fun _ _ error _ => error ≠ .endless) (c.reference budget)
      (c.reference budget) (.body id type) state :=
    fun _ _ asks other => .of_fails (ends_reference bound ends (h.asked_within bound asks rfl) other)
  exact (runsAs_objectBody (runs_of_reference budget) spreads_ends h.2.1 hanswers).fails

end Conversion

/-! ## Documents -/

namespace TypeGraph

open Conversion (Task Nests)

variable {graph : TypeGraph} {flags : Flags}

/-- What the conversion to a dialect begins with: the root reference for a JSON Schema document,
the body of the object that the root names for a tool schema. -/
inductive Begins (graph : TypeGraph) : Dialect → Task → Prop
  | schema : Begins graph .jsonSchema (.fragment graph.root)
  | tool {id : TypeId} {type : ObjectType TypeRef} (root : graph.toolRoot = .ok (id, type)) :
      Begins graph .tool (.body id type)

/-- Where chains of containers end, no schema document recurses without end. -/
theorem ContainersEnd.toSchemaDocument_ne (ends : graph.ContainersEnd) (name : String) :
    graph.toSchemaDocument flags name ≠ .error .endless := by
  let c : Conversion := ⟨graph, flags, .jsonSchema⟩
  rcases c.exists_fits_root with ⟨depth, bound, fits⟩
  have hends : (c.convert graph.root none).FailsIn {} fun error _ => error ≠ .endless :=
    Conversion.ends_reference bound ends (fits c.budget (Nat.le_succ _)) none
  intro hend
  rcases run_of_toSchemaDocument_eq_error hend with ⟨after, hrun⟩
  exact Attempt.Meets.of_error hends hrun rfl

/-- Looking for the root of a tool schema comes to an end at once. -/
theorem toolRoot_ne : graph.toolRoot ≠ .error .endless := by
  intro hend
  rw [toolRoot] at hend
  split at hend
  · cases hend
  · rename_i id nullable hroot
    cases hfound : graph.nodes.find? id with
    | none =>
        simp only [TypeGraph.node, hfound] at hend
        cases hend
    | some node =>
        simp only [node_eq_ok_iff.mpr hfound, ok_bind] at hend
        split at hend <;> cases hend

/-- Where chains of containers end, no tool document recurses without end. -/
theorem ContainersEnd.toToolDocument_ne (ends : graph.ContainersEnd) :
    graph.toToolDocument flags ≠ .error .endless := by
  let c : Conversion := ⟨graph, flags, .tool⟩
  intro hend
  rcases run_of_toToolDocument_eq_error hend with hroot | ⟨id, type, after, hroot, hrun⟩
  · exact toolRoot_ne hroot
  · have found : c.graph.nodes.find? id = some (.object type) := (toolRoot_eq_ok_iff.mp hroot).2
    rcases Conversion.exists_fits_body found with ⟨depth, bound, fits⟩
    have hends : (c.objectBody c.convert type (some id)).FailsIn {}
        fun error _ => error ≠ .endless :=
      Conversion.ends_objectBody bound ends (fits c.budget (Nat.le_succ _))
    exact Attempt.Meets.of_error hends hrun rfl

/-- The part a transform begins with is ready in the empty state. -/
theorem Begins.isReady {dialect : Dialect} {task : Task} (h : graph.Begins dialect task) :
    Conversion.IsReady ⟨graph, flags, dialect⟩ {} task := by
  cases h with
  | schema => trivial
  | tool root => exact ⟨(toolRoot_eq_ok_iff.mp root).2, List.not_mem_nil⟩

/-- Where no list and no map contains itself, both conversions come to an end.  Wherever one of
them is meanwhile, also when it fails later on, the identifiers whose bodies or subtypes are
begun around that place are the ones that the state has under way.  They are objects and
polymorphic types of the table, all of them different, so there are no more than the table has
entries. -/
theorem ends_of_containersEnd (ends : graph.ContainersEnd) (flags : Flags) :
    (∀ name, graph.toSchemaDocument flags name ≠ .error .endless) ∧
    graph.toToolDocument flags ≠ .error .endless ∧
    ∀ dialect task around inner inside, graph.Begins dialect task →
      Nests ⟨graph, flags, dialect⟩ task {} around inner inside →
        inside.inProgress = around ∧ (∀ id ∈ around, graph.Branches id) ∧ around.Nodup ∧
          around.length ≤ graph.nodes.length := by
  refine ⟨ends.toSchemaDocument_ne, ends.toToolDocument_ne, ?_⟩
  intro dialect task around inner inside hbegins hnests
  have hready : Conversion.IsReady ⟨graph, flags, dialect⟩ {} task := hbegins.isReady
  have hinside : inside.inProgress = around := by simpa using hnests.inProgress_eq hready
  exact ⟨hinside, hnests.branches hready, hnests.nodup hready, hnests.length_le hready⟩

/-- A list of trees that hold such lists again, and an owner that is missing. -/
def forest : TypeGraph where
  root := .named "Forest" false
  nodes := [
    ("Forest", .list (.named "Tree" true) none),
    ("Tree", .object {
      name := "Tree", properties := [
        { name := "children", type := .named "Forest" true },
        { name := "owner", type := .named "Owner" false }] })]

/-- Its list has contents, the trees have none. -/
theorem forest_encloses {id : TypeId} {nullable : Bool} {inner : TypeRef}
    (h : forest.Encloses (.named id nullable) inner) :
    id = "Forest" ∧ inner = .named "Tree" true := by
  rcases Option.bind_eq_some_iff.mp h with ⟨node, found, hcontents⟩
  have hmem := Table.mem_of_find? found
  simp only [forest, List.mem_cons, List.not_mem_nil, or_false, Prod.mk.injEq] at hmem
  rcases hmem with ⟨rfl, rfl⟩ | ⟨rfl, rfl⟩
  · cases hcontents
    exact ⟨rfl, rfl⟩
  · cases hcontents

/-- The containers of the forest end. -/
theorem forest_containersEnd : forest.ContainersEnd := by
  intro id nullable other hcircle
  rcases Relation.TransGen.head'_iff.mp hcircle with ⟨middle, hfirst, hrest⟩
  rcases forest_encloses hfirst with ⟨rfl, rfl⟩
  rcases Relation.ReflTransGen.cases_head hrest with hsame | ⟨next, hnext, -⟩
  · simp at hsame
  · simpa using (forest_encloses hnext).1

/-- Its conversions come to an end.  When one is at the list of children, the tree is under
way, and nothing else. -/
theorem forest_ends :
    forest.ContainersEnd ∧
    (∀ name, forest.toSchemaDocument (.initial .jsonSchema) name ≠ .error .endless) ∧
    forest.toToolDocument (.initial .tool) ≠ .error .endless ∧
    ∃ inside, Nests ⟨forest, .initial .jsonSchema, .jsonSchema⟩ (.fragment forest.root) {}
      ["Tree"] (.fragment (.named "Forest" true)) inside ∧ inside.inProgress = ["Tree"] := by
  have h := ends_of_containersEnd forest_containersEnd
  refine ⟨forest_containersEnd, (h _).1, (h _).2.1, ConversionState.start (some "Tree") {}, ?_⟩
  have hlist : Nests ⟨forest, .initial .jsonSchema, .jsonSchema⟩ (.fragment forest.root) {}
      [] (.fragment (.named "Tree" true)) {} :=
    .deeper .here (.element (.named rfl))
  have hbody := hlist.deeper (.object rfl List.not_mem_nil List.not_mem_nil)
  have hproperty := (hbody.deeper .body).deeper .property
  exact ⟨hproperty, ((h _).2.2 _ _ _ _ _ .schema hproperty).1⟩

end TypeGraph

end Schemata
