import Schemata.Proofs.Attempt
import Schemata.Proofs.Conversion.Budget
import Schemata.Proofs.Conversion.Resolution
import Schemata.Proofs.Schema.Unions

/-!
# The two dialects side by side

A JSON Schema document and a tool schema of one graph come from the same walk.  They keep
the same nodes under way and promise the same pointers, and a fragment of the tool schema
is the one of the document with unions in place of the markers inside it.

Main results:

- Theorem {lit}`InStep.reference`: with any budget, converting a reference for a tool
  schema mirrors converting it for a document.
- Theorem {lit}`toToolDocument_restates`: when both dialects require the same
  names, the two conversions of a graph fail alike, or the tool schema says what the
  document says, with unions in place of markers.
-/

namespace Schemata

/-- The state of a conversion with unions in place of the markers in what is shared. -/
def ConversionState.withUnions (state : ConversionState) : ConversionState :=
  { state with defs := Definition.tableWithUnions state.defs }

namespace ConversionState

variable (state : ConversionState)

@[simp] theorem withUnions_inProgress : state.withUnions.inProgress = state.inProgress := rfl

@[simp] theorem withUnions_pending : state.withUnions.pending = state.pending := rfl

@[simp] theorem has_withUnions_defs (id : TypeId) :
    state.withUnions.defs.has id = state.defs.has id :=
  Definition.has_tableWithUnions ..

/-- Entering a definition and rewriting its unions commute: what is in progress holds no unions.
-/
theorem withUnions_start (id : Option TypeId) :
    state.withUnions.start id = (state.start id).withUnions := by
  cases id with
  | none => rfl
  | some id => by_cases inside : id ∈ state.inProgress <;> simp [start, withUnions, inside]

/-- A promise records an identifier only, so rewriting unions passes it by. -/
theorem withUnions_promise (id : TypeId) :
    state.withUnions.promise id = (state.promise id).withUnions := by
  by_cases known : id ∈ state.pending <;> simp [promise, withUnions, known]

/-- Sharing a rewritten definition is sharing it and rewriting the shared table after. -/
theorem withUnions_share (id : TypeId) (definition : Definition) :
    state.withUnions.share id definition.withUnions = (state.share id definition).withUnions := by
  rw [share, share, withUnions, withUnions, Definition.tableWithUnions_put]

end ConversionState

namespace Conversion

open Attempt (CarriedBy)
open Definition (partsWithUnions)

/-! ## Fragments without a marker -/

/-- The fragment of a reference that is not nullable carries no marker. -/
theorem Runs.asUnion_eq {c : Conversion} {id : TypeId} {result : Definition}
    {state after : ConversionState}
    (h : c.Runs (.fragment (.named id false) result) state after) : result.asUnion = result := by
  cases h <;> rfl

/-- The body of an object carries no marker. -/
theorem asUnion_of_run_objectBody {c : Conversion} {below : ConvertRef} {type : ObjectType TypeRef}
    {id : Option TypeId} {result : Definition} {state after : ConversionState}
    (h : (c.objectBody below type id).run state = (.ok result, after)) :
    result.asUnion = result := by
  rw [objectBody, Attempt.run_bind_eq_ok_iff] at h
  rcases h with ⟨table, middle, -, hresult⟩
  rw [Attempt.run_pure_eq_ok_iff] at hresult
  rcases hresult with ⟨rfl, -⟩
  rfl

/-- Where the outermost union form changes nothing, rewriting the parts rewrites the whole. -/
theorem partsWithUnions_of_asUnion {definition : Definition}
    (h : definition.asUnion = definition) :
    definition.partsWithUnions = definition.withUnions := by
  rw [← h, Definition.partsWithUnions_asUnion, h]

/-- A null marker sits beside the parts, so it commutes with rewriting them. -/
theorem partsWithUnions_markNullable (nullable : Bool) (definition : Definition) :
    (markNullable nullable definition).partsWithUnions =
      markNullable nullable definition.partsWithUnions := by
  cases nullable with
  | false => rfl
  | true => exact Definition.partsWithUnions_mapHead ..

theorem partsWithUnions_pointer (target : String) (nullable : Bool) :
    (pointer target nullable).partsWithUnions = pointer target nullable := by
  cases nullable <;> rfl

/-! ## Two conversions in step -/

/-- Two conversions of one graph with the same flags, the second to a tool schema, that
require the same names. -/
structure InStep (json tool : Conversion) : Prop where
  graph : tool.graph = json.graph
  flags : tool.flags = json.flags
  dialect : tool.dialect = .tool
  required : ∀ type, tool.requiredNames type = json.requiredNames type

/-- On states with unions in place of markers, a step of a second conversion does what a step
of a first one does. -/
abbrev Mirrors {α α' : Type} (image : α → α') (first : Convert α) (second : Convert α') : Prop :=
  CarriedBy ConversionState.withUnions image id first second

/-- The second way to convert references mirrors the first. -/
def MirrorsBelow (below below' : ConvertRef) : Prop :=
  ∀ ref owner, Mirrors partsWithUnions (below ref owner) (below' ref owner)

variable {json tool : Conversion} {below below' : ConvertRef}

theorem mirrors_ofExcept {α : Type} (outcome : Except Error α) :
    Mirrors id (Attempt.ofExcept outcome) (Attempt.ofExcept outcome) :=
  Attempt.carriedBy_ofExcept (by rw [Attempt.mapError_id, Except.map_id]; rfl)

/-- A step mirrored by another is mirrored under the same identifier in progress as well. -/
theorem mirrors_during {α β : Type} {image : α → β} {id : Option TypeId} {step : Convert α}
    {step' : Convert β} (h : Mirrors image step step') :
    Mirrors image (during id step) (during id step') := by
  have hstop : ∀ state : ConversionState,
      state.withUnions.stop id = (state.stop id).withUnions := by
    intro state
    cases id <;> rfl
  have hstart : Mirrors (fun _ => ())
      (Attempt.modify (·.start id)) (Attempt.modify (·.start id)) :=
    Attempt.carriedBy_modify fun state => state.withUnions_start id
  exact hstart.bind fun _ _ => h.andThen hstop

namespace InStep

/-- Dressing adds the same to fragments with unions. -/
theorem dress (h : InStep json tool) (property : Property TypeRef) (required : Bool)
    (definition : Definition) :
    tool.dress property required definition.partsWithUnions =
      (json.dress property required definition).withUnions := by
  have hunite : tool.unite required definition.partsWithUnions =
      (json.unite required definition).withUnions := by
    have hjson : (json.unite required definition).withUnions = definition.withUnions := by
      rw [unite]
      split
      · exact Definition.withUnions_asUnion definition
      · rfl
    rw [hjson, unite, if_pos (by simp [h.dialect])]
    exact Definition.asUnion_partsWithUnions definition
  have hsettle : ∀ fragment : Definition, tool.settle property required fragment.withUnions =
      (json.settle property required fragment).withUnions := by
    intro fragment
    rw [settle, settle, h.flags]
    split
    · rfl
    · split <;> rw [Definition.withUnions_mapHead] <;> intro head <;>
        by_cases marked : head.nullable.isTruthy = true <;>
          simp [TypedHead.asUnion, TypedHead.types, marked]
  have hdescribe : ∀ fragment : Definition, describe property fragment.withUnions =
      (describe property fragment).withUnions := by
    intro fragment
    rw [describe, describe]
    split
    · exact (Definition.withUnions_withDescription ..).symm
    · rfl
  rw [dress_eq, dress_eq, hunite, hsettle, hdescribe]

/-- Converted properties correspond one by one, under tables that correspond. -/
theorem properties (h : InStep json tool) (hbelow : MirrorsBelow below below')
    (required : List PropertyName) (owner : Option TypeId) (known : Table PropertyName Definition)
    (properties : List (Property TypeRef)) :
    Mirrors Definition.tableWithUnions
      (json.properties below required owner known properties)
      (tool.properties below' required owner (Definition.tableWithUnions known) properties) := by
  induction properties generalizing known with
  | nil => exact Attempt.carriedBy_pure rfl
  | cons first rest ih =>
      have hfirst : Mirrors Definition.withUnions
          (json.property below first (required.contains first.name) owner)
          (tool.property below' first (required.contains first.name) owner) := by
        refine (hbelow first.type owner).bind fun definition _ => ?_
        exact Attempt.carriedBy_pure (h.dress ..)
      rw [Conversion.properties, Conversion.properties]
      refine hfirst.bind fun definition _ => ?_
      rw [← Definition.tableWithUnions_put]
      exact ih _

/-- The bodies of one object type correspond. -/
theorem objectBody (h : InStep json tool) (hbelow : MirrorsBelow below below')
    (type : ObjectType TypeRef) (id : Option TypeId) :
    Mirrors Definition.withUnions
      (json.objectBody below type id) (tool.objectBody below' type id) := by
  rw [Conversion.objectBody, Conversion.objectBody, h.required]
  have htable : Mirrors Definition.tableWithUnions
      (during id (json.properties below (json.requiredNames type) id [] type.properties))
      (during id (tool.properties below' (json.requiredNames type) id [] type.properties)) :=
    mirrors_during (h.properties hbelow (json.requiredNames type) id [] type.properties)
  refine htable.bind fun table _ => Attempt.carriedBy_pure ?_
  rw [Definition.withUnions, Definition.propertiesWithUnions, Definition.additionalWithUnions,
    Definition.membersWithUnions_eq, Definition.tableWithUnions, Definition.tableWithUnions,
    List.map_map, List.map_map]
  rfl

/-- The cases are those of the conversion: the object is under way, shared or written out.
A body carries no marker when it is shared. -/
theorem object (h : InStep json tool) (hbelow : MirrorsBelow below below') (type : ObjectType TypeRef)
    (nullable : Bool) (id : TypeId) :
    Mirrors partsWithUnions
      (json.object below type nullable (some id)) (tool.object below' type nullable (some id)) := by
  have hpointer : ∀ target, Mirrors partsWithUnions
      (pure (pointer target nullable)) (pure (pointer target nullable)) := fun target =>
    Attempt.carriedBy_pure (partsWithUnions_pointer target nullable).symm
  rw [Conversion.object, Conversion.object, h.graph]
  refine Attempt.carriedBy_get.bind fun state _ => ?_
  rw [ConversionState.withUnions_inProgress, ConversionState.has_withUnions_defs]
  refine .ite Iff.rfl (fun inside => ?_) fun outside => .ite Iff.rfl (fun shared => hpointer _) fun new => ?_
  · refine .ite Iff.rfl (fun root => hpointer _) fun root => ?_
    have hpromise : Mirrors (fun _ => ())
        (Attempt.modify (·.promise id)) (Attempt.modify (·.promise id)) :=
      Attempt.carriedBy_modify fun state => state.withUnions_promise id
    exact hpromise.bind fun _ _ => hpointer _
  · refine (h.objectBody hbelow type (some id)).bind fun definition hrun => ?_
    rcases hrun with ⟨before, after, hrun⟩
    have hunmarked := partsWithUnions_of_asUnion (asUnion_of_run_objectBody hrun)
    have hmarked : Mirrors partsWithUnions
        (pure (markNullable nullable definition))
        (pure (markNullable nullable definition.withUnions)) := by
      refine Attempt.carriedBy_pure ?_
      rw [partsWithUnions_markNullable, hunmarked]
    have hshare : Mirrors (fun _ => ())
        (Attempt.modify (·.share id definition))
        (Attempt.modify (·.share id definition.withUnions)) :=
      Attempt.carriedBy_modify fun state => state.withUnions_share id definition
    refine Attempt.carriedBy_get.bind fun state _ => ?_
    rw [ConversionState.withUnions_pending]
    refine .ite Iff.rfl (fun promised => ?_) fun free => hmarked
    exact hshare.bind fun _ _ => .ite Iff.rfl (fun root => hmarked) fun root => hpointer _

/-- A subtype is not nullable where it is shared, so its fragment carries no marker. -/
theorem variant (h : InStep json tool) (hsound : json.Sound below) (hbelow : MirrorsBelow below below')
    (owner : Option TypeId) (variant : Variant TypeRef) :
    Mirrors (fun _ => ())
      (json.variant below owner variant) (tool.variant below' owner variant) := by
  have hbody : Mirrors Definition.withUnions
      (json.variantBody below variant.id owner) (tool.variantBody below' variant.id owner) := by
    rw [variantBody, variantBody, h.graph]
    refine (mirrors_ofExcept _).bind fun node _ => ?_
    rw [id]
    split
    · exact h.objectBody hbelow _ _
    · refine (hbelow (.named variant.id false) owner).congr_image ?_
      intro state result after hrun
      exact partsWithUnions_of_asUnion (hsound hrun).asUnion_eq
  rw [Conversion.variant, Conversion.variant]
  refine Attempt.carriedBy_get.bind fun state _ => ?_
  rw [ConversionState.withUnions_inProgress, ConversionState.has_withUnions_defs]
  refine .ite Iff.rfl (fun shared => Attempt.carriedBy_pure rfl) fun new =>
    .ite Iff.rfl (fun inside => ?_) fun outside => ?_
  · exact Attempt.carriedBy_modify fun state => state.withUnions_promise variant.id
  · refine hbody.bind fun definition _ => ?_
    exact Attempt.carriedBy_modify fun state => state.withUnions_share variant.id definition

/-- The tool fragment of a choice is the other one with the unions of its parts rewritten. -/
theorem choiceFragment (h : InStep json tool) (type : PolymorphicType TypeRef) (nullable : Bool) :
    tool.choiceFragment type nullable = (json.choiceFragment type nullable).partsWithUnions := by
  have hpointers : (variantPointers type).map Definition.withUnions = variantPointers type := by
    rw [variantPointers, List.map_map]
    rfl
  have hblock : tool.discriminatorBlock type.discriminator =
      json.discriminatorBlock type.discriminator := by
    simp only [discriminatorBlock, h.flags]
  rw [Conversion.choiceFragment, Conversion.choiceFragment, hblock]
  cases nullable with
  | false =>
      simp [partsWithUnions, Definition.withUnions, Definition.optionsWithUnions_eq_map, hpointers]
  | true =>
      simp [partsWithUnions, Definition.withUnions, Definition.optionsWithUnions_eq_map, hpointers,
        nullFragment, TypedHead.asUnion, Json.isTruthy]

/-- The fragments of one polymorphic type correspond, its variants converted in the same order. -/
theorem polymorphic (h : InStep json tool) (hsound : json.Sound below)
    (hbelow : MirrorsBelow below below') (type : PolymorphicType TypeRef) (nullable : Bool)
    (id : TypeId) :
    Mirrors partsWithUnions
      (json.polymorphic below type nullable (some id))
      (tool.polymorphic below' type nullable (some id)) := by
  have hvariants : Mirrors (fun _ => ())
      (during (some id) (Attempt.forEach type.variants (json.variant below (some id))))
      (during (some id) (Attempt.forEach type.variants (tool.variant below' (some id)))) :=
    mirrors_during (.forEach (List.forall₂_same.mpr fun variant _ => h.variant hsound hbelow (some id) variant))
  have hchoice : Mirrors partsWithUnions
      (pure (json.choiceFragment type nullable)) (pure (tool.choiceFragment type nullable)) :=
    Attempt.carriedBy_pure (h.choiceFragment type nullable)
  intro state
  rw [run_polymorphic, run_polymorphic, ConversionState.withUnions_inProgress]
  by_cases inside : id ∈ state.inProgress
  · rw [if_pos inside, if_pos inside]
    exact hchoice state
  · rw [if_neg inside, if_neg inside]
    exact (hvariants.bind fun _ _ => hchoice) state

/-- The node that a reference leads to is converted in step. -/
theorem node (h : InStep json tool) (hsound : json.Sound below) (hbelow : MirrorsBelow below below')
    {ref : TypeRef} {node : Node} (leads : json.graph.Leads ref node) :
    Mirrors partsWithUnions
      (json.node below node ref.nullable ref.id?) (tool.node below' node ref.nullable ref.id?) := by
  cases node with
  | primitive | enumeration => exact Attempt.carriedBy_pure rfl
  | list element description =>
      refine (hbelow element _).bind fun items _ => Attempt.carriedBy_pure ?_
      rw [partsWithUnions, Definition.itemsWithUnions, Definition.asUnion_partsWithUnions,
        Definition.withUnions_asUnion]
  | map key value description =>
      refine (hbelow value _).bind fun values _ => Attempt.carriedBy_pure ?_
      rw [partsWithUnions, Definition.propertiesWithUnions, Definition.additionalWithUnions,
        Definition.asUnion_partsWithUnions, Definition.withUnions_asUnion]
  | object type =>
      rcases leads.exists_id rfl with ⟨id, hid⟩
      rw [Conversion.node, Conversion.node, hid]
      exact h.object hbelow type _ id
  | polymorphic type =>
      rcases leads.exists_id rfl with ⟨id, hid⟩
      rw [Conversion.node, Conversion.node, hid]
      exact h.polymorphic hsound hbelow type _ id
  | other name => exact Attempt.carriedBy_fail rfl

/-- One layer of the conversion keeps the correspondence, given it of the calls below. -/
theorem layer (h : InStep json tool) (hsound : json.Sound below) (hbelow : MirrorsBelow below below') :
    MirrorsBelow (json.layer below) (tool.layer below') := by
  intro ref owner
  cases ref with
  | inline node nullable =>
      rw [Conversion.layer, Conversion.layer]
      refine .ite Iff.rfl (fun named => Attempt.carriedBy_fail rfl) fun unnamed => ?_
      exact h.node hsound hbelow (.inline (by simpa using unnamed))
  | named id nullable =>
      rw [Conversion.layer, Conversion.layer, h.graph]
      refine (mirrors_ofExcept _).bind fun node hnode => ?_
      rcases hnode with ⟨state, after, hnode⟩
      rw [Attempt.run_ofExcept, Prod.mk.injEq] at hnode
      exact h.node hsound hbelow (.named (TypeGraph.node_eq_ok_iff.mp hnode.1))

/-- With any budget, converting a reference for a tool schema mirrors converting it for a
document. -/
theorem reference (h : InStep json tool) (budget : Nat) :
    MirrorsBelow (json.reference budget) (tool.reference budget) := by
  induction budget with
  | zero => exact fun ref owner => Attempt.carriedBy_fail rfl
  | succ budget ih => exact h.layer (runs_of_reference budget) ih

end InStep

/-! ## The object at the root -/

variable {c : Conversion} {type : ObjectType TypeRef} {id : TypeId}

/-- What a conversion makes of the body of the object at the root: a fragment, and one
more shared definition when some pointer promises it. -/
def finishRoot (nullable : Bool) (id : TypeId) :
    Except Error Definition × ConversionState → Except Error Definition × ConversionState
  | (.ok body, after) =>
    (.ok (markNullable nullable body), if after.pending.contains id then after.share id body else after)
  | failed => failed

/-- The object at the root is not under way and not shared when its conversion begins. -/
theorem run_object_root (root : c.graph.root.id? = some id) (nullable : Bool) :
    (c.object below type nullable (some id)).run {} =
      finishRoot nullable id ((c.objectBody below type (some id)).run {}) := by
  have hnew : (c.object below type nullable (some id)).run {} =
      (c.objectBody below type (some id) >>= fun definition => do
        let state ← Attempt.get
        if state.pending.contains id then do
          Attempt.modify (·.share id definition)
          if c.graph.root.id? = some id then return markNullable nullable definition
          else return pointer (defsPointer id) nullable
        else return markNullable nullable definition).run {} := rfl
  rw [hnew]
  rcases hbody : (c.objectBody below type (some id)).run {} with ⟨outcome, after⟩
  cases outcome with
  | error error => rw [Attempt.run_bind_error hbody, finishRoot]; simp
  | ok body =>
      rw [Attempt.run_bind_ok hbody, Attempt.run_get_bind, finishRoot, if_pos root]
      by_cases promised : after.pending.contains id = true
      · rw [if_pos promised, if_pos promised]
        rfl
      · rw [if_neg promised, if_neg promised]
        rfl

end Conversion

/-! ## Documents -/

/-- The flags with which both dialects require the same names of every object. -/
def Flags.RequireAlike (flags : Flags) : Prop :=
  flags.strict.isTruthy = false ∨
    flags.respectDefaults.isTruthy = false ∧ flags.requireNullable.isTruthy = true

/-- A tool schema says what a JSON Schema document says, with unions in place of markers.
Absent tables and lists count as empty.  The document may share the root object, too. -/
structure ToolDocument.Restates (tool : ToolDocument) (document : SchemaDocument) (root : TypeId) :
    Prop where
  properties : tool.parameters.properties.getD [] =
    Definition.tableWithUnions (document.body.properties.getD [])
  required : ∃ names, tool.parameters.required = .arr names ∧
    document.body.required = (Json.arr names).orNull
  unshared : root ∉ (tool.parameters.defs.getD []).keys
  defs : Definition.tableWithUnions (document.body.defs.getD []) = tool.parameters.defs.getD [] ∨
    ∃ body, Definition.tableWithUnions (document.body.defs.getD []) =
      tool.parameters.defs.getD [] ++ [(root, body)]

namespace TypeGraph

open Conversion

variable {graph : TypeGraph} {flags : Flags}

/-- Flags that require alike in both dialects put the two conversions of a graph in step. -/
theorem inStep_of_requireAlike (alike : flags.RequireAlike) :
    InStep ⟨graph, flags, .jsonSchema⟩ ⟨graph, flags, .tool⟩ where
  graph := rfl
  flags := rfl
  dialect := rfl
  required := by
    intro type
    rcases alike with lenient | ⟨ignored, all⟩
    · simp [requiredNames, lenient]
    · by_cases strict : flags.strict.isTruthy = true <;>
        simp [requiredNames, strict, ignored, all]

/-- The conversion of a root that names an object is that of the body of the object. -/
theorem run_convert_root {c : Conversion} {id : TypeId} {type : ObjectType TypeRef}
    (root : c.graph.root.id? = some id) (found : c.graph.nodes.find? id = some (.object type)) :
    (c.convert c.graph.root none).run {} =
      finishRoot c.graph.root.nullable id ((c.objectBody c.convert type (some id)).run {}) := by
  rcases TypeRef.id?_eq_some_iff.mp root with ⟨nullable, href⟩
  have hbudget : c.budget = c.budget - 1 + 1 := by
    rcases c.exists_budget_bound with ⟨depth, -, hless⟩
    omega
  have hnode : c.graph.node id = .ok (.object type) := node_eq_ok_iff.mpr found
  rw [← run_body_eq_convert found hbudget.le, ← run_object_root root, convert, hbudget,
    reference, href, layer, hnode, Attempt.ofExcept_ok_bind]
  rfl

/-- A tool schema made of the parts of a document with unions says what the document says. -/
theorem restates_of_run {c : Conversion} {id : TypeId} {type : ObjectType TypeRef}
    {fragments : List Definition} {after : ConversionState} {nullable : Bool} {name : String}
    {title description strict : Json} (h : c.Runs (.body id type fragments) {} after) :
    ToolDocument.Restates
      { name := title, description, strict
        parameters := {
          properties := some (Definition.membersWithUnions (c.memberTable type fragments))
          required := .arr (c.requiredList type)
          defs := nonEmpty? after.withUnions.defs } }
      { name := .str name, strict
        body := schemaBody flags name (markNullable nullable (c.objectFragment type fragments))
          (if after.pending.contains id then after.share id (c.objectFragment type fragments)
            else after).defs }
      id := by
  have hnew : id ∉ after.defs.keys := h.not_mem_keys_body List.not_mem_nil
  have hfragment : markNullable nullable (c.objectFragment type fragments) =
      .object (headFor "object" type.description nullable) (some (c.memberTable type fragments))
        (.arr (c.requiredList type)) (.plain (.bool false)) := by
    cases nullable <;> rfl
  rw [hfragment, schemaBody]
  constructor
  · rw [getD_nonEmpty?, Option.getD_some, Definition.membersWithUnions_eq]
  · exact ⟨_, rfl, rfl⟩
  · rw [getD_nonEmpty?]
    simpa [ConversionState.withUnions] using hnew
  · simp only [getD_nonEmpty?]
    by_cases promised : after.pending.contains id = true
    · right
      have hlast : ∀ entry ∈ after.defs, (id == entry.1) = false := by
        intro entry hentry
        rw [beq_eq_false_iff_ne]
        rintro rfl
        exact hnew (List.mem_map_of_mem hentry)
      refine ⟨(c.objectFragment type fragments).withUnions, ?_⟩
      rw [if_pos promised, ConversionState.share, Table.put_of_new hlast]
      simp [Definition.tableWithUnions, ConversionState.withUnions]
    · left
      rw [if_neg promised]
      rfl

/-- Of a graph whose root names an object, the two conversions fail alike, or the tool
schema says what the document says, when both dialects require the same names. -/
theorem toToolDocument_restates {id : TypeId} {type : ObjectType TypeRef}
    (root : graph.root.id? = some id) (found : graph.nodes.find? id = some (.object type))
    (alike : flags.RequireAlike) (name : String) :
    (∃ error, graph.toSchemaDocument flags name = .error error ∧
      graph.toToolDocument flags = .error error) ∨
    ∃ document tool, graph.toSchemaDocument flags name = .ok document ∧
      graph.toToolDocument flags = .ok tool ∧ tool.Restates document id := by
  let json : Conversion := ⟨graph, flags, .jsonSchema⟩
  let tool : Conversion := ⟨graph, flags, .tool⟩
  have hstep : InStep json tool := inStep_of_requireAlike alike
  have hmirror : (tool.objectBody tool.convert type (some id)).run {} =
      (((json.objectBody json.convert type (some id)).run {}).1.map Definition.withUnions,
        ((json.objectBody json.convert type (some id)).run {}).2.withUnions) := by
    have hbody := hstep.objectBody (hstep.reference json.budget) type (some id) {}
    rw [Attempt.mapError_id] at hbody
    exact hbody
  have hroot := run_convert_root (c := json) root found
  have htool : graph.toolRoot = .ok (id, type) := toolRoot_eq_ok_iff.mpr ⟨root, found⟩
  rw [toSchemaDocument, toToolDocument, htool, ok_bind]
  rcases hbody : (json.objectBody json.convert type (some id)).run {} with ⟨outcome, after⟩
  rw [hbody] at hroot hmirror
  simp only [json, tool] at hroot hmirror
  cases outcome with
  | error error =>
      left
      refine ⟨error, ?_, ?_⟩
      · rw [hroot, finishRoot]
        simp
      · simp only [hmirror, Except.map]
  | ok body =>
      right
      rcases runs_of_objectBody (runs_of_reference _) found List.not_mem_nil hbody with
        ⟨fragments, hruns, rfl⟩
      rw [hroot, finishRoot]
      simp only [hmirror, Except.map]
      refine ⟨_, _, rfl, rfl, ?_⟩
      exact restates_of_run hruns

/-- An object with an optional note that is a subtype of the type of its own property. -/
def notedRoot : TypeGraph where
  root := .named "Root" false
  nodes := [
    ("Root", .object {
      name := "Root", properties := [
        { name := "note", type := .inline (.primitive .string none) true,
          hasDefault := true, default := .str "none" },
        { name := "child", type := .named "Base" true }] }),
    ("Base", .polymorphic { base := "Base", variants := [⟨"Root", .named "Root" false⟩] })]

/-- Its tool schema says what its document says, which shares the root object, too. -/
theorem notedRoot_restates :
    (Flags.initial .jsonSchema).RequireAlike ∧ ∃ document tool,
      notedRoot.toSchemaDocument (.initial .jsonSchema) "Root" = .ok document ∧
      notedRoot.toToolDocument (.initial .jsonSchema) = .ok tool ∧
      tool.Restates document "Root" := by
  have halike : (Flags.initial .jsonSchema).RequireAlike := Or.inl rfl
  have hroot : notedRoot.root.id? = some "Root" := rfl
  have hfound : notedRoot.nodes.find? "Root" = some (.object _) := rfl
  have hsucceeds : ∃ document,
      notedRoot.toSchemaDocument (.initial .jsonSchema) "Root" = .ok document := ⟨_, rfl⟩
  rcases toToolDocument_restates hroot hfound halike "Root" with ⟨error, hfails, -⟩ | h
  · rcases hsucceeds with ⟨document, hdocument⟩
    rw [hdocument] at hfails
    cases hfails
  · exact ⟨halike, h⟩

end TypeGraph

end Schemata
