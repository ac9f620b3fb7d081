import Schemata.Conversion.Document

/-!
# Runs of a conversion

A successful conversion is a derivation: one rule for each way in which a reference,
an object body, a list of properties or a list of subtypes can be converted, with the
state before and after.  Budgets and failures do not occur in the rules, so an
invariant of the conversion is one induction over {lit}`Runs`.

Main results:

- Theorem {lit}`runs_of_reference`: a conversion with any budget that succeeds is a run.
- Theorem {lit}`runs_of_toSchemaDocument`: a JSON Schema document comes from a run on
  the root reference.
- Theorem {lit}`runs_of_toToolDocument`: a tool schema comes from a run on the body of
  the root object.
-/

namespace Schemata

/-- The node that a reference leads to: the node that it holds, unless that one needs a
name, or the node that the table has under its name. -/
inductive TypeGraph.Leads (graph : TypeGraph) : TypeRef → Node → Prop
  | inline {node : Node} {nullable : Bool} (unnamed : node.needsName = false) :
      Leads graph (.inline node nullable) node
  | named {id : TypeId} {nullable : Bool} {node : Node}
      (found : graph.nodes.find? id = some node) : Leads graph (.named id nullable) node

/-- A reference that leads to a node that needs a name has one. -/
theorem TypeGraph.Leads.exists_id {graph : TypeGraph} {ref : TypeRef} {node : Node}
    (h : graph.Leads ref node) (named : node.needsName = true) : ∃ id, ref.id? = some id := by
  cases h with
  | inline unnamed => simp [named] at unnamed
  | named found => exact ⟨_, rfl⟩

/-- Looking a node up succeeds exactly when the table has it. -/
theorem TypeGraph.node_eq_ok_iff {graph : TypeGraph} {id : TypeId} {owner : Option TypeId}
    {node : Node} : graph.node id owner = .ok node ↔ graph.nodes.find? id = some node := by
  unfold TypeGraph.node
  cases graph.nodes.find? id with
  | none => simp
  | some found => simp

namespace Conversion

variable (c : Conversion)

/-! ## Fragments as functions of their parts -/

/-- The keywords of a fragment that is written out for a node. -/
def headFor (type : String) (description : Option String) (nullable : Bool) : TypedHead :=
  { type := .str type, description := .ofText? description, nullable := marker nullable }

/-- The fragment of a property's type with a union in place of the marker, where one
belongs. -/
def unite (required : Bool) (definition : Definition) : Definition :=
  if required || c.dialect = .tool then definition.asUnion else definition

/-- The fragment of a property's type with the default, as the only value or as a
default. -/
def settle (property : Property TypeRef) (required : Bool) (definition : Definition) :
    Definition :=
  if property.default.isNull then definition
  else if c.flags.strict.isTruthy && required then
    definition.mapHead fun head => { head with const := property.default }
  else definition.mapHead fun head => { head with default := property.default }

/-- The fragment of a property's type with the description of the property. -/
def describe (property : Property TypeRef) (definition : Definition) : Definition :=
  match property.description with
  | some text => definition.withDescription (.str text)
  | none => definition

/-- Dressing the fragment of a property's type takes three steps. -/
theorem dress_eq (property : Property TypeRef) (required : Bool) (definition : Definition) :
    c.dress property required definition =
      describe property (c.settle property required (c.unite required definition)) := rfl

/-- The properties of an object by name, each with the fragment of its type dressed; of
properties with one name the last counts. -/
def propertyTable (required : List PropertyName) (known : Table PropertyName Definition)
    (fragments : List (Property TypeRef × Definition)) : Table PropertyName Definition :=
  fragments.foldl
    (fun table entry =>
      table.put entry.1.name (c.dress entry.1 (required.contains entry.1.name) entry.2))
    known

/-- The properties of an object as members, when their types have the given fragments. -/
def memberTable (type : ObjectType TypeRef) (fragments : List Definition) :
    Table String Definition :=
  (c.propertyTable (c.requiredNames type) [] (type.properties.zip fragments)).map
    fun entry => (entry.1.memberName, entry.2)

/-- The names that an object lists as required, in the order of declaration. -/
def requiredList (type : ObjectType TypeRef) : List PropertyName :=
  (type.properties.map (·.name)).filter (c.requiredNames type).contains

/-- The fragment of an object whose properties have the given fragments. -/
def objectFragment (type : ObjectType TypeRef) (fragments : List Definition) : Definition :=
  .object { type := "object", description := .ofText? type.description }
    (some (c.memberTable type fragments)) (.arr (c.requiredList type)) (.plain (.bool false))

/-- The pointers to the subtypes of a polymorphic type. -/
def variantPointers (type : PolymorphicType TypeRef) : List Definition :=
  type.variants.map fun variant => .reference (.str (defsPointer variant.id)) .null

/-- The fragment of a polymorphic type. -/
def choiceFragment (type : PolymorphicType TypeRef) (nullable : Bool) : Definition :=
  let discriminator := c.discriminatorBlock type.discriminator
  if nullable then
    .anyOf (.ofText? type.description)
      [.oneOf .null (variantPointers type) discriminator, nullFragment]
  else .oneOf (.ofText? type.description) (variantPointers type) discriminator

/-! ## Runs -/

/-- What a part of a conversion is about, with what it yields. -/
inductive Job
  /-- The fragment of a reference. -/
  | fragment (ref : TypeRef) (result : Definition)
  /-- The fragments of the properties of a named object. -/
  | body (id : TypeId) (type : ObjectType TypeRef) (fragments : List Definition)
  /-- The fragments of properties. -/
  | properties (properties : List (Property TypeRef)) (fragments : List Definition)
  /-- The shared definitions of subtypes. -/
  | variants (variants : List (Variant TypeRef))

/-- The successful parts of a conversion, each with the state before and after. -/
inductive Runs : Job → ConversionState → ConversionState → Prop
  | primitive {ref : TypeRef} {kind : PrimitiveKind} {description : Option String}
      {state : ConversionState} (node : c.graph.Leads ref (.primitive kind description)) :
      Runs (.fragment ref (.value (headFor kind.schemaType description ref.nullable) .null))
        state state
  | enumeration {ref : TypeRef} {type : EnumType} {state : ConversionState}
      (node : c.graph.Leads ref (.enumeration type)) :
      Runs (.fragment ref (.value (headFor "string" type.description ref.nullable)
        (.arr (type.entries.map .str)))) state state
  | list {ref element : TypeRef} {description : Option String} {items : Definition}
      {state after : ConversionState} (node : c.graph.Leads ref (.list element description))
      (element : Runs (.fragment element items) state after) :
      Runs (.fragment ref (.array (headFor "array" description ref.nullable)
        (some items.asUnion))) state after
  | map {ref key value : TypeRef} {description : Option String} {values : Definition}
      {state after : ConversionState} (node : c.graph.Leads ref (.map key value description))
      (value : Runs (.fragment value values) state after) :
      Runs (.fragment ref (.object (headFor "object" description ref.nullable) none .null
        (.schema values.asUnion))) state after
  | rootInside {id : TypeId} {nullable : Bool} {type : ObjectType TypeRef}
      {state : ConversionState} (node : c.graph.nodes.find? id = some (.object type))
      (inside : id ∈ state.inProgress) (root : c.graph.root.id? = some id) :
      Runs (.fragment (.named id nullable) (pointer "#" nullable)) state state
  | objectInside {id : TypeId} {nullable : Bool} {type : ObjectType TypeRef}
      {state : ConversionState} (node : c.graph.nodes.find? id = some (.object type))
      (inside : id ∈ state.inProgress) (root : c.graph.root.id? ≠ some id) :
      Runs (.fragment (.named id nullable) (pointer (defsPointer id) nullable)) state
        (state.promise id)
  | objectShared {id : TypeId} {nullable : Bool} {type : ObjectType TypeRef}
      {state : ConversionState} (node : c.graph.nodes.find? id = some (.object type))
      (outside : id ∉ state.inProgress) (shared : id ∈ state.defs.keys) :
      Runs (.fragment (.named id nullable) (pointer (defsPointer id) nullable)) state state
  | objectInPlace {id : TypeId} {nullable : Bool} {type : ObjectType TypeRef}
      {fragments : List Definition} {state after : ConversionState}
      (node : c.graph.nodes.find? id = some (.object type)) (new : id ∉ state.defs.keys)
      (body : Runs (.body id type fragments) state after) (free : id ∉ after.pending) :
      Runs (.fragment (.named id nullable)
        (markNullable nullable (c.objectFragment type fragments))) state after
  | objectPromised {id : TypeId} {nullable : Bool} {type : ObjectType TypeRef}
      {fragments : List Definition} {state after : ConversionState}
      (node : c.graph.nodes.find? id = some (.object type)) (new : id ∉ state.defs.keys)
      (body : Runs (.body id type fragments) state after) (promised : id ∈ after.pending)
      (root : c.graph.root.id? ≠ some id) :
      Runs (.fragment (.named id nullable) (pointer (defsPointer id) nullable)) state
        (after.share id (c.objectFragment type fragments))
  | rootPromised {id : TypeId} {nullable : Bool} {type : ObjectType TypeRef}
      {fragments : List Definition} {state after : ConversionState}
      (node : c.graph.nodes.find? id = some (.object type)) (new : id ∉ state.defs.keys)
      (body : Runs (.body id type fragments) state after) (promised : id ∈ after.pending)
      (root : c.graph.root.id? = some id) :
      Runs (.fragment (.named id nullable)
        (markNullable nullable (c.objectFragment type fragments))) state
        (after.share id (c.objectFragment type fragments))
  | choiceInside {id : TypeId} {nullable : Bool} {type : PolymorphicType TypeRef}
      {state : ConversionState} (node : c.graph.nodes.find? id = some (.polymorphic type))
      (inside : id ∈ state.inProgress) :
      Runs (.fragment (.named id nullable) (c.choiceFragment type nullable)) state state
  | choice {id : TypeId} {nullable : Bool} {type : PolymorphicType TypeRef}
      {state after : ConversionState}
      (node : c.graph.nodes.find? id = some (.polymorphic type))
      (outside : id ∉ state.inProgress)
      (variants : Runs (.variants type.variants) (state.start (some id)) after) :
      Runs (.fragment (.named id nullable) (c.choiceFragment type nullable)) state
        (after.stop (some id))
  | body {id : TypeId} {type : ObjectType TypeRef} {fragments : List Definition}
      {state after : ConversionState} (node : c.graph.nodes.find? id = some (.object type))
      (outside : id ∉ state.inProgress)
      (properties : Runs (.properties type.properties fragments) (state.start (some id))
        after) :
      Runs (.body id type fragments) state (after.stop (some id))
  | noProperties {state : ConversionState} : Runs (.properties [] []) state state
  | property {first : Property TypeRef} {rest : List (Property TypeRef)}
      {fragment : Definition} {fragments : List Definition}
      {state middle after : ConversionState}
      (head : Runs (.fragment first.type fragment) state middle)
      (tail : Runs (.properties rest fragments) middle after) :
      Runs (.properties (first :: rest) (fragment :: fragments)) state after
  | noVariants {state : ConversionState} : Runs (.variants []) state state
  | variantShared {first : Variant TypeRef} {rest : List (Variant TypeRef)}
      {state after : ConversionState} (shared : first.id ∈ state.defs.keys)
      (tail : Runs (.variants rest) state after) : Runs (.variants (first :: rest)) state after
  | variantInside {first : Variant TypeRef} {rest : List (Variant TypeRef)}
      {state after : ConversionState} (inside : first.id ∈ state.inProgress)
      (tail : Runs (.variants rest) (state.promise first.id) after) :
      Runs (.variants (first :: rest)) state after
  | variantObject {first : Variant TypeRef} {rest : List (Variant TypeRef)}
      {type : ObjectType TypeRef} {fragments : List Definition}
      {state middle after : ConversionState} (new : first.id ∉ state.defs.keys)
      (node : c.graph.nodes.find? first.id = some (.object type))
      (body : Runs (.body first.id type fragments) state middle)
      (tail : Runs (.variants rest)
        (middle.share first.id (c.objectFragment type fragments)) after) :
      Runs (.variants (first :: rest)) state after
  | variantOther {first : Variant TypeRef} {rest : List (Variant TypeRef)} {node : Node}
      {fragment : Definition} {state middle after : ConversionState}
      (new : first.id ∉ state.defs.keys) (outside : first.id ∉ state.inProgress)
      (found : c.graph.nodes.find? first.id = some node)
      (other : ∀ type, node ≠ .object type)
      (written : Runs (.fragment (.named first.id false) fragment) state middle)
      (tail : Runs (.variants rest) (middle.share first.id fragment) after) :
      Runs (.variants (first :: rest)) state after

/-! ## Every successful conversion is a run -/

variable {c}

/-- Every success of a conversion of references is a run. -/
def Sound (c : Conversion) (below : ConvertRef) : Prop :=
  ∀ {ref : TypeRef} {owner : Option TypeId} {state after : ConversionState}
    {result : Definition}, (below ref owner).run state = (.ok result, after) →
    c.Runs (.fragment ref result) state after

variable {below : ConvertRef}

/-- A step that a node is under way for starts and stops that node around it. -/
theorem run_during {α : Type} {id : Option TypeId} {step : Convert α}
    {state after : ConversionState} {result : α}
    (h : (during id step).run state = (.ok result, after)) :
    ∃ last, step.run (state.start id) = (.ok result, last) ∧ last.stop id = after := by
  rw [during, Attempt.bind_eq, Attempt.run_modify_bind, Attempt.run_andThen,
    Prod.mk.injEq] at h
  exact ⟨_, Prod.ext h.1 rfl, h.2⟩

/-- A successful conversion of properties is a run of the properties part, and its table is read
off the fragments. -/
theorem runs_of_properties (hbelow : c.Sound below) {required : List PropertyName}
    {owner : Option TypeId} {properties : List (Property TypeRef)}
    {known table : Table PropertyName Definition} {state after : ConversionState}
    (h : (c.properties below required owner known properties).run state = (.ok table, after)) :
    ∃ fragments, c.Runs (.properties properties fragments) state after ∧
      c.propertyTable required known (properties.zip fragments) = table := by
  induction properties generalizing known state with
  | nil =>
      rw [Conversion.properties, Attempt.run_pure_eq_ok_iff] at h
      rcases h with ⟨rfl, rfl⟩
      exact ⟨[], .noProperties, rfl⟩
  | cons first rest ih =>
      rw [Conversion.properties, Attempt.run_bind_eq_ok_iff] at h
      rcases h with ⟨dressed, middle, hfirst, hrest⟩
      rw [Conversion.property, Attempt.run_bind_eq_ok_iff] at hfirst
      rcases hfirst with ⟨fragment, last, hfragment, hdressed⟩
      rw [Attempt.run_pure_eq_ok_iff] at hdressed
      rcases hdressed with ⟨rfl, rfl⟩
      rcases ih hrest with ⟨fragments, hruns, htable⟩
      exact ⟨fragment :: fragments, .property (hbelow hfragment) hruns, htable⟩

/-- A successful object body is a run of the body part, entered while its identifier is not in
progress. -/
theorem runs_of_objectBody (hbelow : c.Sound below) {type : ObjectType TypeRef} {id : TypeId}
    {result : Definition} {state after : ConversionState}
    (node : c.graph.nodes.find? id = some (.object type)) (outside : id ∉ state.inProgress)
    (h : (c.objectBody below type (some id)).run state = (.ok result, after)) :
    ∃ fragments, c.Runs (.body id type fragments) state after ∧
      c.objectFragment type fragments = result := by
  rw [objectBody, Attempt.run_bind_eq_ok_iff] at h
  rcases h with ⟨table, middle, htable, hresult⟩
  rw [Attempt.run_pure_eq_ok_iff] at hresult
  rcases hresult with ⟨rfl, rfl⟩
  rcases run_during htable with ⟨last, hproperties, rfl⟩
  rcases runs_of_properties hbelow hproperties with ⟨fragments, hruns, rfl⟩
  exact ⟨fragments, .body node outside hruns, rfl⟩

/-- The cases are those of the conversion: the object is under way and the root or not,
it is shared, or it is written out and then promised by some pointer or not. -/
theorem runs_of_object (hbelow : c.Sound below) {type : ObjectType TypeRef} {id : TypeId}
    {nullable : Bool} {result : Definition} {state after : ConversionState}
    (node : c.graph.nodes.find? id = some (.object type))
    (h : (c.object below type nullable (some id)).run state = (.ok result, after)) :
    c.Runs (.fragment (.named id nullable) result) state after := by
  rw [object, Attempt.run_get_bind] at h
  split at h
  · rename_i inside
    rw [List.contains_iff_mem] at inside
    split at h
    · rename_i root
      rw [Attempt.run_pure_eq_ok_iff] at h
      rcases h with ⟨rfl, rfl⟩
      exact .rootInside node inside root
    · rename_i root
      rw [Attempt.run_modify_bind, Attempt.run_pure_eq_ok_iff] at h
      rcases h with ⟨rfl, rfl⟩
      exact .objectInside node inside root
  · rename_i outside
    rw [List.contains_iff_mem] at outside
    split at h
    · rename_i shared
      rw [Table.has_iff_mem_keys] at shared
      rw [Attempt.run_pure_eq_ok_iff] at h
      rcases h with ⟨rfl, rfl⟩
      exact .objectShared node outside shared
    · rename_i new
      rw [Table.has_iff_mem_keys] at new
      rw [Attempt.run_bind_eq_ok_iff] at h
      rcases h with ⟨definition, last, hbody, h⟩
      rcases runs_of_objectBody hbelow node outside hbody with ⟨fragments, body, rfl⟩
      rw [Attempt.run_get_bind] at h
      split at h
      · rename_i promised
        rw [List.contains_iff_mem] at promised
        rw [Attempt.run_modify_bind] at h
        split at h
        · rename_i root
          rw [Attempt.run_pure_eq_ok_iff] at h
          rcases h with ⟨rfl, rfl⟩
          exact .rootPromised node new body promised root
        · rename_i root
          rw [Attempt.run_pure_eq_ok_iff] at h
          rcases h with ⟨rfl, rfl⟩
          exact .objectPromised node new body promised root
      · rename_i free
        rw [List.contains_iff_mem] at free
        rw [Attempt.run_pure_eq_ok_iff] at h
        rcases h with ⟨rfl, rfl⟩
        exact .objectInPlace node new body free

/-- A successful walk over variants is a run of the variants part. -/
theorem runs_of_variants (hbelow : c.Sound below) {owner : Option TypeId}
    {variants : List (Variant TypeRef)} {result : Unit} {state after : ConversionState}
    (h : (Attempt.forEach variants (c.variant below owner)).run state = (.ok result, after)) :
    c.Runs (.variants variants) state after := by
  induction variants generalizing state with
  | nil =>
      rw [Attempt.forEach, Attempt.run_pure_eq_ok_iff] at h
      rcases h with ⟨-, rfl⟩
      exact .noVariants
  | cons first rest ih =>
      rw [Attempt.forEach, Attempt.bind_eq, Attempt.run_bind_eq_ok_iff] at h
      rcases h with ⟨_, middle, hfirst, hrest⟩
      rw [variant, Attempt.run_get_bind] at hfirst
      split at hfirst
      · rename_i shared
        rw [Table.has_iff_mem_keys] at shared
        rw [Attempt.run_pure_eq_ok_iff] at hfirst
        rcases hfirst with ⟨-, rfl⟩
        exact .variantShared shared (ih hrest)
      · rename_i new
        rw [Table.has_iff_mem_keys] at new
        split at hfirst
        · rename_i inside
          rw [List.contains_iff_mem] at inside
          rw [Attempt.run_modify, Prod.mk.injEq] at hfirst
          rcases hfirst with ⟨-, rfl⟩
          exact .variantInside inside (ih hrest)
        · rename_i outside
          rw [List.contains_iff_mem] at outside
          rw [Attempt.run_bind_eq_ok_iff] at hfirst
          rcases hfirst with ⟨definition, last, hbody, hshare⟩
          rw [Attempt.run_modify, Prod.mk.injEq] at hshare
          rcases hshare with ⟨-, rfl⟩
          rw [variantBody, Attempt.run_bind_eq_ok_iff] at hbody
          rcases hbody with ⟨node, start, hnode, hbody⟩
          rw [Attempt.run_ofExcept, Prod.mk.injEq, TypeGraph.node_eq_ok_iff] at hnode
          rcases hnode with ⟨found, rfl⟩
          split at hbody
          · rcases runs_of_objectBody hbelow found outside hbody with ⟨fragments, body, rfl⟩
            exact .variantObject new found body (ih hrest)
          · rename_i other
            exact .variantOther new outside found other (hbelow hbody) (ih hrest)

/-- The fragment of a polymorphic type does not depend on what becomes of its subtypes. -/
theorem run_polymorphic (type : PolymorphicType TypeRef) (nullable : Bool) (id : TypeId)
    (state : ConversionState) :
    (c.polymorphic below type nullable (some id)).run state =
      if id ∈ state.inProgress then (.ok (c.choiceFragment type nullable), state)
      else (during (some id) (Attempt.forEach type.variants (c.variant below (some id))) >>=
        fun _ => pure (c.choiceFragment type nullable)).run state := by
  rw [polymorphic, Attempt.run_get_bind]
  by_cases inside : id ∈ state.inProgress
  · cases nullable <;> simp [inside, choiceFragment, variantPointers]
  · cases nullable <;> simp [inside, choiceFragment, variantPointers]

/-- A successful polymorphic conversion is a run of the fragment that refers to it. -/
theorem runs_of_polymorphic (hbelow : c.Sound below) {type : PolymorphicType TypeRef}
    {id : TypeId} {nullable : Bool} {result : Definition} {state after : ConversionState}
    (node : c.graph.nodes.find? id = some (.polymorphic type))
    (h : (c.polymorphic below type nullable (some id)).run state = (.ok result, after)) :
    c.Runs (.fragment (.named id nullable) result) state after := by
  rw [run_polymorphic] at h
  by_cases inside : id ∈ state.inProgress
  · rw [if_pos inside, Prod.mk.injEq, Except.ok.injEq] at h
    rcases h with ⟨rfl, rfl⟩
    exact .choiceInside node inside
  · rw [if_neg inside, Attempt.run_bind_eq_ok_iff] at h
    rcases h with ⟨_, middle, hvariants, h⟩
    rw [Attempt.run_pure_eq_ok_iff] at h
    rcases h with ⟨rfl, rfl⟩
    rcases run_during hvariants with ⟨last, hforEach, rfl⟩
    exact .choice node inside (runs_of_variants hbelow hforEach)

/-- The conversion of the node that a reference leads to, with the name it has there. -/
theorem runs_of_node (hbelow : c.Sound below) {ref : TypeRef} {node : Node}
    {result : Definition} {state after : ConversionState} (leads : c.graph.Leads ref node)
    (h : (c.node below node ref.nullable ref.id?).run state = (.ok result, after)) :
    c.Runs (.fragment ref result) state after := by
  cases node with
  | primitive kind description =>
      rw [Conversion.node, Attempt.run_pure_eq_ok_iff] at h
      rcases h with ⟨rfl, rfl⟩
      exact .primitive leads
  | enumeration type =>
      rw [Conversion.node, Attempt.run_pure_eq_ok_iff] at h
      rcases h with ⟨rfl, rfl⟩
      exact .enumeration leads
  | list element description =>
      rw [Conversion.node, Attempt.run_bind_eq_ok_iff] at h
      rcases h with ⟨items, middle, hitems, h⟩
      rw [Attempt.run_pure_eq_ok_iff] at h
      rcases h with ⟨rfl, rfl⟩
      exact .list leads (hbelow hitems)
  | map key value description =>
      rw [Conversion.node, Attempt.run_bind_eq_ok_iff] at h
      rcases h with ⟨values, middle, hvalues, h⟩
      rw [Attempt.run_pure_eq_ok_iff] at h
      rcases h with ⟨rfl, rfl⟩
      exact .map leads (hbelow hvalues)
  | object type =>
      cases leads with
      | inline unnamed => cases unnamed
      | named found => exact runs_of_object hbelow found h
  | polymorphic type =>
      cases leads with
      | inline unnamed => cases unnamed
      | named found => exact runs_of_polymorphic hbelow found h
  | other typeName =>
      rw [Conversion.node, Attempt.run_fail, Prod.mk.injEq] at h
      cases h.1

/-- One layer of the conversion of references is sound when the layers below are. -/
theorem sound_layer (hbelow : c.Sound below) : c.Sound (c.layer below) := by
  intro ref owner state after result h
  cases ref with
  | inline node nullable =>
      rw [layer] at h
      split at h
      · rw [Attempt.run_fail, Prod.mk.injEq] at h
        cases h.1
      · rename_i unnamed
        exact runs_of_node hbelow (.inline (by simpa using unnamed)) h
  | named id nullable =>
      rw [layer, Attempt.run_bind_eq_ok_iff] at h
      rcases h with ⟨node, middle, hnode, h⟩
      rw [Attempt.run_ofExcept, Prod.mk.injEq, TypeGraph.node_eq_ok_iff] at hnode
      rcases hnode with ⟨found, rfl⟩
      exact runs_of_node hbelow (.named found) h

/-- A conversion of a reference that succeeds within its budget is a run. -/
theorem runs_of_reference (budget : Nat) : c.Sound (c.reference budget) := by
  induction budget with
  | zero =>
      intro ref owner state after result h
      rw [reference, Attempt.run_fail, Prod.mk.injEq] at h
      cases h.1
  | succ budget ih => exact sound_layer ih

end Conversion

/-! ## Documents -/

namespace TypeGraph

variable {graph : TypeGraph} {flags : Flags}

/-- A JSON Schema document comes from a run on the root reference. -/
theorem runs_of_toSchemaDocument {name : String} {document : SchemaDocument}
    (h : graph.toSchemaDocument flags name = .ok document) :
    ∃ root state, Conversion.Runs ⟨graph, flags, .jsonSchema⟩ (.fragment graph.root root)
        {} state ∧
      document = { name := .str name, strict := flags.strict,
                   body := schemaBody flags name root state.defs } := by
  rw [toSchemaDocument] at h
  rcases hroot : (Conversion.convert ⟨graph, flags, .jsonSchema⟩ graph.root none).run {}
    with ⟨outcome, state⟩
  rw [hroot] at h
  cases outcome with
  | error error => cases h
  | ok root =>
      cases h
      exact ⟨root, state, Conversion.runs_of_reference _ hroot, rfl⟩

/-- No JSON Schema document is given only when the conversion of the root reference fails. -/
theorem run_of_toSchemaDocument_eq_error {name : String} {error : Error}
    (h : graph.toSchemaDocument flags name = .error error) :
    ∃ after, (Conversion.convert ⟨graph, flags, .jsonSchema⟩ graph.root none).run {} =
      (.error error, after) := by
  rw [toSchemaDocument] at h
  rcases hrun : (Conversion.convert ⟨graph, flags, .jsonSchema⟩ graph.root none).run {}
    with ⟨outcome, after⟩
  rw [hrun] at h
  cases outcome with
  | ok root => cases h
  | error failure =>
      cases h
      exact ⟨after, rfl⟩

/-- The root object of a tool schema stands in the table under the name of the root. -/
theorem toolRoot_eq_ok_iff {id : TypeId} {type : ObjectType TypeRef} :
    graph.toolRoot = .ok (id, type) ↔
      graph.root.id? = some id ∧ graph.nodes.find? id = some (.object type) := by
  rw [toolRoot]
  cases graph.root with
  | inline node nullable => simp [TypeRef.id?]
  | named root nullable =>
      rw [TypeRef.id?, Option.some.injEq]
      constructor
      · intro h
        rw [bind_eq_ok_iff] at h
        rcases h with ⟨node, hnode, h⟩
        rw [node_eq_ok_iff] at hnode
        cases node <;> cases h
        exact ⟨rfl, hnode⟩
      · rintro ⟨rfl, hnode⟩
        exact bind_eq_ok_iff.mpr ⟨_, node_eq_ok_iff.mpr hnode, rfl⟩

/-- A tool schema comes from a run on the body of the object that the root names. -/
theorem runs_of_toToolDocument {document : ToolDocument}
    (h : graph.toToolDocument flags = .ok document) :
    ∃ id type fragments state, graph.root.id? = some id ∧
      graph.nodes.find? id = some (.object type) ∧
      Conversion.Runs ⟨graph, flags, .tool⟩ (.body id type fragments) {} state ∧
      document = { name := .str type.name, description := .str (type.description.getD ""),
                   strict := flags.strict,
                   parameters := {
                     properties := some
                       (Conversion.memberTable ⟨graph, flags, .tool⟩ type fragments)
                     required := .arr (Conversion.requiredList ⟨graph, flags, .tool⟩ type)
                     defs := nonEmpty? state.defs } } := by
  rw [toToolDocument] at h
  rcases hroot : graph.toolRoot with error | ⟨id, type⟩
  · rw [hroot] at h
    cases h
  · rw [hroot, ok_bind] at h
    rcases hbody : (Conversion.objectBody ⟨graph, flags, .tool⟩
      (Conversion.convert ⟨graph, flags, .tool⟩) type (some id)).run {} with ⟨outcome, state⟩
    simp only [hbody] at h
    cases outcome with
    | error error => cases h
    | ok definition =>
        rcases toolRoot_eq_ok_iff.mp hroot with ⟨root, node⟩
        rcases Conversion.runs_of_objectBody (Conversion.runs_of_reference _) node (by simp)
          hbody with ⟨fragments, body, rfl⟩
        cases h
        exact ⟨id, type, fragments, state, root, node, body, rfl⟩

/-- No tool schema is given only when its root is no object of the table, or when the conversion
of the body of that object fails. -/
theorem run_of_toToolDocument_eq_error {error : Error}
    (h : graph.toToolDocument flags = .error error) :
    graph.toolRoot = .error error ∨ ∃ id type after, graph.toolRoot = .ok (id, type) ∧
      (Conversion.objectBody ⟨graph, flags, .tool⟩ (Conversion.convert ⟨graph, flags, .tool⟩) type
        (some id)).run {} = (.error error, after) := by
  rw [toToolDocument] at h
  rcases hroot : graph.toolRoot with failure | ⟨id, type⟩
  · rw [hroot] at h
    cases h
    exact Or.inl rfl
  · rw [hroot, ok_bind] at h
    rcases hbody : (Conversion.objectBody ⟨graph, flags, .tool⟩
      (Conversion.convert ⟨graph, flags, .tool⟩) type (some id)).run {} with ⟨outcome, after⟩
    simp only [hbody] at h
    cases outcome with
    | ok definition => cases h
    | error failure =>
        cases h
        exact Or.inr ⟨id, type, after, rfl, hbody⟩

end TypeGraph

end Schemata
