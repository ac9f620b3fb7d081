import Mathlib.Data.List.Perm.Basic
import Mathlib.Logic.Function.Iterate
import Schemata.Proofs.Attempt
import Schemata.Proofs.Conversion.Progress

/-!
# Parts of a conversion that are under way

While a conversion runs, it is inside a row of parts: a reference, the body of an object
that the reference leads to, the properties of that body, and so on.  Such a row need not
succeed in the end; only what lies before the innermost part has.  The body of an object and
the subtypes of a polymorphic type are begun under an identifier, and the state says which
identifiers have been begun around the innermost part, each once.

Main results:

- Definition {lit}`Opens`: one part of a conversion has another one directly inside.
- Definition {lit}`Nests`: a part is reached from another one, with the identifiers that are
  begun on the way.
- Theorem {lit}`Nests.inProgress_eq`: the state has them under way, the innermost first.
- Theorem {lit}`Nests.nodup`: no identifier is begun inside itself.
- Definition {lit}`Asks`: a part asks for the fragment of a reference, and theorem
  {lit}`Asks.nests`: the place where it does is nested in it.
- Theorem {lit}`runsAs_layer`: a conversion of a reference makes no other calls.
- Theorem {lit}`calls_nest`: nor does any that is made inside it, however deep.
-/

namespace Schemata

/-- The table has an object or a polymorphic type under an identifier. -/
def TypeGraph.Branches (graph : TypeGraph) (id : TypeId) : Prop :=
  (∃ type, graph.nodes.find? id = some (.object type)) ∨
    ∃ type, graph.nodes.find? id = some (.polymorphic type)

namespace Conversion

variable (c : Conversion)

/-! ## Parts inside one another -/

/-- A part of a conversion. -/
inductive Task
  /-- The fragment of a reference. -/
  | fragment (ref : TypeRef)
  /-- The body of a named object. -/
  | body (id : TypeId) (type : ObjectType TypeRef)
  /-- The properties of an object that are left. -/
  | properties (properties : List (Property TypeRef))
  /-- The subtypes of a polymorphic type that are left. -/
  | variants (variants : List (Variant TypeRef))

/-- Whether a part is the fragment of a reference. -/
def Task.isFragment : Task → Bool
  | .fragment _ => true
  | .body .. | .properties _ | .variants _ => false

/-- A part that is met in one state has another one directly inside, which begins the listed
identifiers and is met in its own state.  What comes before the inner part has succeeded. -/
inductive Opens : Task → ConversionState → List TypeId → Task → ConversionState → Prop
  | element {ref element : TypeRef} {description : Option String} {state : ConversionState}
      (node : c.graph.Leads ref (.list element description)) :
      Opens (.fragment ref) state [] (.fragment element) state
  | value {ref key value : TypeRef} {description : Option String} {state : ConversionState}
      (node : c.graph.Leads ref (.map key value description)) :
      Opens (.fragment ref) state [] (.fragment value) state
  | object {id : TypeId} {nullable : Bool} {type : ObjectType TypeRef} {state : ConversionState}
      (node : c.graph.nodes.find? id = some (.object type)) (outside : id ∉ state.inProgress)
      (new : id ∉ state.defs.keys) :
      Opens (.fragment (.named id nullable)) state [] (.body id type) state
  | choice {id : TypeId} {nullable : Bool} {type : PolymorphicType TypeRef}
      {state : ConversionState} (node : c.graph.nodes.find? id = some (.polymorphic type))
      (outside : id ∉ state.inProgress) :
      Opens (.fragment (.named id nullable)) state [id] (.variants type.variants)
        (state.start (some id))
  | body {id : TypeId} {type : ObjectType TypeRef} {state : ConversionState} :
      Opens (.body id type) state [id] (.properties type.properties) (state.start (some id))
  | property {first : Property TypeRef} {rest : List (Property TypeRef)}
      {state : ConversionState} :
      Opens (.properties (first :: rest)) state [] (.fragment first.type) state
  | nextProperty {first : Property TypeRef} {rest : List (Property TypeRef)}
      {fragment : Definition} {state middle : ConversionState}
      (head : c.Runs (.fragment first.type fragment) state middle) :
      Opens (.properties (first :: rest)) state [] (.properties rest) middle
  | variantObject {first : Variant TypeRef} {rest : List (Variant TypeRef)}
      {type : ObjectType TypeRef} {state : ConversionState} (new : first.id ∉ state.defs.keys)
      (outside : first.id ∉ state.inProgress)
      (node : c.graph.nodes.find? first.id = some (.object type)) :
      Opens (.variants (first :: rest)) state [] (.body first.id type) state
  | variantOther {first : Variant TypeRef} {rest : List (Variant TypeRef)} {node : Node}
      {state : ConversionState} (new : first.id ∉ state.defs.keys)
      (outside : first.id ∉ state.inProgress) (found : c.graph.nodes.find? first.id = some node)
      (other : ∀ type, node ≠ .object type) :
      Opens (.variants (first :: rest)) state [] (.fragment (.named first.id false)) state
  | nextVariant {first : Variant TypeRef} {rest : List (Variant TypeRef)}
      {state middle : ConversionState} (head : c.Runs (.variants [first]) state middle) :
      Opens (.variants (first :: rest)) state [] (.variants rest) middle

/-- A part is reached from another one through parts that lie inside one another.  The
identifiers are those begun on the way, the last one first. -/
inductive Nests (task : Task) (state : ConversionState) :
    List TypeId → Task → ConversionState → Prop
  | here : Nests task state [] task state
  | deeper {around begun : List TypeId} {middle inner : Task} {between inside : ConversionState}
      (outer : Nests task state around middle between)
      (opens : c.Opens middle between begun inner inside) :
      Nests task state (begun ++ around) inner inside

/-- A part of a conversion fails at once: no budget is left for a reference, its node or the node
of a subtype is missing, or its node is of a type that cannot be converted there. -/
inductive Stuck : Task → ConversionState → Error → Prop
  | spent {ref : TypeRef} {state : ConversionState} : Stuck (.fragment ref) state .endless
  | missing {id : TypeId} {nullable : Bool} {owner : Option TypeId} {state : ConversionState}
      (missing : c.graph.nodes.find? id = none) :
      Stuck (.fragment (.named id nullable)) state (.dangling id owner)
  | unnamed {node : Node} {nullable : Bool} {owner : Option TypeId} {state : ConversionState}
      (needed : node.needsName = true) :
      Stuck (.fragment (.inline node nullable)) state
        (.invalidGraph (.unsupportedInline node.typeName) owner)
  | unknown {ref : TypeRef} {typeName : String} {state : ConversionState}
      (node : c.graph.Leads ref (.other typeName)) :
      Stuck (.fragment ref) state (.invalidGraph (.unknownNode typeName) ref.id?)
  | missingVariant {first : Variant TypeRef} {rest : List (Variant TypeRef)}
      {owner : Option TypeId} {state : ConversionState} (new : first.id ∉ state.defs.keys)
      (outside : first.id ∉ state.inProgress)
      (missing : c.graph.nodes.find? first.id = none) :
      Stuck (.variants (first :: rest)) state (.dangling first.id owner)

variable {c} {task middle inner : Task} {state between inside : ConversionState}
  {begun around : List TypeId}

/-- What is nested in a nested part is nested. -/
theorem Nests.trans (outer : c.Nests task state begun middle between)
    (h : c.Nests middle between around inner inside) :
    c.Nests task state (around ++ begun) inner inside := by
  induction h with
  | here => exact outer
  | deeper _ opens ih =>
      rw [List.append_assoc]
      exact ih.deeper opens

/-- What a part opens is nested in it. -/
theorem Opens.nests (opens : c.Opens task state begun inner inside) :
    c.Nests task state begun inner inside := by
  simpa using Nests.here.deeper opens

/-! ## What is under way in a nested part -/

/-- The body of an object is met only for an object of the table that is not under way. -/
def IsReady (c : Conversion) (state : ConversionState) : Task → Prop
  | .body id type => c.graph.nodes.find? id = some (.object type) ∧ id ∉ state.inProgress
  | .fragment _ | .properties _ | .variants _ => True

/-- A part of a ready one is ready, for an object is met only while it is not under way. -/
theorem Opens.isReady (h : c.Opens task state begun inner inside) : c.IsReady inside inner := by
  cases h with
  | object node outside new => exact ⟨node, outside⟩
  | variantObject new outside node => exact ⟨node, outside⟩
  | element | value | choice | body | property | nextProperty | variantOther | nextVariant =>
      trivial

/-- What a part begins is an object or a polymorphic type, and it was not under way. -/
theorem Opens.begun_eq (h : c.Opens task state begun inner inside) (ready : c.IsReady state task) :
    begun = [] ∨ ∃ id, begun = [id] ∧ c.graph.Branches id ∧ id ∉ state.inProgress := by
  cases h with
  | choice node outside => exact .inr ⟨_, rfl, .inr ⟨_, node⟩, outside⟩
  | body => exact .inr ⟨_, rfl, .inl ⟨_, ready.1⟩, ready.2⟩
  | element | value | object | property | nextProperty | variantObject | variantOther
  | nextVariant => exact .inl rfl

/-- What a part begins is under way inside, on top of what is under way outside. -/
theorem Opens.inProgress_eq (h : c.Opens task state begun inner inside)
    (ready : c.IsReady state task) : inside.inProgress = begun ++ state.inProgress := by
  cases h with
  | choice node outside => exact ConversionState.start_inProgress _ _ outside
  | body => exact ConversionState.start_inProgress _ _ ready.2
  | nextProperty head => exact head.inProgress_eq
  | nextVariant head => exact head.inProgress_eq
  | element | value | object | property | variantObject | variantOther => rfl

/-- Every part that is reached from a ready one is ready. -/
theorem Nests.isReady (h : c.Nests task state around inner inside) (ready : c.IsReady state task) :
    c.IsReady inside inner := by
  cases h with
  | here => exact ready
  | deeper outer opens => exact opens.isReady

/-- The state has under way what is begun around a part, the innermost first. -/
theorem Nests.inProgress_eq (h : c.Nests task state around inner inside)
    (ready : c.IsReady state task) : inside.inProgress = around ++ state.inProgress := by
  induction h with
  | here => rfl
  | deeper outer opens ih =>
      rw [opens.inProgress_eq (outer.isReady ready), ih, List.append_assoc]

/-- What is begun around a part are objects and polymorphic types of the table. -/
theorem Nests.branches (h : c.Nests task state around inner inside) (ready : c.IsReady state task) :
    ∀ id ∈ around, c.graph.Branches id := by
  induction h with
  | here => nofun
  | deeper outer opens ih =>
      rcases opens.begun_eq (outer.isReady ready) with rfl | ⟨id, rfl, branches, -⟩
      · exact ih
      · exact List.forall_mem_cons.mpr ⟨branches, ih⟩

/-- No identifier is begun inside itself: what a part begins is not under way around it. -/
theorem Nests.nodup (h : c.Nests task state around inner inside) (ready : c.IsReady state task) :
    around.Nodup := by
  induction h with
  | here => exact List.nodup_nil
  | deeper outer opens ih =>
      rcases opens.begun_eq (outer.isReady ready) with rfl | ⟨id, rfl, -, outside⟩
      · exact ih
      · rw [outer.inProgress_eq ready, List.mem_append, not_or] at outside
        exact List.nodup_cons.mpr ⟨outside.1, ih⟩

/-- Different identifiers of the table are no more than the table has entries. -/
theorem Nests.length_le (h : c.Nests task state around inner inside)
    (ready : c.IsReady state task) : around.length ≤ c.graph.nodes.length := by
  have hkeys : around ⊆ c.graph.nodes.keys := by
    intro id hid
    rcases h.branches ready id hid with ⟨type, found⟩ | ⟨type, found⟩
    · exact Table.mem_keys_of_find? found
    · exact Table.mem_keys_of_find? found
  calc
    around.length ≤ c.graph.nodes.keys.length := (List.subperm_of_subset (h.nodup ready) hkeys).length_le
    _ = c.graph.nodes.length := List.length_map _

/-! ## What a part asks for -/

variable (c) in
/-- A part asks for the fragment of a reference: it has it directly inside, or it has a part
directly inside that is no fragment and asks for it. -/
inductive Asks : Task → ConversionState → TypeRef → ConversionState → Prop
  | call {task : Task} {state inside : ConversionState} {begun : List TypeId} {ref : TypeRef}
      (opens : c.Opens task state begun (.fragment ref) inside) : Asks task state ref inside
  | through {task inner : Task} {state inside place : ConversionState} {begun : List TypeId}
      {ref : TypeRef} (opens : c.Opens task state begun inner inside)
      (part : inner.isFragment = false) (asks : Asks inner inside ref place) :
      Asks task state ref place

/-- Where a part asks for a fragment, the fragment is nested in it. -/
theorem Asks.nests {ref : TypeRef} {place : ConversionState} (h : c.Asks task state ref place) :
    ∃ around, c.Nests task state around (.fragment ref) place := by
  induction h with
  | call opens => exact ⟨_, opens.nests⟩
  | through opens part _ ih =>
      rcases ih with ⟨around, hnests⟩
      exact ⟨_, opens.nests.trans hnests⟩

/-- A condition on how parts fail spreads outwards: it holds of a part that is stuck with budget
left, and of a part around one that it holds of, where what was begun in between is ended. -/
structure Spreads (c : Conversion)
    (failure : Task → ConversionState → Error → ConversionState → Prop) : Prop where
  stuck : ∀ {task state error}, c.Stuck task state error → error ≠ .endless →
    failure task state error state
  outwards : ∀ {task state inner inside error after}, c.Opens task state [] inner inside →
    failure inner inside error after → failure task state error after
  ended : ∀ {task state id inner error after}, id ∉ state.inProgress →
    c.Opens task state [id] inner (state.start (some id)) →
    failure inner (state.start (some id)) error after →
    failure task state error (after.stop (some id))

/-- Wherever a part asks for a fragment, two ways to convert references run alike, and fail as a
condition says. -/
def AnswerAlike (c : Conversion) (failure : Task → ConversionState → Error → ConversionState → Prop)
    (below below' : ConvertRef) (task : Task) (state : ConversionState) : Prop :=
  ∀ ref place, c.Asks task state ref place → ∀ owner,
    (below ref owner).RunsAs (below' ref owner) place (failure (.fragment ref) place)

section Asks

variable {failure : Task → ConversionState → Error → ConversionState → Prop}
  {below below' : ConvertRef} {owner : Option TypeId}

/-- What is asked for in a part inside is asked for outside. -/
theorem AnswerAlike.within (h : c.AnswerAlike failure below below' task state)
    (opens : c.Opens task state begun inner inside) (part : inner.isFragment = false) :
    c.AnswerAlike failure below below' inner inside :=
  fun ref place asks => h ref place (.through opens part asks)

/-- The call for a fragment directly inside runs alike, and a failure spreads outwards. -/
theorem AnswerAlike.call (h : c.AnswerAlike failure below below' task state)
    (spreads : c.Spreads failure) {ref : TypeRef}
    (opens : c.Opens task state [] (.fragment ref) inside) (owner : Option TypeId) :
    (below ref owner).RunsAs (below' ref owner) inside (failure task state) :=
  (h ref inside (.call opens) owner).mono fun _ _ => spreads.outwards opens

/-- What is begun for a step is ended when the step fails. -/
theorem runsAs_during {α : Type} {id : TypeId} {step step' : Convert α}
    (spreads : c.Spreads failure) (outside : id ∉ state.inProgress)
    (opens : c.Opens task state [id] inner (state.start (some id)))
    (h : step.RunsAs step' (state.start (some id)) (failure inner (state.start (some id)))) :
    (during (some id) step).RunsAs (during (some id) step') state (failure task state) := by
  rw [during, during, Attempt.bind_eq, Attempt.bind_eq]
  refine (Attempt.runsAs_modify _).bind fun _ _ hrun => ?_
  cases hrun
  exact (h.mono fun _ _ => spreads.ended outside opens).andThen

/-- Properties ask for the fragments of their types, each in the state that those before leave. -/
theorem runsAs_properties (hsound : c.Sound below) (spreads : c.Spreads failure)
    {required : List PropertyName} {properties : List (Property TypeRef)}
    {known : Table PropertyName Definition}
    (h : c.AnswerAlike failure below below' (.properties properties) state) :
    (c.properties below required owner known properties).RunsAs
      (c.properties below' required owner known properties) state
      (failure (.properties properties) state) := by
  induction properties generalizing known state with
  | nil => exact Attempt.runsAs_pure _
  | cons first rest ih =>
      rw [Conversion.properties, Conversion.properties]
      refine Attempt.RunsAs.bind ?_ fun dressed after hfirst => ?_
      · exact (h.call spreads .property owner).bind fun _ _ _ => Attempt.runsAs_pure _
      · rw [property, Attempt.run_bind_eq_ok_iff] at hfirst
        rcases hfirst with ⟨fragment, middle, hfragment, hdressed⟩
        rw [Attempt.run_pure_eq_ok_iff] at hdressed
        rcases hdressed with ⟨rfl, rfl⟩
        have opens : c.Opens (.properties (first :: rest)) state [] (.properties rest) middle :=
          .nextProperty (hsound hfragment)
        exact (ih (h.within opens rfl)).mono fun _ _ => spreads.outwards opens

/-- The body of an object asks for what its properties ask for. -/
theorem runsAs_objectBody (hsound : c.Sound below) (spreads : c.Spreads failure) {id : TypeId}
    {type : ObjectType TypeRef} (outside : id ∉ state.inProgress)
    (h : c.AnswerAlike failure below below' (.body id type) state) :
    (c.objectBody below type (some id)).RunsAs (c.objectBody below' type (some id)) state
      (failure (.body id type) state) := by
  rw [objectBody, objectBody]
  refine (runsAs_during spreads outside .body ?_).bind fun _ _ _ => Attempt.runsAs_pure _
  exact runsAs_properties hsound spreads (h.within .body rfl)

/-- An object asks for what its body asks for, when it is not under way and not shared. -/
theorem runsAs_object (hsound : c.Sound below) (spreads : c.Spreads failure) {id : TypeId}
    {nullable : Bool} {type : ObjectType TypeRef}
    (found : c.graph.nodes.find? id = some (.object type))
    (h : c.AnswerAlike failure below below' (.fragment (.named id nullable)) state) :
    (c.object below type nullable (some id)).RunsAs (c.object below' type nullable (some id)) state
      (failure (.fragment (.named id nullable)) state) := by
  rw [object, object]
  refine Attempt.RunsAs.get_bind ?_
  split
  · split
    · exact Attempt.runsAs_pure _
    · exact (Attempt.runsAs_modify _).bind fun _ _ _ => Attempt.runsAs_pure _
  · rename_i outside
    rw [List.contains_iff_mem] at outside
    split
    · exact Attempt.runsAs_pure _
    · rename_i new
      rw [Table.has_iff_mem_keys] at new
      have opens : c.Opens (.fragment (.named id nullable)) state [] (.body id type) state :=
        .object found outside new
      have hbody := (runsAs_objectBody hsound spreads outside (h.within opens rfl)).mono
        fun _ _ => spreads.outwards opens
      -- Sharing a definition and writing a pointer to it cannot fail.
      refine hbody.bind fun _ _ _ => Attempt.RunsAs.get_bind ?_
      split
      · refine (Attempt.runsAs_modify _).bind fun _ _ _ => ?_
        split <;> exact Attempt.runsAs_pure _
      · exact Attempt.runsAs_pure _

/-- A subtype asks for what its body asks for when it is an object, else for its own fragment. -/
theorem runsAs_variant (hsound : c.Sound below) (spreads : c.Spreads failure)
    {first : Variant TypeRef} {rest : List (Variant TypeRef)}
    (h : c.AnswerAlike failure below below' (.variants (first :: rest)) state) :
    (c.variant below owner first).RunsAs (c.variant below' owner first) state
      (failure (.variants (first :: rest)) state) := by
  rw [variant, variant]
  refine Attempt.RunsAs.get_bind ?_
  split
  · exact Attempt.runsAs_pure _
  · rename_i new
    rw [Table.has_iff_mem_keys] at new
    split
    · exact Attempt.runsAs_modify _
    · rename_i outside
      rw [List.contains_iff_mem] at outside
      refine Attempt.RunsAs.bind ?_ fun _ _ _ => Attempt.runsAs_modify _
      rw [variantBody, variantBody]
      cases hfound : c.graph.nodes.find? first.id with
      | none =>
          rw [TypeGraph.node, hfound]
          exact Attempt.runsAs_fail (spreads.stuck (.missingVariant new outside hfound) (by simp))
      | some node =>
          rw [TypeGraph.node_eq_ok_iff.mpr hfound, Attempt.ofExcept_ok_bind, Attempt.ofExcept_ok_bind]
          split
          · have opens : c.Opens (.variants (first :: rest)) state [] (.body first.id _) state :=
              .variantObject new outside hfound
            exact (runsAs_objectBody hsound spreads outside (h.within opens rfl)).mono
              fun _ _ => spreads.outwards opens
          · rename_i other
            exact h.call spreads (.variantOther new outside hfound other) owner

/-- Subtypes are asked for one after the other. -/
theorem runsAs_variants (hsound : c.Sound below) (spreads : c.Spreads failure)
    {variants : List (Variant TypeRef)} (owner : Option TypeId)
    (h : c.AnswerAlike failure below below' (.variants variants) state) :
    (Attempt.forEach variants (c.variant below owner)).RunsAs
      (Attempt.forEach variants (c.variant below' owner)) state
      (failure (.variants variants) state) := by
  induction variants generalizing state with
  | nil => exact Attempt.runsAs_pure _
  | cons first rest ih =>
      rw [Attempt.forEach, Attempt.forEach, Attempt.bind_eq, Attempt.bind_eq]
      refine (runsAs_variant hsound spreads h).bind fun _ after hfirst => ?_
      have hsingle : (Attempt.forEach [first] (c.variant below owner)).run state =
          (.ok (), after) := by
        rw [Attempt.forEach, Attempt.bind_eq, Attempt.run_bind_ok hfirst]
        rfl
      have opens : c.Opens (.variants (first :: rest)) state [] (.variants rest) after :=
        .nextVariant (runs_of_variants hsound hsingle)
      exact (ih (h.within opens rfl)).mono fun _ _ => spreads.outwards opens

/-- A polymorphic type asks for what its subtypes ask for, when it is not under way. -/
theorem runsAs_polymorphic (hsound : c.Sound below) (spreads : c.Spreads failure) {id : TypeId}
    {nullable : Bool} {type : PolymorphicType TypeRef}
    (found : c.graph.nodes.find? id = some (.polymorphic type))
    (h : c.AnswerAlike failure below below' (.fragment (.named id nullable)) state) :
    (c.polymorphic below type nullable (some id)).RunsAs
      (c.polymorphic below' type nullable (some id)) state
      (failure (.fragment (.named id nullable)) state) := by
  by_cases inside : id ∈ state.inProgress
  · refine (Attempt.runsAs_pure (c.choiceFragment type nullable)).of_run_eq ?_ ?_
    · rw [run_polymorphic, if_pos inside]
      rfl
    · rw [run_polymorphic, if_pos inside]
      rfl
  · have opens : c.Opens (.fragment (.named id nullable)) state [id] (.variants type.variants)
        (state.start (some id)) := .choice found inside
    have hvariants := runsAs_during spreads inside opens
      (runsAs_variants hsound spreads (some id) (h.within opens rfl))
    have hchoice := hvariants.bind fun _ _ _ =>
      Attempt.runsAs_pure (c.choiceFragment type nullable)
    refine hchoice.of_run_eq ?_ ?_
    · rw [run_polymorphic, if_neg inside]
    · rw [run_polymorphic, if_neg inside]

/-- The node that a reference leads to asks for what the reference opens. -/
theorem runsAs_node (hsound : c.Sound below) (spreads : c.Spreads failure) {ref : TypeRef}
    {node : Node} (leads : c.graph.Leads ref node)
    (h : c.AnswerAlike failure below below' (.fragment ref) state) :
    (c.node below node ref.nullable ref.id?).RunsAs (c.node below' node ref.nullable ref.id?) state
      (failure (.fragment ref) state) := by
  cases node with
  | primitive | enumeration => exact Attempt.runsAs_pure _
  | list element description =>
      exact (h.call spreads (.element leads) ref.id?).bind fun _ _ _ => Attempt.runsAs_pure _
  | map key value description =>
      exact (h.call spreads (.value leads) ref.id?).bind fun _ _ _ => Attempt.runsAs_pure _
  | object type =>
      cases leads with
      | inline unnamed => cases unnamed
      | named found => exact runsAs_object hsound spreads found h
  | polymorphic type =>
      cases leads with
      | inline unnamed => cases unnamed
      | named found => exact runsAs_polymorphic hsound spreads found h
  | other typeName => exact Attempt.runsAs_fail (spreads.stuck (.unknown leads) (by simp))

/-- A layer of the conversion calls the layers below only for the fragments that its reference
asks for, where it asks for them: with another way to convert references that answers these calls
alike it runs alike, and it fails as they do, or at once. -/
theorem runsAs_layer (hsound : c.Sound below) (spreads : c.Spreads failure) {ref : TypeRef}
    (h : c.AnswerAlike failure below below' (.fragment ref) state) (owner : Option TypeId) :
    (c.layer below ref owner).RunsAs (c.layer below' ref owner) state
      (failure (.fragment ref) state) := by
  cases ref with
  | inline node nullable =>
      rw [layer, layer]
      split
      · rename_i needed
        exact Attempt.runsAs_fail (spreads.stuck (.unnamed needed) (by simp))
      · rename_i unnamed
        exact runsAs_node hsound spreads (.inline (by simpa using unnamed)) h
  | named id nullable =>
      rw [layer, layer]
      cases hfound : c.graph.nodes.find? id with
      | none =>
          rw [TypeGraph.node, hfound]
          exact Attempt.runsAs_fail (spreads.stuck (.missing hfound) (by simp))
      | some node =>
          rw [TypeGraph.node_eq_ok_iff.mpr hfound, Attempt.ofExcept_ok_bind, Attempt.ofExcept_ok_bind]
          exact runsAs_node hsound spreads (.named hfound) h

/-- To fail in some way or other spreads outwards. -/
theorem spreads_trivial : c.Spreads fun _ _ _ _ => True :=
  ⟨fun _ _ => trivial, fun _ _ => trivial, fun _ _ _ => trivial⟩

/-- Ways to convert references that run alike wherever a part asks for a fragment. -/
theorem answerAlike_of_run_eq
    (alike : ∀ ref place, c.Asks task state ref place → ∀ owner,
      (below ref owner).run place = (below' ref owner).run place) :
    c.AnswerAlike (fun _ _ _ _ => True) below below' task state :=
  fun ref place asks owner => Attempt.runsAs_of_run_eq (alike ref place asks owner)

/-- They make layers that run alike. -/
theorem layer_congr (hsound : c.Sound below) {ref : TypeRef}
    (alike : ∀ inner place, c.Asks (.fragment ref) state inner place → ∀ owner,
      (below inner owner).run place = (below' inner owner).run place) (owner : Option TypeId) :
    (c.layer below ref owner).run state = (c.layer below' ref owner).run state :=
  (runsAs_layer hsound spreads_trivial (answerAlike_of_run_eq alike) owner).run_eq

/-- And they convert bodies of objects alike. -/
theorem objectBody_congr (hsound : c.Sound below) {id : TypeId} {type : ObjectType TypeRef}
    (outside : id ∉ state.inProgress)
    (alike : ∀ inner place, c.Asks (.body id type) state inner place → ∀ owner,
      (below inner owner).run place = (below' inner owner).run place) :
    (c.objectBody below type (some id)).run state = (c.objectBody below' type (some id)).run state :=
  (runsAs_objectBody hsound spreads_trivial outside (answerAlike_of_run_eq alike)).run_eq

/-- Any number of layers over a sound converter is sound. -/
theorem sound_layers (hsound : c.Sound below) (depth : Nat) : c.Sound (c.layer^[depth] below) := by
  induction depth with
  | zero => exact hsound
  | succ depth ih =>
      rw [Function.iterate_succ_apply']
      exact sound_layer ih

/-- However deep a conversion goes, every call that it makes for a fragment inside is made at a
place nested in its own: ways to convert references that run alike at all these places are as
good as one another below any number of layers. -/
theorem calls_nest (hsound : c.Sound below) {ref : TypeRef}
    (alike : ∀ around inner place, c.Nests (.fragment ref) state around (.fragment inner) place →
      ∀ owner, (below inner owner).run place = (below' inner owner).run place)
    (depth : Nat) (owner : Option TypeId) :
    (c.layer^[depth] below ref owner).run state = (c.layer^[depth] below' ref owner).run state := by
  induction depth generalizing ref state owner with
  | zero => exact alike _ _ _ .here owner
  | succ depth ih =>
      rw [Function.iterate_succ_apply', Function.iterate_succ_apply']
      refine layer_congr (sound_layers hsound depth) (fun inner place asks other => ?_) owner
      rcases asks.nests with ⟨around, outer⟩
      exact ih (fun _ _ _ nested => alike _ _ _ (outer.trans nested)) other

end Asks

end Conversion

end Schemata
