import Schemata.Proofs.Conversion.Dialects
import Schemata.Proofs.Conversion.Requirements
import Schemata.Proofs.Graph.Renaming
import Schemata.Proofs.Schema.Renaming

/-!
# Conversions of graphs that resemble one another

A conversion looks nodes up under identifiers that it has been led to, and it compares
identifiers with the ones that are under way, promised or shared and with that of the root.  It
does nothing else with them.  So two graphs that resemble one another as far as references lead
are converted step by step alike: under changed identifiers, the second conversion has the same
state after each step, and it fails where the first one does.

The walk stays within reach, since every reference that a layer converts is one of the node that
it was led to, and every subtype that is looked up is listed there.

Main results:

- Theorem {lit}`Corresponds.reference`: with any budget, a reference that resembles another one
  is converted like it.
- Theorem {lit}`TypeGraph.Corresponds.toSchemaDocument`,
  {lit}`TypeGraph.Corresponds.toToolDocument`: the documents are the same under changed
  identifiers, or the failures are.
-/

namespace Schemata

/-- The state of a conversion under changed identifiers. -/
def ConversionState.rename (change : TypeId → TypeId) (state : ConversionState) :
    ConversionState where
  defs := Definition.renameShared change state.defs
  inProgress := state.inProgress.map change
  pending := state.pending.map change

variable {change : TypeId → TypeId}

/-- A change that keeps identifiers apart keeps who is in a list. -/
theorem contains_map_change (injective : change.Injective) (known : List TypeId) (id : TypeId) :
    (known.map change).contains (change id) = known.contains id := by
  rw [Bool.eq_iff_iff, List.contains_iff_mem, List.contains_iff_mem,
    List.mem_map_of_injective injective]

namespace ConversionState

variable (injective : change.Injective) (state : ConversionState)

include injective

/-- The same nodes are under way, by their other names. -/
theorem contains_rename_inProgress (id : TypeId) :
    (state.rename change).inProgress.contains (change id) = state.inProgress.contains id :=
  contains_map_change injective ..

/-- The same nodes are promised, by their other names. -/
theorem contains_rename_pending (id : TypeId) :
    (state.rename change).pending.contains (change id) = state.pending.contains id :=
  contains_map_change injective ..

/-- The same nodes are shared, by their other names. -/
theorem has_rename_defs (id : TypeId) :
    (state.rename change).defs.has (change id) = state.defs.has id :=
  Definition.has_renameShared injective ..

/-- A node is begun under its other name. -/
theorem rename_start (id : Option TypeId) :
    (state.rename change).start (id.map change) = (state.start id).rename change := by
  cases id with
  | none => rfl
  | some id =>
      rw [Option.map_some, start, start, state.contains_rename_inProgress injective]
      split <;> rfl

/-- A node is ended under its other name. -/
theorem rename_stop (id : Option TypeId) :
    (state.rename change).stop (id.map change) = (state.stop id).rename change := by
  cases id with
  | none => rfl
  | some id =>
      have hother : ((· != change id) ∘ change) = (· != id) := by
        funext known
        rw [Function.comp, bne, bne, injective.beq_eq]
      simp [stop, rename, List.filter_map, hother]

/-- A node is promised under its other name. -/
theorem rename_promise (id : TypeId) :
    (state.rename change).promise (change id) = (state.promise id).rename change := by
  rw [promise, promise, state.contains_rename_pending injective]
  split <;> rfl

/-- A node is shared under its other name. -/
theorem rename_share (id : TypeId) (definition : Definition) :
    (state.rename change).share (change id) (definition.rename change) =
      (state.share id definition).rename change := by
  rw [share, share, rename, rename, Definition.renameShared_put injective]

end ConversionState

namespace Conversion

open Attempt (CarriedBy)

/-! ## Two conversions -/

/-- Under changed identifiers, a step of a second conversion does what a step of a first one
does. -/
abbrev Follows {α α' : Type} (change : TypeId → TypeId) (image : α → α') (first : Convert α)
    (second : Convert α') : Prop :=
  CarriedBy (ConversionState.rename change) image (Error.rename change) first second

/-- The second way to convert references follows the first on references that resemble ones
within reach. -/
def FollowsWithin (change : TypeId → TypeId) (graph : TypeGraph) (below below' : ConvertRef) :
    Prop :=
  ∀ ref ref' owner, ref.Resembles change ref' → (∀ id ∈ ref.targets, graph.Reaches id) →
    Follows change (Definition.rename change) (below ref owner) (below' ref' (owner.map change))

/-- Two conversions with one configuration of graphs that resemble one another, under a change
that keeps identifiers apart. -/
structure Corresponds (change : TypeId → TypeId) (first second : Conversion) : Prop where
  injective : change.Injective
  graph : first.graph.Corresponds change second.graph
  flags : second.flags = first.flags
  dialect : second.dialect = first.dialect

/-- Properties that resemble one another, in their order. -/
abbrev ResembleAll (change : TypeId → TypeId) (properties properties' : List (Property TypeRef)) :
    Prop :=
  List.Forall₂ (Property.Resembles (TypeRef.Resembles change)) properties properties'

variable {first second : Conversion} {below below' : ConvertRef}
variable {listed listed' : List (Property TypeRef)} {type : ObjectType TypeRef}

/-- A step with a node under way follows one with the other name of the node under way. -/
theorem follows_during (injective : change.Injective) {α α' : Type} {image : α → α'}
    {id : Option TypeId} {step : Convert α} {step' : Convert α'}
    (h : Follows change image step step') :
    Follows change image (during id step) (during (id.map change) step') := by
  have hstart : Follows change (fun _ => ()) (Attempt.modify (·.start id))
      (Attempt.modify (·.start (id.map change))) :=
    Attempt.carriedBy_modify fun state => state.rename_start injective id
  exact hstart.bind fun _ _ => h.andThen fun state => state.rename_stop injective id

theorem follows_promise (injective : change.Injective) (id : TypeId) :
    Follows change (fun _ => ()) (Attempt.modify (·.promise id))
      (Attempt.modify (·.promise (change id))) :=
  Attempt.carriedBy_modify fun state => state.rename_promise injective id

theorem follows_share (injective : change.Injective) (id : TypeId) (definition : Definition) :
    Follows change (fun _ => ()) (Attempt.modify (·.share id definition))
      (Attempt.modify (·.share (change id) (definition.rename change))) :=
  Attempt.carriedBy_modify fun state => state.rename_share injective id definition

/-- Properties that resemble one another have the same names. -/
theorem map_name_eq (same : ResembleAll change listed listed') :
    listed'.map (·.name) = listed.map (·.name) := by
  induction same with
  | nil => rfl
  | cons hfirst _ ih =>
      cases hfirst
      rw [List.map_cons, List.map_cons, ih]

/-- The marker for null does not depend on identifiers. -/
theorem rename_markNullable (nullable : Bool) (definition : Definition) :
    (markNullable nullable definition).rename change =
      markNullable nullable (definition.rename change) := by
  cases nullable with
  | false => rfl
  | true => exact Definition.rename_mapHead ..

/-- A pointer to a target becomes one to the other name of the target. -/
theorem rename_pointer {target target' : String}
    (h : (Json.str target).renameTarget change = .str target') (nullable : Bool) :
    (pointer target nullable).rename change = pointer target' nullable := by
  cases nullable <;> simp [pointer, nullFragment, Definition.rename, Definition.renameAll, h]

namespace Corresponds

/-! ## Objects -/

/-- The second graph has the changed identifier at its root when the first one has the
identifier there. -/
theorem id?_root_iff (h : first.Corresponds change second) (id : TypeId) :
    second.graph.root.id? = some (change id) ↔ first.graph.root.id? = some id := by
  rw [h.graph.root.id?_eq, ← Option.map_some, (Option.map_injective h.injective).eq_iff]

/-- Properties that resemble one another are selected alike. -/
theorem requires_eq (h : first.Corresponds change second) {property property' : Property TypeRef}
    (same : Property.Resembles (TypeRef.Resembles change) property property') :
    second.requires property' = first.requires property := by
  cases same with
  | retype same => rw [requires, requires, h.flags, h.dialect, same.nullable_eq]

/-- Objects that resemble one another require the same names. -/
theorem requiredNames_eq (h : first.Corresponds change second)
    (same : ResembleAll change type.properties listed) :
    second.requiredNames { type with properties := listed } = first.requiredNames type := by
  rw [Conversion.requiredNames_eq, Conversion.requiredNames_eq]
  refine map_name_eq (List.rel_filter (fun property property' same => ?_) same)
  exact iff_of_eq (congrArg (· = true) (h.requires_eq same).symm)

/-- Dressing adds the same under changed identifiers. -/
theorem dress (h : first.Corresponds change second) {property property' : Property TypeRef}
    (same : Property.Resembles (TypeRef.Resembles change) property property') (required : Bool)
    (definition : Definition) :
    second.dress property' required (definition.rename change) =
      (first.dress property required definition).rename change := by
  rcases same with @⟨name, type, type', description, hasDefault, default, same⟩
  have hunite : second.unite required (definition.rename change) =
      (first.unite required definition).rename change := by
    rw [unite, unite, h.dialect]
    split
    · exact definition.rename_asUnion.symm
    · rfl
  have hsettle : ∀ fragment : Definition,
      second.settle { name, type := type', description, hasDefault, default } required
        (fragment.rename change) =
      (first.settle { name, type, description, hasDefault, default } required fragment).rename
        change := by
    intro fragment
    rw [settle, settle, h.flags]
    split
    · rfl
    · split <;> exact (Definition.rename_mapHead ..).symm
  have hdescribe : ∀ fragment : Definition,
      describe { name, type := type', description, hasDefault, default } (fragment.rename change) =
      (describe { name, type, description, hasDefault, default } fragment).rename change := by
    intro fragment
    cases description with
    | none => rfl
    | some text => exact (Definition.rename_withDescription ..).symm
  rw [dress_eq, dress_eq, hunite, hsettle, hdescribe]

/-- Properties are converted alike, one after the other. -/
theorem properties (h : first.Corresponds change second)
    (hbelow : FollowsWithin change first.graph below below') (required : List PropertyName)
    (owner : Option TypeId) (known : Table PropertyName Definition)
    (same : ResembleAll change listed listed')
    (reachable : ∀ property ∈ listed, ∀ id ∈ property.type.targets, first.graph.Reaches id) :
    Follows change (Definition.renameTable change)
      (first.properties below required owner known listed)
      (second.properties below' required (owner.map change) (Definition.renameTable change known)
        listed') := by
  induction same generalizing known with
  | nil => exact Attempt.carriedBy_pure rfl
  | @cons property property' rest rest' hsame _ ih =>
      rw [List.forall_mem_cons] at reachable
      have hname : property'.name = property.name := by cases hsame; rfl
      have htype : property.type.Resembles change property'.type := by cases hsame; assumption
      have hfirst : Follows change (Definition.rename change)
          (first.property below property (required.contains property.name) owner)
          (second.property below' property' (required.contains property.name) (owner.map change)) :=
        (hbelow _ _ owner htype reachable.1).bind fun definition _ =>
          Attempt.carriedBy_pure (h.dress hsame ..)
      rw [Conversion.properties, Conversion.properties, hname]
      refine hfirst.bind fun definition _ => ?_
      rw [← Definition.renameTable_put]
      exact ih _ reachable.2

/-- The bodies of objects that resemble one another are converted alike. -/
theorem objectBody (h : first.Corresponds change second)
    (hbelow : FollowsWithin change first.graph below below')
    (same : ResembleAll change type.properties listed)
    (reachable : ∀ id ∈ NodeOf.targets (.object type), first.graph.Reaches id)
    (id : Option TypeId) :
    Follows change (Definition.rename change) (first.objectBody below type id)
      (second.objectBody below' { type with properties := listed } (id.map change)) := by
  rw [Conversion.objectBody, Conversion.objectBody, h.requiredNames_eq same]
  have hproperties : ∀ property ∈ type.properties, ∀ target ∈ property.type.targets,
      first.graph.Reaches target := fun property hproperty target htarget =>
    reachable target (List.mem_flatMap.mpr ⟨property, hproperty, htarget⟩)
  have htable : Follows change (Definition.renameTable change)
      (during id (first.properties below (first.requiredNames type) id [] type.properties))
      (during (id.map change)
        (second.properties below' (first.requiredNames type) (id.map change) [] listed)) :=
    follows_during h.injective (h.properties hbelow _ id [] same hproperties)
  refine htable.bind fun table _ => Attempt.carriedBy_pure ?_
  rw [Definition.rename, Definition.renameProperties, Definition.renameAdditional,
    Definition.renameMembers_eq, Definition.renameTable, Definition.renameTable, List.map_map,
    List.map_map, map_name_eq same]
  rfl

/-- The cases are those of the conversion: the object is under way, shared or written out. -/
theorem object (h : first.Corresponds change second)
    (hbelow : FollowsWithin change first.graph below below')
    (same : ResembleAll change type.properties listed)
    (reachable : ∀ id ∈ NodeOf.targets (.object type), first.graph.Reaches id)
    (nullable : Bool) (id : TypeId) :
    Follows change (Definition.rename change) (first.object below type nullable (some id))
      (second.object below' { type with properties := listed } nullable (some (change id))) := by
  have hroot := h.id?_root_iff id
  have hwhole : Follows change (Definition.rename change) (pure (pointer "#" nullable))
      (pure (pointer "#" nullable)) :=
    Attempt.carriedBy_pure (rename_pointer (Json.renameTarget_root change) nullable).symm
  have hpointer : Follows change (Definition.rename change)
      (pure (pointer (defsPointer id) nullable))
      (pure (pointer (defsPointer (change id)) nullable)) :=
    Attempt.carriedBy_pure (rename_pointer (Json.renameTarget_defsPointer change id) nullable).symm
  have hmarked : ∀ definition : Definition, Follows change (Definition.rename change)
      (pure (markNullable nullable definition))
      (pure (markNullable nullable (definition.rename change))) := fun definition =>
    Attempt.carriedBy_pure (rename_markNullable ..).symm
  rw [Conversion.object, Conversion.object]
  refine Attempt.carriedBy_get.bind fun state _ => ?_
  refine .ite (by rw [state.contains_rename_inProgress h.injective])
    (fun inside => ?_) fun outside => ?_
  · exact .ite hroot (fun _ => hwhole) fun _ =>
      (follows_promise h.injective id).bind fun _ _ => hpointer
  · refine .ite (by rw [state.has_rename_defs h.injective])
      (fun shared => hpointer) fun new => ?_
    refine (h.objectBody hbelow same reachable (some id)).bind fun definition _ => ?_
    refine Attempt.carriedBy_get.bind fun state _ => ?_
    refine .ite (by rw [state.contains_rename_pending h.injective])
      (fun promised => ?_) fun free => hmarked definition
    exact (follows_share h.injective id definition).bind fun _ _ =>
      .ite hroot (fun _ => hmarked definition) fun _ => hpointer

/-! ## Polymorphic types -/

/-- A node within reach is looked up under its changed identifier. -/
theorem ofNode_bind (h : first.Corresponds change second) {id : TypeId}
    (reached : first.graph.Reaches id) (owner : Option TypeId) {α α' : Type} {image : α → α'}
    {next : Node → Convert α} {next' : Node → Convert α'}
    (hnext : ∀ node node', first.graph.nodes.find? id = some node → node.Resembles change node' →
      Follows change image (next node) (next' node')) :
    Follows change image (Attempt.ofExcept (first.graph.node id owner) >>= next)
      (Attempt.ofExcept (second.graph.node (change id) (owner.map change)) >>= next') := by
  have hnodes := h.graph.nodes id reached
  -- The second node is no function of the first one, so both lookups are opened at once.
  rw [TypeGraph.node, TypeGraph.node]
  generalize second.graph.nodes.find? (change id) = found' at hnodes
  cases hfound : first.graph.nodes.find? id with
  | none =>
      rw [hfound] at hnodes
      cases hnodes
      exact fun _ => rfl
  | some node =>
      rw [hfound] at hnodes
      cases hnodes with
      | some same => exact hnext _ _ hfound same

/-- The body of a subtype is converted alike under its other name. -/
theorem variantBody (h : first.Corresponds change second)
    (hbelow : FollowsWithin change first.graph below below') {id : TypeId}
    (reached : first.graph.Reaches id) (owner : Option TypeId) :
    Follows change (Definition.rename change) (first.variantBody below id owner)
      (second.variantBody below' (change id) (owner.map change)) := by
  rw [Conversion.variantBody, Conversion.variantBody]
  refine h.ofNode_bind reached owner fun node node' found same => ?_
  have hother : Follows change (Definition.rename change) (below (.named id false) owner)
      (below' (.named (change id) false) (owner.map change)) := by
    refine hbelow _ _ owner .named fun target htarget => ?_
    rwa [List.mem_singleton.mp htarget]
  cases same with
  | object same => exact h.objectBody hbelow same (fun _ => .step reached found) (some id)
  | primitive | list | map | enumeration | polymorphic | other => exact hother

/-- A subtype is shared, promised or left alone alike. -/
theorem variant (h : first.Corresponds change second)
    (hbelow : FollowsWithin change first.graph below below') {variant variant' : Variant TypeRef}
    (same : variant'.id = change variant.id) (reached : first.graph.Reaches variant.id)
    (owner : Option TypeId) :
    Follows change (fun _ => ()) (first.variant below owner variant)
      (second.variant below' (owner.map change) variant') := by
  rw [Conversion.variant, Conversion.variant, same]
  refine Attempt.carriedBy_get.bind fun state _ => ?_
  refine .ite (by rw [state.has_rename_defs h.injective])
    (fun shared => Attempt.carriedBy_pure rfl) fun new => ?_
  exact .ite (by rw [state.contains_rename_inProgress h.injective])
    (fun inside => follows_promise h.injective variant.id) fun outside =>
    (h.variantBody hbelow reached owner).bind fun definition _ =>
      follows_share h.injective variant.id definition

/-- Discriminators announce the same subtypes under their other names. -/
theorem discriminatorBlock (h : first.Corresponds change second)
    (discriminator : Option Discriminator) :
    second.discriminatorBlock (discriminator.map (·.rename change)) =
      (first.discriminatorBlock discriminator).map (·.rename change) := by
  cases discriminator with
  | none => rfl
  | some discriminator =>
      rcases discriminator with ⟨name, required, _ | mapping⟩ <;>
        by_cases strict : first.flags.strict.isTruthy = true <;>
        simp [Conversion.discriminatorBlock, h.flags, strict, Discriminator.rename,
          DiscriminatorBlock.rename]

/-- The choice is between pointers to the changed identifiers, whatever the references to the
subtypes are. -/
theorem choiceFragment (h : first.Corresponds change second) {type : PolymorphicType TypeRef}
    {variants : List (Variant TypeRef)}
    (same : variants.map (·.id) = type.variants.map fun variant => change variant.id)
    (nullable : Bool) :
    second.choiceFragment
        { type with variants, discriminator := type.discriminator.map (·.rename change) } nullable =
      (first.choiceFragment type nullable).rename change := by
  have hpointers : variantPointers
        { type with variants, discriminator := type.discriminator.map (·.rename change) } =
      Definition.renameAll change (variantPointers type) := by
    have htargets := congrArg
      (List.map fun id => Definition.reference (.str (defsPointer id)) .null) same
    rw [List.map_map, List.map_map] at htargets
    rw [variantPointers, variantPointers, Definition.renameAll_eq_map, List.map_map]
    refine htargets.trans (List.map_congr_left fun variant _ => ?_)
    simp [Definition.rename]
  rw [Conversion.choiceFragment, Conversion.choiceFragment, h.discriminatorBlock, hpointers]
  cases nullable <;> simp [Definition.rename, Definition.renameAll, nullFragment]

/-- Polymorphic types whose subtypes correspond are converted alike. -/
theorem polymorphic (h : first.Corresponds change second)
    (hbelow : FollowsWithin change first.graph below below') {type : PolymorphicType TypeRef}
    {variants : List (Variant TypeRef)}
    (same : variants.map (·.id) = type.variants.map fun variant => change variant.id)
    (reachable : ∀ id ∈ NodeOf.targets (.polymorphic type), first.graph.Reaches id)
    (nullable : Bool) (id : TypeId) :
    Follows change (Definition.rename change) (first.polymorphic below type nullable (some id))
      (second.polymorphic below'
        { type with variants, discriminator := type.discriminator.map (·.rename change) } nullable
        (some (change id))) := by
  have hvariants : Follows change (fun _ => ())
      (during (some id) (Attempt.forEach type.variants (first.variant below (some id))))
      (during (some (change id))
        (Attempt.forEach variants (second.variant below' (some (change id))))) := by
    have hsame : List.Forall₂ (· = ·) (variants.map (·.id))
        (type.variants.map fun variant => change variant.id) := by
      rw [List.forall₂_eq_eq_eq]
      exact same
    rw [List.forall₂_map_left_iff, List.forall₂_map_right_iff] at hsame
    have hreached : ∀ variant ∈ type.variants, first.graph.Reaches variant.id :=
      fun variant hvariant => reachable _ (List.mem_map_of_mem hvariant)
    have hboth := (List.forall₂_and_left _ _).mpr ⟨hreached, hsame.flip⟩
    refine follows_during h.injective (.forEach (hboth.imp fun variant variant' both => ?_))
    exact h.variant hbelow both.2 both.1 (some id)
  have hchoice : Follows change (Definition.rename change)
      (pure (first.choiceFragment type nullable)) (pure (second.choiceFragment _ nullable)) :=
    Attempt.carriedBy_pure (h.choiceFragment same nullable)
  intro state
  have hinside : change id ∈ (state.rename change).inProgress ↔ id ∈ state.inProgress :=
    List.mem_map_of_injective h.injective
  rw [run_polymorphic, run_polymorphic]
  by_cases inside : id ∈ state.inProgress
  · rw [if_pos inside, if_pos (hinside.mpr inside)]
    exact hchoice state
  · rw [if_neg inside, if_neg (mt hinside.mp inside)]
    exact (hvariants.bind fun _ _ => hchoice) state

/-! ## Nodes and references -/

/-- Nodes that resemble one another are converted alike. -/
theorem node (h : first.Corresponds change second)
    (hbelow : FollowsWithin change first.graph below below') {ref : TypeRef} {node node' : Node}
    (leads : first.graph.Leads ref node) (reachable : ∀ id ∈ ref.targets, first.graph.Reaches id)
    (same : node.Resembles change node') :
    Follows change (Definition.rename change) (first.node below node ref.nullable ref.id?)
      (second.node below' node' ref.nullable (ref.id?.map change)) := by
  have htargets := leads.reaches reachable
  cases same with
  | primitive | enumeration => exact Attempt.carriedBy_pure rfl
  | list same =>
      refine (hbelow _ _ ref.id? same htargets).bind fun items _ => Attempt.carriedBy_pure ?_
      rw [Definition.rename, Definition.renameItems, Definition.rename_asUnion]
  | map same =>
      refine (hbelow _ _ ref.id? same htargets).bind fun values _ => Attempt.carriedBy_pure ?_
      rw [Definition.rename, Definition.renameProperties, Definition.renameAdditional,
        Definition.rename_asUnion]
  | object same =>
      rcases leads.exists_id rfl with ⟨id, hid⟩
      rw [Conversion.node, Conversion.node, hid]
      exact h.object hbelow same htargets _ id
  | polymorphic same =>
      rcases leads.exists_id rfl with ⟨id, hid⟩
      rw [Conversion.node, Conversion.node, hid]
      exact h.polymorphic hbelow same htargets _ id
  | other => exact Attempt.carriedBy_fail rfl

/-- One layer converts references alike when the layers below do. -/
theorem layer (h : first.Corresponds change second)
    (hbelow : FollowsWithin change first.graph below below') :
    FollowsWithin change first.graph (first.layer below) (second.layer below') := by
  intro ref ref' owner hsame reachable
  cases hsame with
  | inline same =>
      rw [Conversion.layer, Conversion.layer, same.typeName_eq]
      refine .ite (by rw [same.needsName_eq]) (fun named => Attempt.carriedBy_fail rfl)
        fun unnamed => ?_
      exact h.node hbelow (.inline (by simpa using unnamed)) reachable same
  | named =>
      rw [Conversion.layer, Conversion.layer]
      refine h.ofNode_bind (reachable _ (List.mem_singleton.mpr rfl)) owner ?_
      exact fun node node' found same => h.node hbelow (.named found) reachable same

/-- With any budget, a reference that resembles a reachable one is converted like it. -/
theorem reference (h : first.Corresponds change second) (budget : Nat) :
    FollowsWithin change first.graph (first.reference budget) (second.reference budget) := by
  induction budget with
  | zero => exact fun ref ref' owner _ _ => Attempt.carriedBy_fail rfl
  | succ budget ih => exact h.layer ih

/-! ## Whole conversions -/

/-- The roots are converted alike.  The budgets of two graphs differ, but a conversion runs
alike with any greater one. -/
theorem run_root (h : first.Corresponds change second) :
    (second.convert second.graph.root none).run {} =
      ((((first.convert first.graph.root none).run {}).1.map (Definition.rename change)).mapError
        (Error.rename change), ((first.convert first.graph.root none).run {}).2.rename change) := by
  have hroot := h.reference (max first.budget second.budget) _ _ none h.graph.root
    (fun _ => .root) {}
  rw [run_root_eq_convert (by omega)] at hroot
  exact (run_root_eq_convert (by omega) none).symm.trans hroot

/-- The bodies of a reachable object are converted alike. -/
theorem run_body (h : first.Corresponds change second) {id : TypeId}
    (reached : first.graph.Reaches id) (found : first.graph.nodes.find? id = some (.object type))
    (found' : second.graph.nodes.find? (change id) =
      some (.object { type with properties := listed }))
    (same : ResembleAll change type.properties listed) :
    (second.objectBody second.convert { type with properties := listed }
        (some (change id))).run {} =
      ((((first.objectBody first.convert type (some id)).run {}).1.map
        (Definition.rename change)).mapError (Error.rename change),
        ((first.objectBody first.convert type (some id)).run {}).2.rename change) := by
  have hbody := h.objectBody (h.reference (max first.budget second.budget)) same
    (fun _ => .step reached found) (some id) {}
  rw [run_body_eq_convert found (by omega), Option.map_some] at hbody
  exact (run_body_eq_convert found' (by omega)).symm.trans hbody

end Corresponds

end Conversion

/-! ## Documents -/

namespace TypeGraph.Corresponds

open Conversion

variable {graph other : TypeGraph}

/-- The documents are the same under changed identifiers, or the failures are. -/
theorem toSchemaDocument (h : graph.Corresponds change other) (injective : change.Injective)
    (flags : Flags) (name : String) :
    other.toSchemaDocument flags name =
      ((graph.toSchemaDocument flags name).map (·.rename change)).mapError (·.rename change) := by
  have hpair : Conversion.Corresponds change ⟨graph, flags, .jsonSchema⟩
      ⟨other, flags, .jsonSchema⟩ := ⟨injective, h, rfl, rfl⟩
  have hroot := hpair.run_root
  rw [TypeGraph.toSchemaDocument, TypeGraph.toSchemaDocument]
  rcases hrun : (Conversion.convert ⟨graph, flags, .jsonSchema⟩ graph.root none).run {} with
    ⟨outcome, after⟩
  simp only [hrun] at hroot ⊢
  rw [hroot]
  cases outcome with
  | error error => rfl
  | ok root =>
      simp only [Except.map, Except.mapError]
      rw [SchemaDocument.rename, rename_schemaBody]
      rfl

/-- The roots of tool schemas are missing alike, or they are objects that resemble one
another. -/
theorem toolRoot_cases (h : graph.Corresponds change other) :
    (∃ error, graph.toolRoot = .error error ∧ other.toolRoot = .error (error.rename change)) ∨
    ∃ id type listed, graph.Reaches id ∧ graph.toolRoot = .ok (id, type) ∧
      other.toolRoot = .ok (change id, { type with properties := listed }) ∧
      ResembleAll change type.properties listed := by
  have hroot := h.root
  have hreached : ∀ id ∈ graph.root.targets, graph.Reaches id := fun _ => .root
  rw [toolRoot, toolRoot]
  generalize graph.root = root at hroot hreached
  generalize other.root = root' at hroot
  cases hroot with
  | inline same => exact Or.inl ⟨_, rfl, rfl⟩
  | @named id nullable =>
      have reached := hreached id (List.mem_singleton.mpr rfl)
      have hnodes := h.nodes id reached
      simp only [TypeGraph.node]
      generalize graph.nodes.find? id = found at hnodes
      generalize other.nodes.find? (change id) = found' at hnodes
      cases hnodes with
      | none => exact Or.inl ⟨_, rfl, rfl⟩
      | some same =>
          cases same with
          | object same => exact Or.inr ⟨id, _, _, reached, rfl, rfl, same⟩
          | primitive | list | map | enumeration | polymorphic | other =>
              exact Or.inl ⟨_, rfl, rfl⟩

/-- The tool schemas are the same under changed identifiers, or the failures are. -/
theorem toToolDocument (h : graph.Corresponds change other) (injective : change.Injective)
    (flags : Flags) :
    other.toToolDocument flags =
      ((graph.toToolDocument flags).map (·.rename change)).mapError (·.rename change) := by
  have hpair : Conversion.Corresponds change ⟨graph, flags, .tool⟩ ⟨other, flags, .tool⟩ :=
    ⟨injective, h, rfl, rfl⟩
  rw [TypeGraph.toToolDocument, TypeGraph.toToolDocument]
  rcases h.toolRoot_cases with ⟨error, hfirst, hsecond⟩ |
    ⟨id, type, listed, reached, hfirst, hsecond, same⟩
  · rw [hfirst, hsecond]
    rfl
  · have found := (toolRoot_eq_ok_iff.mp hfirst).2
    have found' := (toolRoot_eq_ok_iff.mp hsecond).2
    have hbody := hpair.run_body reached found found' same
    rw [hfirst, hsecond, ok_bind, ok_bind]
    rcases hrun : (Conversion.objectBody ⟨graph, flags, .tool⟩
      (Conversion.convert ⟨graph, flags, .tool⟩) type (some id)).run {} with ⟨outcome, after⟩
    simp only [hrun] at hbody ⊢
    rw [hbody]
    cases outcome with
    | error error => rfl
    | ok definition =>
        rcases runs_of_objectBody (runs_of_reference _) found List.not_mem_nil hrun with
          ⟨fragments, -, rfl⟩
        have hdefs : nonEmpty? (after.rename change).defs =
            (nonEmpty? after.defs).map (Definition.renameShared change) :=
          nonEmpty?_map ..
        refine congrArg Except.ok ?_
        simp [objectFragment, ToolDocument.rename, SchemaBody.rename, Definition.rename,
          Definition.renameProperties, Definition.renameMembers_eq, hdefs]

end TypeGraph.Corresponds

end Schemata
