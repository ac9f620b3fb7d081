import Schemata.Proofs.Conversion.Resolution

/-!
# Shared definitions are used

A definition is shared when a pointer needs it: one to a subtype, or one to an object that is
met inside itself.  The pointer is written before or after its target, and often into a
fragment that is put into its parent later.  So the argument follows pointers only within what
a part of the conversion yields: a name that is shared or promised meanwhile is reached by
pointers from the fragments of that part, through definitions that are shared at its end.

Where all nodes of the table need names, no shared definition is ever replaced, so what is
reached stays reached.

Main results:

- Definition {lit}`Definition.Uses`: pointers lead from given ones to a name, through shared
  definitions.
- Theorem {lit}`Runs.defs_prefix`: shared definitions stay as they are, new ones go to the end.
- Theorem {lit}`Runs.uses`: what is shared or promised during a run is used by what it yields.
- Theorem {lit}`TypeGraph.toSchemaDocument_usesShared`: the body of a document uses all of its
  shared definitions.
-/

namespace Schemata

/-- All nodes of the table need names: they are objects, enumerations and polymorphic types. -/
def TypeGraph.HoldsNamedNodes (graph : TypeGraph) : Prop :=
  ∀ id node, graph.nodes.find? id = some node → node.needsName = true

namespace Definition

/-! ## Following pointers -/

/-- The names that pointers lead to: from the given ones, and from those in a shared definition
that is reached. -/
inductive Uses (defs : Table TypeId Definition) (pointers : List Json) : TypeId → Prop
  | pointer {id : TypeId} (mem : .str (defsPointer id) ∈ pointers) : Uses defs pointers id
  | onward {id other : TypeId} {definition : Definition} (origin : Uses defs pointers id)
      (shared : (id, definition) ∈ defs) (mem : .str (defsPointer other) ∈ definition.pointers) :
      Uses defs pointers other

variable {defs defs' : Table TypeId Definition} {pointers pointers' : List Json} {id : TypeId}

/-- What is used from pointers that are used themselves is used, also among more shared
definitions. -/
theorem Uses.trans (h : Uses defs pointers id) (more : defs ⊆ defs')
    (each : ∀ other, .str (defsPointer other) ∈ pointers → Uses defs' pointers' other) :
    Uses defs' pointers' id := by
  induction h with
  | pointer mem => exact each _ mem
  | onward _ shared mem ih => exact .onward ih (more shared) mem

/-- More pointers and more shared definitions use more. -/
theorem Uses.mono (h : Uses defs pointers id) (more : defs ⊆ defs') (among : pointers ⊆ pointers') :
    Uses defs' pointers' id :=
  h.trans more fun _ mem => .pointer (among mem)

/-- A shared definition uses what its own pointers do. -/
theorem Uses.shared (h : Uses defs pointers' id) {name : TypeId} {definition : Definition}
    (more : defs ⊆ defs') (shared : (name, definition) ∈ defs')
    (among : pointers' ⊆ definition.pointers) (used : Uses defs' pointers name) :
    Uses defs' pointers id :=
  h.trans more fun _ mem => .onward used shared (among mem)

end Definition

namespace SchemaBody

/-- The targets of the pointers of a document outside its shared definitions. -/
def ownPointers (body : SchemaBody) : List Json :=
  Definition.propertiesPointers body.properties ++ Definition.allPointers (body.oneOf.getD [])

/-- Pointers lead from the body of a document to a shared definition, directly or through
others. -/
def Uses (body : SchemaBody) (id : TypeId) : Prop :=
  Definition.Uses (body.defs.getD []) body.ownPointers id

end SchemaBody

namespace ConversionState

/-- A name is shared or promised. -/
def Notes (state : ConversionState) (id : TypeId) : Prop :=
  id ∈ state.defs.keys ∨ id ∈ state.pending

variable {state : ConversionState} {id other : TypeId} {definition : Definition}

@[simp] theorem notes_start : (state.start (some id)).Notes other ↔ state.Notes other := by
  simp [Notes]

@[simp] theorem notes_stop : (state.stop (some id)).Notes other ↔ state.Notes other :=
  Iff.rfl

@[simp] theorem notes_promise :
    (state.promise id).Notes other ↔ other = id ∨ state.Notes other := by
  simp only [Notes, promise_defs, mem_promise_pending]
  exact or_left_comm

@[simp] theorem notes_share :
    (state.share id definition).Notes other ↔ other = id ∨ state.Notes other := by
  rw [Notes, Notes, mem_share_keys, share_pending, or_assoc]

/-- A new definition goes to the end. -/
theorem share_defs (new : id ∉ state.defs.keys) :
    (state.share id definition).defs = state.defs ++ [(id, definition)] := by
  refine Table.put_of_new (fun entry hentry => ?_) definition
  rw [beq_eq_false_iff_ne]
  rintro rfl
  exact new (List.mem_map_of_mem hentry)

end ConversionState

namespace Conversion

open Definition (Uses)

variable {c : Conversion} {job : Job} {state after : ConversionState}

/-! ## Shared definitions stay -/

/-- A node other than an object is not shared while it is converted as a subtype. -/
theorem Runs.not_mem_keys_other (named : c.graph.HoldsNamedNodes) {id : TypeId} {node : Node}
    {nullable : Bool} {fragment : Definition}
    (h : c.Runs (.fragment (.named id nullable) fragment) state after)
    (found : c.graph.nodes.find? id = some node) (other : ∀ type, node ≠ .object type)
    (new : id ∉ state.defs.keys) : id ∉ after.defs.keys := by
  have unnamed {other : Node} (leads : c.graph.Leads (.named id nullable) other) :
      other.needsName = true := by
    cases leads with
    | named found => exact named _ _ found
  cases h with
  | primitive leads | list leads | map leads => cases unnamed leads
  | enumeration => exact new
  | rootInside object | objectInside object | objectShared object | objectInPlace object
  | objectPromised object | rootPromised object =>
      rw [found, Option.some.injEq] at object
      exact absurd object (other _)
  | choiceInside => exact new
  | choice _ _ variants =>
      intro shared
      have hstart := variants.mem_keys_of_inProgress
        ((ConversionState.mem_start_inProgress ..).mpr (Or.inl rfl)) shared
      exact new (ConversionState.start_defs .. ▸ hstart)

/-- Along a run shared definitions stay as they are, and new ones go to the end. -/
theorem Runs.defs_prefix (h : c.Runs job state after) (named : c.graph.HoldsNamedNodes) :
    state.defs <+: after.defs := by
  induction h with
  | primitive | enumeration | rootInside | objectShared | choiceInside | noProperties
  | noVariants => exact List.prefix_rfl
  | list _ _ element => exact element
  | map _ _ value => exact value
  | objectInside => simp
  | objectInPlace _ _ _ _ body => exact body
  | objectPromised _ new run _ _ body =>
      rw [ConversionState.share_defs (run.not_mem_keys_body new)]
      exact body.trans (List.prefix_append ..)
  | rootPromised _ new run _ _ body =>
      rw [ConversionState.share_defs (run.not_mem_keys_body new)]
      exact body.trans (List.prefix_append ..)
  | choice _ _ _ variants => simpa using variants
  | body _ _ _ properties => simpa using properties
  | property _ _ head tail => exact head.trans tail
  | variantShared _ _ tail => exact tail
  | variantInside _ _ tail => simpa using tail
  | variantObject new _ run _ body tail =>
      rw [ConversionState.share_defs (run.not_mem_keys_body new)] at tail
      exact (body.trans (List.prefix_append ..)).trans tail
  | variantOther new _ found other run _ written tail =>
      rw [ConversionState.share_defs (run.not_mem_keys_other named found other new)] at tail
      exact (written.trans (List.prefix_append ..)).trans tail

/-! ## What a part yields uses what it shares -/

/-- The pointers of what a job yields; for subtypes, the pointers to them. -/
def Job.pointers : Job → List Json
  | .fragment _ result => result.pointers
  | .body _ _ fragments | .properties _ fragments => Definition.allPointers fragments
  | .variants listed => listed.map fun variant => .str (defsPointer variant.id)

/-- A run yields one fragment for each property. -/
theorem Runs.length_properties {properties : List (Property TypeRef)}
    {fragments : List Definition} (h : c.Runs (.properties properties fragments) state after) :
    fragments.length = properties.length := by
  induction properties generalizing fragments state with
  | nil => cases h; rfl
  | cons first rest ih =>
      cases h with
      | property _ tail => exact congrArg Nat.succ (ih tail)

/-- An object with distinct names keeps all pointers of the fragments of its properties. -/
theorem Runs.pointers_body (names : c.graph.DistinctNames) {id : TypeId}
    {type : ObjectType TypeRef} {fragments : List Definition}
    (h : c.Runs (.body id type fragments) state after) :
    Definition.allPointers fragments ⊆ (c.objectFragment type fragments).pointers := by
  cases h with
  | body found _ properties =>
      have hlength := properties.length_properties
      intro target htarget
      rcases Definition.mem_allPointers.mp htarget with ⟨fragment, hfragment, hpointer⟩
      rw [← List.map_snd_zip (Nat.le_of_eq hlength)] at hfragment
      rcases List.mem_map.mp hfragment with ⟨part, hpart, rfl⟩
      rw [pointers_objectFragment]
      exact pointers_subset_memberTable hlength (names _ _ found) hpart hpointer

/-- What is shared under a new name stays an entry as long as shared definitions stay. -/
theorem mem_of_share_prefix {id : TypeId} {definition : Definition} (new : id ∉ state.defs.keys)
    (later : (state.share id definition).defs <+: after.defs) :
    state.defs ⊆ after.defs ∧ (id, definition) ∈ after.defs := by
  rw [ConversionState.share_defs new] at later
  exact ⟨((List.prefix_append ..).trans later).subset,
    later.subset (List.mem_append_right _ (List.mem_singleton.mpr rfl))⟩

/-- What is shared or promised after a run was so before, or what the run yields uses it. -/
theorem Runs.uses (h : c.Runs job state after) (named : c.graph.HoldsNamedNodes)
    (names : c.graph.DistinctNames) :
    ∀ id, after.Notes id → state.Notes id ∨ Uses after.defs job.pointers id := by
  induction h with
  | primitive | enumeration | rootInside | objectShared | choiceInside | noProperties
  | noVariants => exact fun id => Or.inl
  | list _ _ element =>
      intro id hid
      rw [Job.pointers, Definition.pointers_array]
      exact element id hid
  | map _ _ value =>
      intro id hid
      rw [Job.pointers, Definition.pointers_map]
      exact value id hid
  | objectInside =>
      intro id hid
      rcases ConversionState.notes_promise.mp hid with rfl | hold
      · exact Or.inr (.pointer (by simp [Job.pointers]))
      · exact Or.inl hold
  | objectInPlace _ _ run _ body =>
      intro id hid
      rw [Job.pointers, pointers_markNullable]
      exact (body id hid).imp_right fun used =>
        used.mono (List.Subset.refl _) (run.pointers_body names)
  | objectPromised _ new run _ _ body =>
      intro id hid
      rcases ConversionState.notes_share.mp hid with rfl | hid
      · exact Or.inr (.pointer (by simp [Job.pointers]))
      · rcases mem_of_share_prefix (run.not_mem_keys_body new) List.prefix_rfl with ⟨more, entry⟩
        exact (body id hid).imp_right fun used =>
          used.shared more entry (run.pointers_body names) (.pointer (by simp [Job.pointers]))
  | rootPromised _ new run promised _ body =>
      -- The root itself is promised, so the run of its body yields a pointer to it.
      intro id hid
      have hbody : _ ∨ Uses _ _ id := body id <| by
        rcases ConversionState.notes_share.mp hid with rfl | hid
        · exact Or.inr promised
        · exact hid
      rcases mem_of_share_prefix (run.not_mem_keys_body new) List.prefix_rfl with ⟨more, -⟩
      rw [Job.pointers, pointers_markNullable]
      exact hbody.imp_right fun used => used.mono more (run.pointers_body names)
  | choice _ _ _ variants =>
      intro id hid
      have hvariants := variants id (ConversionState.notes_stop.mp hid)
      rw [ConversionState.notes_start] at hvariants
      refine hvariants.imp_right fun used => used.mono (List.Subset.refl _) fun target htarget => ?_
      rcases List.mem_map.mp htarget with ⟨variant, hvariant, rfl⟩
      exact mem_pointers_choiceFragment.mpr ⟨variant, hvariant, rfl⟩
  | body _ _ _ properties =>
      intro id hid
      have hproperties := properties id (ConversionState.notes_stop.mp hid)
      rwa [ConversionState.notes_start] at hproperties
  | property _ run head tail =>
      intro id hid
      have more := (run.defs_prefix named).subset
      rcases tail id hid with hmiddle | used
      · exact (head id hmiddle).imp_right fun used => used.mono more (List.subset_append_left ..)
      · exact Or.inr (used.mono (List.Subset.refl _) (List.subset_append_right ..))
  | variantShared _ _ tail =>
      intro id hid
      exact (tail id hid).imp_right fun used =>
        used.mono (List.Subset.refl _) (List.subset_cons_self ..)
  | variantInside _ _ tail =>
      intro id hid
      rcases tail id hid with hpromise | used
      · rcases ConversionState.notes_promise.mp hpromise with rfl | hold
        · exact Or.inr (.pointer (List.mem_cons_self ..))
        · exact Or.inl hold
      · exact Or.inr (used.mono (List.Subset.refl _) (List.subset_cons_self ..))
  | variantObject new _ run later body tail =>
      intro id hid
      rcases mem_of_share_prefix (run.not_mem_keys_body new) (later.defs_prefix named) with
        ⟨more, entry⟩
      rcases tail id hid with hshare | used
      · rcases ConversionState.notes_share.mp hshare with rfl | hmiddle
        · exact Or.inr (.pointer (List.mem_cons_self ..))
        · exact (body id hmiddle).imp_right fun used =>
            used.shared more entry (run.pointers_body names) (.pointer (List.mem_cons_self ..))
      · exact Or.inr (used.mono (List.Subset.refl _) (List.subset_cons_self ..))
  | variantOther new _ found other run later written tail =>
      intro id hid
      rcases mem_of_share_prefix (run.not_mem_keys_other named found other new)
        (later.defs_prefix named) with ⟨more, entry⟩
      rcases tail id hid with hshare | used
      · rcases ConversionState.notes_share.mp hshare with rfl | hmiddle
        · exact Or.inr (.pointer (List.mem_cons_self ..))
        · exact (written id hmiddle).imp_right fun used =>
            used.shared more entry (List.Subset.refl _) (.pointer (List.mem_cons_self ..))
      · exact Or.inr (used.mono (List.Subset.refl _) (List.subset_cons_self ..))

end Conversion

/-! ## Documents -/

namespace TypeGraph

variable {graph : TypeGraph} {flags : Flags} {name : String} {root : Definition}
variable {defs : Table TypeId Definition}

/-- The pointers outside the shared definitions are those of the document without them. -/
theorem ownPointers_schemaBody :
    (schemaBody flags name root defs).ownPointers = (schemaBody flags name root []).pointers := by
  unfold schemaBody
  split <;> simp [SchemaBody.ownPointers, SchemaBody.pointers, nonEmpty?,
    Definition.propertiesPointers]

/-- A document with a body keeps the pointers of the fragment of its root. -/
theorem pointers_subset_ownPointers {state : ConversionState} (body : graph.HasBody)
    (h : Conversion.Runs ⟨graph, flags, .jsonSchema⟩ (.fragment graph.root root) {} state) :
    root.pointers ⊆ (schemaBody flags name root defs).ownPointers := by
  rw [ownPointers_schemaBody]
  rcases h.describes_first.2.root_cases h.root_apart body with
    ⟨id, nullable, type, fragments, -, -, -, rfl⟩ | ⟨id, type, -, -, rfl⟩
  · rw [Conversion.pointers_markNullable]
    exact pointers_subset_schemaBody_object ..
  · exact pointers_subset_schemaBody_choice ..

/-- Where all nodes of the table need names and the properties of objects have distinct ones,
pointers lead from the body of a document to every shared definition. -/
theorem toSchemaDocument_usesShared {document : SchemaDocument} (named : graph.HoldsNamedNodes)
    (names : graph.DistinctNames) (body : graph.HasBody)
    (h : graph.toSchemaDocument flags name = .ok document) :
    ∀ id ∈ document.body.definedIds, document.body.Uses id := by
  rcases runs_of_toSchemaDocument h with ⟨root, state, hruns, rfl⟩
  intro id hid
  rw [definedIds_schemaBody] at hid
  have hdefs : (schemaBody flags name root state.defs).defs.getD [] = state.defs := by
    unfold schemaBody
    split <;> exact getD_nonEmpty? _
  rcases hruns.uses named names id (Or.inl hid) with hfirst | used
  · rcases hfirst with hid | hid <;> cases hid
  · rw [SchemaBody.Uses, hdefs]
    exact used.mono (List.Subset.refl _) (pointers_subset_ownPointers body hruns)

/-- Threads that hold their replies, and authors who refer back to them. -/
def forum : TypeGraph where
  root := .named "Forum" false
  nodes := [
    ("Forum", .object {
      name := "Forum", properties := [{ name := "thread", type := .named "Thread" false }] }),
    ("Thread", .object {
      name := "Thread", properties := [
        { name := "replies", type := .inline (.list (.named "Thread" false) none) false },
        { name := "author", type := .named "Author" true }] }),
    ("Author", .polymorphic { base := "Author", variants := [⟨"Member", .named "Member" false⟩] }),
    ("Member", .object {
      name := "Member", properties := [{ name := "latest", type := .named "Thread" true }] })]

/-- Its document shares members, who are reached through threads only, before threads. -/
theorem forum_usesShared : forum.HoldsNamedNodes ∧ forum.DistinctNames ∧ forum.HasBody ∧
    ∃ document, forum.toSchemaDocument (.initial .jsonSchema) "Forum" = .ok document ∧
      document.body.definedIds = ["Member", "Thread"] ∧
      document.body.Uses "Member" ∧ document.body.Uses "Thread" := by
  have hnamed : forum.HoldsNamedNodes := by
    intro id node found
    have hentries : ∀ entry ∈ forum.nodes, entry.2.needsName = true := by
      simp [forum, NodeOf.needsName]
    exact hentries _ (Table.mem_of_find? found)
  have hnames : forum.DistinctNames := .of_nodes (by simp [forum, Json.beq_text])
  have hbody : forum.HasBody := ⟨"Forum", rfl, Or.inl ⟨_, rfl⟩⟩
  refine ⟨hnamed, hnames, hbody, _, rfl, rfl, ?_⟩
  have huses := toSchemaDocument_usesShared hnamed hnames hbody
    (show forum.toSchemaDocument (.initial .jsonSchema) "Forum" = .ok _ from rfl)
  exact ⟨huses _ (List.mem_cons_self ..), huses _ (List.mem_cons_of_mem _ (List.mem_cons_self ..))⟩

end TypeGraph

end Schemata
