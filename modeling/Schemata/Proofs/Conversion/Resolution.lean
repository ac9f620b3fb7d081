import Schemata.Proofs.Conversion.Presence
import Schemata.Proofs.Conversion.Promises

/-!
# Pointers that resolve

At the end of a conversion nothing is under way, so a pointer is covered by a shared
definition or by a promise.  A promise that was not kept is that of a polymorphic type
which is itself a subtype, or, in a tool schema, that of the root object.

Main results:

- Theorem {lit}`Runs.resolved`: what a pointer means when a run has ended.
- Theorem {lit}`toSchemaDocument_isClosed`: when the pointers of a JSON Schema document
  resolve.
- Theorem {lit}`toToolDocument_isClosed`: when the pointers of a tool schema resolve.
-/

namespace Schemata

namespace Conversion

variable {c : Conversion} {job : Job} {state : ConversionState}

/-- When a run from the start has ended, a covered pointer means the whole document, a
shared definition, a nested polymorphic type, or the listed object whose body was
converted. -/
theorem Runs.resolved (h : c.Runs job {} state) (reachable : job.IsReachable c.graph)
    {target : Json} (covered : c.Covers state target) :
    (target = .str "#" ∧ ∃ id, c.graph.root.id? = some id ∧ c.graph.IsObject id) ∨
    ∃ id, target = .str (defsPointer id) ∧
      (id ∈ state.defs.keys ∨ c.graph.Nested id ∨ job.Leaves id ∧ c.Promisable id) := by
  have hidle : state.inProgress = [] := h.inProgress_eq
  rcases covered with hroot | ⟨id, rfl, hshared | hpending | ⟨base, hbase, _⟩⟩
  · exact Or.inl hroot
  · exact Or.inr ⟨id, rfl, Or.inl hshared⟩
  · have hpromisable : c.Promisable id :=
      h.promisable reachable (fun other hother => absurd hother List.not_mem_nil)
        (fun other hother => absurd hother List.not_mem_nil) id hpending
    have hobject : c.graph.IsObject id → id ∈ state.defs.keys ∨ job.Leaves id := by
      intro hobject
      rcases h.outstanding (fun other hother => absurd hother List.not_mem_nil) id hpending
        hobject with (hshared | hinside) | hleaves
      · exact Or.inl hshared
      · rw [hidle] at hinside
        cases hinside
      · exact Or.inr hleaves
    have hkept : c.graph.IsObject id →
        id ∈ state.defs.keys ∨ c.graph.Nested id ∨ job.Leaves id ∧ c.Promisable id :=
      fun h => (hobject h).imp_right fun hleaves => Or.inr ⟨hleaves, hpromisable⟩
    refine Or.inr ⟨id, rfl, ?_⟩
    rcases hpromisable with ⟨hid, _⟩ | ⟨hlists, hid | hid⟩
    · exact hkept hid
    · exact hkept hid
    · exact Or.inr (Or.inl ⟨hlists, hid⟩)
  · rw [hidle] at hbase
    cases hbase

/-- The object whose body is converted is not shared during that, for it is under way. -/
theorem Runs.not_mem_keys_body {id : TypeId} {type : ObjectType TypeRef}
    {fragments : List Definition} {before : ConversionState}
    (h : c.Runs (.body id type fragments) before state) (new : id ∉ before.defs.keys) :
    id ∉ state.defs.keys := by
  intro shared
  cases h with
  | body _ _ properties =>
      have hstart := properties.mem_keys_of_inProgress
        ((ConversionState.mem_start_inProgress ..).mpr (Or.inl rfl)) shared
      exact new (ConversionState.start_defs .. ▸ hstart)

/-- The fragment of the root is written out, for nothing is under way or shared when its
conversion starts. -/
theorem Runs.root_apart {result : Definition}
    (h : c.Runs (.fragment c.graph.root result) {} state) : ¬ result.IsPointer := by
  generalize href : c.graph.root = ref at h
  cases h with
  | primitive | enumeration | list | map => exact not_false
  | rootInside _ inside => cases inside
  | objectInside _ inside => cases inside
  | objectShared _ _ shared => cases shared
  | objectInPlace => exact not_isPointer_object _ _ _
  | rootPromised => exact not_isPointer_object _ _ _
  | objectPromised _ _ _ _ root => exact absurd (by rw [href]; rfl) root
  | choiceInside => exact not_isPointer_choice _ _
  | choice => exact not_isPointer_choice _ _

/-- The fragment of a root that has a body: that of an object, or a choice. -/
theorem Describes.root_cases {result : Definition} (h : c.Describes c.graph.root result)
    (apart : ¬ result.IsPointer) (body : c.graph.HasBody) :
    (∃ id nullable type fragments, c.graph.root = .named id nullable ∧
      c.graph.nodes.find? id = some (.object type) ∧
      c.DescribesAll type.properties fragments ∧
      result = markNullable nullable (c.objectFragment type fragments)) ∨
    (∃ id type, c.graph.root = .named id false ∧
      c.graph.nodes.find? id = some (.polymorphic type) ∧
      result = c.choiceFragment type false) := by
  rcases body with ⟨id, hid, hkind⟩
  rcases TypeRef.id?_eq_some_iff.mp hid with ⟨nullable, href⟩
  rw [href] at h hkind ⊢
  cases h with
  | primitive leads | enumeration leads | list leads | map leads =>
      cases leads with
      | named found =>
          rcases hkind with ⟨type, hkind⟩ | ⟨⟨type, hkind⟩, _⟩
          · cases found.symm.trans hkind
          · cases found.symm.trans hkind
  | object found length parts =>
      exact Or.inl ⟨_, _, _, _, rfl, found, ⟨length, parts⟩, rfl⟩
  | choice found =>
      rcases hkind with ⟨type, hkind⟩ | ⟨_, hnullable⟩
      · cases found.symm.trans hkind
      · cases hnullable
        exact Or.inr ⟨_, _, rfl, found, rfl⟩
  | root | shared => exact absurd (isPointer_pointer ..) apart

end Conversion

/-! ## Pointers of documents -/

namespace TypeGraph

variable {graph : TypeGraph} {flags : Flags} {name : String} {root : Definition}
variable {defs : Table TypeId Definition} {target : Json}

theorem getD_nonEmpty? {α : Type} (table : List α) : (nonEmpty? table).getD [] = table := by
  cases table <;> rfl

/-- Leaving out an empty property table leaves out no pointer. -/
theorem propertiesPointers_nonEmpty? (table : Table String Definition) :
    Definition.propertiesPointers (nonEmpty? table) = Definition.tablePointers table := by
  cases table <;> rfl

@[simp] theorem definedIds_schemaBody :
    (schemaBody flags name root defs).definedIds = defs.keys := by
  have hdefs : (schemaBody flags name root defs).defs = nonEmpty? defs := by
    unfold schemaBody
    split <;> rfl
  rw [SchemaBody.definedIds, hdefs, getD_nonEmpty?]

/-- The pointers of a JSON Schema document are those of the root's fragment and of the
shared definitions. -/
theorem mem_pointers_schemaBody (h : target ∈ (schemaBody flags name root defs).pointers) :
    target ∈ root.pointers ∨ target ∈ Definition.tablePointers defs := by
  unfold schemaBody at h
  split at h
  · simp only [SchemaBody.pointers, propertiesPointers_nonEmpty?, Option.getD_none,
      Definition.allPointers, List.append_nil, List.mem_append] at h
    exact h.imp_left fun h => List.mem_append_left _ h
  · simpa [SchemaBody.pointers, propertiesPointers_nonEmpty?, Definition.propertiesPointers,
      Definition.pointers] using h
  · simp only [SchemaBody.pointers, propertiesPointers_nonEmpty?, Option.getD_none,
      Definition.propertiesPointers, Definition.allPointers, List.nil_append] at h
    exact Or.inr h

/-- The pointers of the shared definitions are among those of the whole document. -/
theorem tablePointers_subset_schemaBody :
    Definition.tablePointers defs ⊆ (schemaBody flags name root defs).pointers := by
  intro target h
  unfold schemaBody
  split <;> simp [SchemaBody.pointers, propertiesPointers_nonEmpty?, h]

/-- A document whose root is an object has the pointers of its fragment. -/
theorem pointers_subset_schemaBody_object {c : Conversion} (type : ObjectType TypeRef)
    (fragments : List Definition) (nullable : Bool) :
    (c.objectFragment type fragments).pointers ⊆ (schemaBody flags name
      (Conversion.markNullable nullable (c.objectFragment type fragments)) defs).pointers := by
  intro target h
  rw [Conversion.pointers_objectFragment] at h
  cases nullable <;>
    simp [Conversion.markNullable, Conversion.objectFragment, Definition.mapHead, schemaBody,
      SchemaBody.pointers, propertiesPointers_nonEmpty?, h]

/-- A document whose root is polymorphic has the pointers of its fragment. -/
theorem pointers_subset_schemaBody_choice {c : Conversion} (type : PolymorphicType TypeRef) :
    (c.choiceFragment type false).pointers ⊆
      (schemaBody flags name (c.choiceFragment type false) defs).pointers := by
  intro target h
  rw [Conversion.pointers_choiceFragment] at h
  simp [Conversion.choiceFragment, schemaBody, SchemaBody.pointers, h]

/-- A pointer to a shared definition resolves only when the definition is there. -/
theorem mem_definedIds_of_resolves {body : SchemaBody} {id : TypeId}
    (h : body.Resolves graph (.str (defsPointer id))) : id ∈ body.definedIds := by
  rcases h with ⟨hroot, _⟩ | ⟨other, hother, hpointer⟩
  · exact absurd (Json.str.inj hroot) (Conversion.defsPointer_ne_root id)
  · rw [Conversion.defsPointer_inj (Json.str.inj hpointer)]
    exact hother

/-- An entry of a table has its pointers among those of the table. -/
theorem pointers_subset_tablePointers {entry : TypeId × Definition} (h : entry ∈ defs) :
    entry.2.pointers ⊆ Definition.tablePointers defs :=
  fun _ htarget => Definition.mem_tablePointers.mpr ⟨entry, h, htarget⟩

/-- The pointers of a document whose pointers resolve lead to nodes that are written out,
when its root is. -/
theorem complete_of_isClosed {c : Conversion} {state : ConversionState} {body : SchemaBody}
    (closed : body.IsClosed c.graph) (keys : body.definedIds = state.defs.keys)
    (shared : c.WritesShared state)
    (among : Definition.tablePointers state.defs ⊆ body.pointers)
    (root : ∀ id ∈ c.graph.root.targets, c.Presents body.pointers id) :
    c.Complete body.pointers where
  root := root
  shared id hid := by
    have hkey := keys ▸ mem_definedIds_of_resolves (closed _ hid)
    rcases List.mem_map.mp hkey with ⟨entry, hentry, rfl⟩
    exact ⟨entry.2, shared entry hentry,
      fun _ h => among (pointers_subset_tablePointers hentry h)⟩

/-! ## Documents whose pointers resolve -/

/-- What the root's name leads to is the root. -/
theorem presents_root {c : Conversion} {pointers : List Json} {id : TypeId} {nullable : Bool}
    (root : c.graph.root = .named id nullable) (h : c.Presents pointers id) :
    ∀ other ∈ c.graph.root.targets, c.Presents pointers other := by
  intro other hother
  rw [root] at hother
  rw [List.mem_singleton.mp hother]
  exact h

/-- The pointers of a JSON Schema document resolve when every nested polymorphic type has
a shared definition.  For documents with a body, and objects whose properties have
distinct names, they resolve only then. -/
theorem toSchemaDocument_isClosed {document : SchemaDocument}
    (h : graph.toSchemaDocument flags name = .ok document) :
    ((∀ id, graph.Nested id → id ∈ document.body.definedIds) →
      document.body.IsClosed graph) ∧
    (graph.HasBody → graph.DistinctNames → document.body.IsClosed graph →
      ∀ id, graph.Nested id → id ∈ document.body.definedIds) := by
  rcases runs_of_toSchemaDocument h with ⟨root, state, hruns, rfl⟩
  constructor
  · intro nested target htarget
    rcases hruns.covered fun entry hentry => absurd hentry List.not_mem_nil with
      ⟨hshared, hroot⟩
    have hcovered : Conversion.Covers ⟨graph, flags, .jsonSchema⟩ state target := by
      rcases mem_pointers_schemaBody htarget with htarget | htarget
      · exact hroot target htarget
      · rcases Definition.mem_tablePointers.mp htarget with ⟨entry, hentry, htarget⟩
        exact hshared entry hentry target htarget
    rcases hruns.resolved (fun id hid => .root hid) hcovered with
      hwhole | ⟨id, rfl, hkey | hnested | ⟨hleaves, _⟩⟩
    · exact Or.inl hwhole
    · exact Or.inr ⟨id, definedIds_schemaBody ▸ hkey, rfl⟩
    · exact Or.inr ⟨id, nested id hnested, rfl⟩
    · cases hleaves
  · intro body names closed id hnested
    rcases hruns.describes_first with
      ⟨hwritten, hdescribes⟩
    have hroot : ∀ id ∈ graph.root.targets, Conversion.Presents ⟨graph, flags, .jsonSchema⟩
        (schemaBody flags name root state.defs).pointers id := by
      rcases hdescribes.root_cases hruns.root_apart body with
        ⟨id, nullable, type, fragments, href, found, parts, rfl⟩ | ⟨id, type, href, found, rfl⟩
      · exact presents_root href
          ⟨_, .object found parts, pointers_subset_schemaBody_object ..⟩
      · exact presents_root href ⟨_, ⟨.choice found, Conversion.not_isPointer_choice _ _⟩,
          pointers_subset_schemaBody_choice ..⟩
    exact mem_definedIds_of_resolves (closed _ (Conversion.Presents.mem_of_lists
      (complete_of_isClosed closed definedIds_schemaBody hwritten
        tablePointers_subset_schemaBody hroot) names hnested.1))

/-- A hierarchy in two layers below an object that its leaves refer back to. -/
def layeredHierarchy : TypeGraph where
  root := .named "Root" false
  nodes := [
    ("Root", .object {
      name := "Root", properties := [{ name := "top", type := .named "Top" true }] }),
    ("Top", .polymorphic { base := "Top", variants := [⟨"Base", .named "Base" false⟩] }),
    ("Base", .polymorphic { base := "Base", variants := [⟨"Leaf", .named "Leaf" false⟩] }),
    ("Leaf", .object {
      name := "Leaf", properties := [{ name := "root", type := .named "Root" false }] })]

/-- Its document defines both layers and is closed. -/
theorem layeredHierarchy_isClosed : ∃ document,
    layeredHierarchy.toSchemaDocument (.initial .jsonSchema) "Root" = .ok document ∧
    document.body.IsClosed layeredHierarchy ∧
    ∀ id, layeredHierarchy.Nested id → id ∈ document.body.definedIds := by
  refine ⟨_, rfl, ?_⟩
  have hdocument := toSchemaDocument_isClosed
    (show layeredHierarchy.toSchemaDocument (.initial .jsonSchema) "Root" = .ok _ from rfl)
  have hlisted : ∀ id, layeredHierarchy.Lists id → id ∈ ["Leaf", "Base"] :=
    Lists.forall_of_nodes (by simp [layeredHierarchy])
  have hclosed := hdocument.1 fun id nested => hlisted id nested.1
  exact ⟨hclosed, hdocument.2 ⟨"Root", rfl, Or.inl ⟨_, rfl⟩⟩
    (.of_nodes (by simp [layeredHierarchy])) hclosed⟩

/-- A polymorphic type met as a subtype only while its own subtypes are converted. -/
def nestedHierarchy : TypeGraph where
  root := .named "Base" false
  nodes := [
    ("Base", .polymorphic { base := "Base", variants := [⟨"Leaf", .named "Leaf" false⟩] }),
    ("Leaf", .object {
      name := "Leaf", properties := [{ name := "parent", type := .named "Top" false }] }),
    ("Top", .polymorphic { base := "Top", variants := [⟨"Base", .named "Base" false⟩] })]

/-- The pointer to the nested type does not resolve. -/
theorem nestedHierarchy_not_isClosed : ∃ document,
    nestedHierarchy.toSchemaDocument (.initial .jsonSchema) "Base" = .ok document ∧
    nestedHierarchy.HasBody ∧ ¬ document.body.IsClosed nestedHierarchy := by
  refine ⟨_, rfl, ⟨"Base", rfl, Or.inr ⟨⟨_, rfl⟩, rfl⟩⟩, fun closed => ?_⟩
  have hkey : "Base" ∈ _ :=
    mem_definedIds_of_resolves (closed (.str (defsPointer "Base"))
      (List.mem_append_right _ (List.mem_singleton.mpr rfl)))
  revert hkey
  decide

/-- When no polymorphic type is a subtype of another, the pointers of a tool schema resolve
if the root object is not a listed subtype.  For objects whose properties have distinct
names they resolve only then. -/
theorem toToolDocument_isClosed {document : ToolDocument}
    (h : graph.toToolDocument flags = .ok document) (flat : ∀ id, ¬ graph.Nested id) :
    (¬ graph.ListsRoot → document.parameters.IsClosed graph) ∧
    (graph.DistinctNames → document.parameters.IsClosed graph → ¬ graph.ListsRoot) := by
  rcases runs_of_toToolDocument h with ⟨rootId, type, fragments, state, root, found, hruns, rfl⟩
  rcases TypeRef.id?_eq_some_iff.mp root with ⟨nullable, href⟩
  constructor
  · intro unlisted target htarget
    rcases hruns.covered fun entry hentry => absurd hentry List.not_mem_nil with
      ⟨hshared, hfragments⟩
    have hcovered : Conversion.Covers ⟨graph, flags, .tool⟩ state target := by
      simp only [SchemaBody.pointers, propertiesPointers_nonEmpty?, Option.getD_none,
        Definition.allPointers, Definition.propertiesPointers, List.append_nil,
        List.mem_append] at htarget
      rcases htarget with htarget | htarget
      · rcases Conversion.mem_pointers_memberTable htarget with ⟨fragment, hfragment, htarget⟩
        exact hfragments fragment hfragment target htarget
      · rcases Definition.mem_tablePointers.mp htarget with ⟨entry, hentry, htarget⟩
        exact hshared entry hentry target htarget
    rcases hruns.resolved (.root (href ▸ List.mem_singleton.mpr rfl)) hcovered with
      hwhole | ⟨id, rfl, hkey | hnested | ⟨rfl, ⟨_, hother⟩ | ⟨hlists, _⟩⟩⟩
    · exact Or.inl hwhole
    · refine Or.inr ⟨id, ?_, rfl⟩
      rwa [SchemaBody.definedIds, getD_nonEmpty?]
    · exact absurd hnested (flat id)
    · exact absurd root hother
    · exact absurd ⟨_, root, hlists⟩ unlisted
  · rintro names closed ⟨id, hid, hlists⟩
    rw [root, Option.some.injEq] at hid
    subst hid
    rcases hruns.describes_first with
      ⟨hwritten, parts⟩
    have hcomplete := complete_of_isClosed (c := ⟨graph, flags, .tool⟩) closed
      (by rw [SchemaBody.definedIds, getD_nonEmpty?]) hwritten
      (by simp [SchemaBody.pointers, propertiesPointers_nonEmpty?]) ?_
    · have hkey := mem_definedIds_of_resolves
        (closed _ (Conversion.Presents.mem_of_lists hcomplete names hlists))
      rw [SchemaBody.definedIds, getD_nonEmpty?] at hkey
      exact hruns.not_mem_keys_body List.not_mem_nil hkey
    · refine presents_root href ⟨_, .object found parts, ?_⟩
      rw [Conversion.pointers_objectFragment]
      exact fun _ h => List.mem_append_left _ (List.mem_append_left _ h)

/-- An object with a subtype that refers back to it. -/
def unlistedRoot : TypeGraph where
  root := .named "Root" false
  nodes := [
    ("Root", .object {
      name := "Root", properties := [{ name := "base", type := .named "Base" true }] }),
    ("Base", .polymorphic { base := "Base", variants := [⟨"Leaf", .named "Leaf" false⟩] }),
    ("Leaf", .object {
      name := "Leaf", properties := [{ name := "root", type := .named "Root" false }] })]

/-- Its tool schema is closed, and the root is not listed. -/
theorem unlistedRoot_isClosed : ∃ document,
    unlistedRoot.toToolDocument (.initial .tool) = .ok document ∧
    document.parameters.IsClosed unlistedRoot ∧ ¬ unlistedRoot.ListsRoot := by
  refine ⟨_, rfl, ?_⟩
  have hlisted : ∀ id, unlistedRoot.Lists id → id = "Leaf" :=
    Lists.forall_of_nodes (by simp [unlistedRoot])
  have hflat : ∀ id, ¬ unlistedRoot.Nested id := by
    rintro id ⟨hlists, type, hpolymorphic⟩
    cases hlisted id hlists
    cases hpolymorphic
  have hdocument := toToolDocument_isClosed
    (show unlistedRoot.toToolDocument (.initial .tool) = .ok _ from rfl) hflat
  have hclosed := hdocument.1 ?_
  · exact ⟨hclosed, hdocument.2 (.of_nodes (by simp [unlistedRoot])) hclosed⟩
  · rintro ⟨id, hid, hlists⟩
    cases hlisted id hlists
    revert hid
    decide

/-- An object that is a subtype of the type of its own property. -/
def listedRoot : TypeGraph where
  root := .named "Root" false
  nodes := [
    ("Root", .object {
      name := "Root", properties := [{ name := "child", type := .named "Base" true }] }),
    ("Base", .polymorphic { base := "Base", variants := [⟨"Root", .named "Root" false⟩] })]

/-- The pointer to the listed root does not resolve. -/
theorem listedRoot_not_isClosed : ∃ document,
    listedRoot.toToolDocument (.initial .tool) = .ok document ∧
    (∀ id, ¬ listedRoot.Nested id) ∧ ¬ document.parameters.IsClosed listedRoot := by
  refine ⟨_, rfl, ?_, fun closed => ?_⟩
  · rintro id ⟨hlists, type, hpolymorphic⟩
    have hlisted : ∀ id, listedRoot.Lists id → id = "Root" :=
      Lists.forall_of_nodes (by simp [listedRoot])
    cases hlisted id hlists
    cases hpolymorphic
  · have hkey : "Root" ∈ _ :=
      mem_definedIds_of_resolves (closed (.str (defsPointer "Root"))
        (List.mem_append_left _ (List.mem_append_left _ (List.mem_singleton.mpr rfl))))
    revert hkey
    decide

end TypeGraph

end Schemata
