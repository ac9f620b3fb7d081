import Schemata.Proofs.Conversion.Pointers
import Schemata.Proofs.Conversion.Progress

/-!
# Promised definitions

A pointer is written before its target when the target is under way.  This file follows
such promises along a run: what can be promised, which promised objects are still to be
shared, and which pointers are covered by a shared definition, by a promise, or by a
polymorphic type under way that is still to share its subtypes.

Main results:

- Theorem {lit}`Runs.promisable`: a promised node is an object other than the root, or a
  listed subtype.
- Theorem {lit}`Runs.outstanding`: a promised object is shared or under way.
- Theorem {lit}`Runs.covered`: every pointer in a fragment or in a shared definition is
  covered.
-/

namespace Schemata

namespace TypeGraph.Leads

variable {graph : TypeGraph} {ref : TypeRef} {node : Node}

/-- What a node leads to is reachable when what a reference to it leads to is. -/
theorem reaches (h : graph.Leads ref node) (reachable : ∀ id ∈ ref.targets, graph.Reaches id) :
    ∀ id ∈ node.targets, graph.Reaches id := by
  cases h with
  | inline unnamed =>
      cases node with
      | primitive | enumeration | other => intro id hid; cases hid
      | list element description => exact reachable
      | map key value description => exact reachable
      | object type => cases unnamed
      | polymorphic type => cases unnamed
  | named found =>
      intro id hid
      exact .step (reachable _ (List.mem_singleton.mpr rfl)) found hid

end TypeGraph.Leads

namespace Conversion

variable {c : Conversion} {job : Job} {state after : ConversionState}

/-! ## What is promised -/

/-- Everything that a job is about is reachable. -/
def Job.IsReachable (graph : TypeGraph) : Job → Prop
  | .fragment ref _ => ∀ id ∈ ref.targets, graph.Reaches id
  | .body id _ _ => graph.Reaches id
  | .properties listed _ => ∀ property ∈ listed, ∀ id ∈ property.type.targets, graph.Reaches id
  | .variants listed => ∀ variant ∈ listed, graph.Lists variant.id

/-- The nodes that are under way are objects and polymorphic types. -/
def NamesUnderWay (c : Conversion) (state : ConversionState) : Prop :=
  ∀ id ∈ state.inProgress, c.graph.IsObject id ∨ c.graph.IsPolymorphic id

/-- A node that can be promised: an object other than the root, or a listed subtype. -/
def Promisable (c : Conversion) (id : TypeId) : Prop :=
  (c.graph.IsObject id ∧ c.graph.root.id? ≠ some id) ∨
    (c.graph.Lists id ∧ (c.graph.IsObject id ∨ c.graph.IsPolymorphic id))

/-- Entering a named object or polymorphic type keeps the names under way known. -/
theorem NamesUnderWay.start (h : c.NamesUnderWay state) {id : TypeId}
    (named : c.graph.IsObject id ∨ c.graph.IsPolymorphic id) :
    c.NamesUnderWay (state.start (some id)) := by
  intro other hother
  rcases (ConversionState.mem_start_inProgress ..).mp hother with rfl | hother
  · exact named
  · exact h other hother

/-- Names under way depend on what is in progress only. -/
theorem NamesUnderWay.of_eq (h : c.NamesUnderWay state)
    (same : after.inProgress = state.inProgress) : c.NamesUnderWay after := by
  intro id hid
  exact h id (same ▸ hid)

/-- A promised node is an object other than the root, or a listed subtype. -/
theorem Runs.promisable (h : c.Runs job state after) (reachable : job.IsReachable c.graph)
    (names : c.NamesUnderWay state) (before : ∀ id ∈ state.pending, c.Promisable id) :
    ∀ id ∈ after.pending, c.Promisable id := by
  induction h with
  | primitive | enumeration | rootInside | objectShared | choiceInside | noProperties
  | noVariants => exact before
  | list node _ element => exact element (node.reaches reachable) names before
  | map node _ value => exact value (node.reaches reachable) names before
  | objectInside node _ root =>
      intro id hid
      rcases (ConversionState.mem_promise_pending ..).mp hid with rfl | hid
      · exact Or.inl ⟨⟨_, node⟩, root⟩
      · exact before id hid
  | objectInPlace _ _ _ _ body =>
      exact body (reachable _ (List.mem_singleton.mpr rfl)) names before
  | objectPromised _ _ _ _ _ body =>
      exact body (reachable _ (List.mem_singleton.mpr rfl)) names before
  | rootPromised _ _ _ _ _ body =>
      exact body (reachable _ (List.mem_singleton.mpr rfl)) names before
  | choice node _ _ variants =>
      refine variants ?_ (names.start (Or.inr ⟨_, node⟩)) (by simpa using before)
      intro variant hvariant
      exact ⟨_, _, reachable _ (List.mem_singleton.mpr rfl), node,
        List.mem_map_of_mem hvariant⟩
  | body node _ _ properties =>
      refine properties ?_ (names.start (Or.inl ⟨_, node⟩)) (by simpa using before)
      intro property hproperty id hid
      exact .step reachable node (List.mem_flatMap.mpr ⟨property, hproperty, hid⟩)
  | property run _ head tail =>
      rw [Job.IsReachable, List.forall_mem_cons] at reachable
      exact tail reachable.2 (names.of_eq run.inProgress_eq) (head reachable.1 names before)
  | variantShared _ _ tail =>
      rw [Job.IsReachable, List.forall_mem_cons] at reachable
      exact tail reachable.2 names before
  | variantInside inside _ tail =>
      rw [Job.IsReachable, List.forall_mem_cons] at reachable
      refine tail reachable.2 (names.of_eq (ConversionState.promise_inProgress ..)) ?_
      intro id hid
      rcases (ConversionState.mem_promise_pending ..).mp hid with rfl | hid
      · exact Or.inr ⟨reachable.1, names _ inside⟩
      · exact before id hid
  | variantObject _ _ run _ body tail =>
      rw [Job.IsReachable, List.forall_mem_cons] at reachable
      exact tail reachable.2 (names.of_eq run.inProgress_eq)
        (body reachable.1.reaches names before)
  | variantOther _ _ _ _ run _ written tail =>
      rw [Job.IsReachable, List.forall_mem_cons] at reachable
      refine tail reachable.2 (names.of_eq run.inProgress_eq) (written ?_ names before)
      intro id hid
      exact List.mem_singleton.mp hid ▸ reachable.1.reaches

/-! ## Promised objects that are still to be shared -/

/-- A job can leave an object promised that is neither shared nor under way: that whose
body it converts, which its caller shares. -/
def Job.Leaves : Job → TypeId → Prop
  | .body id _ _, other => other = id
  | _, _ => False

/-- A promised object is shared or under way. -/
def Outstanding (c : Conversion) (state : ConversionState) : Prop :=
  ∀ id ∈ state.pending, c.graph.IsObject id → id ∈ state.defs.keys ∨ id ∈ state.inProgress

/-- Entering a definition leaves every promise as it was. -/
theorem Outstanding.start (h : c.Outstanding state) (id : TypeId) :
    c.Outstanding (state.start (some id)) := by
  intro other hother hobject
  rw [ConversionState.start_pending] at hother
  rw [ConversionState.start_defs, ConversionState.mem_start_inProgress]
  exact (h other hother hobject).imp_right Or.inr

/-- The object whose body was converted is shared by its caller. -/
theorem Outstanding.share {id : TypeId} {definition : Definition}
    (h : ∀ other ∈ state.pending, c.graph.IsObject other →
      (other ∈ state.defs.keys ∨ other ∈ state.inProgress) ∨ other = id) :
    c.Outstanding (state.share id definition) := by
  intro other hother hobject
  rw [ConversionState.mem_share_keys]
  rcases h other hother hobject with (hshared | hinside) | rfl
  · exact Or.inl (Or.inr hshared)
  · exact Or.inr hinside
  · exact Or.inl (Or.inl rfl)

/-- A promised object is shared or under way after a run, or it is the one whose body
was converted. -/
theorem Runs.outstanding (h : c.Runs job state after) (before : c.Outstanding state) :
    ∀ id ∈ after.pending, c.graph.IsObject id →
      (id ∈ after.defs.keys ∨ id ∈ after.inProgress) ∨ job.Leaves id := by
  induction h with
  | primitive | enumeration | rootInside | objectShared | choiceInside | noProperties
  | noVariants => exact fun id hid hobject => Or.inl (before id hid hobject)
  | list _ _ element => exact element before
  | map _ _ value => exact value before
  | objectInside _ inside _ =>
      intro id hid hobject
      rw [ConversionState.promise_defs, ConversionState.promise_inProgress]
      rcases (ConversionState.mem_promise_pending ..).mp hid with rfl | hid
      · exact Or.inl (Or.inr inside)
      · exact Or.inl (before id hid hobject)
  | objectInPlace _ _ _ free body =>
      intro id hid hobject
      rcases body before id hid hobject with hdone | rfl
      · exact Or.inl hdone
      · exact absurd hid free
  | objectPromised _ _ _ _ _ body =>
      exact fun id hid hobject => Or.inl (Outstanding.share (body before) id hid hobject)
  | rootPromised _ _ _ _ _ body =>
      exact fun id hid hobject => Or.inl (Outstanding.share (body before) id hid hobject)
  | choice node _ _ variants =>
      intro id hid hobject
      rcases variants (before.start _) id hid hobject with (hshared | hinside) | hleft
      · exact Or.inl (Or.inl hshared)
      · -- The type that ends here is polymorphic, so it is not the promised object.
        refine Or.inl (Or.inr ((ConversionState.mem_stop_inProgress ..).mpr ⟨hinside, ?_⟩))
        rintro rfl
        exact TypeGraph.IsPolymorphic.not_isObject ⟨_, node⟩ hobject
      · cases hleft
  | @body ended _ _ _ _ _ _ _ properties =>
      intro id hid hobject
      by_cases same : id = ended
      · exact Or.inr same
      · rcases properties (before.start _) id hid hobject with (hshared | hinside) | hleft
        · exact Or.inl (Or.inl hshared)
        · exact Or.inl (Or.inr ((ConversionState.mem_stop_inProgress ..).mpr ⟨hinside, same⟩))
        · cases hleft
  | property _ _ head tail =>
      refine tail fun id hid hobject => ?_
      rcases head before id hid hobject with hdone | hleft
      · exact hdone
      · cases hleft
  | variantShared _ _ tail => exact tail before
  | variantInside inside _ tail =>
      refine tail fun id hid hobject => ?_
      rw [ConversionState.promise_defs, ConversionState.promise_inProgress]
      rcases (ConversionState.mem_promise_pending ..).mp hid with rfl | hid
      · exact Or.inr inside
      · exact before id hid hobject
  | variantObject _ _ _ _ body tail => exact tail (Outstanding.share (body before))
  | variantOther _ _ _ _ _ _ written tail =>
      refine tail (Outstanding.share fun id hid hobject => ?_)
      rcases written before id hid hobject with hdone | hleft
      · exact Or.inl hdone
      · cases hleft

/-! ## Covered pointers -/

/-- A pointer is covered when it means the whole document, whose root is an object, or a
node that is shared, promised, or a subtype of a polymorphic type under way. -/
def Covers (c : Conversion) (state : ConversionState) (target : Json) : Prop :=
  (target = .str "#" ∧ ∃ id, c.graph.root.id? = some id ∧ c.graph.IsObject id) ∨
  ∃ id, target = .str (defsPointer id) ∧
    (id ∈ state.defs.keys ∨ id ∈ state.pending ∨
      ∃ base ∈ state.inProgress, ∃ type,
        c.graph.nodes.find? base = some (.polymorphic type) ∧ id ∈ type.variants.map (·.id))

theorem Covers.mono {target : Json} (h : c.Covers state target)
    (later : state.Extends after) : c.Covers after target := by
  rcases h with hroot | ⟨id, rfl, hshared | hpending | ⟨base, hbase, type, hfound, hid⟩⟩
  · exact Or.inl hroot
  · exact Or.inr ⟨id, rfl, Or.inl (later.keys hshared)⟩
  · exact Or.inr ⟨id, rfl, Or.inr (Or.inl (later.pending hpending))⟩
  · exact Or.inr ⟨id, rfl, Or.inr (Or.inr ⟨base, later.inProgress hbase, type, hfound, hid⟩)⟩

/-- When a node ends, what it covered is shared or promised, so nothing is uncovered. -/
theorem Covers.stop {target : Json} {ended : TypeId} (h : c.Covers state target)
    (settled : ∀ type, c.graph.nodes.find? ended = some (.polymorphic type) →
      ∀ id ∈ type.variants.map (·.id), id ∈ state.defs.keys ∨ id ∈ state.pending) :
    c.Covers (state.stop (some ended)) target := by
  rcases h with hroot | ⟨id, rfl, hshared | hpending | ⟨base, hbase, type, hfound, hid⟩⟩
  · exact Or.inl hroot
  · exact Or.inr ⟨id, rfl, Or.inl hshared⟩
  · exact Or.inr ⟨id, rfl, Or.inr (Or.inl hpending)⟩
  · by_cases same : base = ended
    · rcases settled type (same ▸ hfound) id hid with hshared | hpending
      · exact Or.inr ⟨id, rfl, Or.inl hshared⟩
      · exact Or.inr ⟨id, rfl, Or.inr (Or.inl hpending)⟩
    · exact Or.inr ⟨id, rfl, Or.inr (Or.inr
        ⟨base, (ConversionState.mem_stop_inProgress ..).mpr ⟨hbase, same⟩, type, hfound, hid⟩)⟩

/-- An object that ends covered no subtypes, so nothing is uncovered. -/
theorem Covers.stop_object {target : Json} {ended : TypeId} (h : c.Covers state target)
    (object : c.graph.IsObject ended) : c.Covers (state.stop (some ended)) target := by
  refine h.stop fun type htype => ?_
  exact absurd object (TypeGraph.IsPolymorphic.not_isObject ⟨type, htype⟩)

/-- All pointers of a fragment are covered. -/
def CoversFragment (c : Conversion) (state : ConversionState) (definition : Definition) :
    Prop :=
  ∀ target ∈ definition.pointers, c.Covers state target

/-- All pointers of the shared definitions are covered. -/
def CoversShared (c : Conversion) (state : ConversionState) : Prop :=
  ∀ entry ∈ state.defs, c.CoversFragment state entry.2

/-- What a job yields is covered: the pointers of its fragments, and the subtypes that
it goes through. -/
def CoversJob (c : Conversion) (state : ConversionState) : Job → Prop
  | .fragment _ result => c.CoversFragment state result
  | .body _ _ fragments => ∀ fragment ∈ fragments, c.CoversFragment state fragment
  | .properties _ fragments => ∀ fragment ∈ fragments, c.CoversFragment state fragment
  | .variants listed =>
    ∀ variant ∈ listed, variant.id ∈ state.defs.keys ∨ variant.id ∈ state.pending

theorem CoversFragment.mono {definition : Definition} (h : c.CoversFragment state definition)
    (later : state.Extends after) : c.CoversFragment after definition :=
  fun target htarget => (h target htarget).mono later

/-- Shared definitions stay covered while none is added. -/
theorem CoversShared.mono (h : c.CoversShared state) (later : state.Extends after)
    (same : after.defs = state.defs) : c.CoversShared after := by
  intro entry hentry
  rw [same] at hentry
  exact (h entry hentry).mono later

/-- The pointers of an object are covered when those of its properties are. -/
theorem CoversFragment.object {type : ObjectType TypeRef} {fragments : List Definition}
    (h : ∀ fragment ∈ fragments, c.CoversFragment state fragment) :
    c.CoversFragment state (c.objectFragment type fragments) := by
  intro target htarget
  rw [pointers_objectFragment] at htarget
  rcases mem_pointers_memberTable htarget with ⟨fragment, hfragment, hpointer⟩
  exact h fragment hfragment target hpointer

/-- A pointer to a shared or promised node is covered. -/
theorem CoversFragment.pointer {id : TypeId} {nullable : Bool}
    (h : id ∈ state.defs.keys ∨ id ∈ state.pending) :
    c.CoversFragment state (pointer (defsPointer id) nullable) := by
  intro target htarget
  rw [pointers_pointer, List.mem_singleton] at htarget
  exact Or.inr ⟨id, htarget, h.imp_right Or.inl⟩

/-- Sharing a fragment with covered pointers keeps everything covered. -/
theorem CoversShared.share (h : c.CoversShared state) {id : TypeId} {definition : Definition}
    (covered : c.CoversFragment state definition) :
    c.CoversShared (state.share id definition) := by
  intro entry hentry
  rcases ConversionState.mem_share_defs _ _ _ hentry with rfl | hentry
  · exact covered.mono (.share ..)
  · exact (h entry hentry).mono (.share ..)

/-- Along a run every pointer in a shared definition or in a result is covered. -/
theorem Runs.covered (h : c.Runs job state after) (before : c.CoversShared state) :
    c.CoversShared after ∧ c.CoversJob after job := by
  induction h with
  | primitive | enumeration =>
      exact ⟨before, fun target htarget => absurd htarget (List.not_mem_nil)⟩
  | list _ _ element =>
      rcases element before with ⟨hshared, hitems⟩
      refine ⟨hshared, fun target htarget => hitems target ?_⟩
      rwa [Definition.pointers_array] at htarget
  | map _ _ value =>
      rcases value before with ⟨hshared, hvalues⟩
      refine ⟨hshared, fun target htarget => hvalues target ?_⟩
      rwa [Definition.pointers_map] at htarget
  | rootInside node _ root =>
      refine ⟨before, fun target htarget => ?_⟩
      rw [pointers_pointer, List.mem_singleton] at htarget
      exact Or.inl ⟨htarget, _, root, _, node⟩
  | objectInside =>
      refine ⟨before.mono (.promise ..) (ConversionState.promise_defs ..), ?_⟩
      exact .pointer (Or.inr ((ConversionState.mem_promise_pending ..).mpr (Or.inl rfl)))
  | objectShared _ _ shared => exact ⟨before, .pointer (Or.inl shared)⟩
  | @objectInPlace _ nullable _ _ _ _ _ _ _ _ body =>
      rcases body before with ⟨hshared, hfragments⟩
      refine ⟨hshared, fun target htarget => ?_⟩
      rw [pointers_markNullable] at htarget
      exact CoversFragment.object hfragments target htarget
  | objectPromised _ _ _ _ _ body =>
      rcases body before with ⟨hshared, hfragments⟩
      refine ⟨hshared.share (.object hfragments), .pointer (Or.inl ?_)⟩
      exact (ConversionState.mem_share_keys ..).mpr (Or.inl rfl)
  | rootPromised _ _ _ _ _ body =>
      rcases body before with ⟨hshared, hfragments⟩
      refine ⟨hshared.share (.object hfragments), fun target htarget => ?_⟩
      rw [pointers_markNullable] at htarget
      exact (CoversFragment.object hfragments target htarget).mono (.share ..)
  | @choiceInside id _ _ _ node inside =>
      refine ⟨before, fun target htarget => ?_⟩
      rcases mem_pointers_choiceFragment.mp htarget with ⟨variant, hvariant, rfl⟩
      exact Or.inr ⟨variant.id, rfl, Or.inr (Or.inr
        ⟨id, inside, _, node, List.mem_map_of_mem hvariant⟩)⟩
  | @choice ended _ _ _ _ node _ _ variants =>
      rcases variants (before.mono (.start ..) (ConversionState.start_defs ..))
        with ⟨hshared, hvariants⟩
      constructor
      · intro entry hentry target htarget
        refine (hshared entry hentry target htarget).stop fun type htype id hid => ?_
        rw [node, Option.some.injEq, NodeOf.polymorphic.injEq] at htype
        rcases List.mem_map.mp (htype ▸ hid) with ⟨variant, hvariant, rfl⟩
        exact hvariants variant hvariant
      · intro target htarget
        rcases mem_pointers_choiceFragment.mp htarget with ⟨variant, hvariant, rfl⟩
        exact Or.inr ⟨variant.id, rfl, (hvariants variant hvariant).imp_right Or.inl⟩
  | body node _ _ properties =>
      rcases properties (before.mono (.start ..) (ConversionState.start_defs ..))
        with ⟨hshared, hfragments⟩
      exact ⟨fun entry hentry target htarget =>
          (hshared entry hentry target htarget).stop_object ⟨_, node⟩,
        fun fragment hfragment target htarget =>
          (hfragments fragment hfragment target htarget).stop_object ⟨_, node⟩⟩
  | noProperties => exact ⟨before, fun fragment hfragment => absurd hfragment List.not_mem_nil⟩
  | property _ run head tail =>
      rcases head before with ⟨hshared, hfirst⟩
      rcases tail hshared with ⟨hshared, hrest⟩
      exact ⟨hshared, List.forall_mem_cons.mpr ⟨hfirst.mono run.extends, hrest⟩⟩
  | noVariants => exact ⟨before, fun variant hvariant => absurd hvariant List.not_mem_nil⟩
  | variantShared shared run tail =>
      rcases tail before with ⟨hshared, hrest⟩
      exact ⟨hshared, List.forall_mem_cons.mpr ⟨Or.inl (run.keys_subset shared), hrest⟩⟩
  | variantInside _ run tail =>
      rcases tail (before.mono (.promise ..) (ConversionState.promise_defs ..))
        with ⟨hshared, hrest⟩
      refine ⟨hshared, List.forall_mem_cons.mpr ⟨Or.inr (run.pending_subset ?_), hrest⟩⟩
      exact (ConversionState.mem_promise_pending ..).mpr (Or.inl rfl)
  | variantObject _ _ _ run body tail =>
      rcases body before with ⟨hshared, hfragments⟩
      rcases tail (hshared.share (.object hfragments)) with ⟨hshared, hrest⟩
      refine ⟨hshared, List.forall_mem_cons.mpr ⟨Or.inl (run.keys_subset ?_), hrest⟩⟩
      exact (ConversionState.mem_share_keys ..).mpr (Or.inl rfl)
  | variantOther _ _ _ _ _ run written tail =>
      rcases written before with ⟨hshared, hfragment⟩
      rcases tail (hshared.share hfragment) with ⟨hshared, hrest⟩
      refine ⟨hshared, List.forall_mem_cons.mpr ⟨Or.inl (run.keys_subset ?_), hrest⟩⟩
      exact (ConversionState.mem_share_keys ..).mpr (Or.inl rfl)

end Conversion

end Schemata
