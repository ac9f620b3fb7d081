import Schemata.Introspection.Outcome
import Schemata.Proofs.Attempt
import Schemata.Proofs.Graph.Validity

/-!
# Sessions that read references

A reference is handed out while the slot of its node may still be empty, so what a session
has read is closed only at the end.  Until then every reference that it handed out, keeps
for a declaration or wrote into a node names a slot, and the slots that a step adds are
filled when the step succeeds.

Main results:

- Definition {lit}`Session.IsSound`: the invariant of a session, with empty slots.
- Definition {lit}`Session.Reads`: what a step that reads references does to a session.
- Theorem {lit}`Session.Reads.close`: a step that reads what a node refers to, with the slot
  of the node reserved, has read a reference to the node when the slot is filled.
- Theorem {lit}`Session.Reads.isComplete`: what a session has read from its start on is a
  valid graph.
-/

namespace Schemata

/-! ## Complete graphs -/

/-- The discriminator of a polymorphic type leads to its own subtypes, which go by their
own identifiers. -/
structure PolymorphicType.IsConsistent (type : PolymorphicType TypeRef) : Prop where
  refs : ∀ variant ∈ type.variants, variant.ref = .named variant.id false
  targets : ∀ discriminator ∈ type.discriminator, ∀ mapping ∈ discriminator.mapping,
    ∀ entry ∈ mapping, entry.2 ∈ type.variants.map (·.id)

/-- A node for a table: an object, an enumeration or a consistent polymorphic type. -/
def NodeOf.FitsTable : Node → Prop
  | .object _ | .enumeration _ => True
  | .polymorphic type => type.IsConsistent
  | _ => False

/-- A graph is valid, the nodes of its table are those that need a name, and subtypes and
the targets of discriminators are found in the table and among the subtypes. -/
structure TypeGraph.IsComplete (graph : TypeGraph) : Prop where
  valid : graph.validate = .ok ()
  kinds : ∀ id node, (id, node) ∈ graph.nodes → (∃ type, node = .object type) ∨
    (∃ type, node = .enumeration type) ∨ ∃ type, node = .polymorphic type
  variants : ∀ id type, (id, .polymorphic type) ∈ graph.nodes →
    ∀ variant ∈ type.variants, variant.id ∈ graph.nodes.keys
  targets : ∀ id type, (id, .polymorphic type) ∈ graph.nodes →
    ∀ discriminator ∈ type.discriminator, ∀ mapping ∈ discriminator.mapping,
      ∀ entry ∈ mapping, entry.2 ∈ type.variants.map (·.id)

/-- An introspection comes to an end, and a graph that comes out is complete. -/
structure Introspected.IsSound (result : Introspected) : Prop where
  ends : result.graph ≠ .error .endless
  complete : ∀ graph, result.graph = .ok graph → graph.IsComplete

namespace Session

variable {δ μ : Type}

/-! ## Slots and nodes -/

/-- The node in the slot of an identifier. -/
def node? (session : Session δ μ) (id : TypeId) : Option Node :=
  (session.slots.find? id).join

/-- All that a reference contains has a slot, or needs none. -/
def Accepts (session : Session δ μ) (ref : TypeRef) : Prop :=
  ∀ inner, ref.Contains inner → inner.IsLegal (· ∈ session.slots.keys)

variable {session before middle after : Session δ μ} {id : TypeId}

/-- The nodes of a session are those in its slots. -/
theorem mem_nodes {node : Node} :
    (id, node) ∈ session.nodes ↔ (id, some node) ∈ session.slots := by
  simp only [nodes, List.mem_filterMap, Option.map_eq_some_iff, Prod.mk.injEq]
  constructor
  · rintro ⟨⟨key, slot⟩, hslot, found, hfound, rfl, rfl⟩
    exact hfound ▸ hslot
  · intro h
    exact ⟨_, h, node, rfl, rfl, rfl⟩

/-- Where slots have distinct identifiers, a node is the one in the slot. -/
theorem node?_eq_some_iff (distinct : session.slots.keys.Nodup) {node : Node} :
    session.node? id = some node ↔ (id, some node) ∈ session.slots := by
  rw [node?, Option.join_eq_some_iff]
  exact ⟨Table.mem_of_find?, Table.find?_of_mem distinct⟩

/-- A session accepts a named reference when its identifier has a slot. -/
theorem accepts_named {nullable : Bool} :
    session.Accepts (.named id nullable) ↔ id ∈ session.slots.keys := by
  constructor
  · intro h
    exact h _ .self
  · intro h inner inside
    rw [TypeRef.contains_named] at inside
    subst inside
    exact h

/-- A session accepts an inlined node that needs no name when it accepts the children. -/
theorem accepts_inline {node : Node} {nullable : Bool} :
    session.Accepts (.inline node nullable) ↔
      node.needsName = false ∧ ∀ child ∈ node.children, session.Accepts child := by
  constructor
  · intro h
    exact ⟨h _ .self, fun child mem inner inside => h inner (.child mem inside)⟩
  · rintro ⟨unnamed, hchildren⟩ inner inside
    rcases TypeRef.contains_inline.mp inside with rfl | ⟨child, mem, inside⟩
    · exact unnamed
    · exact hchildren child mem inner inside

/-- A scalar is written where it is used. -/
theorem accepts_primitive (session : Session δ μ) (kind : PrimitiveKind)
    (description : Option String) (nullable : Bool) :
    session.Accepts (.inline (.primitive kind description) nullable) :=
  accepts_inline.mpr ⟨rfl, by simp [NodeOf.children]⟩

theorem Accepts.mono {ref : TypeRef} (h : before.Accepts ref)
    (keys : before.slots.keys ⊆ after.slots.keys) : after.Accepts ref := by
  intro inner inside
  have hlegal := h inner inside
  cases inner with
  | named id nullable => exact keys hlegal
  | inline node nullable => exact hlegal

/-- Nullability does not show in what a reference contains. -/
theorem Accepts.withNullable {ref : TypeRef} (h : session.Accepts ref) (nullable : Bool) :
    session.Accepts (ref.withNullable nullable) := by
  cases ref with
  | named id _ => exact accepts_named.mpr (accepts_named.mp h)
  | inline node _ => exact accepts_inline.mpr (accepts_inline.mp h)

/-! ## The invariant -/

/-- The invariant of a session: every reference that it keeps, for a declaration or in a
node, names a slot, and the nodes that it built fit a table. -/
structure IsSound (session : Session δ μ) : Prop where
  distinct : session.slots.keys.Nodup
  visiting : ∀ id ∈ session.visiting, id ∈ session.slots.keys
  refs : ∀ entry ∈ session.refs, session.Accepts entry.2
  children : ∀ id node, session.node? id = some node → ∀ child ∈ node.children,
    session.Accepts child
  fits : ∀ id node, session.node? id = some node → node.FitsTable

/-- A new session has no slots. -/
theorem isSound_start (memory : μ) : ({ memory } : Session δ μ).IsSound where
  distinct := List.nodup_nil
  visiting := by simp
  refs := by simp
  children := by simp [node?]
  fits := by simp [node?]

/-! ## Building a node -/

/-- A reserved slot is empty, and the others are as they were. -/
theorem node?_reserve (outside : id ∉ session.slots.keys) (other : TypeId) :
    (session.reserve id).node? other = session.node? other := by
  rw [node?, node?, reserve, Table.find?_put]
  by_cases same : other = id
  · subst same
    have hnone : session.slots.find? other = none := by
      rw [← Option.not_isSome_iff_eq_none]
      exact fun hsome => outside ((Table.has_iff_mem_keys ..).mp hsome)
    simp [hnone]
  · simp [same]

/-- Reserving an identifier adds it to the slots. -/
theorem mem_keys_reserve {other : TypeId} :
    other ∈ (session.reserve id).slots.keys ↔ other = id ∨ other ∈ session.slots.keys :=
  Table.mem_keys_put ..

/-- A reserved slot keeps the invariant. -/
theorem IsSound.reserve (sound : session.IsSound) (outside : id ∉ session.slots.keys) :
    (session.reserve id).IsSound := by
  have hkeys : session.slots.keys ⊆ (session.reserve id).slots.keys := fun other mem =>
    mem_keys_reserve.mpr (Or.inr mem)
  constructor
  · exact Table.nodup_keys_put sound.distinct ..
  · intro other mem
    rcases List.mem_cons.mp mem with rfl | mem
    · exact mem_keys_reserve.mpr (Or.inl rfl)
    · exact hkeys (sound.visiting other mem)
  · intro entry mem
    exact (sound.refs entry mem).mono hkeys
  · intro other node found child mem
    rw [node?_reserve outside] at found
    exact (sound.children other node found child mem).mono hkeys
  · intro other node found
    rw [node?_reserve outside] at found
    exact sound.fits other node found

/-- Fill the slot of a node whose building ends. -/
def close (id : TypeId) (node : Node) (session : Session δ μ) : Session δ μ :=
  (session.leave id).fill id (some node)

theorem keys_close {node : Node} (known : id ∈ session.slots.keys) :
    (session.close id node).slots.keys = session.slots.keys := by
  rw [close, fill, leave, Table.keys_put, if_pos known]

/-- Closing a node puts it into its slot and leaves the others. -/
theorem node?_close {node : Node} (other : TypeId) :
    (session.close id node).node? other = if other = id then some node else session.node? other := by
  rw [node?, close, fill, leave, Table.find?_put]
  by_cases same : other = id
  · simp [same]
  · simp [same, node?]

/-- A filled slot keeps the invariant when the node refers to slots. -/
theorem IsSound.close {node : Node} (sound : session.IsSound) (known : id ∈ session.slots.keys)
    (accepts : ∀ child ∈ node.children, session.Accepts child) (fits : node.FitsTable) :
    (session.close id node).IsSound := by
  have haccepts : ∀ ref, session.Accepts ref → (session.close id node).Accepts ref :=
    fun ref h => h.mono (by rw [keys_close known]; exact List.Subset.refl _)
  constructor
  · rw [keys_close known]
    exact sound.distinct
  · intro other mem
    rw [keys_close known]
    exact sound.visiting other (List.mem_filter.mp mem).1
  · intro entry mem
    exact haccepts _ (sound.refs entry mem)
  · intro other found hother child mem
    rw [node?_close] at hother
    split at hother
    · cases hother
      exact haccepts _ (accepts child mem)
    · exact haccepts _ (sound.children other found hother child mem)
  · intro other found hother
    rw [node?_close] at hother
    split at hother
    · cases hother
      exact fits
    · exact sound.fits other found hother

/-! ## Steps that read references -/

variable [BEq δ]

/-- A later session has all slots of an earlier one, with the same in them, and its
declarations own what they owned. -/
structure Extends (before after : Session δ μ) : Prop where
  keys : before.slots.keys ⊆ after.slots.keys
  slots : ∀ id ∈ before.slots.keys, after.slots.find? id = before.slots.find? id
  visiting : after.visiting = before.visiting
  ids : ∀ declaration id, before.ids.find? declaration = some id →
    after.ids.find? declaration = some id

theorem Extends.refl (session : Session δ μ) : session.Extends session where
  keys := List.Subset.refl _
  slots _ _ := rfl
  visiting := rfl
  ids _ _ h := h

theorem Extends.trans (first : before.Extends middle) (second : middle.Extends after) :
    before.Extends after where
  keys := List.Subset.trans first.keys second.keys
  slots id mem := (second.slots id (first.keys mem)).trans (first.slots id mem)
  visiting := second.visiting.trans first.visiting
  ids declaration id h := second.ids declaration id (first.ids declaration id h)

/-- What a step that reads references does: it keeps the invariant, it hands out references
that name slots, and it fills the slots that it adds.  A thorough step adds only what
these references lead to. -/
structure Reads (thorough : Prop) (before : Session δ μ) (refs : List TypeRef)
    (after : Session δ μ) : Prop where
  sound : after.IsSound
  grows : before.Extends after
  accepts : ∀ ref ∈ refs, after.Accepts ref
  filled : ∀ id ∈ after.slots.keys, id ∈ before.slots.keys ∨ (after.node? id).isSome = true
  reached : thorough → ∀ id ∈ after.slots.keys, id ∈ before.slots.keys ∨
    ∃ ref ∈ refs, ref.Visits after.node? id

/-- What is filled stays filled. -/
theorem Extends.node?_eq (h : before.Extends after) {node : Node}
    (found : before.node? id = some node) : after.node? id = some node := by
  have hslot : before.slots.find? id = some (some node) := Option.join_eq_some_iff.mp found
  have hkey : id ∈ before.slots.keys := Table.mem_keys_of_find? hslot
  rw [node?, h.slots id hkey]
  exact found

/-- A session that has a slot more until a node is built extends the session before. -/
theorem Extends.close {node : Node} (h : (session.reserve id).Extends after)
    (outside : id ∉ session.slots.keys) (sound : session.IsSound) :
    session.Extends (after.close id node) := by
  have hkey : id ∈ after.slots.keys := h.keys (mem_keys_reserve.mpr (Or.inl rfl))
  constructor
  · intro other mem
    rw [keys_close hkey]
    exact h.keys (mem_keys_reserve.mpr (Or.inr mem))
  · intro other mem
    have hne : (other == id) = false := by
      rw [beq_eq_false_iff_ne]
      rintro rfl
      exact outside mem
    have hslot := h.slots other (mem_keys_reserve.mpr (Or.inr mem))
    simp only [Session.close, fill, leave, Table.find?_put, hne, Bool.false_eq_true, if_false, hslot,
      reserve]
  · have hvisiting : after.visiting = id :: session.visiting := h.visiting
    have hkeep : session.visiting.filter (· != id) = session.visiting := by
      rw [List.filter_eq_self]
      intro other mem
      rw [bne_iff_ne]
      rintro rfl
      exact outside (sound.visiting other mem)
    rw [Session.close, fill, leave, hvisiting, List.filter_cons_of_neg (by simp), hkeep]
  · exact h.ids

namespace Reads

variable {thorough : Prop} {refs others : List TypeRef}

theorem refl (sound : session.IsSound) : session.Reads thorough [] session where
  sound := sound
  grows := .refl session
  accepts := by simp
  filled _ mem := Or.inl mem
  reached _ _ mem := Or.inl mem

/-- Two steps read what both of them read. -/
theorem append (first : before.Reads thorough refs middle)
    (second : middle.Reads thorough others after) :
    before.Reads thorough (refs ++ others) after where
  sound := second.sound
  grows := first.grows.trans second.grows
  accepts ref mem := by
    rcases List.mem_append.mp mem with mem | mem
    · exact (first.accepts ref mem).mono second.grows.keys
    · exact second.accepts ref mem
  filled id mem := by
    rcases second.filled id mem with mem | hfilled
    · rcases first.filled id mem with mem | hfilled
      · exact Or.inl mem
      · rcases Option.isSome_iff_exists.mp hfilled with ⟨node, found⟩
        exact Or.inr (Option.isSome_iff_exists.mpr ⟨node, second.grows.node?_eq found⟩)
    · exact Or.inr hfilled
  reached hthorough id mem := by
    rcases second.reached hthorough id mem with mem | ⟨ref, href, hvisits⟩
    · rcases first.reached hthorough id mem with mem | ⟨ref, href, hvisits⟩
      · exact Or.inl mem
      · exact Or.inr ⟨ref, List.mem_append_left _ href,
          hvisits.mono fun _ _ => second.grows.node?_eq⟩
    · exact Or.inr ⟨ref, List.mem_append_right _ href, hvisits⟩

/-- A reference to a slot is read without a change. -/
theorem known (sound : session.IsSound) {ref : TypeRef} (accepts : session.Accepts ref) :
    session.Reads thorough [ref] session where
  sound := sound
  grows := .refl session
  accepts := by simpa using accepts
  filled _ mem := Or.inl mem
  reached _ _ mem := Or.inl mem

/-- References that mention those read lead where those lead. -/
theorem compose (h : before.Reads thorough refs after) (accepts : ∀ ref ∈ others, after.Accepts ref)
    (mentions : thorough → ∀ ref ∈ refs, ∃ outer ∈ others, outer.Mentions ref) :
    before.Reads thorough others after :=
  { h with
    accepts
    reached := by
      intro hthorough id mem
      rcases h.reached hthorough id mem with mem | ⟨ref, href, hvisits⟩
      · exact Or.inl mem
      · rcases mentions hthorough ref href with ⟨outer, houter, hmentions⟩
        exact Or.inr ⟨outer, houter, hvisits.of_mentions hmentions⟩ }

/-- What is written where it is used leads where the references in it lead. -/
theorem inline {node : Node} {nullable : Bool} (h : before.Reads thorough node.children after)
    (unnamed : node.needsName = false) : before.Reads thorough [.inline node nullable] after := by
  refine h.compose ?_ ?_
  · simpa [accepts_inline, unnamed] using h.accepts
  · intro _ child mem
    exact ⟨_, List.mem_singleton.mpr rfl, (TypeRef.Contains.child mem .self).mentions⟩

/-- Nullability does not show in what is read. -/
theorem renull {ref : TypeRef} {nullable : Bool} (h : before.Reads thorough [ref] after)
    (named : ref.id? = some id) : before.Reads thorough [.named id nullable] after := by
  cases ref with
  | inline node _ => cases named
  | named name other =>
      cases named
      have haccepts := h.accepts _ (List.mem_singleton.mpr rfl)
      refine h.compose ?_ ?_
      · simpa [accepts_named] using haccepts
      · intro _ ref mem
        rw [List.mem_singleton.mp mem]
        exact ⟨_, List.mem_singleton.mpr rfl, TypeRef.mentions_named id nullable other⟩

/-- A change that leaves the slots alone reads nothing. -/
theorem of_slots_eq (sound : session.IsSound) (slots : after.slots = session.slots)
    (visiting : after.visiting = session.visiting)
    (refs : ∀ entry ∈ after.refs, session.Accepts entry.2)
    (ids : ∀ declaration id, session.ids.find? declaration = some id →
      after.ids.find? declaration = some id) : session.Reads thorough [] after := by
  have hnode : ∀ id, after.node? id = session.node? id := fun id => by rw [node?, node?, slots]
  have haccepts : ∀ ref, session.Accepts ref → after.Accepts ref := fun ref h =>
    h.mono (slots ▸ List.Subset.refl _)
  have hkeep : ∀ id ∈ after.slots.keys, id ∈ session.slots.keys := fun id mem => slots ▸ mem
  have hgrows : session.Extends after :=
    ⟨slots ▸ List.Subset.refl _, fun _ _ => by rw [slots], visiting, ids⟩
  have hsound : after.IsSound := by
    constructor
    · rw [slots]
      exact sound.distinct
    · rw [slots, visiting]
      exact sound.visiting
    · intro entry mem
      exact haccepts _ (refs entry mem)
    · intro id node found child mem
      exact haccepts _ (sound.children id node (hnode id ▸ found) child mem)
    · intro id node found
      exact sound.fits id node (hnode id ▸ found)
  exact ⟨hsound, hgrows, by simp, fun id mem => Or.inl (hkeep id mem),
    fun _ id mem => Or.inl (hkeep id mem)⟩

end Reads

/-- A step that reads what a node refers to, with the slot of the node reserved, has read a
reference to the node when the slot is filled. -/
theorem Reads.close {thorough : Prop} {node : Node} (outside : id ∉ session.slots.keys)
    (sound : session.IsSound) (h : (session.reserve id).Reads thorough node.children after)
    (fits : node.FitsTable) (nullable : Bool) :
    session.Reads thorough [.named id nullable] (after.close id node) := by
  have hreserved : id ∈ (session.reserve id).slots.keys := mem_keys_reserve.mpr (Or.inl rfl)
  have hkey : id ∈ after.slots.keys := h.grows.keys hreserved
  have hkeys : (after.close id node).slots.keys = after.slots.keys := keys_close hkey
  have hempty : after.node? id = none := by
    have hslot := h.grows.slots id hreserved
    simp [node?, hslot, Session.reserve, Table.find?_put]
  have hmore : ∀ other found, after.node? other = some found →
      (after.close id node).node? other = some found := by
    intro other found hother
    rw [node?_close]
    by_cases same : other = id
    · rw [same, hempty] at hother
      cases hother
    · rw [if_neg same]
      exact hother
  have hnew : (after.close id node).node? id = some node := by simp [node?_close]
  refine ⟨h.sound.close hkey h.accepts fits, ?_, ?_, ?_, ?_⟩
  · exact h.grows.close outside sound
  · simpa [accepts_named, hkeys] using hkey
  · intro other mem
    rw [hkeys] at mem
    rcases h.filled other mem with mem | hfilled
    · rcases mem_keys_reserve.mp mem with rfl | mem
      · exact Or.inr (by rw [hnew]; rfl)
      · exact Or.inl mem
    · rcases Option.isSome_iff_exists.mp hfilled with ⟨found, hother⟩
      exact Or.inr (Option.isSome_iff_exists.mpr ⟨found, hmore other found hother⟩)
  · intro hthorough other mem
    rw [hkeys] at mem
    rcases h.reached hthorough other mem with mem | ⟨child, hchild, hvisits⟩
    · rcases mem_keys_reserve.mp mem with rfl | mem
      · exact Or.inr ⟨_, List.mem_singleton.mpr rfl, .here .self⟩
      · exact Or.inl mem
    · exact Or.inr ⟨_, List.mem_singleton.mpr rfl, (hvisits.mono hmore).of_child hnew hchild⟩

/-! ## The graph at the end -/

namespace Reads

variable {thorough : Prop} {memory : μ} {root : TypeRef}

/-- At the end every slot that a session reserved is filled. -/
theorem keys_nodes (h : ({ memory } : Session δ μ).Reads thorough [root] after) :
    after.nodes.keys = after.slots.keys := by
  have hfilled : ∀ entry ∈ after.slots, entry.2.isSome = true := by
    intro entry mem
    have hkey : entry.1 ∈ after.slots.keys := List.mem_map_of_mem mem
    rcases h.filled _ hkey with hold | hsome
    · cases hold
    · rwa [node?, Table.find?_of_mem h.sound.distinct mem] at hsome
  have hall : ∀ slots : Table TypeId (Option Node), (∀ entry ∈ slots, entry.2.isSome = true) →
      (slots.filterMap fun entry => entry.2.map fun node => (entry.1, node)).map Prod.fst =
        slots.map Prod.fst := by
    intro slots hslots
    induction slots with
    | nil => rfl
    | cons entry slots ih =>
        rw [List.forall_mem_cons] at hslots
        rcases Option.isSome_iff_exists.mp hslots.1 with ⟨node, hnode⟩
        simp [hnode, ih hslots.2]
  exact hall after.slots hfilled

/-- Once everything is read, looking a node up in the graph is looking it up in the slots. -/
theorem find?_nodes (h : ({ memory } : Session δ μ).Reads thorough [root] after) :
    after.nodes.find? = after.node? := by
  funext id
  have hdistinct : after.nodes.keys.Nodup := h.keys_nodes ▸ h.sound.distinct
  ext node
  constructor
  · intro found
    exact (node?_eq_some_iff h.sound.distinct).mpr (mem_nodes.mp (Table.mem_of_find? found))
  · intro found
    exact Table.find?_of_mem hdistinct
      (mem_nodes.mpr ((node?_eq_some_iff h.sound.distinct).mp found))

/-- What a session has read from its start on is a valid graph. -/
theorem isComplete (h : ({ memory } : Session δ μ).Reads thorough [root] after) :
    (after.graph root).IsComplete := by
  have hkeys : (after.graph root).nodes.keys = after.slots.keys := h.keys_nodes
  have hnode : ∀ id node, (id, node) ∈ (after.graph root).nodes → after.node? id = some node :=
    fun id node mem => (node?_eq_some_iff h.sound.distinct).mpr (mem_nodes.mp mem)
  have hlegal : ∀ ref, after.Accepts ref → ∀ inner, ref.Contains inner →
      inner.IsLegal (· ∈ (after.graph root).nodes.keys) := by
    intro ref haccepts inner inside
    rw [hkeys]
    exact haccepts inner inside
  constructor
  · rw [TypeGraph.validate_eq_ok_iff]
    intro owner ref hholds
    cases hholds with
    | root inside => exact hlegal _ (h.accepts root (List.mem_singleton.mpr rfl)) _ inside
    | entry mem hchild inside =>
        exact hlegal _ (h.sound.children _ _ (hnode _ _ mem) _ hchild) _ inside
  · intro id node mem
    have hfits := h.sound.fits id node (hnode id node mem)
    cases node with
    | object type => exact Or.inl ⟨type, rfl⟩
    | enumeration type => exact Or.inr (Or.inl ⟨type, rfl⟩)
    | polymorphic type => exact Or.inr (Or.inr ⟨type, rfl⟩)
    | primitive | list | map | other => exact hfits.elim
  · intro id type mem variant hvariant
    have hfits : type.IsConsistent := h.sound.fits id _ (hnode id _ mem)
    have haccepts := h.sound.children id _ (hnode id _ mem) variant.ref
      (List.mem_map_of_mem hvariant)
    rw [hfits.refs variant hvariant, accepts_named] at haccepts
    rw [hkeys]
    exact haccepts
  · intro id type mem
    have hfits : type.IsConsistent := h.sound.fits id _ (hnode id _ mem)
    exact hfits.targets

/-- The table of a graph that a thorough session has read holds exactly the names that the
root leads to. -/
theorem mem_keys_iff (h : ({ memory } : Session δ μ).Reads True [root] after) :
    id ∈ (after.graph root).nodes.keys ↔
      (after.graph root).root.Visits (after.graph root).nodes.find? id := by
  have hkeys : (after.graph root).nodes.keys = after.slots.keys := h.keys_nodes
  have hfind : (after.graph root).nodes.find? = after.node? := h.find?_nodes
  rw [hkeys, hfind]
  constructor
  · intro mem
    rcases h.reached trivial id mem with hold | ⟨ref, href, hvisits⟩
    · cases hold
    · rw [List.mem_singleton.mp href] at hvisits
      exact hvisits
  · intro hvisits
    induction hvisits with
    | here inside => exact h.accepts root (List.mem_singleton.mpr rfl) _ inside
    | onward _ found hchild inside _ => exact h.sound.children _ _ found _ hchild _ inside

end Reads

end Session

end Schemata
