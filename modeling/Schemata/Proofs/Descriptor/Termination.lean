import Mathlib.Data.Finset.Card
import Mathlib.Logic.Relation
import Schemata.Proofs.Descriptor.Introspection
import Schemata.Proofs.Descriptor.Walk
import Schemata.Proofs.Introspection.Begins

/-!
# Introspections of descriptors come to an end

Descriptors point at one another in circles.  The reading of a record, a singleton or a sealed
descriptor is cut where its identifier has a slot, that of a list or map is not cut at all.  So
every descriptor that is read inside another one leaves fewer identifiers without a slot, or as
many and fewer keys that it leads to through other kinds alone, provided that each circle has a
descriptor with a name on it.

Main results:

- Definition {lit}`Catalog.CirclesHaveNames`: each circle passes through a record, a singleton
  or a sealed descriptor.
- Theorem {lit}`DescriptorIntrospection.endsWithin_reference`: a reading with budget for the
  identifiers and keys that are left comes to an end.
- Theorem {lit}`Catalog.introspect_ends`: an introspection comes to an end, after it has come to
  each reachable descriptor once and begun one builder for each identifier.
-/

namespace Schemata

namespace Catalog

variable (catalog : Catalog)

/-- A descriptor that is no record, no singleton and not sealed points at a key. -/
def Skips (key other : DescriptorKey) : Prop :=
  ∃ descriptor, Table.find? catalog key = some descriptor ∧ descriptor.kind ≠ .record ∧
    descriptor.kind ≠ .singleton ∧ descriptor.kind ≠ .sealed ∧
    ∃ element ∈ descriptor.elements, element.descriptor = other

/-- Every circle of descriptors passes through a record, a singleton or a sealed one. -/
def CirclesHaveNames : Prop :=
  ∀ key, ¬ Relation.TransGen catalog.Skips key key

open Classical in
/-- The keys of the catalog that a key leads to without a record, a singleton or a sealed
descriptor on the way. -/
noncomputable def onward (key : DescriptorKey) : Finset DescriptorKey :=
  catalog.keys.toFinset.filter fun other => Relation.ReflTransGen catalog.Skips key other

/-- How many keys a key leads to in this way. -/
noncomputable def rank (key : DescriptorKey) : Nat :=
  (catalog.onward key).card

variable {catalog} {key other : DescriptorKey} {descriptor : Descriptor}

open Classical in
/-- The keys onward are those of the catalog that a chain of skips leads to. -/
theorem mem_onward : other ∈ catalog.onward key ↔
    other ∈ catalog.keys ∧ Relation.ReflTransGen catalog.Skips key other := by
  rw [onward, Finset.mem_filter, List.mem_toFinset]

/-- A rank is no greater than the catalog is long. -/
theorem rank_le (catalog : Catalog) (key : DescriptorKey) :
    catalog.rank key ≤ catalog.length := by
  calc
    catalog.rank key ≤ catalog.keys.toFinset.card :=
      Finset.card_le_card fun _ mem => List.mem_toFinset.mpr (mem_onward.mp mem).1
    _ ≤ catalog.keys.length := List.toFinset_card_le _
    _ = catalog.length := List.length_map _

/-- What a key points at leads to fewer keys, for it does not lead back. -/
theorem CirclesHaveNames.rank_lt (named : catalog.CirclesHaveNames)
    (skips : catalog.Skips key other) : catalog.rank other < catalog.rank key := by
  refine Finset.card_lt_card ⟨fun last hlast => ?_, fun hsubset => ?_⟩
  · rw [mem_onward] at hlast ⊢
    exact ⟨hlast.1, .head skips hlast.2⟩
  · rcases skips with ⟨descriptor, found, hskips⟩
    have hkey : key ∈ catalog.onward key :=
      mem_onward.mpr ⟨Table.mem_keys_of_find? found, .refl⟩
    have hback := (mem_onward.mp (hsubset hkey)).2
    exact named key (.head' ⟨descriptor, found, hskips⟩ hback)

/-- The keys that the reading of a list or map goes on to are among its elements. -/
theorem skips_of_mem_parts (found : Table.find? catalog key = some descriptor)
    (kind : descriptor.kind = .list ∨ descriptor.kind = .map)
    (mem : other ∈ catalog.parts descriptor) : catalog.Skips key other := by
  have helement : ∃ element ∈ descriptor.elements, element.descriptor = other := by
    rcases kind with kind | kind <;>
    · rw [parts, kind] at mem
      rcases List.mem_map.mp mem with ⟨element, helement, rfl⟩
      exact ⟨element, List.mem_of_mem_take helement, rfl⟩
  refine ⟨descriptor, found, ?_, ?_, ?_, helement⟩ <;> rcases kind with kind | kind <;> simp [kind]

end Catalog

namespace DescriptorIntrospection

variable {c : DescriptorIntrospection} {below : Below} {budget : Nat}
variable {base session after : Session DescriptorKey Unit}

/-! ## Identifiers that are left to build -/

/-- How many descriptors have an identifier without a slot. -/
def unbuilt (c : DescriptorIntrospection) (session : Session DescriptorKey Unit) : Nat :=
  (c.catalog.filter fun entry => !session.slots.has (c.typeId entry.1 entry.2)).length

/-- No more descriptors are left to build than the catalog has. -/
theorem unbuilt_le (c : DescriptorIntrospection) (session : Session DescriptorKey Unit) :
    c.unbuilt session ≤ c.catalog.length :=
  List.length_filter_le ..

/-- More slots leave no more descriptors to build. -/
theorem unbuilt_mono (keys : session.slots.keys ⊆ after.slots.keys) :
    c.unbuilt after ≤ c.unbuilt session := by
  rw [unbuilt, unbuilt, ← List.countP_eq_length_filter, ← List.countP_eq_length_filter]
  refine List.countP_mono_left fun entry _ hnew => ?_
  rw [Bool.not_eq_true', ← Bool.not_eq_true, Table.has_iff_mem_keys] at hnew ⊢
  exact fun hold => hnew (keys hold)

/-- A descriptor whose slot is reserved is not left to build. -/
theorem unbuilt_reserve_lt {key : DescriptorKey} {descriptor : Descriptor}
    (found : Table.find? c.catalog key = some descriptor)
    (outside : c.typeId key descriptor ∉ session.slots.keys) :
    c.unbuilt (session.reserve (c.typeId key descriptor)) < c.unbuilt session := by
  have hsplit : (c.catalog.filter fun entry =>
      !(session.reserve (c.typeId key descriptor)).slots.has (c.typeId entry.1 entry.2)) =
      (c.catalog.filter fun entry => !session.slots.has (c.typeId entry.1 entry.2)).filter
        fun entry => c.typeId entry.1 entry.2 != c.typeId key descriptor := by
    rw [List.filter_filter]
    refine List.filter_congr fun entry _ => ?_
    rw [Bool.eq_iff_iff]
    simp [Table.has_iff_mem_keys, Session.mem_keys_reserve, ← Bool.not_eq_true]
  rw [unbuilt, unbuilt, hsplit, List.length_filter_lt_length_iff_exists]
  refine ⟨(key, descriptor), List.mem_filter.mpr ⟨Table.mem_of_find? found, ?_⟩, by simp⟩
  rw [Bool.not_eq_true', ← Bool.not_eq_true, Table.has_iff_mem_keys]
  exact outside

/-! ## Readings that end -/

/-- A reading ends when there is budget for the identifiers that are left to build, each with
a chain of lists and maps, and for the chain that the key is in. -/
def EndsWithin (c : DescriptorIntrospection) (budget : Nat) (below : Below) : Prop :=
  ∀ base key, c.unbuilt base * (c.catalog.length + 1) + c.catalog.rank key < budget →
    ReadsKey (· ≠ .endless) base below key

/-- A reading of a budget ends within it, where every circle has a name. -/
theorem endsWithin_reference (named : c.catalog.CirclesHaveNames) (budget : Nat) :
    c.EndsWithin budget (c.reference budget) := by
  induction budget with
  | zero => exact fun base key hless => absurd hless (Nat.not_lt_zero _)
  | succ budget ih =>
      intro base key hless
      refine readsFrom_layer (fun _ h => h) key ?_ ?_
      · intro descriptor found kind part mem
        have hrank := named.rank_lt (Catalog.skips_of_mem_parts found kind mem)
        exact ih base part (by omega)
      · intro descriptor found session later outside part mem
        have hrank := c.catalog.rank_le part
        have hless' := (unbuilt_reserve_lt found outside).trans_le (unbuilt_mono later.keys)
        have hmul := Nat.mul_le_mul_right (c.catalog.length + 1) (Nat.succ_le_of_lt hless')
        rw [Nat.succ_mul] at hmul
        exact ih _ part (by omega)

/-! ## What a reading begins -/

open Session (IsTraced)

theorem isTraced_describe (annotations : List Annotation) : IsTraced (c.describe annotations) :=
  Session.isTraced_ofExcept _

theorem isTraced_elementAt (descriptor : Descriptor) (index : Nat) :
    IsTraced (elementAt descriptor index) := by
  rw [elementAt]
  split
  · exact Session.isTraced_pure _
  · exact Session.isTraced_fail _

section Layer

variable (hbelow : ∀ key nullable, IsTraced (below key nullable))
include hbelow

/-- What the builder of an object begins can be told when it can of the readings below. -/
theorem isTraced_objectNode (descriptor : Descriptor) : IsTraced (c.objectNode below descriptor) := by
  rw [objectNode]
  refine IsTraced.bind (.mapEach fun element _ => ?_) fun properties => ?_
  · exact (hbelow _ _).bind fun _ => (isTraced_describe _).bind fun _ => Session.isTraced_pure _
  · exact (isTraced_describe _).bind fun _ => Session.isTraced_pure _

/-- What the builder of a sealed descriptor begins can be told in the same way. -/
theorem isTraced_polymorphicNode (descriptor : Descriptor) :
    IsTraced (c.polymorphicNode below descriptor) := by
  rw [polymorphicNode]
  split
  · exact Session.isTraced_fail _
  · refine IsTraced.bind (.mapEach fun key _ => ?_) fun subtypes => ?_
    · rw [subtype]
      refine (hbelow _ _).bind fun ref => ?_
      split
      · exact Session.isTraced_pure _
      · exact Session.isTraced_fail _
    · exact (isTraced_describe _).bind fun _ => Session.isTraced_pure _

/-- The first reading of a descriptor can be told which builders it begins. -/
theorem isTraced_fresh (key : DescriptorKey) (descriptor : Descriptor) (nullable : Bool) :
    IsTraced (c.fresh below key descriptor nullable) := by
  have hleaf (node : Option String → Option Node) :
      IsTraced (c.describe descriptor.annotations >>= fun text => pure (node text)) :=
    (isTraced_describe _).bind fun _ => Session.isTraced_pure _
  rw [fresh]
  split
  · exact Session.isTraced_remembering _ _
  · split
    · exact IsTraced.refer (hleaf _) _ _
    · exact (isTraced_objectNode hbelow _).refer _ _
    · exact (isTraced_objectNode hbelow _).refer _ _
    · refine (isTraced_elementAt _ _).bind fun element => (hbelow _ _).bind fun ref => ?_
      exact Session.isTraced_remembering _ _
    · refine (isTraced_elementAt _ _).bind fun keys => (isTraced_elementAt _ _).bind fun values => ?_
      refine (hbelow _ _).bind fun first => (hbelow _ _).bind fun second => ?_
      exact Session.isTraced_remembering _ _
    · exact (isTraced_polymorphicNode hbelow _).refer _ _
    · exact (Session.isTraced_report _).bind fun _ => IsTraced.refer (hleaf _) _ _

/-- One layer can be traced, whether it finds the reference kept or reads it first. -/
theorem isTraced_layer (key : DescriptorKey) (nullable : Bool) :
    IsTraced (c.layer below key nullable) := by
  rw [layer]
  refine Session.isTraced_get.bind fun session => ?_
  split
  · exact Session.isTraced_pure _
  · split
    · exact isTraced_fresh hbelow _ _ _
    · exact Session.isTraced_fail _

end Layer

/-- A reading of any budget can be told which builders it begins. -/
theorem isTraced_reference (c : DescriptorIntrospection) (budget : Nat) (key : DescriptorKey)
    (nullable : Bool) : IsTraced (c.reference budget key nullable) := by
  induction budget generalizing key nullable with
  | zero => exact Session.isTraced_fail _
  | succ budget ih => exact isTraced_layer ih key nullable

/-- Before anything is read, the budget of an introspection is enough for all identifiers. -/
theorem readsKey_reference (named : c.catalog.CirclesHaveNames) (key : DescriptorKey) :
    ReadsKey (· ≠ .endless) { memory := () } (c.reference c.budget) key := by
  refine endsWithin_reference named c.budget _ key ?_
  have hunbuilt := c.unbuilt_le { memory := () }
  have hrank := c.catalog.rank_le key
  have hmul := Nat.mul_le_mul_right (c.catalog.length + 1) hunbuilt
  rw [budget, Nat.succ_mul]
  omega

end DescriptorIntrospection

namespace Catalog

variable {catalog : Catalog}

/-! ## The whole introspection -/

/-- An introspection starts from its session with the reading of the root. -/
theorem meets_root (named : catalog.CirclesHaveNames) (settings : IntrospectionSettings)
    (root : DescriptorKey) :
    let c : DescriptorIntrospection := ⟨catalog, settings, catalog.subtypeIds root⟩
    (c.reference c.budget root false).Meets { memory := () } (fun ref after =>
      ({ memory := () } : Session DescriptorKey Unit).Reads True [ref] after)
      fun error _ => error ≠ .endless :=
  DescriptorIntrospection.readsKey_reference named root false _ (.refl _) (Session.isSound_start ())

/-- When each circle has a descriptor with a name on it, an introspection comes to an end: its
walk comes to each descriptor that the root leads to once and names the subtypes there, and
its session begins one builder for an identifier at most, and those of the graph's nodes. -/
theorem introspect_ends (named : catalog.CirclesHaveNames) (settings : IntrospectionSettings)
    (root : DescriptorKey) :
    let c : DescriptorIntrospection := ⟨catalog, settings, catalog.subtypeIds root⟩
    (catalog.introspect settings root).graph ≠ .error .endless ∧
    (∃ visited : List DescriptorKey, visited.Nodup ∧
      (∀ key, key ∈ visited ↔ catalog.Leads root key) ∧
      (∀ budget, (catalog.flatMap fun entry => entry.2.elements).length + 2 ≤ budget →
        catalog.visits budget [root] [] = visited) ∧
      catalog.subtypeIds root = visited.foldl catalog.nameAt []) ∧
    (∃ built, Session.Begins (c.reference c.budget root false) { memory := () } built) ∧
    ∀ built, Session.Begins (c.reference c.budget root false) { memory := () } built →
      built.Nodup ∧ ∀ graph, (catalog.introspect settings root).graph = .ok graph →
        graph.nodes.keys = built := by
  intro c
  have hmeets := meets_root named settings root
  refine ⟨(Session.isSound_introspect hmeets).ends, ?_, ?_, ?_⟩
  · exact ⟨_, nodup_visits.1, fun _ => mem_visits_iff, fun _ => visits_eq_of_le, walk_eq_foldl []⟩
  · exact c.isTraced_reference c.budget root false _
  · refine fun built hbegins => ⟨hbegins.nodup, fun graph hgraph => ?_⟩
    rcases Session.introspect_graph_eq_ok_iff.mp hgraph with ⟨ref, after, hrun, rfl⟩
    calc
      after.nodes.keys = after.slots.keys := (hmeets.of_ok hrun).keys_nodes
      _ = built := hbegins.keys_eq hrun

/-- Only the shapes and the parts point on without being a record, a singleton or sealed. -/
theorem linkedCatalog_skips {key other : DescriptorKey} (h : linkedCatalog.Skips key other) :
    key = "shapes" ∧ other = "Group" ∨ key = "parts" ∧ (other = "text" ∨ other = "Shape") := by
  rcases h with ⟨descriptor, found, record, singleton, held, element, mem, rfl⟩
  have hentry := Table.mem_of_find? found
  simp only [linkedCatalog, List.mem_cons, List.not_mem_nil, or_false, Prod.mk.injEq] at hentry
  rcases hentry with ⟨rfl, rfl⟩ | ⟨rfl, rfl⟩ | ⟨rfl, rfl⟩ | ⟨rfl, rfl⟩ | ⟨rfl, rfl⟩
  · simp at mem
  · exact absurd rfl held
  · simp_all
  · exact absurd rfl record
  · simp only [List.mem_cons, List.not_mem_nil, or_false] at mem
    rcases mem with rfl | rfl <;> simp

/-- Every circle of the linked catalog passes through a sealed descriptor or a record. -/
theorem linkedCatalog_circlesHaveNames : linkedCatalog.CirclesHaveNames := by
  intro key hcircle
  rcases Relation.TransGen.head'_iff.mp hcircle with ⟨middle, hfirst, hrest⟩
  have hback : middle = key ∨ middle = "shapes" ∨ middle = "parts" := by
    rcases Relation.ReflTransGen.cases_head hrest with hsame | ⟨next, hnext, -⟩
    · exact Or.inl hsame
    · exact Or.inr ((linkedCatalog_skips hnext).imp And.left And.left)
  rcases linkedCatalog_skips hfirst with ⟨rfl, rfl⟩ | ⟨rfl, rfl | rfl⟩ <;> simp at hback

/-- The circle of the descriptors here goes through a sealed one, and two builders are begun. -/
theorem linkedCatalog_ends :
    let c : DescriptorIntrospection := ⟨linkedCatalog, {}, linkedCatalog.subtypeIds "Shape"⟩
    linkedCatalog.CirclesHaveNames ∧
    (linkedCatalog.introspect {} "Shape").graph ≠ .error .endless ∧
    Session.Begins (c.reference c.budget "Shape" false) { memory := () }
      ["app.Shape", "Shape.Group"] := by
  intro c
  have h := introspect_ends linkedCatalog_circlesHaveNames {} "Shape"
  rcases h.2.2.1 with ⟨built, hbegins⟩
  have hbuilt : ["app.Shape", "Shape.Group"] = built := (h.2.2.2 built hbegins).2 _ rfl
  exact ⟨linkedCatalog_circlesHaveNames, h.1, hbuilt ▸ hbegins⟩

end Catalog

end Schemata
