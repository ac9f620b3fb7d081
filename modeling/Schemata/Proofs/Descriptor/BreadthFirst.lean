import Schemata.Proofs.Descriptor.Depiction

/-!
# Identifiers in breadth-first order

The nodes of a graph are built depth first and go on to some elements only, but identifiers are
given before, in a walk that follows all elements breadth first.  Whatever a reading comes to,
the walk has come to as well: a subtype is two elements away from the sealed descriptor that
lists it.  So a reference shows the same identifier wherever it stands.

The order of the walk can be told without its queue.  It starts with the root and goes on with
what the keys of the order point at, in this very order, each key where it is first pointed at.
Whatever is reached in so many steps is a beginning of it, and so there is one such order only.

Main results:

- Definition {lit}`Catalog.IsBreadthFirst`: the breadth-first order of what a root leads to.
- Theorem {lit}`Catalog.IsBreadthFirst.unique`: there is one at most.
- Theorem {lit}`Catalog.isBreadthFirst_visits`: the walk that names subtypes is in this order.
- Definition {lit}`TypeGraph.ShowsIn`: the references, nodes and subtypes of a graph go by the
  identifiers that descriptors are given in an order.
- Theorem {lit}`Catalog.introspect_identifiers`: a graph shows the identifiers that are given
  in the breadth-first order.
-/

namespace Schemata

namespace Catalog

section Definitions

variable (catalog : Catalog) (root : DescriptorKey)

/-- The keys that the descriptor of a key points at, in order. -/
def pointsAt (key : DescriptorKey) : List DescriptorKey :=
  ((Table.find? catalog key).map fun descriptor =>
    descriptor.elements.map (·.descriptor)).getD []

/-- All that the root leads to, in the order in which it is first pointed at when the keys are
read in this very order. -/
structure IsBreadthFirst (order : List DescriptorKey) : Prop where
  distinct : order.Nodup
  complete : ∀ key, key ∈ order ↔ catalog.Leads root key
  queued : order = (root :: order.flatMap catalog.pointsAt).eraseDups

/-- What the root leads to in a number of steps at most. -/
def reach : Nat → List DescriptorKey
  | 0 => [root]
  | steps + 1 => (root :: (reach steps).flatMap catalog.pointsAt).eraseDups

/-- The first descriptor in an order that is sealed, well-formed and lists the subtype. -/
def firstBase? (order : List DescriptorKey) (key : DescriptorKey) : Option Descriptor :=
  (order.filterMap catalog.find?).find? (catalog.holds · key)

/-- The identifier that a descriptor is given in an order: its simple name under that of the
first descriptor that lists it, or its serial name when none does. -/
def idIn (order : List DescriptorKey) (entry : Entry) : TypeId :=
  match catalog.firstBase? order entry.1 with
  | some base => Session.qualify base.simpleName entry.2.simpleName
  | none => entry.2.serialName

end Definitions

variable {catalog : Catalog} {root key other : DescriptorKey} {descriptor : Descriptor}
variable {order seen pending : List DescriptorKey}

/-! ## Orders -/

/-- What the root leads to is reached in some number of steps. -/
theorem Leads.exists_mem_reach (h : catalog.Leads root key) :
    ∃ steps, key ∈ catalog.reach root steps := by
  induction h with
  | root => exact ⟨0, List.mem_singleton.mpr rfl⟩
  | @step key descriptor element _ found mem ih =>
      rcases ih with ⟨steps, hkey⟩
      refine ⟨steps + 1, ?_⟩
      rw [reach, List.mem_eraseDups]
      refine List.mem_cons_of_mem _ (List.mem_flatMap.mpr ⟨key, hkey, ?_⟩)
      rw [pointsAt, found]
      exact List.mem_map_of_mem mem

namespace IsBreadthFirst

/-- What is reached in some number of steps is a beginning of the order. -/
theorem reach_prefix (h : catalog.IsBreadthFirst root order) (steps : Nat) :
    catalog.reach root steps <+: order := by
  induction steps with
  | zero =>
      rw [h.queued, List.eraseDups_cons]
      exact ⟨_, rfl⟩
  | succ steps ih =>
      rcases ih with ⟨rest, hrest⟩
      have hqueue : root :: order.flatMap catalog.pointsAt =
          (root :: (catalog.reach root steps).flatMap catalog.pointsAt) ++
            rest.flatMap catalog.pointsAt := by
        rw [← hrest, List.flatMap_append, List.cons_append]
      rw [h.queued, hqueue, List.eraseDups_append]
      exact ⟨_, rfl⟩

/-- The whole order is reached in some number of steps, for its last key is. -/
theorem exists_eq_reach (h : catalog.IsBreadthFirst root order) :
    ∃ steps, order = catalog.reach root steps := by
  have hne : order ≠ [] := List.ne_nil_of_mem ((h.complete root).mpr .root)
  have hlast := List.getLast_mem hne
  rcases ((h.complete _).mp hlast).exists_mem_reach with ⟨steps, hsteps⟩
  rcases h.reach_prefix steps with ⟨rest, rfl⟩
  refine ⟨steps, ?_⟩
  by_cases hrest : rest = []
  · rw [hrest, List.append_nil]
  · rw [List.getLast_append_of_ne_nil _ hrest] at hsteps
    have hapart := (List.nodup_append.mp h.distinct).2.2
    exact absurd rfl (hapart _ hsteps _ (List.getLast_mem hrest))

/-- There is one breadth-first order at most. -/
theorem unique {other : List DescriptorKey} (h : catalog.IsBreadthFirst root order)
    (h' : catalog.IsBreadthFirst root other) : order = other := by
  rcases h.exists_eq_reach with ⟨steps, hsteps⟩
  rcases h'.exists_eq_reach with ⟨steps', hsteps'⟩
  have hprefix : order <+: other := hsteps ▸ h'.reach_prefix steps
  have hprefix' : other <+: order := hsteps' ▸ h.reach_prefix steps'
  exact hprefix.eq_of_length_le hprefix'.length_le

end IsBreadthFirst

/-! ## The walk -/

/-- A walk that comes to a new key puts what the key points at behind its list. -/
theorem visits_cons_of_not_mem {budget : Nat} (new : key ∉ seen) :
    catalog.visits (budget + 1) (key :: pending) seen =
      key :: catalog.visits budget (pending ++ catalog.pointsAt key) (key :: seen) := by
  rw [visits, if_neg (mt List.contains_iff_mem.mp new), pointsAt]
  cases Table.find? catalog key with
  | none => simp
  | some descriptor => rfl

/-- A walk passes over a key that it has seen. -/
theorem visits_cons_of_mem {budget : Nat} (known : key ∈ seen) :
    catalog.visits (budget + 1) (key :: pending) seen = catalog.visits budget pending seen := by
  rw [visits, if_pos (List.contains_iff_mem.mpr known)]

/-- What a new key points at does not count any more when a walk has come to it. -/
theorem length_pointsAt_add_unseen_le (new : key ∉ seen) :
    (catalog.pointsAt key).length + catalog.unseen (key :: seen) ≤ catalog.unseen seen := by
  rw [pointsAt]
  cases found : Table.find? catalog key with
  | none => simpa using unseen_cons_le catalog key seen
  | some descriptor => simpa using unseen_cons (Table.mem_of_find? found) new

/-- A walk with enough budget comes to its list and to what it points at, to each key where it
is first listed, unless it has seen it. -/
theorem visits_queued {budget : Nat} (enough : pending.length + catalog.unseen seen ≤ budget) :
    catalog.visits budget pending seen =
      ((pending ++ (catalog.visits budget pending seen).flatMap catalog.pointsAt).filter
        (!seen.contains ·)).eraseDups := by
  induction budget generalizing pending seen with
  | zero =>
      have hempty : pending = [] := List.length_eq_zero_iff.mp (by omega)
      rw [hempty]
      rfl
  | succ budget ih =>
      cases pending with
      | nil => rfl
      | cons first pending =>
          rw [List.length_cons] at enough
          by_cases known : first ∈ seen
          · have hknown : (!seen.contains first) = false := by simpa using known
            rw [visits_cons_of_mem known, List.cons_append, List.filter_cons, hknown,
              if_neg Bool.false_ne_true]
            exact ih (by omega)
          · have hnew : (!seen.contains first) = true := by simpa using known
            have hless : (catalog.pointsAt first).length + catalog.unseen (first :: seen) ≤
                catalog.unseen seen := length_pointsAt_add_unseen_le known
            have henough : (pending ++ catalog.pointsAt first).length +
                catalog.unseen (first :: seen) ≤ budget := by
              rw [List.length_append]
              omega
            have hrest := ih henough
            have hfilter : (fun key => !(first :: seen).contains key) =
                fun key => !key == first && !seen.contains key := by
              funext key
              rw [List.contains_cons, Bool.not_or]
            rw [visits_cons_of_not_mem known, List.cons_append, List.filter_cons, hnew, if_pos rfl,
              List.eraseDups_cons, List.filter_filter, List.flatMap_cons, ← List.append_assoc,
              ← hfilter, ← hrest]

/-- The walk from a root is in breadth-first order. -/
theorem isBreadthFirst_visits : catalog.IsBreadthFirst root (catalog.visits
    ((catalog.flatMap fun entry => entry.2.elements).length + 2) [root] []) := by
  refine ⟨nodup_visits.1, fun key => mem_visits_iff, ?_⟩
  simpa using visits_queued (enough_budget catalog root)

/-! ## Identifiers -/

/-- The first base in a breadth-first order is the one that the walk from the root finds. -/
theorem IsBreadthFirst.firstBase?_eq (h : catalog.IsBreadthFirst root order) (key : DescriptorKey) :
    catalog.firstBase? order key = catalog.base? root key := by
  rw [h.unique isBreadthFirst_visits]
  rfl

/-- A descriptor goes by what it is given in breadth-first order. -/
theorem IsBreadthFirst.typeId_eq {entry : Entry} (h : catalog.IsBreadthFirst root order)
    (found : Table.find? catalog entry.1 = some entry.2) :
    catalog.typeId root entry = catalog.idIn order entry := by
  rw [idIn, h.firstBase?_eq]
  cases held : catalog.base? root entry.1 with
  | none => exact typeId_of_no_base held
  | some base => exact typeId_of_base found held

/-- What is referred to has a descriptor. -/
theorem Refers.exists_descriptor {ref : TypeRef} (h : catalog.Refers root key ref) :
    ∃ descriptor, Table.find? catalog key = some descriptor := by
  cases h with
  | primitive found | list found | map found | named found => exact ⟨_, found⟩

/-- What is referred to by an identifier has that identifier. -/
theorem Refers.eq_typeId {id : TypeId} {nullable : Bool}
    (h : catalog.Refers root key (.named id nullable)) :
    ∃ descriptor, Table.find? catalog key = some descriptor ∧
      id = catalog.typeId root (key, descriptor) := by
  cases h with
  | named found => exact ⟨_, found, rfl⟩

/-- What a reference contains refers to what is read of its descriptor. -/
theorem Refers.exists_of_contains {ref inner : TypeRef} (inside : ref.Contains inner)
    (h : catalog.Refers root key ref) (read : catalog.Reads root key) :
    ∃ other, catalog.Reads root other ∧ catalog.Refers root other inner := by
  induction inside generalizing key with
  | self => exact ⟨key, read, h⟩
  | child mem inside ih =>
      cases h with
      | primitive => cases mem
      | list found kind first items =>
          rw [NodeOf.children, List.mem_singleton] at mem
          subst mem
          refine ih items (read.part found ?_)
          rw [parts, kind]
          exact DescriptorIntrospection.mem_firstKeys first Nat.zero_lt_one
      | map found kind hfirst hsecond hkeys hvalues =>
          rw [NodeOf.children, List.mem_pair] at mem
          rcases mem with rfl | rfl
          · refine ih hkeys (read.part found ?_)
            rw [parts, kind]
            exact DescriptorIntrospection.mem_firstKeys hfirst Nat.zero_lt_two
          · refine ih hvalues (read.part found ?_)
            rw [parts, kind]
            exact DescriptorIntrospection.mem_firstKeys hsecond Nat.one_lt_two

/-- A reference in a node refers to what the reading of its descriptor goes on to. -/
theorem Depicts.exists_of_child {node : Node} {child : TypeRef}
    (h : catalog.Depicts root descriptor node) (mem : child ∈ node.children) :
    ∃ other ∈ catalog.parts descriptor, catalog.Refers root other child := by
  cases h with
  | enumeration => cases mem
  | object kind hproperties =>
      rcases List.mem_map.mp mem with ⟨property, hproperty, rfl⟩
      rcases Attempt.exists_of_mem_right hproperties hproperty with ⟨element, helement, -, -, href⟩
      refine ⟨element.descriptor, ?_, href⟩
      rcases kind with kind | kind <;> rw [parts, kind] <;> exact List.mem_map_of_mem helement
  | polymorphic kind held hsubtypes =>
      rw [NodeOf.children, List.map_map] at mem
      rcases List.mem_map.mp mem with ⟨subtype, hsubtype, rfl⟩
      rcases Attempt.exists_of_mem_right hsubtypes hsubtype with ⟨key, hkey, href⟩
      refine ⟨key, ?_, href⟩
      rw [parts, kind, held]
      exact hkey
  | empty => cases mem

end Catalog

/-- A graph shows the identifiers that descriptors are given in an order, wherever it refers to
them, and those of subtypes are qualified by the first descriptor that lists them. -/
structure TypeGraph.ShowsIn (graph : TypeGraph) (catalog : Catalog) (root : DescriptorKey)
    (order : List DescriptorKey) : Prop where
  /-- The references that nodes are depicted with go by the identifiers of the order. -/
  ids : ∀ entry : Catalog.Entry, Table.find? catalog entry.1 = some entry.2 →
    catalog.typeId root entry = catalog.idIn order entry
  /-- The graph refers to the root. -/
  start : catalog.Refers root root graph.root
  /-- Every reference is that to a descriptor, by its identifier if it has a node. -/
  refs : ∀ owner ref, graph.Holds owner ref → ∃ key descriptor, catalog.Reads root key ∧
    Table.find? catalog key = some descriptor ∧ catalog.Refers root key ref ∧
    (descriptor.IsNamed → ref.id? = some (catalog.idIn order (key, descriptor)))
  /-- Every node shows a descriptor by its identifier. -/
  nodes : ∀ id node, (id, node) ∈ graph.nodes → ∃ entry, catalog.HasNode root entry ∧
    id = catalog.idIn order entry ∧ catalog.Depicts root entry.2 node
  /-- Every subtype goes by two simple names. -/
  variants : ∀ id type, (id, .polymorphic type) ∈ graph.nodes → ∀ variant ∈ type.variants,
    ∃ key subtype base, Table.find? catalog key = some subtype ∧
      catalog.firstBase? order key = some base ∧
      variant.id = Session.qualify base.simpleName subtype.simpleName

namespace Catalog

variable {catalog : Catalog} {root : DescriptorKey} {settings : IntrospectionSettings}
variable {graph : TypeGraph} {order : List DescriptorKey}

/-- Every reference of a graph refers to a descriptor that is read. -/
theorem exists_of_holds (h : (catalog.introspect settings root).graph = .ok graph)
    {owner : Option TypeId} {ref : TypeRef} (held : graph.Holds owner ref) :
    ∃ key, catalog.Reads root key ∧ catalog.Refers root key ref := by
  rcases depicts_introspect h with ⟨hroot, hnodes⟩
  cases held with
  | root inside => exact hroot.exists_of_contains inside .root
  | entry mem member inside =>
      rcases hnodes _ _ mem with ⟨entry, known, -, hdepicts⟩
      rcases hdepicts.exists_of_child member with ⟨other, hpart, href⟩
      exact href.exists_of_contains inside (known.read.part known.found hpart)

/-- What a sealed descriptor lists that is read has a first descriptor that lists it. -/
theorem IsBreadthFirst.exists_firstBase (bf : catalog.IsBreadthFirst root order)
    {key other : DescriptorKey} {descriptor : Descriptor} {keys : List DescriptorKey}
    (read : catalog.Reads root key) (found : Table.find? catalog key = some descriptor)
    (kind : descriptor.kind = .sealed) (held : catalog.subtypes? descriptor = some keys)
    (mem : other ∈ keys) : ∃ base, catalog.firstBase? order other = some base := by
  rw [bf.firstBase?_eq, ← Option.isSome_iff_exists, base?_isSome_iff]
  refine ⟨key, descriptor, read.leads, found, ?_⟩
  simp [holds, kind, held, mem]

/-- A graph shows the identifiers that are given in the breadth-first order. -/
theorem IsBreadthFirst.showsIn (bf : catalog.IsBreadthFirst root order)
    (h : (catalog.introspect settings root).graph = .ok graph) :
    graph.ShowsIn catalog root order := by
  refine ⟨fun _ => bf.typeId_eq, (depicts_introspect h).1, ?_, ?_, ?_⟩
  · intro owner ref held
    rcases exists_of_holds h held with ⟨key, read, href⟩
    rcases href.exists_descriptor with ⟨descriptor, found⟩
    refine ⟨key, descriptor, read, found, href, fun named => ?_⟩
    have hnamed : ∃ nullable, ref = .named (catalog.typeId root (key, descriptor)) nullable :=
      href.eq_named found named
    have hid : catalog.typeId root (key, descriptor) = catalog.idIn order (key, descriptor) :=
      bf.typeId_eq found
    rcases hnamed with ⟨nullable, rfl⟩
    rw [← hid]
    rfl
  · intro id node mem
    rcases (depicts_introspect h).2 id node mem with ⟨entry, known, hid, hdepicts⟩
    exact ⟨entry, known, hid.symm.trans (bf.typeId_eq known.found), hdepicts⟩
  · intro id type mem variant hvariant
    rcases (depicts_introspect h).2 id _ mem with ⟨entry, known, -, hdepicts⟩
    cases hdepicts with
    | polymorphic kind held parts =>
        rcases List.mem_map.mp hvariant with ⟨shown, hshown, rfl⟩
        rcases Attempt.exists_of_mem_right parts hshown with ⟨key, hkey, href⟩
        rcases bf.exists_firstBase known.read known.found kind held hkey with ⟨base, hbase⟩
        rcases href.eq_typeId with ⟨subtype, found, hid⟩
        refine ⟨key, subtype, base, found, hbase, ?_⟩
        calc shown.2
          _ = catalog.typeId root (key, subtype) := hid
          _ = catalog.idIn order (key, subtype) := bf.typeId_eq found
          _ = Session.qualify base.simpleName subtype.simpleName := by rw [idIn, hbase]

/-- There is one breadth-first order of what the root leads to.  A descriptor has a first one
in it that lists it exactly when the root leads to a well-formed sealed descriptor that does,
and a graph shows the identifiers that are given in this order. -/
theorem introspect_identifiers (h : (catalog.introspect settings root).graph = .ok graph) :
    ∃ order, catalog.IsBreadthFirst root order ∧
      (∀ other, catalog.IsBreadthFirst root other → other = order) ∧
      (∀ key, (catalog.firstBase? order key).isSome = true ↔
        ∃ other base, catalog.Leads root other ∧ Table.find? catalog other = some base ∧
          catalog.holds base key = true) ∧
      graph.ShowsIn catalog root order := by
  have hwalk : catalog.IsBreadthFirst root _ := isBreadthFirst_visits
  refine ⟨_, hwalk, fun other hother => hother.unique hwalk, fun key => ?_, hwalk.showsIn h⟩
  rw [hwalk.firstBase?_eq]
  exact base?_isSome_iff

end Catalog

/-- A leaf that two sealed descriptors list, and that is reached before both of them.  The one
that is reached first in the depth is further away from the root. -/
def sharedLeaf : Catalog :=
  [("text", { serialName := "String", kind := .string }),
    ("App", { serialName := "app.App", kind := .record, elements :=
      [{ name := "leaf", descriptor := "Leaf", nullable := true },
        { name := "far", descriptor := "Far" }, { name := "near", descriptor := "Near" }] }),
    ("Leaf", { serialName := "app.Leaf", kind := .record, elements :=
      [{ name := "owner", descriptor := "App" }] }),
    ("Far", { serialName := "app.Far", kind := .record, elements :=
      [{ name := "shape", descriptor := "Late" }] }),
    ("Late", { serialName := "app.Late", kind := .sealed, elements :=
      [{ name := "type", descriptor := "text" }, { name := "value", descriptor := "lates" }] }),
    ("lates", { serialName := "Lates", kind := .contextual, elements :=
      [{ name := "Leaf", descriptor := "Leaf" }] }),
    ("Near", { serialName := "app.Near", kind := .sealed, elements :=
      [{ name := "type", descriptor := "text" }, { name := "value", descriptor := "nears" }] }),
    ("nears", { serialName := "Nears", kind := .contextual, elements :=
      [{ name := "Leaf", descriptor := "Leaf" }] })]

/-- The leaf goes by the name of the sealed descriptor that is nearer to the root. -/
theorem sharedLeaf_identifiers : ∃ graph order, (sharedLeaf.introspect {} "App").graph = .ok graph ∧
    graph.nodes.keys = ["app.App", "Near.Leaf", "app.Far", "app.Late", "app.Near"] ∧
    sharedLeaf.IsBreadthFirst "App" order ∧ graph.ShowsIn sharedLeaf "App" order ∧
    ∀ leaf, Table.find? sharedLeaf "Leaf" = some leaf →
      sharedLeaf.idIn order ("Leaf", leaf) = "Near.Leaf" := by
  have hgraph : (sharedLeaf.introspect {} "App").graph = .ok _ := rfl
  rcases Catalog.introspect_identifiers hgraph with ⟨order, hbf, -, -, hshows⟩
  refine ⟨_, order, hgraph, rfl, hbf, hshows, fun leaf found => ?_⟩
  rw [← hbf.typeId_eq found]
  cases found
  rfl

end Schemata
