import Mathlib.Data.List.Nodup
import Schemata.Proofs.Descriptor.Depiction

/-!
# Descriptors whose identifiers clash

The table of a graph has one node for each identifier, and the first descriptor that asks
for an identifier gets the node.  Two descriptors share an identifier exactly when their
names clash, so a graph has a node for every descriptor that it reads unless two of these
clash.  Two sealed descriptors from different packages are enough for that: their simple
names may be the same, and those of a subtype of each.

Main results:

- Definition {lit}`Catalog.IsClashFree`: the names of descriptors with nodes do not clash.
- Theorem {lit}`Catalog.introspect_shows_all_iff`: a graph has a node for every descriptor
  exactly when their names do not clash.
-/

namespace Schemata

namespace Catalog

variable (catalog : Catalog) (root : DescriptorKey)

/-- The names of descriptors with nodes clash only when they are the same. -/
def IsClashFree : Prop :=
  ∀ first second, catalog.HasNode root first → catalog.HasNode root second →
    catalog.Clash root first second → first.2.serialName = second.2.serialName

/-- Descriptors with nodes do not share serial names. -/
def HasDistinctNames : Prop :=
  ∀ first second, catalog.HasNode root first → catalog.HasNode root second →
    first.2.serialName = second.2.serialName → first = second

variable {catalog} {root key : DescriptorKey} {entry : Entry}
variable {settings : IntrospectionSettings} {graph : TypeGraph} {node : Node}

/-- Names do not clash exactly when different names give different identifiers. -/
theorem isClashFree_iff : catalog.IsClashFree root ↔
    ∀ first second, catalog.HasNode root first → catalog.HasNode root second →
      first.2.serialName ≠ second.2.serialName →
        catalog.typeId root first ≠ catalog.typeId root second := by
  constructor
  · intro free first second hfirst hsecond different same
    exact different (free _ _ hfirst hsecond ((typeId_eq_iff hfirst.found hsecond.found).mp same))
  · intro h first second hfirst hsecond clash
    by_contra different
    exact h _ _ hfirst hsecond different ((typeId_eq_iff hfirst.found hsecond.found).mpr clash)

/-- Without clashes the node of an identifier shows a descriptor of the same name. -/
theorem IsClashFree.exists_depicted (free : catalog.IsClashFree root)
    (h : (catalog.introspect settings root).graph = .ok graph) (known : catalog.HasNode root entry)
    (found : graph.nodes.find? (catalog.typeId root entry) = some node) :
    ∃ other, catalog.HasNode root other ∧ other.2.serialName = entry.2.serialName ∧
      catalog.Depicts root other.2 node := by
  rcases (depicts_introspect h).2 _ node (Table.mem_of_find? found) with
    ⟨other, hother, same, hdepicts⟩
  exact ⟨other, hother,
    free _ _ hother known ((typeId_eq_iff hother.found known.found).mp same), hdepicts⟩

/-- When names are distinct as well, it shows the descriptor itself. -/
theorem IsClashFree.depicts (free : catalog.IsClashFree root)
    (distinct : catalog.HasDistinctNames root)
    (h : (catalog.introspect settings root).graph = .ok graph) (known : catalog.HasNode root entry)
    (found : graph.nodes.find? (catalog.typeId root entry) = some node) :
    catalog.Depicts root entry.2 node := by
  rcases free.exists_depicted h known found with ⟨other, hother, same, hdepicts⟩
  cases distinct _ _ hother known same
  exact hdepicts

/-- A descriptor that is referred to in the graph has a node under its identifier. -/
theorem exists_node_of_ref (h : (catalog.introspect settings root).graph = .ok graph)
    (known : catalog.HasNode root entry) {owner : Option TypeId} {ref : TypeRef}
    (held : graph.Holds owner ref) (href : catalog.Refers root entry.1 ref) :
    ∃ node, graph.nodes.find? (catalog.typeId root entry) = some node := by
  rcases href.eq_named known.found known.named with ⟨nullable, rfl⟩
  have hlegal := TypeGraph.validate_eq_ok_iff.mp (introspect_isComplete h).1.valid _ _ held
  exact Option.isSome_iff_exists.mp ((Table.has_iff_mem_keys ..).mpr hlegal)

/-- Every descriptor that is read is referred to in the graph.  The induction is on how the
reading comes to it: from a node of the table, or from a container. -/
theorem IsClashFree.exists_ref (free : catalog.IsClashFree root)
    (distinct : catalog.HasDistinctNames root)
    (h : (catalog.introspect settings root).graph = .ok graph) (read : catalog.Reads root key) :
    ∃ owner ref, graph.Holds owner ref ∧ catalog.Refers root key ref := by
  induction read with
  | root => exact ⟨none, graph.root, .root .self, (depicts_introspect h).1⟩
  | @part key other descriptor earlier found mem ih =>
      rcases ih with ⟨owner, ref, hholds, href⟩
      by_cases named : descriptor.IsNamed
      · have known : catalog.HasNode root (key, descriptor) := ⟨earlier, found, named⟩
        rcases exists_node_of_ref h known hholds href with ⟨node, hnode⟩
        rcases (free.depicts distinct h known hnode).part mem with ⟨child, hchild, hother⟩
        exact ⟨_, child, .entry (Table.mem_of_find? hnode) hchild .self, hother⟩
      · rcases href.part found named mem with ⟨inner, hinside, hinner⟩
        exact ⟨owner, inner, hholds.trans hinside, hinner⟩

/-- Different serial names have different identifiers exactly when names do not clash.  Then
no node stands for a descriptor of another name; and if descriptors with nodes do not share
serial names, the graph shows each of them exactly when their names do not clash. -/
theorem introspect_shows_all_iff (h : (catalog.introspect settings root).graph = .ok graph) :
    ((∀ first second, catalog.HasNode root first → catalog.HasNode root second →
        first.2.serialName ≠ second.2.serialName →
          catalog.typeId root first ≠ catalog.typeId root second) ↔ catalog.IsClashFree root) ∧
      (catalog.IsClashFree root → ∀ entry node, catalog.HasNode root entry →
        graph.nodes.find? (catalog.typeId root entry) = some node →
          node.name? = some entry.2.serialName) ∧
      (catalog.HasDistinctNames root → (catalog.IsClashFree root ↔
        ∀ entry, catalog.HasNode root entry → ∃ node,
          graph.nodes.find? (catalog.typeId root entry) = some node ∧
            catalog.Depicts root entry.2 node)) := by
  refine ⟨isClashFree_iff.symm, ?_, ?_⟩
  · intro free entry node known found
    rcases free.exists_depicted h known found with ⟨other, -, same, hdepicts⟩
    rw [← same]
    exact hdepicts.name?_eq
  · intro distinct
    constructor
    · intro free entry known
      rcases free.exists_ref distinct h known.read with ⟨owner, ref, hholds, href⟩
      rcases exists_node_of_ref h known hholds href with ⟨node, hnode⟩
      exact ⟨node, hnode, free.depicts distinct h known hnode⟩
    · intro hall first second hfirst hsecond clash
      rcases hall first hfirst with ⟨node, hnode, hdepicts⟩
      rcases hall second hsecond with ⟨other, hother, hdepicts'⟩
      rw [(typeId_eq_iff hfirst.found hsecond.found).mpr clash, hother] at hnode
      cases hnode
      exact Option.some.inj (hdepicts.name?_eq.symm.trans hdepicts'.name?_eq)

end Catalog

/-- A box with a shape and another sealed descriptor, each with a subtype of one name. -/
def boxedShapes (other : String) : Catalog :=
  [("text", { serialName := "String", kind := .string }),
    ("Box", { serialName := "app.Box", kind := .record, elements :=
      [{ name := "first", descriptor := "A" }, { name := "second", descriptor := "B" }] }),
    ("A", { serialName := "a.Shape", kind := .sealed, elements :=
      [{ name := "type", descriptor := "text" }, { name := "value", descriptor := "As" }] }),
    ("As", { serialName := "As", kind := .contextual, elements :=
      [{ name := "Unknown", descriptor := "AU" }] }),
    ("AU", { serialName := "a.Shape.Unknown", kind := .record, elements :=
      [{ name := "code", descriptor := "text" }] }),
    ("B", { serialName := other, kind := .sealed, elements :=
      [{ name := "type", descriptor := "text" }, { name := "value", descriptor := "Bs" }] }),
    ("Bs", { serialName := "Bs", kind := .contextual, elements :=
      [{ name := "Unknown", descriptor := "BU" }] }),
    ("BU", { serialName := other ++ ".Unknown", kind := .singleton })]

/-- A shape and a frame do not clash, so the graph shows all descriptors. -/
theorem boxedShapes_shows_all : ∃ graph,
    ((boxedShapes "b.Frame").introspect {} "Box").graph = .ok graph ∧
      (boxedShapes "b.Frame").IsClashFree "Box" ∧
      ∀ entry, (boxedShapes "b.Frame").HasNode "Box" entry → ∃ node,
        graph.nodes.find? ((boxedShapes "b.Frame").typeId "Box" entry) = some node ∧
          (boxedShapes "b.Frame").Depicts "Box" entry.2 node := by
  have hsome : ((boxedShapes "b.Frame").introspect {} "Box").graph.toOption.isSome =
      true := by
    decide +kernel
  have hids : ∀ first ∈ boxedShapes "b.Frame",
      ∀ second ∈ boxedShapes "b.Frame",
        first.2.serialName ≠ second.2.serialName →
          (boxedShapes "b.Frame").typeId "Box" first ≠
            (boxedShapes "b.Frame").typeId "Box" second := by
    decide +kernel
  have hnames : ((boxedShapes "b.Frame").map (·.2.serialName)).Nodup := by
    decide +kernel
  rcases Option.isSome_iff_exists.mp hsome with ⟨graph, hgraph⟩
  have hgraph := eq_ok_of_toOption hgraph
  rcases Catalog.introspect_shows_all_iff hgraph with ⟨hfree, -, hshows⟩
  have hfree := hfree.mp fun first second hfirst hsecond =>
    hids first (Table.mem_of_find? hfirst.found) second (Table.mem_of_find? hsecond.found)
  refine ⟨graph, hgraph, hfree, (hshows ?_).mp hfree⟩
  intro first second hfirst hsecond same
  exact List.inj_on_of_nodup_map hnames (Table.mem_of_find? hfirst.found)
    (Table.mem_of_find? hsecond.found) same

/-- Two shapes of different packages clash: their subtypes share an identifier, and no node
carries the name of the second. -/
theorem boxedShapes_clash : ∃ graph first second,
    ((boxedShapes "b.Shape").introspect {} "Box").graph = .ok graph ∧
      (boxedShapes "b.Shape").HasNode "Box" first ∧
      (boxedShapes "b.Shape").HasNode "Box" second ∧
      first.2.serialName ≠ second.2.serialName ∧
      (boxedShapes "b.Shape").typeId "Box" first = (boxedShapes "b.Shape").typeId "Box" second ∧
      ∀ entry ∈ graph.nodes, entry.2.name? ≠ some second.2.serialName := by
  have hnames : ((boxedShapes "b.Shape").introspect {} "Box").graph.toOption.map
      (fun graph => graph.nodes.map (·.2.name?)) =
        some [some "app.Box", some "a.Shape", some "a.Shape.Unknown", some "b.Shape"] := by
    decide +kernel
  rcases Option.map_eq_some_iff.mp hnames with ⟨graph, hgraph, hnodes⟩
  have hbox : ∀ key ∈ ["A", "B"], (boxedShapes "b.Shape").Reads "Box" key :=
    fun key mem => .part .root rfl mem
  refine ⟨graph, ("AU", _), ("BU", _), eq_ok_of_toOption hgraph,
    ⟨.part (hbox "A" (by decide)) rfl (by decide), rfl, by decide⟩,
    ⟨.part (hbox "B" (by decide)) rfl (by decide), rfl, by decide⟩, by decide +kernel,
    by decide +kernel, ?_⟩
  intro entry mem
  have hname : entry.2.name? ∈ graph.nodes.map (·.2.name?) := List.mem_map_of_mem mem
  rw [hnodes] at hname
  intro same
  rw [same] at hname
  exact absurd hname (by decide +kernel)

end Schemata
