import Schemata.Proofs.Descriptor.Refinement
import Schemata.Proofs.Descriptor.Termination

/-!
# Faults of descriptors

A list, a map and a sealed descriptor need elements in certain places, and the reading of one
that lacks them reports the descriptor.  A subtype needs a node of its own, since the sealed
descriptor refers to it by identifier; but nothing looks at the kinds of subtypes, so a scalar,
a list or a map among them is found out only when its identifier is asked for.  There are no
other ways to fail for a catalog without loose ends, if the settings consist of names.

What a step fails with depends on what the steps before it read: the reference to a descriptor
tells whether it has an identifier.  So the rules for failures go beside those for what is kept.

Main results:

- Definition {lit}`Catalog.Fault`: what is wrong with the descriptors that are read, and how it
  is reported.
- Theorem {lit}`DescriptorIntrospection.isBlaming_reference`: with any budget, a reading fails
  for such a fault, for its budget or for the settings.
- Theorem {lit}`Catalog.introspect_faults`: how an introspection fails.
-/

namespace Schemata

/-- How many elements the reading of a kind takes from their places. -/
def DescriptorKind.arity : DescriptorKind → Nat
  | .list => 1
  | .map => 2
  | _ => 0

/-- The settings say by texts which annotations are descriptions and where these are found. -/
structure IntrospectionSettings.HasNames (settings : IntrospectionSettings) : Prop where
  classes : ∀ value ∈ settings.annotationNames, ∃ text, value = .str text
  attributes : ∀ value ∈ settings.valueAttributes, ∃ text, value = .str text

/-- Settings that are texts are never the reason for a failure. -/
theorem IntrospectionSettings.HasNames.not_misnamed {settings : IntrospectionSettings}
    (names : settings.HasNames) (error : Error) : ¬ settings.Misnamed error := by
  rintro (⟨mem, other⟩ | ⟨mem, other⟩)
  · rcases names.classes _ mem with ⟨text, htext⟩
    exact other text htext
  · rcases names.attributes _ mem with ⟨text, htext⟩
    exact other text htext

namespace Catalog

variable (catalog : Catalog) (root : DescriptorKey)

/-- The root and all elements stand for descriptors of the catalog. -/
structure IsClosed : Prop where
  root : root ∈ catalog.keys
  elements : ∀ entry ∈ catalog, ∀ element ∈ entry.2.elements, element.descriptor ∈ catalog.keys

/-- A descriptor lacks elements where its kind needs them, and how that is reported. -/
inductive Misfit (descriptor : Descriptor) : Error → Prop
  | short (few : descriptor.elements.length < descriptor.kind.arity) :
      Misfit descriptor (.invalidGraph
        (.missingElements descriptor.kind.name (descriptor.elements.length + 1))
        (some descriptor.serialName))
  | unheld (kind : descriptor.kind = .sealed) (alone : catalog.subtypes? descriptor = none) :
      Misfit descriptor (DescriptorIntrospection.sealedFault descriptor)

/-- A sealed descriptor that is read has a subtype without a node of its own. -/
def ListsInlined : Prop :=
  ∃ key descriptor keys other subtype, catalog.Reads root key ∧
    Table.find? catalog key = some descriptor ∧ descriptor.kind = .sealed ∧
    catalog.subtypes? descriptor = some keys ∧ other ∈ keys ∧
    Table.find? catalog other = some subtype ∧ ¬ subtype.IsNamed

/-- What is wrong with the descriptors that are read, and how it is reported. -/
inductive Fault : Error → Prop
  | misfit {key : DescriptorKey} {descriptor : Descriptor} {error : Error}
      (read : catalog.Reads root key) (found : Table.find? catalog key = some descriptor)
      (h : catalog.Misfit descriptor error) : Fault error
  | inlined (lists : catalog.ListsInlined root) : Fault .missingAttribute

variable {catalog} {root key : DescriptorKey}

/-- What the root leads to is in the catalog when the catalog has no loose ends. -/
theorem IsClosed.mem_keys (closed : catalog.IsClosed root) (h : catalog.Leads root key) :
    key ∈ catalog.keys := by
  cases h with
  | root => exact closed.root
  | step _ found mem => exact closed.elements _ (Table.mem_of_find? found) _ mem

/-- What is read has a descriptor when the catalog has no loose ends. -/
theorem IsClosed.exists_descriptor (closed : catalog.IsClosed root) (read : catalog.Reads root key) :
    ∃ descriptor, Table.find? catalog key = some descriptor :=
  Option.isSome_iff_exists.mp ((Table.has_iff_mem_keys ..).mpr (closed.mem_keys read.leads))

end Catalog

namespace DescriptorIntrospection

variable {α β : Type} {c : DescriptorIntrospection} {root key : DescriptorKey} {below : Below}
variable {catalog : Catalog} {descriptor : Descriptor} {failure : Error → Prop}

/-! ## Steps -/

/-- From a session that shows descriptors, a step fails only as a condition says. -/
def Blames (catalog : Catalog) (root : DescriptorKey) (failure : Error → Prop) (step : Step α) :
    Prop :=
  ∀ session, Shows catalog root session → step.FailsIn session fun error _ => failure error

theorem blames_pure (result : α) : Blames catalog root failure (pure result) :=
  fun _ _ => trivial

theorem blames_fail {error : Error} (h : failure error) :
    Blames catalog root failure (Attempt.fail error : Step α) :=
  fun _ _ => h

theorem blames_report (line : String) : Blames catalog root failure (Session.report line) :=
  fun _ _ => trivial

theorem blames_remembering (ref : TypeRef) :
    Blames catalog root failure (Session.remembering key ref) :=
  fun _ _ => trivial

/-- What a step keeps and what it fails with hold together. -/
theorem Blames.meets {step : Step α} {success : α → Prop} (h : Blames catalog root failure step)
    (kept : Keeps catalog root step success) {session : Session DescriptorKey Unit}
    (hshows : Shows catalog root session) :
    step.Meets session (fun result after => Shows catalog root after ∧ success result)
      fun error _ => failure error :=
  Attempt.Meets.mono (Attempt.Meets.and (h session hshows) (kept session hshows))
    (fun _ _ => And.right) fun _ _ => And.left

/-- The second of two steps may rely on what the first one keeps. -/
theorem Blames.bind {first : Step α} {next : α → Step β} {between : α → Prop}
    (h : Blames catalog root failure first) (kept : Keeps catalog root first between)
    (hnext : ∀ result, between result → Blames catalog root failure (next result)) :
    Blames catalog root failure (first >>= next) :=
  fun _ hshows => (h.meets kept hshows).bind fun result after hafter =>
    hnext result hafter.2 after hafter.1

/-- Steps over a list fail only as one of them does. -/
theorem Blames.mapEach {items : List α} {step : α → Step β} {related : α → β → Prop}
    (h : ∀ item ∈ items, Blames catalog root failure (step item))
    (kept : ∀ item ∈ items, Keeps catalog root (step item) (related item)) :
    Blames catalog root failure (Attempt.mapEach items step) :=
  fun _ hshows => (Attempt.Meets.mapEach
    (fun item mem _ hstate => (h item mem).meets (kept item mem) hstate) hshows).imp
      fun _ _ _ => trivial

/-- A slot is filled, or its builder fails. -/
theorem Blames.refer {builder : Step (Option Node)} (h : Blames catalog root failure builder)
    (key : DescriptorKey) (id : TypeId) (nullable : Bool) :
    Blames catalog root failure (Session.refer key id nullable builder) := by
  intro session hshows
  have hregister : (Session.register id builder).FailsIn session fun error _ => failure error :=
    Session.meets_register (fun _ => trivial) fun _ => h _ (hshows.reserve id)
  rw [Session.refer, Attempt.bind_eq]
  exact Attempt.Meets.bind hregister fun _ _ _ => trivial

/-! ## Descriptors -/

/-- A reading fails for a fault of what it reads, for its budget or for the settings. -/
def Failure (c : DescriptorIntrospection) (root : DescriptorKey) (error : Error) : Prop :=
  error = .endless ∨ c.catalog.Fault root error ∨ c.settings.Misnamed error

/-- What is read of the descriptors that a root leads to fails in these ways only. -/
def IsBlaming (c : DescriptorIntrospection) (root : DescriptorKey) (below : Below) : Prop :=
  ∀ key nullable, c.catalog.Reads root key →
    Blames c.catalog root (c.Failure root) (below key nullable)

theorem blames_describe (annotations : List Annotation) :
    Blames c.catalog root (c.Failure root) (c.describe annotations) :=
  fun _ _ => Attempt.meets_ofExcept.mpr ⟨fun _ _ => trivial, fun _ herror =>
    Or.inr (Or.inr (c.settings.describe_eq_error herror))⟩

/-- A node that is made of a description alone is made, or the settings are at fault. -/
theorem blames_describe_bind (annotations : List Annotation) (node : Option String → Option Node) :
    Blames c.catalog root (c.Failure root)
      (c.describe annotations >>= fun description => pure (node description)) :=
  (blames_describe _).bind (keeps_describe _) fun _ _ => blames_pure _

section Layer

variable (hbelow : IsFaithful c.catalog root below) (hblames : c.IsBlaming root below)
include hbelow hblames

/-- The builder of an object fails only as an element that it reads does, or for the settings. -/
theorem blames_objectNode
    (reads : ∀ element ∈ descriptor.elements, c.catalog.Reads root element.descriptor) :
    Blames c.catalog root (c.Failure root) (c.objectNode below descriptor) := by
  have hproperty : ∀ element ∈ descriptor.elements,
      Blames c.catalog root (c.Failure root) (c.property below element) := by
    intro element mem
    rw [property]
    refine (hblames _ _ (reads element mem)).bind (hbelow _ _ (reads element mem)) fun type _ => ?_
    exact (blames_describe _).bind (keeps_describe _) fun _ _ => blames_pure _
  have hkept : ∀ element ∈ descriptor.elements, Keeps c.catalog root (c.property below element) _ :=
    fun element mem => keeps_property hbelow (reads element mem)
  rw [objectNode]
  exact (Blames.mapEach hproperty hkept).bind (Keeps.mapEach hkept) fun _ _ =>
    blames_describe_bind _ _

/-- A subtype has an identifier unless it is a scalar, a list or a map. -/
theorem blames_subtype (closed : c.catalog.IsClosed root) (read : c.catalog.Reads root key)
    (inlined : ∀ subtype, Table.find? c.catalog key = some subtype → ¬ subtype.IsNamed →
      c.catalog.ListsInlined root) :
    Blames c.catalog root (c.Failure root) (c.subtype below key) := by
  rcases closed.exists_descriptor read with ⟨subtype, found⟩
  rw [DescriptorIntrospection.subtype]
  refine (hblames _ _ read).bind (hbelow _ _ read) fun ref href => ?_
  split
  · exact blames_pure _
  · rename_i unknown
    refine blames_fail (Or.inr (Or.inl (.inlined (inlined subtype found fun named => ?_))))
    have hnamed : ∃ nullable, ref = .named (c.catalog.typeId root (key, subtype)) nullable :=
      href.eq_named found named
    rcases hnamed with ⟨nullable, rfl⟩
    exact unknown _ _ rfl found

/-- A sealed descriptor fails for its own shape, for an inlined subtype or for what it reads. -/
theorem blames_polymorphicNode (closed : c.catalog.IsClosed root) (read : c.catalog.Reads root key)
    (found : Table.find? c.catalog key = some descriptor) (kind : descriptor.kind = .sealed) :
    Blames c.catalog root (c.Failure root) (c.polymorphicNode below descriptor) := by
  rw [polymorphicNode]
  split
  · rename_i alone
    exact blames_fail (Or.inr (Or.inl (.misfit read found (.unheld kind alone))))
  · rename_i keys held
    have hreads : ∀ other ∈ keys, c.catalog.Reads root other := by
      intro other mem
      refine read.part found ?_
      rw [Catalog.parts, kind, held]
      exact mem
    have hsubtype : ∀ other ∈ keys,
        Blames c.catalog root (c.Failure root) (c.subtype below other) := by
      intro other mem
      refine blames_subtype hbelow hblames closed (hreads other mem) fun subtype hfound unnamed => ?_
      exact ⟨key, descriptor, keys, other, subtype, read, found, kind, held, mem, hfound, unnamed⟩
    have hkept : ∀ other ∈ keys, Keeps c.catalog root (c.subtype below other) _ :=
      fun other mem => keeps_subtype hbelow (hreads other mem)
    exact (Blames.mapEach hsubtype hkept).bind (Keeps.mapEach hkept) fun _ _ =>
      blames_describe_bind _ _

omit hbelow hblames in
/-- The elements of a list or map are there, or the first that is missing is reported. -/
theorem blames_elementAt {index : Nat} (read : c.catalog.Reads root key)
    (found : Table.find? c.catalog key = some descriptor)
    (reached : index ≤ descriptor.elements.length) (needed : index < descriptor.kind.arity) :
    Blames c.catalog root (c.Failure root) (elementAt descriptor index) := by
  rw [elementAt]
  split
  · exact blames_pure _
  · rename_i missing
    have hlength : descriptor.elements.length = index :=
      Nat.le_antisymm (List.getElem?_eq_none_iff.mp missing) reached
    have hshort : c.catalog.Misfit descriptor _ := .short (hlength ▸ needed)
    rw [hlength] at hshort
    exact blames_fail (Or.inr (Or.inl (.misfit read found hshort)))

/-- The cases are the kinds of descriptors, as they are for what is kept. -/
theorem blames_fresh (closed : c.catalog.IsClosed root) (read : c.catalog.Reads root key)
    (found : Table.find? c.catalog key = some descriptor) (nullable : Bool) :
    Blames c.catalog root (c.Failure root) (c.fresh below key descriptor nullable) := by
  have hparts : ∀ other ∈ c.catalog.parts descriptor, c.catalog.Reads root other :=
    fun other mem => read.part found mem
  rw [fresh]
  split
  · exact blames_remembering _
  · split
    · exact (blames_describe_bind _ _).refer _ _ _
    · rename_i kind
      refine (blames_objectNode hbelow hblames fun element mem => hparts _ ?_).refer _ _ _
      rw [Catalog.parts, kind]
      exact List.mem_map_of_mem mem
    · rename_i kind
      refine (blames_objectNode hbelow hblames fun element mem => hparts _ ?_).refer _ _ _
      rw [Catalog.parts, kind]
      exact List.mem_map_of_mem mem
    · rename_i kind
      refine (blames_elementAt read found (Nat.zero_le _) (by rw [kind]; decide)).bind
        (keeps_elementAt 0) fun element helement => ?_
      have hread : c.catalog.Reads root element.descriptor := by
        refine hparts _ ?_
        rw [Catalog.parts, kind]
        exact mem_firstKeys helement Nat.zero_lt_one
      exact (hblames _ _ hread).bind (hbelow _ _ hread) fun _ _ => blames_remembering _
    · rename_i kind
      have hread : ∀ {index : Nat} {element : Element}, descriptor.elements[index]? = some element →
          index < 2 → c.catalog.Reads root element.descriptor := by
        intro index element helement less
        refine hparts _ ?_
        rw [Catalog.parts, kind]
        exact mem_firstKeys helement less
      refine (blames_elementAt read found (Nat.zero_le _) (by rw [kind]; decide)).bind
        (keeps_elementAt 0) fun first hfirst => ?_
      have hreached := (List.getElem?_eq_some_iff.mp hfirst).1
      refine (blames_elementAt read found hreached (by rw [kind]; decide)).bind
        (keeps_elementAt 1) fun second hsecond => ?_
      have hkeys := hread hfirst Nat.zero_lt_two
      have hvalues := hread hsecond Nat.one_lt_two
      refine (hblames _ _ hkeys).bind (hbelow _ _ hkeys) fun _ _ => ?_
      exact (hblames _ _ hvalues).bind (hbelow _ _ hvalues) fun _ _ => blames_remembering _
    · rename_i kind
      exact (blames_polymorphicNode hbelow hblames closed read found kind).refer _ _ _
    · exact (blames_report _).bind (keeps_report _) fun _ _ => (blames_describe_bind _ _).refer _ _ _

/-- One layer fails for a fault when the readings below it do. -/
theorem isBlaming_layer (closed : c.catalog.IsClosed root) : c.IsBlaming root (c.layer below) := by
  intro key nullable read session hshows
  rcases closed.exists_descriptor read with ⟨descriptor, found⟩
  rw [layer, Attempt.FailsIn, Attempt.meets_bind, Attempt.meets_get]
  split
  · trivial
  · rw [found]
    exact blames_fresh hbelow hblames closed read found nullable session hshows

end Layer

/-- With any budget, a reading fails for a fault of what it reads, for its budget or for the
settings. -/
theorem isBlaming_reference (ids : c.subtypeIds = c.catalog.subtypeIds root)
    (closed : c.catalog.IsClosed root) (budget : Nat) : c.IsBlaming root (c.reference budget) := by
  induction budget with
  | zero => exact fun _ _ _ => blames_fail (Or.inl rfl)
  | succ budget ih => exact isBlaming_layer (isFaithful_reference ids budget) ih closed

end DescriptorIntrospection

namespace Catalog

variable {catalog : Catalog} {root key other : DescriptorKey} {descriptor : Descriptor}
variable {settings : IntrospectionSettings} {nullable : Bool} {ref : TypeRef} {error : Error}

/-! ## Descriptors of a graph -/

/-- A kind that needs elements is that of a list or map. -/
theorem arity_eq_zero (list : descriptor.kind ≠ .list) (map : descriptor.kind ≠ .map) :
    descriptor.kind.arity = 0 := by
  cases hkind : descriptor.kind <;> simp_all [DescriptorKind.arity]

/-- What is referred to has the elements that its kind needs. -/
theorem PlainRef.arity_le (h : catalog.PlainRef root key nullable ref)
    (found : Table.find? catalog key = some descriptor) :
    descriptor.kind.arity ≤ descriptor.elements.length := by
  cases h with
  | primitive found' scalar =>
      cases found.symm.trans found'
      rw [arity_eq_zero (by rintro kind; simp [kind, DescriptorKind.primitive?] at scalar)
        (by rintro kind; simp [kind, DescriptorKind.primitive?] at scalar)]
      exact Nat.zero_le _
  | list found' kind first items =>
      cases found.symm.trans found'
      rw [kind]
      exact (List.getElem?_eq_some_iff.mp first).1
  | map found' kind hfirst hsecond hkeys hvalues =>
      cases found.symm.trans found'
      rw [kind]
      exact (List.getElem?_eq_some_iff.mp hsecond).1
  | named found' named =>
      cases found.symm.trans found'
      rw [arity_eq_zero named.2.1 named.2.2]
      exact Nat.zero_le _

/-- What is referred to by an identifier has a node of its own. -/
theorem PlainRef.isNamed {id : TypeId} {other : Bool}
    (h : catalog.PlainRef root key nullable (.named id other))
    (found : Table.find? catalog key = some descriptor) : descriptor.IsNamed := by
  cases h with
  | named found' named =>
      cases found.symm.trans found'
      exact named

/-- A reference to a scalar, a list or a map has references to what the reading goes on to. -/
theorem PlainRef.part (h : catalog.PlainRef root key nullable ref)
    (found : Table.find? catalog key = some descriptor) (unnamed : ¬ descriptor.IsNamed)
    (mem : other ∈ catalog.parts descriptor) :
    ∃ nullable inner, catalog.PlainRef root other nullable inner := by
  cases h with
  | primitive found' scalar =>
      cases found.symm.trans found'
      rw [parts_of_primitive scalar] at mem
      cases mem
  | @list _ _ element _ _ found' kind first items =>
      cases found.symm.trans found'
      have helement : other = element.descriptor := by
        simpa [parts, kind, List.take_add_one, first] using mem
      exact ⟨_, _, helement ▸ items⟩
  | @map _ _ first second _ _ _ found' kind hfirst hsecond hkeys hvalues =>
      cases found.symm.trans found'
      have hother : other = first.descriptor ∨ other = second.descriptor := by
        simpa [parts, kind, List.take_add_one, hfirst, hsecond] using mem
      rcases hother with rfl | rfl
      · exact ⟨_, _, hkeys⟩
      · exact ⟨_, _, hvalues⟩
  | named found' named =>
      cases found.symm.trans found'
      exact absurd named unnamed

/-- A node has references to what the reading of its descriptor goes on to. -/
theorem PlainNode.part {node : Node} (h : catalog.PlainNode root settings descriptor node)
    (mem : other ∈ catalog.parts descriptor) :
    ∃ nullable inner, catalog.PlainRef root other nullable inner := by
  cases h with
  | enumeration kind =>
      rw [parts, kind] at mem
      cases mem
  | object kind hproperties =>
      have helements : catalog.parts descriptor = descriptor.elements.map (·.descriptor) := by
        rcases kind with kind | kind <;> rw [parts, kind]
      rw [helements, List.mem_map] at mem
      rcases mem with ⟨element, helement, rfl⟩
      rcases Attempt.exists_of_mem_right hproperties.flip helement with ⟨property, -, hproperty⟩
      exact ⟨_, _, hproperty.type⟩
  | polymorphic kind held hsubtypes =>
      rw [parts, kind, held] at mem
      rcases Attempt.exists_of_mem_right hsubtypes.flip mem with ⟨subtype, -, hsubtype⟩
      exact ⟨_, _, hsubtype.ref⟩
  | empty kind =>
      rcases kind with kind | kind <;>
      · rw [parts, kind] at mem
        cases mem

/-- The node of a sealed descriptor has subtypes, each with a node of its own. -/
theorem PlainNode.subtypes {node : Node} (h : catalog.PlainNode root settings descriptor node)
    (kind : descriptor.kind = .sealed) :
    ∃ keys, catalog.subtypes? descriptor = some keys ∧ ∀ other ∈ keys, ∀ subtype,
      Table.find? catalog other = some subtype → subtype.IsNamed := by
  cases h with
  | enumeration other => cases other.symm.trans kind
  | object other => rcases other with other | other <;> cases other.symm.trans kind
  | polymorphic kind held parts =>
      refine ⟨_, held, fun other mem subtype found => ?_⟩
      rcases Attempt.exists_of_mem_right parts.flip mem with ⟨shown, -, hshown⟩
      exact hshown.ref.isNamed found
  | empty other => rcases other with other | other <;> cases other.symm.trans kind

/-- A walk settles what the descriptors go on to that it comes to. -/
theorem Preorder.settles {keys : List DescriptorKey} {seen after : List Entry}
    (h : catalog.Preorder keys seen after) {entry : Entry} (mem : entry ∈ after)
    (new : entry ∉ seen) : ∀ other ∈ catalog.parts entry.2, catalog.Settled after other := by
  induction h with
  | done => exact absurd mem new
  | again _ _ _ _ ih => exact ih mem new
  | @first key descriptor _ seen middle _ _ _ _ inside tail ihinside ihtail =>
      by_cases old : entry ∈ middle
      · intro other hother
        refine Settled.mono ?_ tail.subset
        by_cases same : entry = (key, descriptor)
        · subst same
          exact inside.settled other hother
        · refine ihinside old (fun hmem => ?_) other hother
          rcases List.mem_append.mp hmem with hmem | hmem
          · exact new hmem
          · exact same (List.mem_singleton.mp hmem)
      · exact ihtail mem old
  | @through _ _ _ _ middle _ _ _ _ tail ihinside ihtail =>
      by_cases old : entry ∈ middle
      · exact fun other hother => (ihinside old new other hother).mono tail.subset
      · exact ihtail mem old

/-- A walk from the root settles all that is read. -/
theorem Preorder.settled_of_reads {order : List Entry} (h : catalog.Preorder [root] [] order)
    (read : catalog.Reads root key) : catalog.Settled order key := by
  induction read with
  | root => exact h.settled root (List.mem_singleton.mpr rfl)
  | part _ found mem ih =>
      cases ih with
      | named found' _ known =>
          cases found.symm.trans found'
          exact h.settles known List.not_mem_nil _ mem
      | through found' _ parts =>
          cases found.symm.trans found'
          exact parts _ mem

namespace IsPlainGraph

variable {graph : TypeGraph}

/-- What is read and becomes a node has one in the graph. -/
theorem exists_node (h : catalog.IsPlainGraph root settings graph) (read : catalog.Reads root key)
    (found : Table.find? catalog key = some descriptor) (named : descriptor.IsNamed) :
    ∃ node, catalog.PlainNode root settings descriptor node := by
  rcases h.nodes with ⟨order, hwalk, hnodes⟩
  cases hwalk.settled_of_reads read with
  | named found' _ known =>
      cases found.symm.trans found'
      rcases Attempt.exists_of_mem_right hnodes.flip known with ⟨slot, -, -, hnode⟩
      exact ⟨slot.2, hnode⟩
  | through found' unnamed =>
      cases found.symm.trans found'
      exact absurd named unnamed

/-- What is read is referred to in the graph. -/
theorem exists_ref (h : catalog.IsPlainGraph root settings graph) (read : catalog.Reads root key) :
    ∃ nullable ref, catalog.PlainRef root key nullable ref := by
  induction read with
  | root => exact ⟨_, _, h.ref⟩
  | @part key other descriptor earlier found mem ih =>
      by_cases named : descriptor.IsNamed
      · rcases h.exists_node earlier found named with ⟨node, hnode⟩
        exact hnode.part mem
      · rcases ih with ⟨nullable, ref, href⟩
        exact href.part found named mem

/-- The descriptors of a graph have no faults. -/
theorem not_fault (h : catalog.IsPlainGraph root settings graph) : ¬ catalog.Fault root error := by
  have hsubtypes : ∀ {key : DescriptorKey} {descriptor : Descriptor}, catalog.Reads root key →
      Table.find? catalog key = some descriptor → descriptor.kind = .sealed →
      ∃ keys, catalog.subtypes? descriptor = some keys ∧ ∀ other ∈ keys, ∀ subtype,
        Table.find? catalog other = some subtype → subtype.IsNamed := by
    intro key descriptor read found kind
    have named : descriptor.IsNamed := ⟨by rw [kind]; rfl, by simp [kind], by simp [kind]⟩
    rcases h.exists_node read found named with ⟨node, hnode⟩
    exact hnode.subtypes kind
  rintro (⟨read, found, hmisfit⟩ | lists)
  · cases hmisfit with
    | short few =>
        rcases h.exists_ref read with ⟨nullable, ref, href⟩
        exact absurd few (Nat.not_lt_of_le (href.arity_le found))
    | unheld kind alone =>
        rcases hsubtypes read found kind with ⟨keys, held, -⟩
        cases alone.symm.trans held
  · rcases lists with ⟨key, descriptor, keys, other, subtype, read, found, kind, held, mem,
      hsubtype, unnamed⟩
    rcases hsubtypes read found kind with ⟨keys', held', hnamed⟩
    cases held.symm.trans held'
    exact unnamed (hnamed other mem subtype hsubtype)

end IsPlainGraph

/-! ## Whole introspections -/

/-- A catalog without loose ends whose circles have names fails for a fault of its descriptors
or for the settings. -/
theorem fault_of_introspect (closed : catalog.IsClosed root) (named : catalog.CirclesHaveNames)
    (h : (catalog.introspect settings root).graph = .error error) :
    catalog.Fault root error ∨ settings.Misnamed error := by
  have hends := (Session.isSound_introspect (meets_root named settings root)).ends
  rw [introspect, Session.introspect_graph_eq_error_iff] at h
  rcases h with ⟨after, hrun⟩
  let c : DescriptorIntrospection := ⟨catalog, settings, catalog.subtypeIds root⟩
  have hblames : c.IsBlaming root (c.reference c.budget) :=
    DescriptorIntrospection.isBlaming_reference rfl closed c.budget
  have hstart : DescriptorIntrospection.Shows catalog root { memory := () } := by
    constructor <;> simp
  rcases (hblames root false .root _ hstart).of_error hrun with rfl | hfault
  · exact absurd (Session.introspect_graph_eq_error_iff.mpr ⟨after, hrun⟩) hends
  · exact hfault

/-- How the introspection of a catalog fails that has no loose ends and whose circles have
names: for a fault of the descriptors that are read, or for settings that are no names.  With
names for settings it gives a graph or reports a descriptor, unless a sealed descriptor that
is read has a subtype without a node of its own; and where no two descriptors share an
identifier, it gives a graph exactly when there is no fault. -/
theorem introspect_faults (closed : catalog.IsClosed root) (named : catalog.CirclesHaveNames)
    (settings : IntrospectionSettings) :
    (∀ error, (catalog.introspect settings root).graph = .error error →
      catalog.Fault root error ∨ settings.Misnamed error) ∧
    (settings.HasNames → ¬ catalog.ListsInlined root →
      (∃ graph, (catalog.introspect settings root).graph = .ok graph) ∨
        ∃ fault id, (catalog.introspect settings root).graph =
          .error (.invalidGraph fault (some id))) ∧
    (settings.HasNames → catalog.IdentifiersApart root →
      ((∃ graph, (catalog.introspect settings root).graph = .ok graph) ↔
        ∀ error, ¬ catalog.Fault root error)) := by
  have hcases (names : settings.HasNames) :
      (∃ graph, (catalog.introspect settings root).graph = .ok graph) ∨
        ∃ error, (catalog.introspect settings root).graph = .error error ∧
          catalog.Fault root error := by
    rcases houtcome : (catalog.introspect settings root).graph with error | graph
    · have hfault := fault_of_introspect closed named houtcome
      exact Or.inr ⟨error, rfl, hfault.resolve_right (names.not_misnamed error)⟩
    · exact Or.inl ⟨graph, rfl⟩
  refine ⟨fun error => fault_of_introspect closed named, ?_, ?_⟩
  · intro names unlisted
    refine (hcases names).imp_right ?_
    rintro ⟨error, houtcome, ⟨-, -, hmisfit⟩ | lists⟩
    · cases hmisfit <;> exact ⟨_, _, houtcome⟩
    · exact absurd lists unlisted
  · intro names apart
    constructor
    · rintro ⟨graph, h⟩ error
      exact (isPlainGraph_of_introspect apart h).not_fault
    · intro sound
      refine (hcases names).resolve_right ?_
      rintro ⟨error, -, hfault⟩
      exact sound error hfault

end Catalog

/-- A sealed descriptor with one subtype, which may be a label or the text in it. -/
def labelledShape (label : DescriptorKey) : Catalog :=
  [("text", { serialName := "String", kind := .string }),
    ("Shape", { serialName := "Shape", kind := .sealed, elements :=
      [{ name := "type", descriptor := "text" }, { name := "value", descriptor := "Shapes" }] }),
    ("Shapes", { serialName := "Shapes", kind := .contextual, elements :=
      [{ name := "Label", descriptor := label }] }),
    ("Label", { serialName := "Label", kind := .record, elements :=
      [{ name := "content", descriptor := "text" }] })]

/-- The labelled shape has no loose ends, whichever subtype is chosen. -/
theorem labelledShape_isClosed {label : DescriptorKey} (mem : label ∈ ["text", "Label"]) :
    (labelledShape label).IsClosed "Shape" := by
  rw [List.mem_pair] at mem
  rcases mem with rfl | rfl <;> exact ⟨by decide, by decide⟩

/-- Only the list of subtypes points on without being a record, a singleton or sealed. -/
theorem labelledShape_skips {label key other : DescriptorKey}
    (h : (labelledShape label).Skips key other) : key = "Shapes" ∧ other = label := by
  rcases h with ⟨descriptor, found, record, singleton, held, element, mem, rfl⟩
  have hentry := Table.mem_of_find? found
  simp only [labelledShape, List.mem_cons, List.not_mem_nil, or_false, Prod.mk.injEq] at hentry
  rcases hentry with ⟨rfl, rfl⟩ | ⟨rfl, rfl⟩ | ⟨rfl, rfl⟩ | ⟨rfl, rfl⟩
  · simp at mem
  · exact absurd rfl held
  · simp_all
  · exact absurd rfl record

/-- The labelled shape has no circle without a name, unless the list is its own subtype. -/
theorem labelledShape_circlesHaveNames {label : DescriptorKey} (other : label ≠ "Shapes") :
    (labelledShape label).CirclesHaveNames := by
  intro key hcircle
  rcases Relation.TransGen.head'_iff.mp hcircle with ⟨middle, hfirst, hrest⟩
  rcases labelledShape_skips hfirst with ⟨rfl, rfl⟩
  rcases Relation.ReflTransGen.cases_head hrest with hsame | ⟨next, hnext, -⟩
  · exact other hsame
  · exact other (labelledShape_skips hnext).1

/-- The settings that nothing is set in are names. -/
theorem IntrospectionSettings.hasNames_default : ({} : IntrospectionSettings).HasNames :=
  ⟨by simp, by simp⟩

/-- A label can be a subtype: no descriptor is at fault, since there is a graph. -/
theorem labelledShape_faultless :
    (labelledShape "Label").IsClosed "Shape" ∧ (labelledShape "Label").CirclesHaveNames ∧
    (∃ graph, ((labelledShape "Label").introspect {} "Shape").graph = .ok graph) ∧
    ∀ error, ¬ (labelledShape "Label").Fault "Shape" error := by
  have hclosed : (labelledShape "Label").IsClosed "Shape" := labelledShape_isClosed (by decide)
  have hnamed : (labelledShape "Label").CirclesHaveNames :=
    labelledShape_circlesHaveNames (by decide)
  have hapart : (labelledShape "Label").IdentifiersApart "Shape" :=
    Catalog.identifiersApart_of_keys (by decide +kernel)
  have hgraph : ∃ graph, ((labelledShape "Label").introspect {} "Shape").graph = .ok graph :=
    ⟨_, rfl⟩
  refine ⟨hclosed, hnamed, hgraph, ?_⟩
  exact ((Catalog.introspect_faults hclosed hnamed {}).2.2
    IntrospectionSettings.hasNames_default hapart).mp hgraph

/-- A text cannot: the introspection fails for want of an identifier, and names no descriptor. -/
theorem labelledShape_unreported :
    (labelledShape "text").IsClosed "Shape" ∧ (labelledShape "text").CirclesHaveNames ∧
    ({} : IntrospectionSettings).HasNames ∧
    ((labelledShape "text").introspect {} "Shape").graph = .error .missingAttribute :=
  ⟨labelledShape_isClosed (by decide), labelledShape_circlesHaveNames (by decide),
    IntrospectionSettings.hasNames_default, rfl⟩

end Schemata
