import Schemata.Proofs.Descriptor.Plain

/-!
# Sessions give the plain graph

A session reads a descriptor once.  It keeps the reference for later uses with other
nullabilities, and it reserves the slot of a node before it reads what the node refers to, so
a descriptor that is met inside itself is known already.  None of this shows in the graph.
The slots follow a depth-first walk: a slot is reserved when the walk first comes to its
descriptor, and what is kept for a descriptor is the plain reference to it, with everything
that the walk would find there behind it.

Main results:

- Definition {lit}`Catalog.Settled`: a walk has been through a key and all that it leads to.
- Definition {lit}`DescriptorIntrospection.Follows`: the invariant of a session.
- Theorem {lit}`DescriptorIntrospection.isPlain_reference`: the reading of a descriptor gives
  the plain reference and follows the walk.
- Theorem {lit}`Catalog.introspect_isPlainGraph`: the graph of a root descriptor is the plain
  one.
-/

namespace Schemata

namespace Catalog

variable {catalog : Catalog} {root key : DescriptorKey} {descriptor : Descriptor}
variable {keys more : List DescriptorKey} {seen middle after : List Entry}

/-! ## Walks that have been made -/

/-- No two descriptors with nodes share an identifier. -/
def IdentifiersApart (catalog : Catalog) (root : DescriptorKey) : Prop :=
  ∀ first second, catalog.HasNode root first → catalog.HasNode root second →
    catalog.typeId root first = catalog.typeId root second → first = second

/-- Identifiers are apart when the descriptors of different keys have different ones. -/
theorem identifiersApart_of_keys (keys : ∀ first ∈ catalog, ∀ second ∈ catalog,
    catalog.typeId root first = catalog.typeId root second → first.1 = second.1) :
    catalog.IdentifiersApart root := by
  intro first second hfirst hsecond same
  have hkey := keys _ (Table.mem_of_find? hfirst.found) _ (Table.mem_of_find? hsecond.found) same
  refine Prod.ext hkey (Option.some.inj ?_)
  rw [← hfirst.found, ← hsecond.found, hkey]

/-- A walk that has come to the given descriptors finds no other ones at a key. -/
inductive Settled (catalog : Catalog) (seen : List Entry) : DescriptorKey → Prop
  | named {key : DescriptorKey} {descriptor : Descriptor}
      (found : Table.find? catalog key = some descriptor) (named : descriptor.IsNamed)
      (known : (key, descriptor) ∈ seen) : Settled catalog seen key
  | through {key : DescriptorKey} {descriptor : Descriptor}
      (found : Table.find? catalog key = some descriptor) (unnamed : ¬ descriptor.IsNamed)
      (parts : ∀ other ∈ catalog.parts descriptor, Settled catalog seen other) :
      Settled catalog seen key

theorem Settled.mono (h : catalog.Settled seen key) (grows : seen ⊆ after) :
    catalog.Settled after key := by
  induction h with
  | named found named known => exact .named found named (grows known)
  | through found unnamed _ ih => exact .through found unnamed ih

/-- A walk only adds descriptors. -/
theorem Preorder.subset (h : catalog.Preorder keys seen after) : seen ⊆ after := by
  induction h with
  | done => exact List.Subset.refl _
  | again _ _ _ _ ih => exact ih
  | first _ _ _ _ _ ihinside ihtail =>
      exact fun entry mem => ihtail (ihinside (List.mem_append_left _ mem))
  | through _ _ _ _ ihinside ihtail => exact fun entry mem => ihtail (ihinside mem)

/-- Two walks one after the other are one walk. -/
theorem Preorder.append (h : catalog.Preorder keys seen middle)
    (h' : catalog.Preorder more middle after) : catalog.Preorder (keys ++ more) seen after := by
  induction h with
  | done => exact h'
  | again found named known _ ih => exact .again found named known (ih h')
  | first found named new inside _ _ ih => exact .first found named new inside (ih h')
  | through found unnamed inside _ _ ih => exact .through found unnamed inside (ih h')

/-- After a walk its keys are settled. -/
theorem Preorder.settled (h : catalog.Preorder keys seen after) :
    ∀ key ∈ keys, catalog.Settled after key := by
  induction h with
  | done => exact fun key mem => absurd mem List.not_mem_nil
  | again found named known tail ih =>
      rw [List.forall_mem_cons]
      exact ⟨.named found named (tail.subset known), ih⟩
  | first found named _ inside tail _ ih =>
      rw [List.forall_mem_cons]
      have hknown := inside.subset (List.mem_append_right _ (List.mem_singleton.mpr rfl))
      exact ⟨.named found named (tail.subset hknown), ih⟩
  | through found unnamed _ tail ihinside ih =>
      rw [List.forall_mem_cons]
      exact ⟨.through found unnamed fun other mem => (ihinside other mem).mono tail.subset, ih⟩

/-- A walk from a settled key adds nothing. -/
theorem Settled.preorder (h : catalog.Settled seen key) : catalog.Preorder [key] seen seen := by
  have hall : ∀ keys : List DescriptorKey, (∀ key ∈ keys, catalog.Preorder [key] seen seen) →
      catalog.Preorder keys seen seen := by
    intro keys hkeys
    induction keys with
    | nil => exact .done
    | cons key rest ih =>
        rw [List.forall_mem_cons] at hkeys
        exact hkeys.1.append (ih hkeys.2)
  induction h with
  | named found named known => exact .again found named known .done
  | through found unnamed _ ih => exact .through found unnamed (hall _ ih) .done

end Catalog

namespace DescriptorIntrospection

open Catalog (Entry Preorder Settled)

section Definitions

variable (catalog : Catalog) (root : DescriptorKey) (settings : IntrospectionSettings)

/-- A session has come to the given descriptors: they have its slots in their order, the
nodes in the slots are theirs, and each reference that it keeps is the plain one to a settled
descriptor. -/
structure Follows (seen : List Entry) (session : Session DescriptorKey Unit) : Prop where
  slots : session.slots.keys = seen.map (catalog.typeId root)
  visiting : ∀ id ∈ session.visiting, id ∈ session.slots.keys
  known : ∀ entry ∈ seen, catalog.HasNode root entry
  filled : ∀ entry ∈ seen, ∀ node, (catalog.typeId root entry, some node) ∈ session.slots →
    catalog.PlainNode root settings entry.2 node
  refs : ∀ entry ∈ session.refs,
    catalog.PlainRef root entry.1 false entry.2 ∧ catalog.Settled seen entry.1

/-- A step that succeeds follows a walk from the given keys, with a certain result. -/
def Goes {α : Type} (seen : List Entry) (step : Step α) (keys : List DescriptorKey)
    (success : α → Prop) : Prop :=
  ∀ session, Follows catalog root settings seen session →
    step.Meets session (fun result after => ∃ later, catalog.Preorder keys seen later ∧
      Follows catalog root settings later after ∧ success result) fun _ _ => True

/-- Whatever a session has come to, what is read of a descriptor is the plain reference. -/
def IsPlain (below : Below) : Prop :=
  ∀ key nullable seen, catalog.Reads root key →
    Goes catalog root settings seen (below key nullable) [key] (catalog.PlainRef root key nullable)

end Definitions

variable {α β : Type} {catalog : Catalog} {root key : DescriptorKey}
variable {settings : IntrospectionSettings} {seen : List Entry} {keys more : List DescriptorKey}
variable {session : Session DescriptorKey Unit} {entry : Entry} {descriptor : Descriptor}

/-! ## Steps -/

theorem goes_pure {result : α} {success : α → Prop} (h : success result) :
    Goes catalog root settings seen (pure result) [] success :=
  fun _ hfollows => ⟨seen, .done, hfollows, h⟩

theorem goes_fail (error : Error) (keys : List DescriptorKey) (success : α → Prop) :
    Goes catalog root settings seen (Attempt.fail error) keys success :=
  fun _ _ => trivial

/-- One step after another follows the walk from the keys of both. -/
theorem Goes.bind {first : Step α} {next : α → Step β} {between : α → Prop} {success : β → Prop}
    (h : Goes catalog root settings seen first keys between)
    (hnext : ∀ result later, catalog.Preorder keys seen later → between result →
      Goes catalog root settings later (next result) more success) :
    Goes catalog root settings seen (first >>= next) (keys ++ more) success := by
  intro session hfollows
  refine (h session hfollows).bind ?_
  rintro result middle ⟨later, hwalk, hmiddle, hresult⟩
  refine (hnext result later hwalk hresult middle hmiddle).imp ?_
  rintro result after ⟨last, hrest, hafter, hsuccess⟩
  exact ⟨last, hwalk.append hrest, hafter, hsuccess⟩

/-- What comes first may go on to nothing. -/
theorem Goes.preceded {first : Step α} {next : α → Step β} {between : α → Prop}
    {success : β → Prop} (h : Goes catalog root settings seen first [] between)
    (hnext : ∀ result later, between result →
      Goes catalog root settings later (next result) keys success) :
    Goes catalog root settings seen (first >>= next) keys success :=
  Goes.bind h fun result later _ hresult => hnext result later hresult

/-- What comes last may go on to nothing. -/
theorem Goes.followed {first : Step α} {next : α → Step β} {between : α → Prop}
    {success : β → Prop} (h : Goes catalog root settings seen first keys between)
    (hnext : ∀ result later, catalog.Preorder keys seen later → between result →
      Goes catalog root settings later (next result) [] success) :
    Goes catalog root settings seen (first >>= next) keys success := by
  rw [← List.append_nil keys]
  exact h.bind hnext

/-- Steps over a list follow the walk from their keys, in order. -/
theorem Goes.mapEach {items : List α} {step : α → Step β} {place : α → DescriptorKey}
    {related : α → β → Prop}
    (h : ∀ item ∈ items, ∀ seen, Goes catalog root settings seen (step item) [place item]
      (related item)) (seen : List Entry) :
    Goes catalog root settings seen (Attempt.mapEach items step) (items.map place)
      (List.Forall₂ related items) := by
  induction items generalizing seen with
  | nil => exact goes_pure .nil
  | cons item items ih =>
      rw [List.forall_mem_cons] at h
      rw [Attempt.mapEach, Attempt.bind_eq]
      refine (h.1 seen).bind fun result middle _ hresult => ?_
      rw [Attempt.bind_eq]
      exact (ih h.2 middle).followed fun results later _ hresults =>
        goes_pure (.cons hresult hresults)

/-- A descriptor without a node leads to what it goes on to. -/
theorem Goes.through {step : Step α} {success : α → Prop}
    (h : Goes catalog root settings seen step (catalog.parts descriptor) success)
    (found : Table.find? catalog key = some descriptor) (unnamed : ¬ descriptor.IsNamed) :
    Goes catalog root settings seen step [key] success := by
  intro session hfollows
  refine (h session hfollows).imp ?_
  rintro result after ⟨later, hwalk, hafter, hresult⟩
  exact ⟨later, .through found unnamed hwalk .done, hafter, hresult⟩

theorem goes_ofExcept (outcome : Except Error α) :
    Goes catalog root settings seen (Attempt.ofExcept outcome) [] (outcome = .ok ·) :=
  fun _ hfollows => Attempt.meets_ofExcept.mpr
    ⟨fun _ hresult => ⟨seen, .done, hfollows, hresult⟩, fun _ _ => trivial⟩

theorem goes_report (line : String) :
    Goes catalog root settings seen (Session.report line) [] fun _ => True :=
  fun _ hfollows => ⟨seen, .done, { hfollows with }, trivial⟩

/-- The element at an index is the one there. -/
theorem goes_elementAt (index : Nat) :
    Goes catalog root settings seen (elementAt descriptor index) []
      (descriptor.elements[index]? = some ·) := by
  rw [elementAt]
  split
  · exact goes_pure ‹_›
  · exact goes_fail _ _ _

/-- The plain reference to a settled descriptor can be remembered. -/
theorem goes_remembering {ref : TypeRef} {nullable : Bool}
    (h : catalog.PlainRef root key nullable ref) (settled : catalog.Settled seen key) :
    Goes catalog root settings seen (Session.remembering key ref) []
      (catalog.PlainRef root key nullable) := by
  intro session hfollows
  refine ⟨seen, .done, { hfollows with refs := ?_ }, h⟩
  intro entry mem
  rcases Table.mem_put mem with hnew | hold
  · rw [hnew]
    exact ⟨h.withNullable false, settled⟩
  · exact hfollows.refs entry hold

/-! ## Nodes -/

variable {c : DescriptorIntrospection} {below : Below}

/-- A builder gives the plain node of a descriptor and follows what the descriptor goes on
to. -/
def Builds (c : DescriptorIntrospection) (root : DescriptorKey) (seen : List Entry)
    (descriptor : Descriptor) (builder : Step (Option Node)) : Prop :=
  Goes c.catalog root c.settings seen builder (c.catalog.parts descriptor) fun built =>
    ∃ node, built = some node ∧ c.catalog.PlainNode root c.settings descriptor node

/-- The builder for an enumeration gives its plain node and goes on to nothing. -/
theorem builds_enumNode (kind : descriptor.kind = .enumeration) :
    Builds c root seen descriptor (c.enumNode descriptor) := by
  rw [Builds, enumNode, Catalog.parts, kind]
  exact (goes_ofExcept _).followed fun description _ _ described =>
    goes_pure ⟨_, rfl, .enumeration kind described⟩

/-- The empty object is the plain node of what is unbounded or contextual. -/
theorem builds_emptyNode (kind : descriptor.kind = .unbounded ∨ descriptor.kind = .contextual) :
    Builds c root seen descriptor (c.emptyNode descriptor) := by
  have hparts : c.catalog.parts descriptor = [] := by
    rcases kind with kind | kind <;> rw [Catalog.parts, kind]
  rw [Builds, emptyNode, hparts]
  exact (goes_ofExcept _).followed fun description _ _ described =>
    goes_pure ⟨_, rfl, .empty kind described⟩

/-- An element is read into its plain property. -/
theorem goes_property (hbelow : IsPlain c.catalog root c.settings below) {element : Element}
    (read : c.catalog.Reads root element.descriptor) (seen : List Entry) :
    Goes c.catalog root c.settings seen (c.property below element) [element.descriptor]
      (c.catalog.PlainProperty root c.settings element) := by
  rw [property]
  refine (hbelow _ _ seen read).followed fun type later _ htype => ?_
  exact (goes_ofExcept _).followed fun description _ _ described =>
    goes_pure ⟨htype, described, rfl⟩

/-- The builder for records and singletons gives the plain node. -/
theorem builds_objectNode (hbelow : IsPlain c.catalog root c.settings below)
    (kind : descriptor.kind = .record ∨ descriptor.kind = .singleton)
    (reads : ∀ other ∈ c.catalog.parts descriptor, c.catalog.Reads root other) :
    Builds c root seen descriptor (c.objectNode below descriptor) := by
  have hparts : c.catalog.parts descriptor = descriptor.elements.map (·.descriptor) := by
    rcases kind with kind | kind <;> rw [Catalog.parts, kind]
  have hread : ∀ element ∈ descriptor.elements, c.catalog.Reads root element.descriptor :=
    fun element mem => reads _ (hparts ▸ List.mem_map_of_mem mem)
  rw [Builds, objectNode, hparts]
  refine (Goes.mapEach (fun element mem => goes_property hbelow (hread element mem)) seen).followed
    fun properties later _ hproperties => ?_
  exact (goes_ofExcept _).followed fun description _ _ described =>
    goes_pure ⟨_, rfl, .object kind hproperties described⟩

/-- A key is read into its plain subtype. -/
theorem goes_subtype (hbelow : IsPlain c.catalog root c.settings below)
    (read : c.catalog.Reads root key) (seen : List Entry) :
    Goes c.catalog root c.settings seen (c.subtype below key) [key]
      (c.catalog.PlainSubtype root key) := by
  rw [subtype]
  refine (hbelow key false seen read).followed fun ref later _ href => ?_
  split
  · rename_i id descriptor named found
    cases ref with
    | inline node nullable => cases named
    | named other nullable =>
        cases named
        refine goes_pure ⟨?_, href.withNullable false⟩
        rw [found]
        rfl
  · exact goes_fail _ _ _

/-- The builder for a sealed descriptor gives the plain node. -/
theorem builds_polymorphicNode (hbelow : IsPlain c.catalog root c.settings below)
    (kind : descriptor.kind = .sealed)
    (reads : ∀ other ∈ c.catalog.parts descriptor, c.catalog.Reads root other) :
    Builds c root seen descriptor (c.polymorphicNode below descriptor) := by
  rw [Builds, polymorphicNode]
  split
  · exact goes_fail _ _ _
  · rename_i keys held
    have hparts : c.catalog.parts descriptor = keys := by
      rw [Catalog.parts, kind, held]
      rfl
    rw [hparts] at reads ⊢
    have hgoes := Goes.mapEach (fun key mem => goes_subtype hbelow (reads key mem)) seen
    rw [List.map_id'] at hgoes
    refine hgoes.followed fun subtypes later _ hsubtypes => ?_
    exact (goes_ofExcept _).followed fun description _ _ described =>
      goes_pure ⟨_, rfl, .polymorphic kind held hsubtypes described⟩

/-! ## Slots -/

/-- A session that reserves the slot of a descriptor has come to it. -/
theorem Follows.reserve (h : Follows catalog root settings seen session)
    (node : catalog.HasNode root entry)
    (new : catalog.typeId root entry ∉ session.slots.keys) :
    Follows catalog root settings (seen ++ [entry])
      (session.reserve (catalog.typeId root entry)) := by
  have hkeys : (session.reserve (catalog.typeId root entry)).slots.keys =
      session.slots.keys ++ [catalog.typeId root entry] := by
    rw [Session.reserve, Table.keys_put, if_neg new]
  constructor
  · rw [hkeys, h.slots, List.map_append, List.map_singleton]
  · intro id mem
    rw [Session.mem_keys_reserve]
    exact (List.mem_cons.mp mem).imp_right (h.visiting id)
  · rw [List.forall_mem_append, List.forall_mem_singleton]
    exact ⟨h.known, node⟩
  · intro other hother drawn mem
    rcases Table.mem_put mem with hnew | hold
    · cases congrArg Prod.snd hnew
    · rcases List.mem_append.mp hother with hother | hother
      · exact h.filled other hother drawn hold
      · cases List.mem_singleton.mp hother
        exact absurd (List.mem_map_of_mem hold) new
  · exact fun other mem => (h.refs other mem).imp_right fun settled =>
      settled.mono (List.subset_append_left _ _)

/-- A session that fills the slot of a descriptor with its plain node has come to what it had
come to. -/
theorem Follows.close (h : Follows catalog root settings seen session)
    (apart : catalog.IdentifiersApart root) (mem : entry ∈ seen) {node : Node}
    (plain : catalog.PlainNode root settings entry.2 node) :
    Follows catalog root settings seen (session.close (catalog.typeId root entry) node) := by
  have hkeys : (session.close (catalog.typeId root entry) node).slots.keys = session.slots.keys :=
    Session.keys_close (h.slots ▸ List.mem_map_of_mem mem)
  constructor
  · rw [hkeys, h.slots]
  · intro id hid
    rw [hkeys]
    exact h.visiting id (List.mem_filter.mp hid).1
  · exact h.known
  · intro other hother drawn hslot
    rcases Table.mem_put hslot with hnew | hold
    · have hsame := congrArg Prod.fst hnew
      have hdrawn := congrArg Prod.snd hnew
      cases apart _ _ (h.known other hother) (h.known entry mem) hsame
      cases hdrawn
      exact plain
    · exact h.filled other hother drawn hold
  · exact h.refs

/-- A slot is filled with the plain node of its descriptor, and the walk comes to that
descriptor first. -/
theorem goes_register {builder : Step (Option Node)} (apart : c.catalog.IdentifiersApart root)
    (node : c.catalog.HasNode root (key, descriptor))
    (h : ∀ seen, Builds c root seen descriptor builder) :
    Goes c.catalog root c.settings seen
      (Session.register (c.catalog.typeId root (key, descriptor)) builder) [key] fun _ => True := by
  intro session hfollows
  have hmem : (key, descriptor) ∈ seen →
      c.catalog.typeId root (key, descriptor) ∈ session.slots.keys :=
    fun mem => hfollows.slots ▸ List.mem_map_of_mem mem
  refine Session.meets_register_of_visiting hfollows.visiting (fun known => ?_) fun unknown => ?_
  · rw [hfollows.slots] at known
    rcases List.mem_map.mp known with ⟨other, hother, hsame⟩
    cases apart _ _ (hfollows.known other hother) node hsame
    exact ⟨seen, .again node.found node.named hother .done, hfollows, trivial⟩
  · refine (h (seen ++ [(key, descriptor)]) _ (hfollows.reserve node unknown)).imp ?_
    rintro _ after ⟨later, hwalk, hafter, drawn, rfl, plain⟩
    have hlater : (key, descriptor) ∈ later :=
      hwalk.subset (List.mem_append_right _ (List.mem_singleton.mpr rfl))
    exact ⟨later, .first node.found node.named (fun mem => unknown (hmem mem)) hwalk .done,
      hafter.close apart hlater plain, trivial⟩

/-- A named reference is the plain one, and a node that it adds stands before what it goes on to.
-/
theorem goes_refer {builder : Step (Option Node)} (apart : c.catalog.IdentifiersApart root)
    (node : c.catalog.HasNode root (key, descriptor))
    (h : ∀ seen, Builds c root seen descriptor builder) (nullable : Bool) :
    Goes c.catalog root c.settings seen
      (Session.refer key (c.catalog.typeId root (key, descriptor)) nullable builder) [key]
      (c.catalog.PlainRef root key nullable) := by
  rw [Session.refer, Attempt.bind_eq]
  exact (goes_register apart node h).followed fun _ later hwalk _ =>
    goes_remembering (.named node.found node.named) (hwalk.settled key (List.mem_singleton.mpr rfl))

/-! ## References -/

/-- The cases are the kinds of descriptors: scalars, containers and named nodes. -/
theorem goes_fresh (hbelow : IsPlain c.catalog root c.settings below)
    (ids : c.subtypeIds = c.catalog.subtypeIds root) (apart : c.catalog.IdentifiersApart root)
    (read : c.catalog.Reads root key) (found : Table.find? c.catalog key = some descriptor)
    (nullable : Bool) :
    Goes c.catalog root c.settings seen (c.fresh below key descriptor nullable) [key]
      (c.catalog.PlainRef root key nullable) := by
  have hopen : ∀ other ∈ c.catalog.parts descriptor, c.catalog.Reads root other :=
    fun other mem => read.part found mem
  have hid : c.typeId key descriptor = c.catalog.typeId root (key, descriptor) := by
    rw [typeId, ids, Catalog.typeId]
  have hrefer : ∀ {seen} builder, descriptor.IsNamed →
      (∀ seen, Builds c root seen descriptor builder) →
      Goes c.catalog root c.settings seen
        (Session.refer key (c.typeId key descriptor) nullable builder) [key]
        (c.catalog.PlainRef root key nullable) := by
    intro seen builder named h
    rw [hid]
    exact goes_refer apart ⟨read, found, named⟩ h nullable
  rw [fresh]
  split
  · rename_i scalar
    have unnamed := Catalog.not_isNamed_of_primitive scalar
    have hparts : c.catalog.parts descriptor = [] := Catalog.parts_of_primitive scalar
    refine Goes.through ?_ found unnamed
    rw [hparts]
    exact goes_remembering (.primitive found scalar) (.through found unnamed (by simp [hparts]))
  · rename_i scalar
    have hnamed : descriptor.kind ≠ .list → descriptor.kind ≠ .map → descriptor.IsNamed :=
      fun list map => ⟨scalar, list, map⟩
    split
    · rename_i kind
      exact hrefer _ (hnamed (by simp [kind]) (by simp [kind])) fun _ => builds_enumNode kind
    · rename_i kind
      exact hrefer _ (hnamed (by simp [kind]) (by simp [kind])) fun _ =>
        builds_objectNode hbelow (Or.inl kind) hopen
    · rename_i kind
      exact hrefer _ (hnamed (by simp [kind]) (by simp [kind])) fun _ =>
        builds_objectNode hbelow (Or.inr kind) hopen
    · rename_i kind
      have unnamed := Catalog.not_isNamed_of_list kind
      refine (goes_elementAt 0).preceded fun element seen helement => ?_
      have hparts : c.catalog.parts descriptor = [element.descriptor] := by
        simp [Catalog.parts, kind, List.take_add_one, helement]
      rw [hparts] at hopen
      refine Goes.through ?_ found unnamed
      rw [hparts]
      refine (hbelow _ _ seen (hopen _ (by simp))).followed fun ref later hwalk href => ?_
      exact goes_remembering (.list found kind helement href)
        (.through found unnamed (hparts ▸ hwalk.settled))
    · rename_i kind
      have unnamed := Catalog.not_isNamed_of_map kind
      refine (goes_elementAt 0).preceded fun first seen hfirst => ?_
      refine (goes_elementAt 1).preceded fun second seen hsecond => ?_
      have hparts : c.catalog.parts descriptor = [first.descriptor] ++ [second.descriptor] := by
        simp [Catalog.parts, kind, List.take_add_one, hfirst, hsecond]
      rw [hparts] at hopen
      refine Goes.through ?_ found unnamed
      rw [hparts]
      refine (hbelow _ _ seen (hopen _ (by simp))).bind fun keys middle hwalk hkeys => ?_
      refine (hbelow _ _ middle (hopen _ (by simp))).followed fun values later hrest hvalues => ?_
      exact goes_remembering (.map found kind hfirst hsecond hkeys hvalues)
        (.through found unnamed (hparts ▸ (hwalk.append hrest).settled))
    · rename_i kind
      exact hrefer _ (hnamed (by simp [kind]) (by simp [kind])) fun _ =>
        builds_polymorphicNode hbelow kind hopen
    · rename_i enumeration record singleton list map sealed
      have kind : descriptor.kind = .unbounded ∨ descriptor.kind = .contextual := by
        cases hkind : descriptor.kind <;> simp_all [DescriptorKind.primitive?]
      exact (goes_report _).preceded fun _ _ _ =>
        hrefer _ (hnamed list map) fun _ => builds_emptyNode kind

/-- One layer gives the plain reference and follows the walk when the layers below do. -/
theorem isPlain_layer (hbelow : IsPlain c.catalog root c.settings below)
    (ids : c.subtypeIds = c.catalog.subtypeIds root) (apart : c.catalog.IdentifiersApart root) :
    IsPlain c.catalog root c.settings (c.layer below) := by
  intro key nullable seen read session hfollows
  rw [layer, Attempt.meets_bind, Attempt.meets_get]
  split
  · rename_i ref cached
    rw [Session.cached?, Option.map_eq_some_iff] at cached
    rcases cached with ⟨kept, hkept, rfl⟩
    rcases hfollows.refs _ (Table.mem_of_find? hkept) with ⟨href, settled⟩
    exact ⟨seen, settled.preorder, hfollows, href.withNullable nullable⟩
  · split
    · rename_i descriptor found
      exact goes_fresh hbelow ids apart read found nullable session hfollows
    · trivial

/-- With any budget, the reading of a descriptor gives the plain reference and follows the
walk. -/
theorem isPlain_reference (ids : c.subtypeIds = c.catalog.subtypeIds root)
    (apart : c.catalog.IdentifiersApart root) (budget : Nat) :
    IsPlain c.catalog root c.settings (c.reference budget) := by
  induction budget with
  | zero => exact fun _ _ _ _ _ _ => trivial
  | succ budget ih => exact isPlain_layer ih ids apart

/-- When every slot is filled, the table has the plain nodes of the descriptors that a session
has come to, in their order. -/
theorem Follows.forall₂_nodes (h : Follows catalog root settings seen session)
    (filled : session.nodes.keys = session.slots.keys) :
    List.Forall₂ (fun entry slot => slot.1 = catalog.typeId root entry ∧
      catalog.PlainNode root settings entry.2 slot.2) seen session.nodes := by
  have hids : List.Forall₂ (fun entry slot => slot.1 = catalog.typeId root entry) seen
      session.nodes := by
    have hkeys : List.Forall₂ Eq (session.nodes.map Prod.fst) (seen.map (catalog.typeId root)) := by
      rw [List.forall₂_eq_eq_eq]
      exact filled.trans h.slots
    rw [List.forall₂_map_left_iff, List.forall₂_map_right_iff] at hkeys
    exact hkeys.flip
  rw [List.forall₂_iff_zip] at hids ⊢
  refine ⟨hids.1, fun {entry slot} mem => ⟨hids.2 mem, ?_⟩⟩
  have hmem := List.of_mem_zip mem
  have hslot : (catalog.typeId root entry, slot.2) ∈ session.nodes := by
    rw [← hids.2 mem]
    exact hmem.2
  exact h.filled entry hmem.1 slot.2 (Session.mem_nodes.mp hslot)

end DescriptorIntrospection

/-- The graph of a root descriptor is plain when no two descriptors with nodes share an
identifier. -/
theorem Catalog.isPlainGraph_of_introspect {catalog : Catalog} {settings : IntrospectionSettings}
    {root : DescriptorKey} {graph : TypeGraph} (apart : catalog.IdentifiersApart root)
    (h : (catalog.introspect settings root).graph = .ok graph) :
    catalog.IsPlainGraph root settings graph := by
  rw [introspect, Session.introspect_graph_eq_ok_iff] at h
  rcases h with ⟨ref, after, hrun, rfl⟩
  let c : DescriptorIntrospection := ⟨catalog, settings, catalog.subtypeIds root⟩
  have hstart : DescriptorIntrospection.Follows catalog root settings [] { memory := () } := by
    constructor <;> simp [Table.keys]
  have hreads : ({ memory := () } : Session DescriptorKey Unit).Reads True [ref] after :=
    (DescriptorIntrospection.isThorough_reference (c := c) c.budget root false _ _ (.refl _)
      (Session.isSound_start ())).of_ok hrun
  have hplain := DescriptorIntrospection.isPlain_reference (c := c) rfl apart c.budget
  rcases (hplain root false [] .root _ hstart).of_ok hrun with ⟨order, hwalk, hfollows, href⟩
  exact ⟨href, order, hwalk, hfollows.forall₂_nodes hreads.keys_nodes⟩

/-- The graph of a root descriptor is the plain graph, and there is no other one, when no two
descriptors with nodes share an identifier. -/
theorem Catalog.introspect_isPlainGraph {catalog : Catalog} {settings : IntrospectionSettings}
    {root : DescriptorKey} {graph : TypeGraph} (apart : catalog.IdentifiersApart root)
    (h : (catalog.introspect settings root).graph = .ok graph) :
    catalog.IsPlainGraph root settings graph ∧
      ∀ other, catalog.IsPlainGraph root settings other → other = graph := by
  have hgraph := isPlainGraph_of_introspect apart h
  exact ⟨hgraph, fun other hother => hother.unique hgraph⟩

/-- A tree that refers to itself and to one list of trees twice, and to an enumeration first
where it may be null. -/
def treeCatalog : Catalog :=
  [("text", { serialName := "String", kind := .string }),
    ("Tree", { serialName := "app.Tree", kind := .record, elements :=
      [{ name := "parent", descriptor := "Tree", nullable := true },
        { name := "label", descriptor := "text" },
        { name := "wood", descriptor := "Wood", nullable := true, isOptional := true },
        { name := "children", descriptor := "trees" },
        { name := "others", descriptor := "trees", nullable := true },
        { name := "bark", descriptor := "Wood" }] }),
    ("trees", { serialName := "List", kind := .list, elements :=
      [{ name := "0", descriptor := "Tree" }] }),
    ("Wood", { serialName := "app.Wood", kind := .enumeration, elements :=
      [{ name := "OAK", descriptor := "text" }] })]

/-- The graph of the tree is its plain graph. -/
theorem treeCatalog_isPlainGraph : treeCatalog.IdentifiersApart "Tree" ∧ ∃ graph,
    (treeCatalog.introspect {} "Tree").graph = .ok graph ∧
    graph.nodes.keys = ["app.Tree", "app.Wood"] ∧
    treeCatalog.IsPlainGraph "Tree" {} graph ∧
    ∀ other, treeCatalog.IsPlainGraph "Tree" {} other → other = graph := by
  have hapart : treeCatalog.IdentifiersApart "Tree" :=
    Catalog.identifiersApart_of_keys (by decide +kernel)
  have hgraph : (treeCatalog.introspect {} "Tree").graph = .ok _ := rfl
  exact ⟨hapart, _, hgraph, rfl, Catalog.introspect_isPlainGraph hapart hgraph⟩

end Schemata
