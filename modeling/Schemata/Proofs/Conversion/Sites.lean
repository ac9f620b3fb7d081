import Schemata.Proofs.Conversion.Positions

/-!
# Sites for values

A graph has sites for values: the properties of its objects, and the contents of its lists and
maps.  A document has a fragment for each site that the root leads to.  The path to a fragment
in the document is one to its site in the graph, fragment by fragment and node by node.  An
object may have several properties of one name, of which the last is written, so the name in
the document tells the property.

Main results:

- Definition {lit}`TypeGraph.Emits`: the fragments of a document with their sites.
- Theorem {lit}`TypeGraph.Emits.shows`: the fragment of a site is the fragment of its
  reference, dressed for the site.
- Theorem {lit}`SchemaBody.Holds.exists_site`: each fragment for values has a site.
-/

namespace Schemata

/-- The property that is written under a name: of properties with one name the last counts. -/
def ObjectType.property? (type : ObjectType TypeRef) (name : String) : Option (Property TypeRef) :=
  (Table.ofEntries (type.properties.map fun property =>
    (property.name.memberName, property))).find? name

/-- A site for values: a property of an object, or the contents of a list or map. -/
inductive Site where
  | member (property : Property TypeRef)
  | contents (ref : TypeRef)

namespace Site

/-- The reference of a site. -/
def ref : Site → TypeRef
  | .member property => property.type
  | .contents ref => ref

/-- Whether no literal is the default of a site. -/
def isFree : Site → Bool
  | .member property => property.default.isNull
  | .contents _ => true

end Site

/-- A fragment in the position is for values of a site: no alternative and not shared. -/
def Position.isSite : Position → Bool
  | .property _ _ | .items | .values => true
  | .alternative | .shared _ => false

namespace TypeGraph

/-- A position in the fragment of a reference belongs to a site in the node of the
reference. -/
inductive Opens (graph : TypeGraph) : TypeRef → Position → Site → Prop
  | property {ref : TypeRef} {type : ObjectType TypeRef} {name : String}
      {property : Property TypeRef} {required : List Json}
      (node : graph.Leads ref (.object type)) (written : type.property? name = some property) :
      Opens graph ref (.property name required) (.member property)
  | items {ref element : TypeRef} {description : Option String}
      (node : graph.Leads ref (.list element description)) :
      Opens graph ref .items (.contents element)
  | values {ref key value : TypeRef} {description : Option String}
      (node : graph.Leads ref (.map key value description)) :
      Opens graph ref .values (.contents value)

/-- A document has the fragment in a position for a site of the graph: in the body for the
root, in a shared definition for the node of its name, and in the fragment of a site for the
reference of that site. -/
inductive Emits (graph : TypeGraph) (body : SchemaBody) : Position → Definition → Site → Prop
  | body {position : Position} {definition : Definition} {site : Site}
      (mem : (position, definition) ∈ body.parts) (opens : graph.Opens graph.root position site) :
      Emits graph body position definition site
  | shared {id : TypeId} {position : Position} {around definition : Definition} {site : Site}
      (shared : (.shared id, around) ∈ body.parts) (mem : (position, definition) ∈ around.parts)
      (opens : graph.Opens (.named id false) position site) :
      Emits graph body position definition site
  | within {outer position : Position} {around definition : Definition} {beyond site : Site}
      (emits : Emits graph body outer around beyond) (mem : (position, definition) ∈ around.parts)
      (opens : graph.Opens beyond.ref position site) :
      Emits graph body position definition site

variable {graph : TypeGraph} {ref : TypeRef} {position : Position} {site other : Site}

/-- A reference leads to one node at most. -/
theorem Leads.unique {node last : Node} (h : graph.Leads ref node) (hlast : graph.Leads ref last) :
    node = last :=
  Option.some.inj (h.nodeOf?.symm.trans hlast.nodeOf?)

/-- A position in the fragment of a reference belongs to one site. -/
theorem Opens.unique (h : graph.Opens ref position site) (hother : graph.Opens ref position other) :
    site = other := by
  cases h with
  | property node written =>
      cases hother with
      | property node' written' =>
          cases node.unique node'
          rw [Option.some.inj (written.symm.trans written')]
  | items node =>
      cases hother with
      | items node' =>
          cases node.unique node'
          rfl
  | values node =>
      cases hother with
      | values node' =>
          cases node.unique node'
          rfl

/-- A position that belongs to a site is one for its values. -/
theorem Opens.isSite (h : graph.Opens ref position site) : position.isSite = true := by
  cases h <;> rfl

end TypeGraph

namespace Conversion

variable (c : Conversion)

/-- What a conversion writes at a site: the fragment of the reference, dressed for the
site. -/
inductive Shows : Site → Definition → Prop
  | member {property : Property TypeRef} {required : Bool} {definition : Definition}
      (described : c.Describes property.type definition) :
      Shows (.member property) (c.dress property required definition)
  | contents {ref : TypeRef} {definition : Definition} (described : c.Describes ref definition) :
      Shows (.contents ref) definition.asUnion

/-- A document is put together by a conversion: its body from the fragment of the root. -/
structure Composes (body : SchemaBody) : Prop where
  type : body.type = "object"
  root : ∃ root, c.Describes c.graph.root root ∧ ∀ position definition,
    (position, definition) ∈ body.parts → position.isSite = true →
      (position, definition) ∈ root.parts
  outermost : ∀ part ∈ body.parts, c.Puts body part.1 part.2

variable {c} {ref : TypeRef} {definition inner : Definition} {position : Position} {site : Site}

/-! ## Sites in the fragment of a reference -/

/-- A fragment for a site has the parts of a fragment of its reference. -/
theorem Shows.exists_described (h : c.Shows site definition) :
    ∃ plain, c.Describes site.ref plain ∧ definition.parts = plain.parts := by
  cases h with
  | member described =>
      refine ⟨_, described, ?_⟩
      rw [← Definition.parts_outline, outline_dress, Definition.parts_outline]
  | contents described =>
      refine ⟨_, described, ?_⟩
      rw [← Definition.parts_outline, Definition.outline_asUnion, Definition.parts_outline]

/-- A member of an object is the fragment of the property that is written under its name. -/
theorem exists_property_of_mem {type : ObjectType TypeRef} {fragments : List Definition}
    (agree : type.NamesAgree) (length : fragments.length = type.properties.length) {name : String}
    (mem : (name, inner) ∈ c.memberTable type fragments) :
    ∃ part ∈ type.properties.zip fragments, type.property? name = some part.1 ∧
      inner = c.member type part := by
  let parts : Table String (Property TypeRef × Definition) :=
    Table.ofEntries ((type.properties.zip fragments).map fun part => (part.1.name.memberName, part))
  have hmembers : c.memberTable type fragments =
      parts.map fun entry => (entry.1, c.member type entry.2) := by
    rw [memberTable_of_agree agree, Table.map_ofEntries, List.map_map]
    rfl
  have hproperties : type.property? name =
      Table.find? (parts.map fun entry => (entry.1, entry.2.1)) name := by
    rw [Table.map_ofEntries, ObjectType.property?, List.map_map]
    conv => lhs; rw [← List.map_fst_zip (Nat.le_of_eq length.symm), List.map_map]
    rfl
  rw [hmembers] at mem
  rcases List.mem_map.mp mem with ⟨⟨key, part⟩, hpart, hentry⟩
  cases hentry
  refine ⟨part, ?_, ?_, rfl⟩
  · rcases List.mem_map.mp (Table.mem_ofEntries hpart) with ⟨written, hwritten, hsame⟩
    cases hsame
    exact hwritten
  · rw [hproperties, Table.find?_map, Table.mem_ofEntries_iff.mp hpart]
    rfl

/-- A fragment for values that is directly in the fragment of a reference is written there for
a site in the node of the reference. -/
theorem Describes.exists_site (h : c.Describes ref definition) (agree : c.graph.NamesAgree)
    (mem : (position, inner) ∈ definition.parts) (value : position.isSite = true) :
    ∃ site, c.graph.Opens ref position site ∧ c.Shows site inner := by
  have halternative {options : List Definition}
      (hmem : (position, inner) ∈ options.map fun fragment => (.alternative, fragment)) :
      position = .alternative := by
    rcases List.mem_map.mp hmem with ⟨option, -, hpart⟩
    cases hpart
    rfl
  cases h with
  | primitive | enumeration => cases mem
  | list node element =>
      cases List.mem_singleton.mp mem
      exact ⟨_, .items node, .contents element⟩
  | map node contents =>
      cases List.mem_singleton.mp mem
      exact ⟨_, .values node, .contents contents⟩
  | @object id nullable type fragments node length parts =>
      rw [← Definition.parts_outline, outline_markNullable, Definition.parts_outline,
        objectFragment, Definition.parts, List.append_nil] at mem
      rcases List.mem_map.mp mem with ⟨entry, hentry, hpart⟩
      cases hpart
      rcases exists_property_of_mem (agree id type node) length hentry with
        ⟨part, hpart, written, hinner⟩
      rw [hinner]
      exact ⟨_, .property (.named node) written, .member (parts part hpart)⟩
  | @choice id nullable type =>
      cases nullable <;> cases halternative mem <;> cases value
  | @root _ nullable | @shared _ nullable =>
      cases nullable
      · cases mem
      · cases halternative mem
        cases value

/-- A site of a reference has the fragment that is in its position. -/
theorem Describes.shows (h : c.Describes ref definition) (agree : c.graph.NamesAgree)
    (mem : (position, inner) ∈ definition.parts) (opens : c.graph.Opens ref position site) :
    c.Shows site inner := by
  rcases h.exists_site agree mem opens.isSite with ⟨found, hopens, hshows⟩
  rw [opens.unique hopens]
  exact hshows

/-- An alternative holds no fragments but alternatives. -/
theorem Stands.not_isSite {of : Option TypeRef} (h : c.Stands .alternative of definition)
    (mem : (position, inner) ∈ definition.parts) : position.isSite = false := by
  cases h with
  | pointer | null => cases mem
  | choice =>
      rcases List.mem_map.mp mem with ⟨option, -, hpart⟩
      cases hpart
      rfl

/-- A shared definition of a document is written out. -/
theorem Composes.written {body : SchemaBody} (composes : c.Composes body) {id : TypeId}
    (mem : (.shared id, definition) ∈ body.parts) : c.Written id definition := by
  rcases composes.outermost _ mem with ⟨target, hstands, -⟩
  cases hstands with
  | shared written => exact written

end Conversion

/-! ## Sites in a document -/

variable {c : Conversion} {body : SchemaBody} {position : Position} {definition : Definition}
variable {site : Site}

/-- The fragment of a site is that of its reference, dressed for the site. -/
theorem TypeGraph.Emits.shows (h : c.graph.Emits body position definition site)
    (composes : c.Composes body) (agree : c.graph.NamesAgree) : c.Shows site definition := by
  induction h with
  | body mem opens =>
      rcases composes.root with ⟨root, described, hparts⟩
      exact described.shows agree (hparts _ _ mem opens.isSite) opens
  | shared shared mem opens => exact (composes.written shared).describes.shows agree mem opens
  | within _ mem opens ih =>
      rcases ih.exists_described with ⟨plain, described, hparts⟩
      exact described.shows agree (hparts ▸ mem) opens

/-- What is directly in a fragment is not shared. -/
theorem Definition.not_shared_mem_parts {id : String} {inner : Definition} :
    (.shared id, inner) ∉ definition.parts := by
  cases definition with
  | value | reference => exact List.not_mem_nil
  | array _ items => cases items <;> simp [parts]
  | object _ _ _ additional => cases additional <;> simp [parts]
  | oneOf | anyOf | allOf => simp [parts]

/-- Each fragment for values in a document has a site in the graph. -/
theorem SchemaBody.Holds.exists_site (h : body.Holds position definition)
    (composes : c.Composes body) (agree : c.graph.NamesAgree) (value : position.isSite = true) :
    ∃ site, c.graph.Emits body position definition site := by
  induction h with
  | part mem =>
      rcases composes.root with ⟨root, described, hparts⟩
      rcases described.exists_site agree (hparts _ _ mem value) value with ⟨site, hopens, -⟩
      exact ⟨site, .body mem hopens⟩
  | @within around position outer inner holds mem ih =>
      have hsite (inside : around.isSite = true) : ∃ site,
          c.graph.Emits body position inner site := by
        rcases ih inside with ⟨beyond, hemits⟩
        rcases (hemits.shows composes agree).exists_described with ⟨plain, described, hparts⟩
        rcases described.exists_site agree (hparts ▸ mem) value with ⟨site, hopens, -⟩
        exact ⟨site, .within hemits mem hopens⟩
      cases around with
      | property | items | values => exact hsite rfl
      | alternative =>
          rcases holds.puts composes.outermost with ⟨target, hstands, -⟩
          rw [hstands.not_isSite mem] at value
          cases value
      | shared id =>
          cases holds with
          | part shared =>
              have described := (composes.written shared).describes
              rcases described.exists_site agree mem value with ⟨site, hopens, -⟩
              exact ⟨site, .shared shared mem hopens⟩
          | within _ hshared => exact absurd hshared Definition.not_shared_mem_parts

namespace TypeGraph

variable {graph : TypeGraph} {flags : Flags}

/-- A JSON Schema document is put together by its conversion. -/
theorem composes_toSchemaDocument {name : String} {document : SchemaDocument}
    (h : graph.toSchemaDocument flags name = .ok document) :
    Conversion.Composes ⟨graph, flags, .jsonSchema⟩ document.body := by
  have houtermost := puts_toSchemaDocument h
  rcases runs_of_toSchemaDocument h with ⟨root, state, hruns, rfl⟩
  refine ⟨?_, ⟨root, hruns.describes_first.2, ?_⟩, houtermost⟩
  · dsimp only
    unfold schemaBody
    split <;> rfl
  · intro position definition mem value
    rcases mem_parts_schemaBody mem with hroot | ⟨entry, -, hpart⟩
    · exact hroot
    · cases hpart
      cases value

/-- A tool schema is put together by its conversion. -/
theorem composes_toToolDocument {document : ToolDocument}
    (h : graph.toToolDocument flags = .ok document) :
    Conversion.Composes ⟨graph, flags, .tool⟩ document.parameters := by
  have houtermost := puts_toToolDocument h
  rcases runs_of_toToolDocument h with ⟨id, type, fragments, state, root, node, hruns, rfl⟩
  rcases TypeRef.id?_eq_some_iff.mp root with ⟨nullable, href⟩
  rcases hruns.describes_first.2 with ⟨length, parts⟩
  have described : Conversion.Describes ⟨graph, flags, .tool⟩ graph.root _ :=
    href ▸ Conversion.Describes.object node length parts
  refine ⟨rfl, ⟨_, described, ?_⟩, houtermost⟩
  intro position definition mem value
  rw [← Definition.parts_outline, Conversion.outline_markNullable, Definition.parts_outline,
    Conversion.objectFragment, Definition.parts, List.append_nil]
  rw [SchemaBody.parts, getD_nonEmpty?, Option.getD_none, List.map_nil, List.append_nil,
    List.mem_append] at mem
  rcases mem with hroot | hshared
  · exact hroot
  · rcases List.mem_map.mp hshared with ⟨entry, -, hpart⟩
    cases hpart
    cases value

end TypeGraph

end Schemata
