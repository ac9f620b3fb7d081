import Schemata.Proofs.Conversion.Unfolding
import Schemata.Proofs.Schema.Positions

/-!
# What a conversion puts in a position

A conversion dresses a fragment for the position in which it puts it.  The values of
properties get a union instead of the marker where one belongs, then a default and a
description, and the items of arrays and the values of maps always get a union.  Shared
definitions are fragments of references that do not allow null, and the alternatives of
choices are pointers.  What is in a fragment does not depend on how it is dressed, so one look
at each kind of fragment tells what stands anywhere in a document.

Main results:

- Theorem {lit}`Describes.stands`: what is directly in the fragment of a reference.
- Theorem {lit}`SchemaBody.Holds.puts`: what a document holds at any depth was put there by a
  conversion, when its outermost fragments were.
- Theorem {lit}`puts_toSchemaDocument`, {lit}`puts_toToolDocument`: the outermost fragments of
  both documents were.
-/

namespace Schemata

/-- Two properties of an object have equal names exactly when they are one member of it, as
texts are. -/
def ObjectType.NamesAgree (type : ObjectType TypeRef) : Prop :=
  ∀ first ∈ type.properties, ∀ second ∈ type.properties,
    (first.name == second.name) = true ↔ first.name.memberName = second.name.memberName

/-- Texts agree as names. -/
theorem ObjectType.NamesAgree.of_texts {type : ObjectType TypeRef}
    (texts : ∀ property ∈ type.properties, ∃ name, property.name = .str name) :
    type.NamesAgree := by
  intro first hfirst second hsecond
  rcases texts first hfirst with ⟨name, hname⟩
  rcases texts second hsecond with ⟨other, hother⟩
  rw [hname, hother, Json.beq_text, beq_iff_eq]
  rfl

namespace TypeGraph

/-- The names of properties agree in every object of the table. -/
def NamesAgree (graph : TypeGraph) : Prop :=
  ∀ id type, graph.nodes.find? id = some (.object type) → type.NamesAgree

/-- Names that are all texts agree: two of them are equal when they are written alike. -/
theorem NamesAgree.of_texts {graph : TypeGraph}
    (texts : ∀ entry ∈ graph.nodes, ∀ type, entry.2 = .object type →
      ∀ property ∈ type.properties, ∃ name, property.name = .str name) : graph.NamesAgree :=
  fun _ type found => .of_texts (texts _ (Table.mem_of_find? found) type rfl)

/-- A position in the fragment of one reference is that of another reference. -/
inductive Part (graph : TypeGraph) : Position → TypeRef → TypeRef → Prop
  | property {ref : TypeRef} {type : ObjectType TypeRef} {property : Property TypeRef}
      {required : List Json} (node : graph.Leads ref (.object type))
      (mem : property ∈ type.properties) :
      Part graph (.property property.name.memberName required) ref property.type
  | items {ref element : TypeRef} {description : Option String}
      (node : graph.Leads ref (.list element description)) : Part graph .items ref element
  | values {ref key value : TypeRef} {description : Option String}
      (node : graph.Leads ref (.map key value description)) : Part graph .values ref value

/-- In the document of a graph, the fragment in a position is that of a reference.  The body is
that of the root, and a shared definition that of the node of its name. -/
inductive Fills (graph : TypeGraph) (body : SchemaBody) : Position → Definition → TypeRef → Prop
  | body {position : Position} {definition : Definition} {ref : TypeRef}
      (mem : (position, definition) ∈ body.parts) (part : graph.Part position graph.root ref) :
      Fills graph body position definition ref
  | shared {id : TypeId} {definition : Definition}
      (mem : (.shared id, definition) ∈ body.parts) :
      Fills graph body (.shared id) definition (.named id false)
  | within {around position : Position} {definition inner : Definition} {ref target : TypeRef}
      (outer : Fills graph body around definition ref) (mem : (position, inner) ∈ definition.parts)
      (part : graph.Part position ref target) : Fills graph body position inner target

end TypeGraph

namespace Conversion

variable (c : Conversion)

/-- The value of a property of an object, when its type has the given fragment. -/
def member (type : ObjectType TypeRef) (part : Property TypeRef × Definition) : Definition :=
  c.dress part.1 ((c.requiredNames type).contains part.1.name) part.2

/-- What a conversion puts in a position, and the reference that it is the fragment of. -/
inductive Stands : Position → Option TypeRef → Definition → Prop
  | member {id : TypeId} {type : ObjectType TypeRef} {fragments : List Definition}
      {part : Property TypeRef × Definition} {name : String}
      (node : c.graph.nodes.find? id = some (.object type))
      (mem : part ∈ type.properties.zip fragments)
      (described : c.Describes part.1.type part.2)
      (named : type.NamesAgree → part.1.name.memberName = name) :
      Stands (.property name (c.requiredList type)) (some part.1.type) (c.member type part)
  | items {ref : TypeRef} {definition : Definition} (described : c.Describes ref definition) :
      Stands .items (some ref) definition.asUnion
  | values {ref : TypeRef} {definition : Definition} (described : c.Describes ref definition) :
      Stands .values (some ref) definition.asUnion
  | pointer {target : Json} : Stands .alternative none (.reference target .null)
  | null : Stands .alternative none nullFragment
  | choice {type : PolymorphicType TypeRef} {discriminator : Option DiscriminatorBlock} :
      Stands .alternative none (.oneOf .null (variantPointers type) discriminator)
  | shared {id : TypeId} {definition : Definition} (written : c.Written id definition) :
      Stands (.shared id) (some (.named id false)) definition

variable {c} {definition inner : Definition} {position around : Position} {ref : TypeRef}

/-- What stands for a reference has the outline of a fragment of the reference. -/
theorem Stands.exists_outline (h : c.Stands position (some ref) definition) :
    ∃ plain, c.Describes ref plain ∧ definition.outline = plain.outline := by
  cases h with
  | member node mem described => exact ⟨_, described, outline_dress ..⟩
  | items described | values described => exact ⟨_, described, Definition.outline_asUnion⟩
  | shared written => exact ⟨_, written.describes, rfl⟩

/-! ## Members of objects -/

/-- The members of an object whose names agree. -/
theorem memberTable_of_agree {type : ObjectType TypeRef} {fragments : List Definition}
    (agree : type.NamesAgree) :
    c.memberTable type fragments = Table.ofEntries
      ((type.properties.zip fragments).map fun part =>
        (part.1.name.memberName, c.member type part)) := by
  rw [memberTable, propertyTable_eq_ofEntries, ← Table.ofEntries_mapKeys_of_mem, List.map_map]
  · rfl
  · intro first hfirst second hsecond
    rcases List.mem_map.mp hfirst with ⟨part, hpart, rfl⟩
    rcases List.mem_map.mp hsecond with ⟨other, hother, rfl⟩
    rw [Bool.eq_iff_iff, beq_iff_eq]
    exact (agree _ (List.of_mem_zip hpart).1 _ (List.of_mem_zip hother).1).symm

/-- A member of an object is the value of a property, which has its name when the names of
properties agree. -/
theorem exists_part_of_mem {type : ObjectType TypeRef} {fragments : List Definition}
    {entry : String × Definition} (mem : entry ∈ c.memberTable type fragments) :
    ∃ part ∈ type.properties.zip fragments, entry.2 = c.member type part ∧
      (type.NamesAgree → part.1.name.memberName = entry.1) := by
  by_cases agree : type.NamesAgree
  · rw [memberTable_of_agree agree] at mem
    rcases List.mem_map.mp (Table.mem_ofEntries mem) with ⟨part, hpart, rfl⟩
    exact ⟨part, hpart, rfl, fun _ => rfl⟩
  · rcases List.mem_map.mp mem with ⟨known, hknown, rfl⟩
    rcases mem_propertyTable hknown with ⟨part, hpart, hentry⟩
    exact ⟨part, hpart, hentry, fun h => absurd h agree⟩

/-- What stands in an object whose properties are described. -/
theorem stands_of_mem {id : TypeId} {type : ObjectType TypeRef} {fragments : List Definition}
    (node : c.graph.nodes.find? id = some (.object type))
    (described : ∀ part ∈ type.properties.zip fragments, c.Describes part.1.type part.2)
    (nullable : Bool) {entry : String × Definition}
    (mem : entry ∈ c.memberTable type fragments) :
    ∃ target, c.Stands (.property entry.1 (c.requiredList type)) target entry.2 ∧
      (c.graph.NamesAgree → ∀ found ∈ target,
        c.graph.Part (.property entry.1 (c.requiredList type)) (.named id nullable) found) := by
  rcases exists_part_of_mem mem with ⟨part, hpart, hentry, named⟩
  refine ⟨some part.1.type, hentry ▸ .member node hpart (described part hpart) named, ?_⟩
  rintro agree _ ⟨⟩
  rw [← named (agree id type node)]
  exact .property (.named node) (List.of_mem_zip hpart).1

/-! ## What stands in a fragment -/

/-- The alternatives of a polymorphic type are pointers. -/
theorem stands_of_mem_variantPointers {type : PolymorphicType TypeRef}
    (mem : inner ∈ variantPointers type) : c.Stands .alternative none inner := by
  rcases List.mem_map.mp mem with ⟨variant, -, rfl⟩
  exact .pointer

/-- The alternatives of a nullable pointer are the pointer and null. -/
theorem stands_of_mem_pointer {target : String} {nullable : Bool}
    (mem : (position, inner) ∈ (pointer target nullable).parts) : c.Stands position none inner := by
  cases nullable with
  | false => cases mem
  | true =>
      rcases List.mem_cons.mp mem with hpart | mem
      · cases hpart
        exact .pointer
      · cases List.mem_singleton.mp mem
        exact .null

/-- What is directly in the fragment of a reference stands there for what the reference
leads to. -/
theorem Describes.stands (h : c.Describes ref definition) (mem : (position, inner) ∈ definition.parts) :
    ∃ target, c.Stands position target inner ∧
      (c.graph.NamesAgree → ∀ found ∈ target, c.graph.Part position ref found) := by
  cases h with
  | primitive | enumeration => cases mem
  | list node element =>
      cases List.mem_singleton.mp mem
      refine ⟨_, .items element, ?_⟩
      rintro - _ ⟨⟩
      exact .items node
  | map node value =>
      cases List.mem_singleton.mp mem
      refine ⟨_, .values value, ?_⟩
      rintro - _ ⟨⟩
      exact .values node
  | @object id nullable type fragments node length parts =>
      rw [← Definition.parts_outline, outline_markNullable, Definition.parts_outline,
        objectFragment, Definition.parts, List.append_nil] at mem
      rcases List.mem_map.mp mem with ⟨entry, hentry, hpart⟩
      cases hpart
      exact stands_of_mem node parts nullable hentry
  | @choice id nullable type node =>
      rw [choiceFragment] at mem
      cases nullable with
      | false =>
          rcases List.mem_map.mp mem with ⟨option, hoption, hpart⟩
          cases hpart
          exact ⟨none, stands_of_mem_variantPointers hoption, by simp⟩
      | true =>
          rcases List.mem_cons.mp mem with hpart | mem
          · cases hpart
            exact ⟨none, .choice, by simp⟩
          · cases List.mem_singleton.mp mem
            exact ⟨none, .null, by simp⟩
  | root | shared => exact ⟨none, stands_of_mem_pointer mem, by simp⟩

/-- What is directly in a fragment that stands in a position stands there itself, for what the
reference of the fragment leads to. -/
theorem Stands.within {of : Option TypeRef} (h : c.Stands around of definition)
    (mem : (position, inner) ∈ definition.parts) :
    ∃ target, c.Stands position target inner ∧
      (c.graph.NamesAgree → ∀ found ∈ target, ∃ ref ∈ of, c.graph.Part position ref found) := by
  cases of with
  | none =>
      cases h with
      | pointer | null => cases mem
      | choice =>
          rcases List.mem_map.mp mem with ⟨option, hoption, hpart⟩
          cases hpart
          exact ⟨none, stands_of_mem_variantPointers hoption, by simp⟩
  | some ref =>
      rcases h.exists_outline with ⟨plain, described, houtline⟩
      rw [← Definition.parts_outline, houtline, Definition.parts_outline] at mem
      rcases described.stands mem with ⟨target, hstands, hpart⟩
      exact ⟨target, hstands, fun agree found hfound => ⟨ref, rfl, hpart agree found hfound⟩⟩

/-! ## Documents -/

/-- A conversion puts the fragment in its position of a document. -/
def Puts (c : Conversion) (body : SchemaBody) (position : Position) (definition : Definition) :
    Prop :=
  ∃ target, c.Stands position target definition ∧
    (c.graph.NamesAgree → ∀ ref ∈ target, c.graph.Fills body position definition ref)

/-- A shared definition that is written out is put in its position. -/
theorem Written.puts {body : SchemaBody} {id : TypeId} (h : c.Written id definition)
    (mem : (.shared id, definition) ∈ body.parts) : c.Puts body (.shared id) definition := by
  refine ⟨_, .shared h, ?_⟩
  rintro - _ ⟨⟩
  exact .shared mem

end Conversion

/-- Whatever a document holds at any depth was put there, when its outermost fragments were. -/
theorem SchemaBody.Holds.puts {c : Conversion} {body : SchemaBody} {position : Position}
    {definition : Definition} (h : body.Holds position definition)
    (outermost : ∀ part ∈ body.parts, c.Puts body part.1 part.2) :
    c.Puts body position definition := by
  induction h with
  | part mem => exact outermost _ mem
  | within outer mem ih =>
      rcases ih with ⟨of, hstands, hfills⟩
      rcases hstands.within mem with ⟨target, hinner, hpart⟩
      refine ⟨target, hinner, fun agree found hfound => ?_⟩
      rcases hpart agree found hfound with ⟨ref, href, hpart⟩
      exact .within (hfills agree ref href) mem hpart

namespace TypeGraph

variable {graph : TypeGraph} {flags : Flags}

/-- What is directly in the body of a JSON Schema document is directly in the fragment of the
root, or it is a shared definition. -/
theorem mem_parts_schemaBody {name : String} {root : Definition} {defs : Table TypeId Definition}
    {part : Position × Definition} (mem : part ∈ (schemaBody flags name root defs).parts) :
    part ∈ root.parts ∨ ∃ entry ∈ defs, part = (.shared entry.1, entry.2) := by
  rw [SchemaBody.parts, defs_schemaBody, List.mem_append] at mem
  refine mem.imp (fun mem => ?_) fun mem => ?_
  · unfold schemaBody at mem
    split at mem
    · simp only [getD_nonEmpty?, Json.listed_orNull, Option.getD_none, List.map_nil,
        List.append_nil] at mem
      exact List.mem_append_left _ mem
    · simpa [Definition.parts] using mem
    · simp at mem
  · rcases List.mem_map.mp mem with ⟨entry, hentry, rfl⟩
    exact ⟨entry, hentry, rfl⟩

/-- The outermost fragments of a JSON Schema document are put in their positions. -/
theorem puts_toSchemaDocument {name : String} {document : SchemaDocument}
    (h : graph.toSchemaDocument flags name = .ok document) :
    ∀ part ∈ document.body.parts,
      Conversion.Puts ⟨graph, flags, .jsonSchema⟩ document.body part.1 part.2 := by
  rcases runs_of_toSchemaDocument h with ⟨root, state, hruns, rfl⟩
  rcases hruns.describes_first with ⟨hwritten, hdescribes⟩
  rintro ⟨position, definition⟩ mem
  rcases mem_parts_schemaBody mem with hroot | ⟨entry, hentry, hpart⟩
  · rcases hdescribes.stands hroot with ⟨target, hstands, hpart⟩
    exact ⟨target, hstands, fun agree ref href => .body mem (hpart agree ref href)⟩
  · cases hpart
    exact (hwritten entry hentry).puts mem

/-- The outermost fragments of a tool schema are put in their positions. -/
theorem puts_toToolDocument {document : ToolDocument}
    (h : graph.toToolDocument flags = .ok document) :
    ∀ part ∈ document.parameters.parts,
      Conversion.Puts ⟨graph, flags, .tool⟩ document.parameters part.1 part.2 := by
  rcases runs_of_toToolDocument h with ⟨id, type, fragments, state, root, node, hruns, rfl⟩
  rcases hruns.describes_first with ⟨hwritten, hdescribes⟩
  rcases TypeRef.id?_eq_some_iff.mp root with ⟨nullable, href⟩
  rintro ⟨position, definition⟩ mem
  have hmem := mem
  rw [SchemaBody.parts, getD_nonEmpty?, List.mem_append] at hmem
  rcases hmem with hroot | hshared
  · rw [Option.getD_none, List.map_nil, List.append_nil] at hroot
    rcases List.mem_map.mp hroot with ⟨entry, hentry, hpart⟩
    cases hpart
    rcases Conversion.stands_of_mem node hdescribes.parts nullable hentry with
      ⟨target, hstands, hpart⟩
    exact ⟨target, hstands, fun agree ref hfound => .body mem (href ▸ hpart agree ref hfound)⟩
  · rcases List.mem_map.mp hshared with ⟨entry, hentry, hpart⟩
    cases hpart
    exact (hwritten entry hentry).puts mem

end TypeGraph

end Schemata
