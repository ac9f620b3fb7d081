import Schemata.Proofs.Conversion.Unfolding
import Schemata.Proofs.Schema.Acceptance

/-!
# Choices of a document

A fragment offers the alternatives of every choice in it, at any depth.  What a conversion
yields offers only the subtypes of polymorphic types of the graph, in the body of the
document and in its shared definitions.

Main results:

- Definition {lit}`SchemaBody.Offers`: the alternatives of a choice in a document.
- Theorem {lit}`Describes.offers`: a choice is that of a polymorphic type.
- Theorem {lit}`renders_toSchemaDocument`, {lit}`renders_toToolDocument`: what the choices
  and the shared definitions of a document are.
-/

namespace Schemata

namespace Definition

/-- The fragments that stand directly in a fragment. -/
def children : Definition → List Definition
  | .value _ _ | .reference _ _ => []
  | .array _ items => items.toList
  | .object _ properties _ additional =>
    (properties.getD []).map (fun entry => entry.2) ++ match additional with
      | .plain _ => []
      | .schema fragment => [fragment]
  | .oneOf _ options _ | .anyOf _ options | .allOf _ options => options

/-- The alternatives of the choices in a fragment. -/
inductive Offers (options : List Definition) : Definition → Prop
  | here {description : Json} {discriminator : Option DiscriminatorBlock} :
      Offers options (.oneOf description options discriminator)
  | inside {definition child : Definition} (mem : child ∈ definition.children)
      (rest : Offers options child) : Offers options definition

variable {options : List Definition} {definition : Definition}

/-- A choice has the alternatives that it lists and those in them. -/
theorem offers_iff : definition.Offers options ↔
    (∃ description discriminator, definition = .oneOf description options discriminator) ∨
      ∃ child ∈ definition.children, child.Offers options := by
  constructor
  · intro h
    cases h with
    | here => exact Or.inl ⟨_, _, rfl⟩
    | inside mem rest => exact Or.inr ⟨_, mem, rest⟩
  · rintro (⟨description, discriminator, rfl⟩ | ⟨child, mem, rest⟩)
    · exact .here
    · exact .inside mem rest

@[simp] theorem not_offers_value (head : TypedHead) (enum : Json) :
    ¬ (value head enum).Offers options := by
  rw [offers_iff]
  simp [children]

@[simp] theorem not_offers_reference (target description : Json) :
    ¬ (reference target description).Offers options := by
  rw [offers_iff]
  simp [children]

@[simp] theorem offers_array (head : TypedHead) (items : Definition) :
    (array head (some items)).Offers options ↔ items.Offers options := by
  rw [offers_iff]
  simp [children]

@[simp] theorem offers_map (head : TypedHead) (required : Json) (values : Definition) :
    (object head none required (.schema values)).Offers options ↔ values.Offers options := by
  rw [offers_iff]
  simp [children]

@[simp] theorem offers_object (head : TypedHead) (properties : List (String × Definition))
    (required additional : Json) :
    (object head (some properties) required (.plain additional)).Offers options ↔
      ∃ entry ∈ properties, entry.2.Offers options := by
  rw [offers_iff, children, List.append_nil, Option.getD_some]
  constructor
  · rintro (⟨_, _, same⟩ | ⟨child, mem, rest⟩)
    · cases same
    · rcases List.mem_map.mp mem with ⟨entry, hentry, rfl⟩
      exact ⟨entry, hentry, rest⟩
  · rintro ⟨entry, hentry, rest⟩
    exact Or.inr ⟨_, List.mem_map_of_mem hentry, rest⟩

@[simp] theorem offers_oneOf (description : Json) (alternatives : List Definition)
    (discriminator : Option DiscriminatorBlock) :
    (oneOf description alternatives discriminator).Offers options ↔
      options = alternatives ∨ ∃ option ∈ alternatives, option.Offers options := by
  rw [offers_iff]
  simp [children, eq_comm]

@[simp] theorem offers_anyOf (description : Json) (alternatives : List Definition) :
    (anyOf description alternatives).Offers options ↔
      ∃ option ∈ alternatives, option.Offers options := by
  rw [offers_iff]
  simp [children]

@[simp] theorem offers_allOf (description : Json) (parts : List Definition) :
    (allOf description parts).Offers options ↔ ∃ part ∈ parts, part.Offers options := by
  rw [offers_iff]
  simp [children]

/-- The choices in a fragment are told by its outline. -/
theorem offers_outline : definition.outline.Offers options ↔ definition.Offers options := by
  rw [offers_iff, @offers_iff options definition]
  cases definition <;> simp [outline, children]

@[simp] theorem offers_asUnion : definition.asUnion.Offers options ↔ definition.Offers options := by
  rw [← offers_outline, outline_asUnion, offers_outline]

end Definition

namespace SchemaBody

/-- The alternatives of the choices in a document: in its body and in its shared
definitions. -/
def Offers (body : SchemaBody) (options : List Definition) : Prop :=
  body.whole.Offers options ∨ ∃ entry ∈ body.defs.getD [], entry.2.Offers options

/-- The choices in a body are those in its properties, and its own one. -/
theorem offers_whole {body : SchemaBody} {options : List Definition} :
    body.whole.Offers options ↔ (∃ entry ∈ body.properties.getD [], entry.2.Offers options) ∨
      ∃ alternatives ∈ body.oneOf,
        (Definition.oneOf .null alternatives body.discriminator).Offers options := by
  cases body with
  | mk _ _ _ _ properties _ _ oneOf => cases oneOf <;> simp [whole]

end SchemaBody

namespace Conversion

/-- The choices of a document are between the subtypes of polymorphic types, and its shared
definitions are written out. -/
structure Renders (c : Conversion) (body : SchemaBody) : Prop where
  offers : ∀ options, body.Offers options → ∃ id type,
    c.graph.nodes.find? id = some (.polymorphic type) ∧ options = variantPointers type
  shared : ∀ entry ∈ body.defs.getD [], c.Written entry.1 entry.2

variable {c : Conversion} {options : List Definition}

/-! ## Choices of the fragments that a conversion writes -/

@[simp] theorem offers_markNullable (nullable : Bool) (definition : Definition) :
    (markNullable nullable definition).Offers options ↔ definition.Offers options := by
  rw [← Definition.offers_outline, outline_markNullable, Definition.offers_outline]

@[simp] theorem offers_dress (property : Property TypeRef) (required : Bool)
    (definition : Definition) :
    (c.dress property required definition).Offers options ↔ definition.Offers options := by
  rw [← Definition.offers_outline, outline_dress, Definition.offers_outline]

@[simp] theorem not_offers_pointer (target : String) (nullable : Bool) :
    ¬ (pointer target nullable).Offers options := by
  cases nullable <;> simp [pointer, nullFragment]

/-- The choice of a polymorphic type is between its subtypes. -/
@[simp] theorem offers_choiceFragment (type : PolymorphicType TypeRef) (nullable : Bool) :
    (c.choiceFragment type nullable).Offers options ↔ options = variantPointers type := by
  cases nullable <;> simp [choiceFragment, nullFragment, variantPointers]

/-- A choice in the members of an object is one in the fragment of a property. -/
theorem offers_of_mem_memberTable {type : ObjectType TypeRef} {fragments : List Definition}
    {member : String × Definition} (mem : member ∈ c.memberTable type fragments)
    (offers : member.2.Offers options) :
    ∃ part ∈ type.properties.zip fragments, part.2.Offers options := by
  rcases List.mem_map.mp mem with ⟨entry, hentry, rfl⟩
  rcases mem_propertyTable hentry with ⟨part, hpart, hdressed⟩
  rw [hdressed, offers_dress] at offers
  exact ⟨part, hpart, offers⟩

/-- A choice in the fragment of a reference is that of a polymorphic type. -/
theorem Describes.offers {ref : TypeRef} {definition : Definition} (h : c.Describes ref definition)
    (offers : definition.Offers options) :
    ∃ id type, c.graph.nodes.find? id = some (.polymorphic type) ∧
      options = variantPointers type := by
  induction h with
  | primitive | enumeration => exact absurd offers (Definition.not_offers_value _ _)
  | list _ _ ih => exact ih (by simpa using offers)
  | map _ _ ih => exact ih (by simpa using offers)
  | object _ _ _ ih =>
      rw [offers_markNullable, objectFragment, Definition.offers_object] at offers
      rcases offers with ⟨member, hmember, offers⟩
      rcases offers_of_mem_memberTable hmember offers with ⟨part, hpart, offers⟩
      exact ih part hpart offers
  | choice node => exact ⟨_, _, node, (offers_choiceFragment _ _).mp offers⟩
  | root | shared => exact absurd offers (not_offers_pointer _ _)

end Conversion

/-! ## Documents -/

namespace TypeGraph

variable {graph : TypeGraph} {flags : Flags} {options : List Definition}

/-- The choices of a document are those of the root's fragment and of the shared
definitions. -/
theorem offers_schemaBody {name : String} {root : Definition} {defs : Table TypeId Definition}
    (h : (schemaBody flags name root defs).Offers options) :
    root.Offers options ∨ ∃ entry ∈ defs, entry.2.Offers options := by
  rw [SchemaBody.Offers, defs_schemaBody, SchemaBody.offers_whole] at h
  refine h.imp_left fun h => ?_
  unfold schemaBody at h
  split at h
  · simp only [getD_nonEmpty?, Option.mem_def, reduceCtorEq, false_and, exists_false,
      or_false] at h
    rcases h with ⟨entry, hentry, offers⟩
    exact .inside (List.mem_append_left _ (List.mem_map_of_mem hentry)) offers
  · simpa using h
  · simp at h

/-- The choices of a JSON Schema document are those of polymorphic types. -/
theorem renders_toSchemaDocument {name : String} {document : SchemaDocument}
    (h : graph.toSchemaDocument flags name = .ok document) :
    Conversion.Renders ⟨graph, flags, .jsonSchema⟩ document.body := by
  rcases runs_of_toSchemaDocument h with ⟨root, state, hruns, rfl⟩
  rcases hruns.describes_first with ⟨hwritten, hdescribes⟩
  constructor
  · intro options offers
    rcases offers_schemaBody offers with offers | ⟨entry, hentry, offers⟩
    · exact hdescribes.offers offers
    · exact (hwritten entry hentry).describes.offers offers
  · rw [defs_schemaBody]
    exact hwritten

/-- The choices of a tool schema are those of polymorphic types. -/
theorem renders_toToolDocument {document : ToolDocument}
    (h : graph.toToolDocument flags = .ok document) :
    Conversion.Renders ⟨graph, flags, .tool⟩ document.parameters := by
  rcases runs_of_toToolDocument h with ⟨id, type, fragments, state, -, -, hruns, rfl⟩
  rcases hruns.describes_first with ⟨hwritten, hdescribes⟩
  constructor
  · intro options offers
    rw [SchemaBody.Offers, SchemaBody.offers_whole] at offers
    simp only [getD_nonEmpty?, Option.getD_some, Option.mem_def, reduceCtorEq, false_and,
      exists_false, or_false] at offers
    rcases offers with ⟨member, hmember, offers⟩ | ⟨entry, hentry, offers⟩
    · rcases Conversion.offers_of_mem_memberTable hmember offers with ⟨part, hpart, offers⟩
      exact (hdescribes.parts part hpart).offers offers
    · exact (hwritten entry hentry).describes.offers offers
  · dsimp only
    rw [getD_nonEmpty?]
    exact hwritten

end TypeGraph

end Schemata
