import Mathlib.Logic.Basic
import Schemata.Proofs.Conversion.Positions
import Schemata.Proofs.Json.Address
import Schemata.Proofs.Schema.Decoding

/-!
# Where the addresses in a document lead

A document cites its shared definitions by address: in its pointers, and in the discriminators
that map a value to a definition.  The conversion puts the identifier of the definition as it is
behind the address of the shared definitions, so whether an address leads to the definition that
is meant is a question about the identifier.  It does when the identifier is plain, and never
when it is not: with a slash in it the address leads into a definition, or nowhere, and with a
sign in it to the definition of another identifier, if to any.

Main results:

- Definition {lit}`SchemaBody.Cites`: the targets that a document names, at any depth.
- Theorem {lit}`SchemaBody.locates_iff`: what the address of a shared definition leads to.
- Theorem {lit}`Conversion.Describes.isAddress`: a fragment cites the root and shared definitions only.
- Theorem {lit}`TypeGraph.toSchemaDocument_locates`: the addresses in a JSON Schema document lead
  to the definitions that they are written for exactly when the identifiers are plain.
-/

namespace Schemata

/-! ## Targets that a document names -/

/-- The targets that a discriminator maps values to. -/
def DiscriminatorBlock.targets (block : DiscriminatorBlock) : List Json :=
  match block.mapping with
  | .obj members => members.map (·.2)
  | _ => []

namespace Definition

/-- The targets that a fragment names itself, not through the fragments in it. -/
def ownTargets : Definition → List Json
  | .reference target _ => [target]
  | .oneOf _ _ discriminator => discriminator.elim [] DiscriminatorBlock.targets
  | _ => []

/-- A fragment names a target, at any depth. -/
inductive Cites : Definition → Json → Prop
  | own {definition : Definition} {target : Json} (mem : target ∈ definition.ownTargets) :
      Cites definition target
  | within {definition inner : Definition} {position : Position} {target : Json}
      (mem : (position, inner) ∈ definition.parts) (cites : Cites inner target) :
      Cites definition target

variable {definition : Definition} {target : Json}

/-- A fragment cites its own targets and those of its parts. -/
theorem cites_iff : definition.Cites target ↔
    target ∈ definition.ownTargets ∨ ∃ part ∈ definition.parts, part.2.Cites target := by
  constructor
  · rintro (mem | ⟨mem, cites⟩)
    · exact Or.inl mem
    · exact Or.inr ⟨_, mem, cites⟩
  · rintro (mem | ⟨part, mem, cites⟩)
    · exact .own mem
    · exact .within mem cites

/-- The outline of a fragment shows its own targets. -/
theorem ownTargets_outline : definition.outline.ownTargets = definition.ownTargets := by
  cases definition <;> rfl

/-- What a fragment names is told by its outline. -/
theorem cites_outline : definition.outline.Cites target ↔ definition.Cites target := by
  rw [cites_iff, cites_iff, ownTargets_outline, parts_outline]

@[simp] theorem cites_asUnion : definition.asUnion.Cites target ↔ definition.Cites target := by
  rw [← cites_outline, outline_asUnion, cites_outline]

@[simp] theorem cites_value {head : TypedHead} {enum : Json} :
    ¬ (value head enum).Cites target := by
  rw [cites_iff]
  simp [ownTargets, parts]

@[simp] theorem cites_reference {address description : Json} :
    (reference address description).Cites target ↔ target = address := by
  rw [cites_iff]
  simp [ownTargets, parts]

@[simp] theorem cites_array {head : TypedHead} {items : Definition} :
    (array head (some items)).Cites target ↔ items.Cites target := by
  rw [cites_iff]
  simp [ownTargets, parts]

@[simp] theorem cites_map {head : TypedHead} {required : Json} {values : Definition} :
    (object head none required (.schema values)).Cites target ↔ values.Cites target := by
  rw [cites_iff]
  simp [ownTargets, parts]

@[simp] theorem cites_object {head : TypedHead} {members : List (String × Definition)}
    {required content : Json} :
    (object head (some members) required (.plain content)).Cites target ↔
      ∃ entry ∈ members, entry.2.Cites target := by
  rw [cites_iff]
  simp [ownTargets, parts, -Prod.exists]

@[simp] theorem cites_oneOf {description : Json} {options : List Definition}
    {discriminator : Option DiscriminatorBlock} :
    (oneOf description options discriminator).Cites target ↔
      (∃ block, discriminator = some block ∧ target ∈ block.targets) ∨
        ∃ option ∈ options, option.Cites target := by
  rw [cites_iff]
  cases discriminator <;> simp [ownTargets, parts, -Prod.exists]

@[simp] theorem cites_anyOf {description : Json} {options : List Definition} :
    (anyOf description options).Cites target ↔ ∃ option ∈ options, option.Cites target := by
  rw [cites_iff]
  simp [ownTargets, parts, -Prod.exists]

end Definition

namespace SchemaBody

/-- A document names a target, at any depth of its body or of its shared definitions. -/
inductive Cites (body : SchemaBody) : Json → Prop
  | own {block : DiscriminatorBlock} {target : Json} (present : body.discriminator = some block)
      (mem : target ∈ block.targets) : Cites body target
  | part {definition : Definition} {position : Position} {target : Json}
      (mem : (position, definition) ∈ body.parts) (cites : definition.Cites target) :
      Cites body target

/-! ## The place of a shared definition -/

/-- The shared definitions of a body are a member of its JSON value. -/
theorem part?_defs (body : SchemaBody) : body.toJson.part? "$defs" =
    body.defs.map fun table => .obj (Definition.toMembers table) := by
  have hself := find?_tableEntry_self "$defs" body.defs
  rw [toJson, Json.part?]
  cases body.oneOf <;> cases body.discriminator <;>
    simp [Table.find?_append, Table.find?_cons, DiscriminatorBlock.entry, hself]

end SchemaBody

/-- The members of a rendered table are rendered. -/
theorem Definition.find?_toMembers (table : Table String Definition) (name : String) :
    Table.find? (toMembers table) name = (table.find? name).map toJson := by
  induction table with
  | nil => rfl
  | cons entry rest ih =>
      rcases entry with ⟨key, definition⟩
      rw [toMembers, Table.find?_cons, Table.find?_cons, ih]
      cases name == key <;> rfl

/-- What stands in a body at the place of a shared definition. -/
theorem SchemaBody.at?_defs (body : SchemaBody) (id : TypeId) :
    body.toJson.at? ["$defs", id] = ((body.defs.getD []).find? id).map Definition.toJson := by
  rw [Json.at?, part?_defs]
  cases body.defs with
  | none => rfl
  | some table =>
      rw [Option.map_some, Option.bind_some, Json.at?, Json.part?, Definition.find?_toMembers]
      cases h : Table.find? table id <;> simp [h, Json.at?]

/-- The way that the address of a shared definition gives. -/
theorem way?_defsPointer (id : TypeId) :
    Address.way? (defsPointer id) = some ("$defs" :: Address.read id.toList) := by
  have htext : (defsPointer id).toList = '#' :: '/' :: ("$defs".toList ++ '/' :: id.toList) := by
    rw [defsPointer, String.toList_append]
    rfl
  have hname : Address.read "$defs".toList = ["$defs"] :=
    Address.read_eq_singleton_iff.mpr ⟨by decide, by decide, by decide⟩
  have hread : Address.read ("$defs".toList ++ '/' :: id.toList) =
      "$defs" :: Address.read id.toList := by
    rw [Address.read, List.splitOn_append_cons_self, List.map_append, ← Address.read,
      ← Address.read, hname, List.singleton_append]
  rw [Address.way?, htext]
  exact congrArg some hread

/-- The address of a shared definition leads to the place of that definition exactly when the
identifier is plain and the definition is there. -/
theorem SchemaBody.locates_iff {body : SchemaBody} {id : TypeId} {found : Json} :
    body.toJson.Locates (defsPointer id) ["$defs", id] found ↔
      Address.IsPlain id ∧ ((body.defs.getD []).find? id).map Definition.toJson = some found := by
  rw [Json.Locates, way?_defsPointer, at?_defs, Option.some.injEq, List.cons.injEq,
    Address.read_eq_singleton_iff]
  simp

/-! ## What a conversion cites -/

/-- A target is the whole document, or the address of a definition for an identifier. -/
def IsAddress (target : Json) : Prop :=
  target = .str "#" ∨ ∃ id, target = .str (defsPointer id)

namespace Conversion

variable {c : Conversion} {target : Json}

/-- A pointer cites its address and nothing else. -/
theorem cites_pointer {address : String} {nullable : Bool} :
    (pointer address nullable).Cites target ↔ target = .str address := by
  cases nullable <;> simp [pointer, nullFragment]

/-- The targets of a discriminator are addresses of definitions. -/
theorem isAddress_of_mem_targets {discriminator : Option Discriminator} {block : DiscriminatorBlock}
    (h : c.discriminatorBlock discriminator = some block) (mem : target ∈ block.targets) :
    IsAddress target := by
  cases discriminator with
  | none => cases h
  | some discriminator =>
      rw [discriminatorBlock] at h
      split at h
      · cases h
      · cases h
        cases hmapping : discriminator.mapping with
        | none => simp [DiscriminatorBlock.targets, hmapping] at mem
        | some mapping =>
            simp only [DiscriminatorBlock.targets, hmapping, List.map_map] at mem
            rcases List.mem_map.mp mem with ⟨entry, -, rfl⟩
            exact Or.inr ⟨entry.2, rfl⟩

/-- A choice names its subtypes and what its discriminator maps values to. -/
theorem isAddress_of_cites_choice {type : PolymorphicType TypeRef} {nullable : Bool}
    (h : (c.choiceFragment type nullable).Cites target) : IsAddress target := by
  have hplain {description : Json} (h : (Definition.oneOf description (variantPointers type)
      (c.discriminatorBlock type.discriminator)).Cites target) : IsAddress target := by
    rcases Definition.cites_oneOf.mp h with ⟨block, hblock, mem⟩ | ⟨option, hoption, hcites⟩
    · exact isAddress_of_mem_targets hblock mem
    · rcases List.mem_map.mp hoption with ⟨variant, -, rfl⟩
      exact Or.inr ⟨variant.id, Definition.cites_reference.mp hcites⟩
  rw [choiceFragment] at h
  cases nullable with
  | false => exact hplain h
  | true =>
      rcases Definition.cites_anyOf.mp h with ⟨option, hoption, hcites⟩
      rcases List.mem_cons.mp hoption with rfl | hnull
      · exact hplain hcites
      · rw [List.mem_singleton.mp hnull] at hcites
        exact absurd hcites Definition.cites_value

/-- The fragment of a reference names the whole document and definitions by their addresses,
and nothing else. -/
theorem Describes.isAddress {ref : TypeRef} {definition : Definition}
    (h : c.Describes ref definition) (cites : definition.Cites target) : IsAddress target := by
  induction h with
  | primitive | enumeration => exact absurd cites Definition.cites_value
  | list _ _ ih => exact ih (by simpa using cites)
  | map _ _ ih => exact ih (by simpa using cites)
  | @object id nullable type fragments _ _ _ ih =>
      rw [← Definition.cites_outline, outline_markNullable, Definition.cites_outline,
        objectFragment, Definition.cites_object] at cites
      rcases cites with ⟨entry, hentry, hcites⟩
      rcases exists_part_of_mem hentry with ⟨part, hpart, hvalue, -⟩
      rw [hvalue, member, ← Definition.cites_outline, outline_dress,
        Definition.cites_outline] at hcites
      exact ih part hpart hcites
  | choice => exact isAddress_of_cites_choice cites
  | root => exact Or.inl (cites_pointer.mp cites)
  | shared => exact Or.inr ⟨_, cites_pointer.mp cites⟩

end Conversion

/-! ## Documents -/

namespace TypeGraph

variable {graph : TypeGraph} {flags : Flags} {name : String} {root : Definition}
variable {defs : Table TypeId Definition}

/-- What the body of a JSON Schema document names, the fragment of the root names, or a shared
definition. -/
theorem cites_schemaBody {target : Json} (h : (schemaBody flags name root defs).Cites target) :
    root.Cites target ∨ ∃ entry ∈ defs, entry.2.Cites target := by
  cases h with
  | own present mem =>
      refine Or.inl (.own ?_)
      unfold schemaBody at present
      split at present
      · cases present
      · cases present
        exact mem
      · cases present
  | part mem cites =>
      rcases mem_parts_schemaBody mem with hroot | ⟨entry, hentry, hpart⟩
      · exact Or.inl (.within hroot cites)
      · cases hpart
        exact Or.inr ⟨entry, hentry, cites⟩

/-- A JSON Schema document names the whole of it and definitions by their addresses.  The address
of a shared definition leads to that definition when its identifier is plain, and when it is not,
to whatever else it may lead to, but not there. -/
theorem toSchemaDocument_locates {document : SchemaDocument}
    (h : graph.toSchemaDocument flags name = .ok document) :
    (∀ target, document.body.Cites target → IsAddress target) ∧
    ∀ entry ∈ document.body.defs.getD [],
      (Address.IsPlain entry.1 → document.body.toJson.Locates (defsPointer entry.1)
        ["$defs", entry.1] entry.2.toJson) ∧
      (¬ Address.IsPlain entry.1 → ∀ place found,
        document.body.toJson.Locates (defsPointer entry.1) place found →
          place ≠ ["$defs", entry.1]) := by
  rcases runs_of_toSchemaDocument h with ⟨root, state, hruns, rfl⟩
  rcases hruns.describes_first with ⟨hwritten, hdescribes⟩
  constructor
  · intro target hcites
    rcases cites_schemaBody hcites with hroot | ⟨entry, hentry, hcites⟩
    · exact hdescribes.isAddress hroot
    · exact (hwritten entry hentry).describes.isAddress hcites
  · have hnodup : state.defs.keys.Nodup := hruns.nodup_keys List.nodup_nil
    intro entry hentry
    rw [defs_schemaBody] at hentry
    constructor
    · intro plain
      rw [SchemaBody.locates_iff, defs_schemaBody, Table.find?_of_mem hnodup hentry]
      exact ⟨plain, rfl⟩
    · rintro bent place found hlocates rfl
      exact bent (SchemaBody.locates_iff.mp hlocates).1

/-- Animals of a zoo, where dogs go by an identifier with a slash in it. -/
def zoo : TypeGraph where
  root := .named "Zoo" false
  nodes := [
    ("Zoo", .object {
      name := "Zoo", properties := [{ name := "animal", type := .named "Animal" false }] }),
    ("Animal", .polymorphic {
      base := "Animal", variants := [⟨"Cat", .named "Cat" false⟩, ⟨"zoo/Dog", .named "zoo/Dog" false⟩] }),
    ("Cat", .object { name := "Cat" }),
    ("zoo/Dog", .object { name := "Dog" })]

/-- The address of cats leads to cats. -/
theorem zoo_locates : ∃ document,
    zoo.toSchemaDocument (.initial .jsonSchema) "Zoo" = .ok document ∧
    (∀ target, document.body.Cites target → IsAddress target) ∧
    ∃ entry ∈ document.body.defs.getD [], entry.1 = "Cat" ∧ Address.IsPlain entry.1 ∧
      document.body.toJson.Locates (defsPointer "Cat") ["$defs", "Cat"] entry.2.toJson := by
  have h := toSchemaDocument_locates
    (show zoo.toSchemaDocument (.initial .jsonSchema) "Zoo" = .ok _ from rfl)
  have hplain : Address.IsPlain "Cat" := ⟨by decide, by decide, by decide⟩
  exact ⟨_, rfl, h.1, _, List.mem_cons_self .., rfl, hplain,
    (h.2 _ (List.mem_cons_self ..)).1 hplain⟩

/-- The address of dogs, who have a shared definition, leads nowhere. -/
theorem zoo_not_locates : ∃ document,
    zoo.toSchemaDocument (.initial .jsonSchema) "Zoo" = .ok document ∧
    "zoo/Dog" ∈ document.body.definedIds ∧
    document.body.Cites (.str (defsPointer "zoo/Dog")) ∧
    ∀ place found, ¬ document.body.toJson.Locates (defsPointer "zoo/Dog") place found := by
  refine ⟨_, rfl, by decide, .part (List.mem_cons_self ..) ?_, ?_⟩
  · refine .within (List.mem_cons_of_mem _ (List.mem_cons_self ..)) ?_
    exact Definition.cites_reference.mpr rfl
  · rintro place found ⟨hway, hfound⟩
    cases hway
    cases hfound

end TypeGraph

end Schemata
