import Schemata.Proofs.Schema.Readable

/-!
# Fragments that their rendering determines

The reader has no name for the kind of a fragment: it guesses the kind from the keywords
and from the type.  A fragment is encodable when that guess is right at every depth and
its values are regular.  Changes of the keywords that keep the kind of the type keep a
fragment encodable.

Main results:

- Theorem {lit}`Definition.Encodable.readable`: an encodable fragment has the shape that a
  reader gives to fragments.
- Theorems {lit}`SchemaDocument.Encodable.same_self` and {lit}`ToolDocument.Encodable.same_self`:
  an encodable document is the same as itself.
-/

namespace Schemata

namespace TypedHead

/-- The first type of a head that is not null is its own, written as a list or not. -/
theorem primaryType_types (head : TypedHead) :
    Reading.primaryType (.arr head.types) = Reading.primaryType head.type := by
  unfold types
  split
  · next items htype => rw [htype]
  · next other =>
      have hself : Reading.primaryType head.type = head.type := by
        unfold Reading.primaryType
        split
        · next items htype => exact absurd htype (other items)
        · rfl
      rw [hself, Reading.primaryType]
      by_cases hnull : head.type.isText nullType = true
      · simp [Json.isText_iff.mp hnull, Json.isText]
      · simp [hnull]

/-- A union has the kind of its type. -/
theorem primaryType_asUnion (head : TypedHead) :
    Reading.primaryType head.asUnion.type = Reading.primaryType head.type := by
  unfold asUnion
  split
  · rw [← primaryType_types head]
    dsimp only
    split
    · rfl
    · simp [Reading.primaryType, List.find?_append, Json.isText]
  · rfl

/-- A union keeps the keywords regular. -/
theorem Regular.asUnion {head : TypedHead} (h : head.Regular) : head.asUnion.Regular := by
  have htypes : ∀ type ∈ head.types, type.Regular := by
    have hregular := h.type
    unfold types
    split
    · next items htype =>
        rw [htype] at hregular
        cases hregular with
        | arr all => exact all
    · intro type hmem
      rw [List.mem_singleton.mp hmem]
      exact hregular
  unfold TypedHead.asUnion
  split
  · refine ⟨.arr ?_, h.description, .null, h.default, h.const⟩
    split
    · exact htypes
    · intro type hmem
      rcases List.mem_append.mp hmem with hmem | hmem
      · exact htypes type hmem
      · rw [List.mem_singleton.mp hmem]
        exact .str _
  · exact h

end TypedHead

namespace Definition

/-- A fragment that the reader guesses right at every depth, and whose values are
regular. -/
inductive Encodable : Definition → Prop
  | value {head : TypedHead} {enum : Json} (keywords : head.Regular) (entries : enum.Regular)
      (notObject : ¬ HasPrimary head "object") (notArray : ¬ HasPrimary head "array") :
      Encodable (.value head enum)
  | array {head : TypedHead} {items : Option Definition} (keywords : head.Regular)
      (kind : items.isSome = true ∨ HasPrimary head "array")
      (parts : ∀ fragment ∈ items, Encodable fragment) : Encodable (.array head items)
  | object {head : TypedHead} {properties : Option (List (String × Definition))}
      {required : Json} {additional : Additional Definition} (keywords : head.Regular)
      (kind : properties.isSome = true ∨ HasPrimary head "object")
      (names : ∀ table ∈ properties, (table.map Prod.fst).Nodup)
      (parts : ∀ table ∈ properties, ∀ entry ∈ table, Encodable entry.2)
      (listed : required.Regular)
      (plain : ∀ content, additional = .plain content →
        content.Regular ∧ ∀ members, content ≠ .obj members)
      (schema : ∀ fragment, additional = .schema fragment → Encodable fragment) :
      Encodable (.object head properties required additional)
  | reference {target description : Json} (address : target.Regular)
      (text : description.Regular) : Encodable (.reference target description)
  | oneOf {description : Json} {options : List Definition}
      {discriminator : Option DiscriminatorBlock} (text : description.Regular)
      (parts : ∀ option ∈ options, Encodable option)
      (block : ∀ block ∈ discriminator, block.Regular) :
      Encodable (.oneOf description options discriminator)
  | anyOf {description : Json} {options : List Definition} (text : description.Regular)
      (parts : ∀ option ∈ options, Encodable option) : Encodable (.anyOf description options)
  | allOf {description : Json} {options : List Definition} (text : description.Regular)
      (parts : ∀ option ∈ options, Encodable option) : Encodable (.allOf description options)

/-! ## Changing keywords -/

/-- A change of the keywords that keeps them regular and keeps the kind of the type keeps a
fragment encodable. -/
theorem Encodable.mapHead {change : TypedHead → TypedHead}
    (regular : ∀ head : TypedHead, head.Regular → (change head).Regular)
    (primary : ∀ head, Reading.primaryType (change head).type = Reading.primaryType head.type)
    {definition : Definition} (h : definition.Encodable) :
    (definition.mapHead change).Encodable := by
  have hkind : ∀ head type, HasPrimary (change head) type ↔ HasPrimary head type :=
    fun head type => by rw [HasPrimary, HasPrimary, primary]
  cases h with
  | value keywords entries notObject notArray =>
      exact .value (regular _ keywords) entries (by rwa [hkind]) (by rwa [hkind])
  | array keywords kind parts => exact .array (regular _ keywords) (by rwa [hkind]) parts
  | object keywords kind names parts listed plain schema =>
      exact .object (regular _ keywords) (by rwa [hkind]) names parts listed plain schema
  | reference address text => exact .reference address text
  | oneOf text parts block => exact .oneOf text parts block
  | anyOf text parts => exact .anyOf text parts
  | allOf text parts => exact .allOf text parts

/-- A union in place of the marker keeps a fragment encodable. -/
theorem Encodable.asUnion {definition : Definition} (h : definition.Encodable) :
    definition.asUnion.Encodable :=
  h.mapHead (fun _ => TypedHead.Regular.asUnion) TypedHead.primaryType_asUnion

/-- Another description keeps a fragment encodable. -/
theorem Encodable.withDescription {definition : Definition} (h : definition.Encodable)
    {description : Json} (regular : description.Regular) :
    (definition.withDescription description).Encodable := by
  have htyped : ∀ head : TypedHead, head.Regular →
      ({ head with description := description } : TypedHead).Regular :=
    fun head hhead => ⟨hhead.type, regular, hhead.nullable, hhead.default, hhead.const⟩
  cases h with
  | value keywords entries notObject notArray =>
      exact (Encodable.value keywords entries notObject notArray).mapHead htyped fun _ => rfl
  | array keywords kind parts =>
      exact (Encodable.array keywords kind parts).mapHead htyped fun _ => rfl
  | object keywords kind names parts listed plain schema =>
      exact (Encodable.object keywords kind names parts listed plain schema).mapHead htyped
        fun _ => rfl
  | reference address text => exact .reference address regular
  | oneOf text parts block => exact .oneOf regular parts block
  | anyOf text parts => exact .anyOf regular parts
  | allOf text parts => exact .allOf regular parts

/-! ## Encodable fragments are readable -/

/-- An encodable fragment has the shape that a reader gives to fragments. -/
theorem Encodable.readable {definition : Definition} (h : definition.Encodable) :
    definition.Readable := by
  induction h with
  | value keywords entries notObject notArray => exact .value keywords entries notObject notArray
  | array keywords kind parts ih => exact .array keywords kind ih
  | object keywords kind names parts listed plain schema ihParts ihSchema =>
      exact .object keywords names ihParts listed plain ihSchema
  | reference address text => exact .reference address text
  | oneOf text parts block ih => exact .oneOf text ih block
  | anyOf text parts ih => exact .anyOf text ih
  | allOf text parts ih => exact .allOf text ih

/-- An encodable fragment has no bare object in it. -/
theorem Encodable.not_holdsBare {definition : Definition} (h : definition.Encodable) :
    ¬ definition.HoldsBare := by
  induction h with
  | value | reference => exact not_holdsBare_iff.mpr ⟨id, nofun⟩
  | array keywords kind parts ih =>
      exact not_holdsBare_iff.mpr ⟨id, (forall_mem_parts_array (¬ ·.HoldsBare)).mpr ih⟩
  | @object head properties required additional keywords kind names parts listed plain schema
      ihParts ihSchema =>
      refine not_holdsBare_iff.mpr
        ⟨?_, (forall_mem_parts_object (¬ ·.HoldsBare)).mpr ⟨ihParts, ihSchema⟩⟩
      cases properties with
      | none => exact not_not_intro (kind.resolve_left nofun)
      | some table => exact id
  | oneOf text parts block ih | anyOf text parts ih | allOf text parts ih =>
      exact not_holdsBare_iff.mpr ⟨id, List.forall_mem_map.mpr ih⟩

end Definition

/-! ## Bodies and documents -/

/-- Named fragments with distinct names, each of them encodable. -/
structure EncodableTable (table : Table String Definition) : Prop where
  names : (table.map Prod.fst).Nodup
  parts : ∀ entry ∈ table, entry.2.Encodable

/-- A body whose fragments are encodable and whose values are regular. -/
structure SchemaBody.Encodable (body : SchemaBody) : Prop where
  schemaUri : body.schemaUri.Regular
  id : body.id.Regular
  type : body.type.Regular
  description : body.description.Regular
  properties : ∀ table ∈ body.properties, EncodableTable table
  required : body.required.Regular
  additional : body.additional.Regular
  oneOf : ∀ options ∈ body.oneOf, ∀ option ∈ options, option.Encodable
  discriminator : ∀ block ∈ body.discriminator, block.Regular
  defs : ∀ table ∈ body.defs, EncodableTable table

/-- A document with an encodable body, whose strictness is a truth value. -/
structure SchemaDocument.Encodable (document : SchemaDocument) : Prop where
  name : document.name.Regular
  strict : ∃ strict, document.strict = .bool strict
  description : document.description.Regular
  body : document.body.Encodable

/-- A tool with encodable parameters, which says that it is one and whose strictness is a
truth value. -/
structure ToolDocument.Encodable (document : ToolDocument) : Prop where
  type : document.type = .str "function"
  name : document.name.Regular
  description : document.description.Regular
  strict : ∃ strict, document.strict = .bool strict
  parameters : document.parameters.Encodable

/-- A table of encodable fragments is readable. -/
theorem EncodableTable.readable {table : Table String Definition} (h : EncodableTable table) :
    ReadableTable table :=
  ⟨h.names, fun entry mem => (h.parts entry mem).readable⟩

theorem SchemaBody.Encodable.readable {body : SchemaBody} (h : body.Encodable) :
    body.Readable where
  schemaUri := h.schemaUri
  id := h.id
  type := h.type
  description := h.description
  properties table mem := (h.properties table mem).readable
  required := h.required
  additional := h.additional
  oneOf options mem option hoption := (h.oneOf options mem option hoption).readable
  discriminator := h.discriminator
  defs table mem := (h.defs table mem).readable

/-- An encodable body has no bare object in it. -/
theorem SchemaBody.Encodable.not_holdsBare {body : SchemaBody} (h : body.Encodable) :
    ¬ body.HoldsBare :=
  SchemaBody.not_holdsBare_iff.mpr
    ⟨fun table mem entry hentry => ((h.properties table mem).parts entry hentry).not_holdsBare,
      fun options mem option hoption => (h.oneOf options mem option hoption).not_holdsBare,
      fun table mem entry hentry => ((h.defs table mem).parts entry hentry).not_holdsBare⟩

/-- An encodable document is readable. -/
theorem SchemaDocument.Encodable.readable {document : SchemaDocument} (h : document.Encodable) :
    document.Readable :=
  ⟨h.name, h.strict, h.description, h.body.readable⟩

theorem ToolDocument.Encodable.readable {document : ToolDocument} (h : document.Encodable) :
    document.Readable :=
  ⟨h.type, h.name, h.description, h.strict, h.parameters.readable⟩

/-- An encodable document is the same as itself. -/
theorem SchemaDocument.Encodable.same_self {document : SchemaDocument} (h : document.Encodable) :
    document.same document = true :=
  h.readable.same_self

/-- An encodable tool is the same as itself. -/
theorem ToolDocument.Encodable.same_self {document : ToolDocument} (h : document.Encodable) :
    document.same document = true :=
  h.readable.same_self

end Schemata
