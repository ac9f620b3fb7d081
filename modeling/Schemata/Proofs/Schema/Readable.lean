import Schemata.Proofs.Json.Regular
import Schemata.Proofs.Schema.Positions
import Schemata.Schema.Decoding
import Schemata.Schema.Equality
import Schemata.Schema.Rendering

/-!
# Fragments as a reader gives them

A reader gives fragments of a certain shape: the kind of a fragment agrees with its type, and
properties have distinct names.  When their values are regular, the rendering of such a
fragment is regular too, and the fragment is the same as itself.

Main results:

- Theorems {lit}`Definition.Readable.regular`, {lit}`SchemaDocument.Readable.regular` and
  {lit}`ToolDocument.Readable.regular`: the rendering of what a reader gives is a regular
  value.
- Theorems {lit}`Definition.Readable.same_self`, {lit}`SchemaDocument.Readable.same_self` and
  {lit}`ToolDocument.Readable.same_self`: what a reader gives is the same as itself.
-/

namespace Schemata

/-- The values of the keywords that fragments with a type share are regular. -/
structure TypedHead.Regular (head : TypedHead) : Prop where
  type : head.type.Regular
  description : head.description.Regular
  nullable : head.nullable.Regular
  default : head.default.Regular
  const : head.const.Regular

/-- The values of a discriminator block are regular. -/
structure DiscriminatorBlock.Regular (block : DiscriminatorBlock) : Prop where
  propertyName : block.propertyName.Regular
  mapping : block.mapping.Regular

namespace Definition

/-- The type, or the first of the types that is not null, is the given one. -/
def HasPrimary (head : TypedHead) (type : String) : Prop :=
  Reading.primaryType head.type = .str type

/-- A fragment of the shape that a reader gives to fragments, with regular values: a type
that tells objects or arrays is that of no plain value, an array has items or the type, and
properties have distinct names. -/
inductive Readable : Definition → Prop
  | value {head : TypedHead} {enum : Json} (keywords : head.Regular) (entries : enum.Regular)
      (notObject : ¬ HasPrimary head "object") (notArray : ¬ HasPrimary head "array") :
      Readable (.value head enum)
  | array {head : TypedHead} {items : Option Definition} (keywords : head.Regular)
      (kind : items.isSome = true ∨ HasPrimary head "array")
      (parts : ∀ fragment ∈ items, Readable fragment) : Readable (.array head items)
  | object {head : TypedHead} {properties : Option (List (String × Definition))}
      {required : Json} {additional : Additional Definition} (keywords : head.Regular)
      (names : ∀ table ∈ properties, (table.map Prod.fst).Nodup)
      (parts : ∀ table ∈ properties, ∀ entry ∈ table, Readable entry.2)
      (listed : required.Regular)
      (plain : ∀ content, additional = .plain content →
        content.Regular ∧ ∀ members, content ≠ .obj members)
      (schema : ∀ fragment, additional = .schema fragment → Readable fragment) :
      Readable (.object head properties required additional)
  | reference {target description : Json} (address : target.Regular)
      (text : description.Regular) : Readable (.reference target description)
  | oneOf {description : Json} {options : List Definition}
      {discriminator : Option DiscriminatorBlock} (text : description.Regular)
      (parts : ∀ option ∈ options, Readable option)
      (block : ∀ block ∈ discriminator, block.Regular) :
      Readable (.oneOf description options discriminator)
  | anyOf {description : Json} {options : List Definition} (text : description.Regular)
      (parts : ∀ option ∈ options, Readable option) : Readable (.anyOf description options)
  | allOf {description : Json} {options : List Definition} (text : description.Regular)
      (parts : ∀ option ∈ options, Readable option) : Readable (.allOf description options)

/-! ## Bare objects -/

/-- An object that neither properties nor its type tell. -/
def IsBare : Definition → Prop
  | .object head none _ _ => ¬ HasPrimary head "object"
  | _ => False

/-- A fragment that is a bare object or has one in it, at any depth. -/
inductive HoldsBare : Definition → Prop
  | here {definition : Definition} (bare : definition.IsBare) : HoldsBare definition
  | within {definition inner : Definition} {position : Position}
      (mem : (position, inner) ∈ definition.parts) (holds : HoldsBare inner) :
      HoldsBare definition

/-- No object is bare in a fragment when it is not, and none is in its parts. -/
theorem not_holdsBare_iff {definition : Definition} :
    ¬ definition.HoldsBare ↔
      ¬ definition.IsBare ∧ ∀ part ∈ definition.parts, ¬ part.2.HoldsBare := by
  constructor
  · exact fun h => ⟨fun bare => h (.here bare), fun part mem holds => h (.within mem holds)⟩
  · rintro ⟨notBare, none⟩ h
    cases h with
    | here bare => exact notBare bare
    | within mem holds => exact none _ mem holds

end Definition

/-- A body with a bare object in it, at any depth. -/
def SchemaBody.HoldsBare (body : SchemaBody) : Prop :=
  ∃ part ∈ body.parts, part.2.HoldsBare

/-- No object is bare in a body when none is in its properties, choices and definitions. -/
theorem SchemaBody.not_holdsBare_iff {body : SchemaBody} :
    ¬ body.HoldsBare ↔
      (∀ table ∈ body.properties, ∀ entry ∈ table, ¬ entry.2.HoldsBare) ∧
        (∀ options ∈ body.oneOf, ∀ option ∈ options, ¬ option.HoldsBare) ∧
        ∀ table ∈ body.defs, ∀ entry ∈ table, ¬ entry.2.HoldsBare := by
  have hparts := body.forall_mem_parts (¬ ·.HoldsBare)
  simpa only [HoldsBare, not_exists, not_and] using hparts

/-! ## Regular renderings -/

/-- The keywords are among the given names, in their order, and have regular values. -/
structure RegularKeywords (names : List String) (members : List (String × Json)) : Prop where
  order : (members.map Prod.fst).Sublist names
  values : ∀ member ∈ members, member.2.Regular

namespace RegularKeywords

variable {names others : List String} {members more : List (String × Json)}

theorem append (first : RegularKeywords names members) (second : RegularKeywords others more) :
    RegularKeywords (names ++ others) (members ++ more) where
  order := by
    rw [List.map_append]
    exact first.order.append second.order
  values member hmember := (List.mem_append.mp hmember).elim (first.values _) (second.values _)

theorem nil : RegularKeywords names [] where
  order := List.nil_sublist _
  values _ hmember := absurd hmember List.not_mem_nil

theorem single (name : String) {value : Json} (regular : value.Regular) :
    RegularKeywords [name] [(name, value)] where
  order := List.Sublist.refl _
  values member hmember := by
    rw [List.mem_singleton.mp hmember]
    exact regular

/-- A keyword that is left out for null is regular when its value is. -/
theorem keyword (name : String) {value : Json} (regular : value.Regular) :
    RegularKeywords [name] (keyword name value) := by
  unfold Schemata.keyword
  split
  · exact nil
  · exact single name regular

/-- Keywords with distinct names make up a regular object. -/
theorem regular (keywords : RegularKeywords names members) (distinct : names.Nodup) :
    (Json.obj members).Regular :=
  .obj (keywords.order.nodup distinct) keywords.values

end RegularKeywords

theorem TypedHead.Regular.opening {head : TypedHead} (h : head.Regular) :
    RegularKeywords ["type", "description", "nullable"] head.opening :=
  ((RegularKeywords.single _ h.type).append (.keyword _ h.description)).append
    (.keyword _ h.nullable)

theorem TypedHead.Regular.closing {head : TypedHead} (h : head.Regular) :
    RegularKeywords ["default", "const"] head.closing :=
  (RegularKeywords.keyword _ h.default).append (.keyword _ h.const)

theorem DiscriminatorBlock.Regular.toJson {block : DiscriminatorBlock} (h : block.Regular) :
    block.toJson.Regular :=
  ((RegularKeywords.single _ h.propertyName).append (.keyword _ h.mapping)).regular (by decide)

/-- The entry of a discriminator is regular, when there is one. -/
theorem DiscriminatorBlock.regular_entry {discriminator : Option DiscriminatorBlock}
    (h : ∀ block ∈ discriminator, block.Regular) :
    RegularKeywords ["discriminator"] (entry discriminator) := by
  cases discriminator with
  | none => exact .nil
  | some block => exact .single _ (h block rfl).toJson

namespace Definition

/-- The renderings of fragments are regular when each of them is. -/
theorem regular_toJsons {options : List Definition}
    (all : ∀ option ∈ options, option.toJson.Regular) :
    ∀ value ∈ toJsons options, value.Regular := by
  induction options with
  | nil => exact fun value hvalue => absurd hvalue List.not_mem_nil
  | cons option options ih =>
      rw [List.forall_mem_cons] at all
      exact List.forall_mem_cons.mpr ⟨all.1, ih all.2⟩

/-- Options are a regular keyword when each of them renders regularly. -/
theorem regular_options {name : String} {options : List Definition}
    (all : ∀ option ∈ options, option.toJson.Regular) :
    RegularKeywords [name] [(name, .arr (toJsons options))] :=
  .single name (.arr (regular_toJsons all))

theorem map_fst_toMembers (table : List (String × Definition)) :
    (toMembers table).map Prod.fst = table.map Prod.fst := by
  induction table with
  | nil => rfl
  | cons entry table ih =>
      rcases entry with ⟨name, definition⟩
      rw [toMembers, List.map_cons, List.map_cons, ih]

/-- Named fragments are regular when their names are distinct and each of them is. -/
theorem regular_toMembers {table : List (String × Definition)}
    (distinct : (table.map Prod.fst).Nodup) (all : ∀ entry ∈ table, entry.2.toJson.Regular) :
    (Json.obj (toMembers table)).Regular := by
  refine .obj (by rwa [map_fst_toMembers]) ?_
  clear distinct
  induction table with
  | nil => exact fun member hmember => absurd hmember List.not_mem_nil
  | cons entry table ih =>
      rcases entry with ⟨name, definition⟩
      rw [List.forall_mem_cons] at all
      exact List.forall_mem_cons.mpr ⟨all.1, ih all.2⟩

/-- The rendering of a readable fragment is a regular value. -/
theorem Readable.regular {definition : Definition} (h : definition.Readable) :
    definition.toJson.Regular := by
  induction h with
  | value keywords entries notObject notArray =>
      rw [toJson]
      exact ((keywords.opening.append (.keyword _ entries)).append keywords.closing).regular
        (by decide)
  | @array head items keywords kind parts ih =>
      have hitems : RegularKeywords ["items"] (itemsEntry items) := by
        cases items with
        | none => exact .nil
        | some fragment => exact .single _ (ih fragment rfl)
      rw [toJson]
      exact ((keywords.opening.append hitems).append keywords.closing).regular (by decide)
  | @object head properties required additional keywords names parts listed plain schema
      ihParts ihSchema =>
      have hproperties : RegularKeywords ["properties"] (propertiesEntry properties) := by
        cases properties with
        | none => exact .nil
        | some table => exact .single _ (regular_toMembers (names table rfl) (ihParts table rfl))
      have hadditional : RegularKeywords ["additionalProperties"] (additionalEntry additional) := by
        cases additional with
        | plain content => exact .keyword _ (plain content rfl).1
        | schema fragment => exact .single _ (ihSchema fragment rfl)
      rw [toJson]
      exact ((((keywords.opening.append hproperties).append (.keyword _ listed)).append
        hadditional).append keywords.closing).regular (by decide)
  | reference address text =>
      rw [toJson]
      exact ((RegularKeywords.single _ address).append (.keyword _ text)).regular (by decide)
  | oneOf text parts block ih =>
      rw [toJson]
      exact ((RegularKeywords.keyword _ text).append
        ((regular_options ih).append (DiscriminatorBlock.regular_entry block))).regular (by decide)
  | anyOf text parts ih =>
      rw [toJson]
      exact ((RegularKeywords.keyword _ text).append (regular_options ih)).regular (by decide)
  | allOf text parts ih =>
      rw [toJson]
      exact ((RegularKeywords.keyword _ text).append (regular_options ih)).regular (by decide)

end Definition

/-! ## Equality with itself -/

/-- A head with regular values is the same as itself. -/
theorem TypedHead.Regular.same_self {head : TypedHead} (h : head.Regular) :
    head.same head = true := by
  simp only [TypedHead.same, h.type.same_self, h.description.same_self, h.nullable.same_self,
    h.default.same_self, h.const.same_self, Bool.and_self]

/-- A discriminator with regular values is the same as itself. -/
theorem DiscriminatorBlock.Regular.same_self {block : DiscriminatorBlock} (h : block.Regular) :
    block.same block = true := by
  simp only [DiscriminatorBlock.same, h.propertyName.same_self, h.mapping.same_self, Bool.and_self]

/-- An optional part is the same as itself when it is where it is present. -/
theorem sameOption_self {α : Type} {same : α → α → Bool} {part : Option α}
    (h : ∀ value ∈ part, same value value = true) : sameOption same part part = true := by
  cases part with
  | none => rfl
  | some value => exact h value rfl

namespace Definition

/-- Options are the same as themselves when each of them is. -/
theorem sameAll_self {options : List Definition}
    (all : ∀ option ∈ options, option.same option = true) : sameAll options options = true := by
  induction options with
  | nil => rw [sameAll]
  | cons option options ih =>
      rw [List.forall_mem_cons] at all
      simp only [sameAll, all.1, ih all.2, Bool.and_self]

/-- Named fragments that are found under their names on the other side, and are the same
as themselves, are the same as the other side. -/
theorem sameTable_of_find? {table others : List (String × Definition)}
    (found : ∀ entry ∈ table, Table.find? others entry.1 = some entry.2)
    (all : ∀ entry ∈ table, entry.2.same entry.2 = true) : sameTable table others = true := by
  induction table with
  | nil => rw [sameTable]
  | cons entry table ih =>
      rcases entry with ⟨name, definition⟩
      rw [List.forall_mem_cons] at found all
      simp only [sameTable, found.1, all.1, ih found.2 all.2, Bool.and_self]

/-- Properties with distinct names are the same as themselves when each of them is. -/
theorem sameProperties_self {properties : Option (List (String × Definition))}
    (names : ∀ table ∈ properties, (table.map Prod.fst).Nodup)
    (all : ∀ table ∈ properties, ∀ entry ∈ table, entry.2.same entry.2 = true) :
    sameProperties properties properties = true := by
  cases properties with
  | none => rw [sameProperties]
  | some table =>
      have found : ∀ entry ∈ table, Table.find? table entry.1 = some entry.2 :=
        fun entry hentry => Table.find?_of_mem (names table rfl) hentry
      simp only [sameProperties, beq_self_eq_true, Bool.true_and]
      exact sameTable_of_find? found (all table rfl)

/-- A readable fragment is the same as itself. -/
theorem Readable.same_self {definition : Definition} (h : definition.Readable) :
    definition.same definition = true := by
  induction h with
  | value keywords entries notObject notArray =>
      simp only [same, keywords.same_self, entries.same_self, Bool.and_self]
  | @array head items keywords kind parts ih =>
      have hitems : sameItems items items = true := by
        cases items with
        | none => rw [sameItems]
        | some fragment =>
            rw [sameItems]
            exact ih fragment rfl
      simp only [same, keywords.same_self, hitems, Bool.and_self]
  | @object head properties required additional keywords names parts listed plain schema
      ihParts ihSchema =>
      have hadditional : sameAdditional additional additional = true := by
        cases additional with
        | plain content =>
            rw [sameAdditional]
            exact (plain content rfl).1.same_self
        | schema fragment =>
            rw [sameAdditional]
            exact ihSchema fragment rfl
      simp only [same, keywords.same_self, sameProperties_self names ihParts, listed.same_self,
        hadditional, Bool.and_self]
  | reference address text => simp only [same, address.same_self, text.same_self, Bool.and_self]
  | oneOf text parts block ih =>
      simp only [same, text.same_self, sameAll_self ih,
        sameOption_self fun value hvalue => (block value hvalue).same_self, Bool.and_self]
  | anyOf text parts ih => simp only [same, text.same_self, sameAll_self ih, Bool.and_self]
  | allOf text parts ih => simp only [same, text.same_self, sameAll_self ih, Bool.and_self]

end Definition

/-! ## Bodies and documents -/

/-- Named fragments with distinct names, each of them readable. -/
structure ReadableTable (table : Table String Definition) : Prop where
  names : (table.map Prod.fst).Nodup
  parts : ∀ entry ∈ table, entry.2.Readable

/-- A body whose fragments are readable and whose values are regular. -/
structure SchemaBody.Readable (body : SchemaBody) : Prop where
  schemaUri : body.schemaUri.Regular
  id : body.id.Regular
  type : body.type.Regular
  description : body.description.Regular
  properties : ∀ table ∈ body.properties, ReadableTable table
  required : body.required.Regular
  additional : body.additional.Regular
  oneOf : ∀ options ∈ body.oneOf, ∀ option ∈ options, option.Readable
  discriminator : ∀ block ∈ body.discriminator, block.Regular
  defs : ∀ table ∈ body.defs, ReadableTable table

/-- A document with a readable body, whose strictness is a truth value. -/
structure SchemaDocument.Readable (document : SchemaDocument) : Prop where
  name : document.name.Regular
  strict : ∃ strict, document.strict = .bool strict
  description : document.description.Regular
  body : document.body.Readable

/-- A tool with readable parameters, which says that it is one and whose strictness is a
truth value. -/
structure ToolDocument.Readable (document : ToolDocument) : Prop where
  type : document.type = .str "function"
  name : document.name.Regular
  description : document.description.Regular
  strict : ∃ strict, document.strict = .bool strict
  parameters : document.parameters.Readable

/-- The entry of a readable table is regular, when there is one. -/
theorem ReadableTable.regular_entry {table : Option (Table String Definition)} (name : String)
    (h : ∀ entries ∈ table, ReadableTable entries) :
    RegularKeywords [name] (tableEntry name table) := by
  cases table with
  | none => exact .nil
  | some entries =>
      have hentries := h entries rfl
      exact .single _ (Definition.regular_toMembers hentries.names
        fun entry hentry => (hentries.parts entry hentry).regular)

/-- A readable table is the same as itself. -/
theorem ReadableTable.same_self {table : Option (Table String Definition)}
    (h : ∀ entries ∈ table, ReadableTable entries) :
    Definition.sameProperties table table = true :=
  Definition.sameProperties_self (fun entries hentries => (h entries hentries).names)
    fun entries hentries entry hentry => ((h entries hentries).parts entry hentry).same_self

namespace SchemaBody

/-- The rendering of a readable body is a regular value. -/
theorem Readable.regular {body : SchemaBody} (h : body.Readable) : body.toJson.Regular := by
  have hfront : RegularKeywords ["$schema", "$id"]
      (keyword "$schema" body.schemaUri ++ keyword "$id" body.id) :=
    (RegularKeywords.keyword _ h.schemaUri).append (.keyword _ h.id)
  have htype : RegularKeywords ["type", "description"]
      (("type", body.type) :: keyword "description" body.description) :=
    (RegularKeywords.single _ h.type).append (.keyword _ h.description)
  have hobject : RegularKeywords ["properties", "required", "additionalProperties"]
      (tableEntry "properties" body.properties ++ keyword "required" body.required ++
        keyword "additionalProperties" body.additional) :=
    ((ReadableTable.regular_entry _ h.properties).append (.keyword _ h.required)).append
      (.keyword _ h.additional)
  have hdefs := ReadableTable.regular_entry "$defs" h.defs
  have hall : ∀ options, RegularKeywords ["oneOf"] options → (Json.obj _).Regular :=
    fun options hoptions => ((((hfront.append htype).append hobject).append hoptions).append
      ((DiscriminatorBlock.regular_entry h.discriminator).append hdefs)).regular (by decide)
  rw [toJson]
  simp only [List.append_assoc] at hall ⊢
  refine hall _ ?_
  split
  · exact .nil
  · next options hbody =>
      exact Definition.regular_options fun option hoption =>
        (h.oneOf options hbody option hoption).regular

/-- A readable body is the same as itself. -/
theorem Readable.same_self {body : SchemaBody} (h : body.Readable) :
    body.same body = true := by
  have hoptions : sameOption Definition.sameAll body.oneOf body.oneOf = true :=
    sameOption_self fun options hoptions =>
      Definition.sameAll_self fun option hoption =>
        (h.oneOf options hoptions option hoption).same_self
  have hblock : sameOption DiscriminatorBlock.same body.discriminator body.discriminator = true :=
    sameOption_self fun block hblock => (h.discriminator block hblock).same_self
  simp only [same, h.schemaUri.same_self, h.id.same_self, h.type.same_self,
    h.description.same_self, ReadableTable.same_self h.properties, h.required.same_self,
    h.additional.same_self, hoptions, hblock, ReadableTable.same_self h.defs, Bool.and_self]

end SchemaBody

namespace SchemaDocument

/-- The rendering of a readable document is a regular value. -/
theorem Readable.regular {document : SchemaDocument} (h : document.Readable) :
    document.toJson.Regular := by
  rcases h.strict with ⟨strict, hstrict⟩
  have hvalue : document.strict.Regular := hstrict ▸ .bool strict
  exact ((RegularKeywords.single "name" h.name).append
    ((RegularKeywords.single "strict" hvalue).append
      ((RegularKeywords.keyword "description" h.description).append
        (.single "schema" h.body.regular)))).regular (by decide)

/-- A readable document is the same as itself. -/
theorem Readable.same_self {document : SchemaDocument} (h : document.Readable) :
    document.same document = true := by
  rcases h.strict with ⟨strict, hstrict⟩
  simp only [same, h.name.same_self, hstrict, (Json.Regular.bool strict).same_self,
    h.description.same_self, h.body.same_self, Bool.and_self]

end SchemaDocument

namespace ToolDocument

/-- The rendering of a readable tool is a regular value. -/
theorem Readable.regular {document : ToolDocument} (h : document.Readable) :
    document.toJson.Regular := by
  rcases h.strict with ⟨strict, hstrict⟩
  have htype : document.type.Regular := h.type ▸ .str "function"
  have hvalue : document.strict.Regular := hstrict ▸ .bool strict
  exact ((RegularKeywords.single "type" htype).append
    ((RegularKeywords.single "name" h.name).append
      ((RegularKeywords.single "description" h.description).append
        ((RegularKeywords.single "strict" hvalue).append
          (.single "parameters" h.parameters.regular))))).regular (by decide)

/-- A readable tool is the same as itself. -/
theorem Readable.same_self {document : ToolDocument} (h : document.Readable) :
    document.same document = true := by
  rcases h.strict with ⟨strict, hstrict⟩
  simp only [same, h.type, (Json.Regular.str "function").same_self, h.name.same_self,
    h.description.same_self, hstrict, (Json.Regular.bool strict).same_self,
    h.parameters.same_self, Bool.and_self]

end ToolDocument

end Schemata
