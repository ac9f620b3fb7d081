import Schemata.Proofs.Json.RoundTrip
import Schemata.Proofs.Schema.Encodable
import Schemata.Proofs.Schema.Reading

/-!
# Renderings read back

A fragment that a reader gives is read back from its rendering, with every keyword in its
place.  The rendering leaves null out, so the reader may take an object without properties for
a fragment of another kind: such a fragment has neither the keyword nor, perhaps, the type that
tells an object.  Everything else is read back as it was, and an encodable fragment has no such
object in it.

Main results:

- Definition {lit}`Definition.reread`: the fragment that a reader finds in a rendering.
- Theorem {lit}`Definition.Readable.decode_toJson`: a readable fragment is read back from its
  rendering as that fragment.
- Theorems {lit}`SchemaDocument.Readable.decode_encode` and
  {lit}`ToolDocument.Readable.decode_encode`: so is a readable document from its text.
- Theorems {lit}`SchemaDocument.Encodable.decode_encode` and
  {lit}`ToolDocument.Encodable.decode_encode`: an encodable document is read back as it was.
-/

namespace Schemata

namespace Definition

/-! ## What a reader finds -/

/-- What a reader takes an object without properties for. -/
def rereadBare (head : TypedHead) (required : Json) (additional : Additional Definition) :
    Definition :=
  if (Reading.primaryType head.type).isText "object" then .object head none required additional
  else if (Reading.primaryType head.type).isText "array" then .array head none
  else .value head .null

mutual

/-- The fragment that a reader finds in the rendering of a fragment. -/
def reread : Definition → Definition
  | .value head enum => .value head enum
  | .array head items => .array head (rereadItems items)
  | .object head none required additional =>
    rereadBare head required (rereadAdditional additional)
  | .object head (some properties) required additional =>
    .object head (some (rereadTable properties)) required (rereadAdditional additional)
  | .reference target description => .reference target description
  | .oneOf description options discriminator => .oneOf description (rereadAll options) discriminator
  | .anyOf description options => .anyOf description (rereadAll options)
  | .allOf description options => .allOf description (rereadAll options)

/-- The alternatives that a reader finds. -/
def rereadAll : List Definition → List Definition
  | [] => []
  | option :: options => reread option :: rereadAll options

/-- The named fragments that a reader finds. -/
def rereadTable : List (String × Definition) → List (String × Definition)
  | [] => []
  | (name, definition) :: rest => (name, reread definition) :: rereadTable rest

/-- The items of an array that a reader finds. -/
def rereadItems : Option Definition → Option Definition
  | none => none
  | some items => some (reread items)

/-- What a reader finds about members without a name. -/
def rereadAdditional : Additional Definition → Additional Definition
  | .plain content => .plain content
  | .schema fragment => .schema (reread fragment)

end

/-- The rendering of the fragment is read as the fragment that a reader finds in it. -/
def Rereads (definition : Definition) : Prop :=
  decode definition.toJson = .ok definition.reread

/-! ## Reading parts -/

/-- The rendering of a fragment is an object. -/
theorem exists_toJson (definition : Definition) : ∃ members, definition.toJson = .obj members := by
  cases definition <;> exact ⟨_, by simp only [toJson]; rfl⟩

/-- Alternatives are read back when each of them is. -/
theorem options_toJsons {options : List Definition} (parts : ∀ option ∈ options, Rereads option) :
    (Reading.ofJson (.arr (toJsons options))).options = .ok (rereadAll options) := by
  change (Reading.ofItems (toJsons options)).mapM (·.fragment) = _
  induction options with
  | nil => rfl
  | cons option options ih =>
      rw [List.forall_mem_cons] at parts
      have hfirst : (Reading.ofJson option.toJson).fragment = .ok option.reread := parts.1
      rw [toJsons, Reading.ofItems, List.mapM_cons, hfirst, ih parts.2]
      rfl

/-- Named fragments are read back when each of them is. -/
theorem table_toMembers {table : List (String × Definition)}
    (parts : ∀ entry ∈ table, Rereads entry.2) :
    (Reading.ofJson (.obj (toMembers table))).table = .ok (rereadTable table) := by
  change (Reading.ofMembers (toMembers table)).mapM
    (fun part => do return (part.1, ← part.2.fragment)) = _
  induction table with
  | nil => rfl
  | cons entry table ih =>
      rcases entry with ⟨name, definition⟩
      rw [List.forall_mem_cons] at parts
      have hfirst : (Reading.ofJson definition.toJson).fragment = .ok definition.reread := parts.1
      rw [toMembers, Reading.ofMembers, List.mapM_cons, hfirst, ih parts.2]
      rfl

@[simp] theorem find?_propertiesEntry_of_ne {name : String} (different : name ≠ "properties")
    (properties : Option (List (String × Definition))) :
    Table.find? (propertiesEntry properties) name = none := by
  cases properties with
  | none => rfl
  | some table => simp [propertiesEntry, Table.find?_cons, different]

@[simp] theorem find?_additionalEntry_of_ne {name : String}
    (different : name ≠ "additionalProperties") (additional : Additional Definition) :
    Table.find? (additionalEntry additional) name = none := by
  cases additional with
  | plain content => simp [additionalEntry, different]
  | schema fragment => simp [additionalEntry, Table.find?_cons, different]

/-- Named fragments under a keyword are read back when each of them is. -/
theorem table?_of_find? {members : List (String × Json)} {name : String}
    (table : Option (List (String × Definition)))
    (found : Table.find? members name = table.map fun table => .obj (toMembers table))
    (parts : ∀ entries ∈ table, ∀ entry ∈ entries, Rereads entry.2) :
    Reading.table? (Reading.ofMembers members) name = .ok (table.map rereadTable) := by
  rw [Reading.table?_ofMembers, found]
  cases table with
  | none => rfl
  | some entries => simp [table_toMembers (parts entries rfl)]

/-- What an object says about other members is read back when its fragment is. -/
theorem additionalOf_of_find? {members : List (String × Json)} {additional : Additional Definition}
    (found : Table.find? members "additionalProperties" =
      Table.find? (additionalEntry additional) "additionalProperties")
    (plain : ∀ content, additional = .plain content → ∀ members, content ≠ .obj members)
    (schema : ∀ fragment, additional = .schema fragment → Rereads fragment) :
    Reading.additionalOf (Reading.ofMembers members) = .ok (rereadAdditional additional) := by
  rw [Reading.additionalOf, Reading.find?_ofMembers, found]
  cases additional with
  | plain content =>
      cases content with
      | obj members => exact absurd rfl (plain _ rfl members)
      | null | bool | int | float | str | arr => rfl
  | schema fragment =>
      have hfragment : (Reading.ofJson fragment.toJson).fragment = .ok fragment.reread :=
        schema fragment rfl
      rcases fragment.exists_toJson with ⟨members, htext⟩
      rw [htext] at hfragment
      simp [additionalEntry, Table.find?_cons, htext, hfragment, rereadAdditional]

/-! ## Reading fragments -/

/-- A fragment is read back when its keywords give what a reader finds. -/
theorem Rereads.of_members {definition : Definition} {members : List (String × Json)}
    (text : definition.toJson = .obj members)
    (h : Reading.fragmentAs (Reading.ofMembers members) (Reading.kindOf members) =
      .ok definition.reread) :
    definition.Rereads := by
  rw [Rereads, text, decode, Reading.fragment_ofJson_obj]
  exact h

/-- A value is read back. -/
theorem Rereads.value {head : TypedHead} {enum : Json} (notObject : ¬ HasPrimary head "object")
    (notArray : ¬ HasPrimary head "array") : Rereads (.value head enum) := by
  refine .of_members (by rw [toJson]) ?_
  simp [Reading.kindOf, Reading.fragmentAs, Reading.headOf, TypedHead.opening, TypedHead.closing,
    Table.find?_append, Table.find?_cons, Json.isText_eq_false notObject,
    Json.isText_eq_false notArray, reread]

/-- An array is read back when its items are. -/
theorem Rereads.array {head : TypedHead} {items : Option Definition}
    (kind : items.isSome = true ∨ HasPrimary head "array")
    (parts : ∀ fragment ∈ items, Rereads fragment) : Rereads (.array head items) := by
  refine .of_members (by rw [toJson]) ?_
  cases items with
  | none =>
      have harray : HasPrimary head "array" := kind.resolve_left (by simp)
      have hobject : Reading.primaryType head.type ≠ .str "object" := by
        rw [HasPrimary] at harray
        simp [harray]
      simp [Reading.kindOf, Reading.fragmentAs, Reading.headOf, TypedHead.opening,
        TypedHead.closing, itemsEntry, Table.find?_append, Table.find?_cons,
        Json.isText_eq_false hobject, Json.isText_iff.mpr harray, reread, rereadItems]
  | some fragment =>
      have hitems : (Reading.ofJson fragment.toJson).fragment = .ok fragment.reread :=
        parts fragment rfl
      simp [Reading.kindOf, Reading.fragmentAs, Reading.headOf, TypedHead.opening,
        TypedHead.closing, itemsEntry, Table.find?_append, Table.find?_cons, hitems, reread,
        rereadItems]

/-- A choice is read back when its alternatives are. -/
theorem Rereads.oneOf {description : Json} {options : List Definition}
    {discriminator : Option DiscriminatorBlock} (parts : ∀ option ∈ options, Rereads option) :
    Rereads (.oneOf description options discriminator) := by
  refine .of_members (by rw [toJson]) ?_
  simp [Reading.kindOf, Reading.fragmentAs, options_toJsons parts, Table.find?_append,
    Table.find?_cons, reread, pure, Except.pure]

/-- Alternatives without a discriminator are read back when each of them is. -/
theorem Rereads.anyOf {description : Json} {options : List Definition}
    (parts : ∀ option ∈ options, Rereads option) : Rereads (.anyOf description options) := by
  refine .of_members (by rw [toJson]) ?_
  simp [Reading.kindOf, Reading.fragmentAs, options_toJsons parts, Table.find?_append,
    Table.find?_cons, reread]

/-- Combined fragments are read back when each of them is. -/
theorem Rereads.allOf {description : Json} {options : List Definition}
    (parts : ∀ option ∈ options, Rereads option) : Rereads (.allOf description options) := by
  refine .of_members (by rw [toJson]) ?_
  simp [Reading.kindOf, Reading.fragmentAs, options_toJsons parts, Table.find?_append,
    Table.find?_cons, reread]

/-- A reference is read back. -/
theorem Rereads.reference (target description : Json) :
    Rereads (.reference target description) := by
  refine .of_members (by rw [toJson]) ?_
  simp [Reading.kindOf, Reading.fragmentAs, Table.find?_cons, reread]

section Objects

variable {head : TypedHead} {required : Json} {additional : Additional Definition}

/-- The keywords of an object are read back when its parts are. -/
theorem fragmentAs_object {properties : Option (List (String × Definition))}
    (parts : ∀ table ∈ properties, ∀ entry ∈ table, Rereads entry.2)
    (plain : ∀ content, additional = .plain content → ∀ members, content ≠ .obj members)
    (schema : ∀ fragment, additional = .schema fragment → Rereads fragment) :
    Reading.fragmentAs (Reading.ofMembers (head.opening ++ propertiesEntry properties ++
        keyword "required" required ++ additionalEntry additional ++ head.closing)) .object =
      .ok (.object head (properties.map rereadTable) required (rereadAdditional additional)) := by
  rw [Reading.fragmentAs, table?_of_find? properties ?_ parts,
    additionalOf_of_find? ?_ plain schema]
  · simp [Reading.headOf, TypedHead.opening, TypedHead.closing, Table.find?_append,
      Table.find?_cons, pure, Except.pure]
  · simp [TypedHead.opening, TypedHead.closing, Table.find?_append, Table.find?_cons]
  · cases properties <;> simp [TypedHead.opening, TypedHead.closing, propertiesEntry,
      Table.find?_append, Table.find?_cons]

/-- An object with properties is read back when its parts are. -/
theorem Rereads.object {properties : List (String × Definition)}
    (parts : ∀ entry ∈ properties, Rereads entry.2)
    (plain : ∀ content, additional = .plain content → ∀ members, content ≠ .obj members)
    (schema : ∀ fragment, additional = .schema fragment → Rereads fragment) :
    Rereads (.object head (some properties) required additional) := by
  have hparts : ∀ table ∈ some properties, ∀ entry ∈ table, Rereads entry.2 := by
    rintro table ⟨⟩
    exact parts
  refine .of_members (by rw [toJson]) ?_
  rw [show Reading.kindOf _ = .object by
    simp [Reading.kindOf, TypedHead.opening, TypedHead.closing, propertiesEntry,
      Table.find?_append, Table.find?_cons], fragmentAs_object hparts plain schema, reread]
  rfl

/-- An object without properties is read back by its type. -/
theorem Rereads.bare
    (plain : ∀ content, additional = .plain content → ∀ members, content ≠ .obj members)
    (schema : ∀ fragment, additional = .schema fragment → Rereads fragment) :
    Rereads (.object head none required additional) := by
  have hkind : Reading.kindOf (head.opening ++ propertiesEntry none ++
      keyword "required" required ++ additionalEntry additional ++ head.closing) =
        if (Reading.primaryType head.type).isText "object" then .object
        else if (Reading.primaryType head.type).isText "array" then .array none
        else .value := by
    simp [Reading.kindOf, TypedHead.opening, TypedHead.closing, propertiesEntry,
      Table.find?_append, Table.find?_cons]
  refine .of_members (by rw [toJson]) ?_
  rw [hkind, reread, rereadBare]
  split
  · exact fragmentAs_object (by simp) plain schema
  · split <;> simp [Reading.fragmentAs, Reading.headOf, TypedHead.opening, TypedHead.closing,
      propertiesEntry, Table.find?_append, Table.find?_cons]

end Objects

/-- A readable fragment is read back from its rendering as what a reader finds there. -/
theorem Readable.decode_toJson {definition : Definition} (h : definition.Readable) :
    definition.Rereads := by
  induction h with
  | value keywords entries notObject notArray => exact .value notObject notArray
  | array keywords kind parts ih => exact .array kind ih
  | @object head properties required additional keywords names parts listed plain schema ihParts
      ihSchema =>
      have hplain : ∀ content, additional = .plain content → ∀ members, content ≠ .obj members :=
        fun content hcontent => (plain content hcontent).2
      cases properties with
      | none => exact .bare hplain ihSchema
      | some table => exact .object (ihParts table rfl) hplain ihSchema
  | reference address text => exact .reference _ _
  | oneOf text parts block ih => exact .oneOf ih
  | anyOf text parts ih => exact .anyOf ih
  | allOf text parts ih => exact .allOf ih

/-! ## What is read back as it was -/

theorem rereadAll_eq_map (options : List Definition) :
    rereadAll options = options.map reread := by
  induction options with
  | nil => rfl
  | cons option options ih => rw [rereadAll, List.map_cons, ih]

theorem rereadTable_eq_map (table : List (String × Definition)) :
    rereadTable table = table.map fun entry => (entry.1, entry.2.reread) := by
  induction table with
  | nil => rfl
  | cons entry table ih => rw [rereadTable, List.map_cons, ih]

theorem rereadAll_eq_self {options : List Definition}
    (all : ∀ option ∈ options, option.reread = option) : rereadAll options = options := by
  rw [rereadAll_eq_map, List.map_congr_left all, List.map_id']

theorem rereadTable_eq_self {table : List (String × Definition)}
    (all : ∀ entry ∈ table, entry.2.reread = entry.2) : rereadTable table = table := by
  have hentries : ∀ entry ∈ table, (entry.1, entry.2.reread) = entry :=
    fun entry mem => congrArg (entry.1, ·) (all entry mem)
  rw [rereadTable_eq_map, List.map_congr_left hentries, List.map_id']

/-- A readable fragment without bare objects is read back as it was. -/
theorem Readable.reread_eq_self {definition : Definition} (h : definition.Readable)
    (full : ¬ definition.HoldsBare) : definition.reread = definition := by
  induction h with
  | value | reference => rw [reread]
  | @array head items keywords kind parts ih =>
      have hparts : ∀ fragment ∈ items, ¬ fragment.HoldsBare :=
        (forall_mem_parts_array (¬ ·.HoldsBare)).mp (not_holdsBare_iff.mp full).2
      cases items with
      | none => rw [reread, rereadItems]
      | some fragment => rw [reread, rereadItems, ih fragment rfl (hparts fragment rfl)]
  | @object head properties required additional keywords names parts listed plain schema ihParts
      ihSchema =>
      have hparts : (∀ table ∈ properties, ∀ entry ∈ table, ¬ entry.2.HoldsBare) ∧
          ∀ fragment, additional = .schema fragment → ¬ fragment.HoldsBare :=
        (forall_mem_parts_object (¬ ·.HoldsBare)).mp (not_holdsBare_iff.mp full).2
      have hadditional : rereadAdditional additional = additional := by
        cases additional with
        | plain content => rw [rereadAdditional]
        | schema fragment => rw [rereadAdditional, ihSchema fragment rfl (hparts.2 fragment rfl)]
      cases properties with
      | none =>
          have hobject : HasPrimary head "object" :=
            Classical.not_not.mp (not_holdsBare_iff.mp full).1
          rw [reread, rereadBare, if_pos (Json.isText_iff.mpr hobject), hadditional]
      | some table =>
          rw [reread, hadditional, rereadTable_eq_self fun entry mem =>
            ihParts table rfl entry mem (hparts.1 table rfl entry mem)]
  | oneOf text parts block ih | anyOf text parts ih | allOf text parts ih =>
      have hparts := List.forall_mem_map.mp (not_holdsBare_iff.mp full).2
      rw [reread, rereadAll_eq_self fun option mem => ih option mem (hparts option mem)]

end Definition

/-! ## Reading bodies -/

/-- The entry of a table is found under its name, when there is a table. -/
theorem find?_tableEntry_self (name : String) (table : Option (Table String Definition)) :
    Table.find? (tableEntry name table) name =
      table.map fun entries => .obj (Definition.toMembers entries) := by
  cases table with
  | none => rfl
  | some entries => simp [tableEntry, Table.find?_cons]

@[simp] theorem find?_tableEntry_of_ne {name other : String} (different : other ≠ name)
    (table : Option (Table String Definition)) :
    Table.find? (tableEntry name table) other = none := by
  cases table with
  | none => rfl
  | some entries => simp [tableEntry, Table.find?_cons, different]

/-- The fragments of a readable table are read back. -/
theorem ReadableTable.rereads {table : Option (Table String Definition)}
    (h : ∀ entries ∈ table, ReadableTable entries) :
    ∀ entries ∈ table, ∀ entry ∈ entries, entry.2.Rereads :=
  fun entries hentries entry hentry => ((h entries hentries).parts entry hentry).decode_toJson

/-- The body that a reader finds in the rendering of a body. -/
def SchemaBody.reread (body : SchemaBody) : SchemaBody :=
  { body with
    properties := body.properties.map Definition.rereadTable
    oneOf := body.oneOf.map Definition.rereadAll
    defs := body.defs.map Definition.rereadTable }

/-- A readable body is read back from its rendering as what a reader finds there. -/
theorem SchemaBody.Readable.decode_toJson {body : SchemaBody} (h : body.Readable) :
    SchemaBody.decode body.toJson = .ok body.reread := by
  rcases body with ⟨schemaUri, id, type, description, properties, required, additional, oneOf,
    discriminator, defs⟩
  rw [toJson, decode_obj]
  dsimp only
  rw [Definition.table?_of_find? properties ?_ (ReadableTable.rereads h.properties),
    Definition.table?_of_find? defs ?_ (ReadableTable.rereads h.defs)]
  · cases oneOf with
    | none =>
        simp [Reading.choices?, reread, Table.find?_append, Table.find?_cons, pure, Except.pure]
    | some options =>
        have hoptions := Definition.options_toJsons fun option hoption =>
          (h.oneOf options rfl option hoption).decode_toJson
        simp [Reading.choices?, reread, Table.find?_append, Table.find?_cons, hoptions, pure,
          Except.pure]
  · cases oneOf <;> simp [Table.find?_append, Table.find?_cons, find?_tableEntry_self]
  · cases oneOf <;> simp [Table.find?_append, Table.find?_cons, find?_tableEntry_self]

/-- Named fragments without bare objects are read back as they were. -/
theorem ReadableTable.reread_eq_self {table : Option (Table String Definition)}
    (h : ∀ entries ∈ table, ReadableTable entries)
    (full : ∀ entries ∈ table, ∀ entry ∈ entries, ¬ entry.2.HoldsBare) :
    table.map Definition.rereadTable = table := by
  cases table with
  | none => rfl
  | some entries =>
      exact congrArg some (Definition.rereadTable_eq_self fun entry mem =>
        ((h entries rfl).parts entry mem).reread_eq_self (full entries rfl entry mem))

/-- A readable body without bare objects is read back as it was. -/
theorem SchemaBody.Readable.reread_eq_self {body : SchemaBody} (h : body.Readable)
    (full : ¬ body.HoldsBare) : body.reread = body := by
  rw [not_holdsBare_iff] at full
  have hoptions : body.oneOf.map Definition.rereadAll = body.oneOf := by
    cases hbody : body.oneOf with
    | none => rfl
    | some options =>
        exact congrArg some (Definition.rereadAll_eq_self fun option mem =>
          (h.oneOf options hbody option mem).reread_eq_self (full.2.1 options hbody option mem))
  rw [reread, ReadableTable.reread_eq_self h.properties full.1, hoptions,
    ReadableTable.reread_eq_self h.defs full.2.2]

/-! ## Reading documents -/

/-- The document that a reader finds in the text of a document. -/
def SchemaDocument.reread (document : SchemaDocument) : SchemaDocument :=
  { document with body := document.body.reread }

/-- The tool that a reader finds in the text of a tool. -/
def ToolDocument.reread (document : ToolDocument) : ToolDocument :=
  { document with parameters := document.parameters.reread }

section Documents

open Json.Parser

variable {layout : Layout}

/-- The members of a regular object are read back from its text. -/
theorem parseObject_print {members : List (String × Json)} (regular : (Json.obj members).Regular)
    (blank : BlankLayout layout) : parseObject ((Json.obj members).print layout) = .ok members := by
  rw [parseObject, Json.parse_print regular blank]

/-- A readable document is read back from its text as what a reader finds there. -/
theorem SchemaDocument.Readable.decode_encode {document : SchemaDocument}
    (h : document.Readable) (blank : BlankLayout layout) :
    SchemaDocument.decode (document.encode layout) = .ok document.reread := by
  have hregular := h.regular
  have hbody := h.body.decode_toJson
  rcases h.strict with ⟨strict, hstrict⟩
  rcases document with ⟨name, strict', description, body⟩
  cases hstrict
  rw [SchemaDocument.toJson] at hregular
  rw [encode, SchemaDocument.toJson, decode, parseObject_print hregular blank]
  simp [Table.find?_append, Table.find?_cons, hbody, Json.isTruthy, reread, pure, Except.pure]

/-- A readable tool is read back from its text as what a reader finds there. -/
theorem ToolDocument.Readable.decode_encode {document : ToolDocument}
    (h : document.Readable) (blank : BlankLayout layout) :
    ToolDocument.decode (document.encode layout) = .ok document.reread := by
  have hregular := h.regular
  have hparameters := h.parameters.decode_toJson
  have htype := h.type
  rcases h.strict with ⟨strict, hstrict⟩
  rcases document with ⟨type, name, description, strict', parameters⟩
  cases hstrict
  cases htype
  rw [ToolDocument.toJson] at hregular
  rw [encode, ToolDocument.toJson, decode, parseObject_print hregular blank]
  simp [Table.find?_cons, hparameters, Json.isTruthy, Json.isText, reread, pure, Except.pure]

/-- An encodable document is read back from its text. -/
theorem SchemaDocument.Encodable.decode_encode {document : SchemaDocument}
    (h : document.Encodable) (blank : BlankLayout layout) :
    SchemaDocument.decode (document.encode layout) = .ok document := by
  rw [h.readable.decode_encode blank, reread,
    h.readable.body.reread_eq_self h.body.not_holdsBare]

/-- An encodable tool is read back from its text. -/
theorem ToolDocument.Encodable.decode_encode {document : ToolDocument}
    (h : document.Encodable) (blank : BlankLayout layout) :
    ToolDocument.decode (document.encode layout) = .ok document := by
  rw [h.readable.decode_encode blank, reread,
    h.readable.parameters.reread_eq_self h.parameters.not_holdsBare]

end Documents

end Schemata
