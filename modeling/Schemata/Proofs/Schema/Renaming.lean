import Mathlib.Data.List.Basic
import Schemata.Conversion.Document

/-!
# Documents under other identifiers

A document names nodes of a graph in three places: as the keys of its shared definitions, in
the pointers to them, and as the targets that a discriminator maps its values to.  The first
are texts of their own, the others stand behind the address of the shared definitions.  The
pointer to the whole document names no node.

Main results:

- Definition {lit}`SchemaDocument.rename`, {lit}`ToolDocument.rename`: a document with the
  identifiers changed in these places and nowhere else.
- Definition {lit}`Error.rename`: a failure with the identifiers changed that it names.
- Theorem {lit}`SchemaDocument.rename_id`, {lit}`ToolDocument.rename_id`: nothing is changed
  when no identifier is.
-/

namespace Schemata

/-! ## Pointers -/

/-- The identifier that a pointer names, which the pointer to the whole document does not. -/
def pointerId? (target : String) : Option TypeId :=
  ("#/$defs/".toList.isPrefixOf? target.toList).map String.ofList

/-- A pointer names an identifier when it is the one to its definition. -/
theorem pointerId?_eq_some_iff {target : String} {id : TypeId} :
    pointerId? target = some id ↔ target = defsPointer id := by
  rw [pointerId?, Option.map_eq_some_iff]
  constructor
  · rintro ⟨rest, hrest, rfl⟩
    rw [List.isPrefixOf?_eq_some_iff_append_eq] at hrest
    rw [← String.toList_inj, ← hrest, defsPointer, String.toList_append,
      String.toList_ofList (l := rest)]
  · rintro rfl
    refine ⟨id.toList, ?_, String.ofList_toList⟩
    rw [List.isPrefixOf?_eq_some_iff_append_eq, defsPointer, String.toList_append]

@[simp] theorem pointerId?_defsPointer (id : TypeId) : pointerId? (defsPointer id) = some id :=
  pointerId?_eq_some_iff.mpr rfl

variable (change : TypeId → TypeId)

/-- The target of a pointer with the identifier changed that it names, if any. -/
def Json.renameTarget : Json → Json
  | .str target => .str ((pointerId? target).elim target fun id => defsPointer (change id))
  | other => other

@[simp] theorem Json.renameTarget_defsPointer (id : TypeId) :
    (Json.str (defsPointer id)).renameTarget change = .str (defsPointer (change id)) := by
  rw [renameTarget, pointerId?_defsPointer, Option.elim]

@[simp] theorem Json.renameTarget_root : (Json.str "#").renameTarget change = .str "#" := rfl

theorem Json.renameTarget_id (target : Json) : target.renameTarget id = target := by
  cases target with
  | str target =>
      rw [renameTarget]
      cases hid : pointerId? target with
      | none => rfl
      | some known => rw [Option.elim, id, ← pointerId?_eq_some_iff.mp hid]
  | null | bool | int | float | arr | obj => rfl

/-! ## Fragments -/

/-- A block whose mapping leads to changed identifiers. -/
def DiscriminatorBlock.rename (block : DiscriminatorBlock) : DiscriminatorBlock :=
  { block with
    mapping := match block.mapping with
      | .obj members => .obj (members.map fun entry => (entry.1, entry.2.renameTarget change))
      | other => other }

namespace Definition

mutual

/-- A fragment with the identifiers changed that its pointers and mappings name. -/
def rename : Definition → Definition
  | .value head enum => .value head enum
  | .array head items => .array head (renameItems items)
  | .object head properties required additional =>
    .object head (renameProperties properties) required (renameAdditional additional)
  | .reference target description => .reference (target.renameTarget change) description
  | .oneOf description options discriminator =>
    .oneOf description (renameAll options) (discriminator.map (·.rename change))
  | .anyOf description options => .anyOf description (renameAll options)
  | .allOf description options => .allOf description (renameAll options)

/-- Fragments with the identifiers changed that they name. -/
def renameAll : List Definition → List Definition
  | [] => []
  | option :: options => rename option :: renameAll options

/-- Named fragments with the identifiers changed that they name. -/
def renameMembers : List (String × Definition) → List (String × Definition)
  | [] => []
  | (name, definition) :: rest => (name, rename definition) :: renameMembers rest

/-- The fragment for items with the identifiers changed that it names. -/
def renameItems : Option Definition → Option Definition
  | none => none
  | some items => some (rename items)

/-- The fragments of properties with the identifiers changed that they name. -/
def renameProperties :
    Option (List (String × Definition)) → Option (List (String × Definition))
  | none => none
  | some properties => some (renameMembers properties)

/-- The fragment for members without a name with the identifiers changed that it names. -/
def renameAdditional : Additional Definition → Additional Definition
  | .plain content => .plain content
  | .schema fragment => .schema (rename fragment)

end

/-- A table of fragments with the identifiers changed that these name. -/
def renameTable {κ : Type} (table : Table κ Definition) : Table κ Definition :=
  table.map fun entry => (entry.1, entry.2.rename change)

/-- Shared definitions under changed identifiers. -/
def renameShared (defs : Table TypeId Definition) : Table TypeId Definition :=
  defs.map fun entry => (change entry.1, entry.2.rename change)

end Definition

/-! ## Documents and failures -/

/-- The body of a document under changed identifiers. -/
def SchemaBody.rename (body : SchemaBody) : SchemaBody :=
  { body with
    properties := body.properties.map (Definition.renameTable change)
    oneOf := body.oneOf.map (Definition.renameAll change)
    discriminator := body.discriminator.map (·.rename change)
    defs := body.defs.map (Definition.renameShared change) }

/-- A JSON Schema document under changed identifiers. -/
def SchemaDocument.rename (document : SchemaDocument) : SchemaDocument :=
  { document with body := document.body.rename change }

/-- A tool schema under changed identifiers. -/
def ToolDocument.rename (document : ToolDocument) : ToolDocument :=
  { document with parameters := document.parameters.rename change }

/-- A failure with the identifiers changed that it names. -/
def Error.rename : Error → Error
  | .dangling id referencedFrom => .dangling (change id) (referencedFrom.map change)
  | .invalidGraph fault typeId => .invalidGraph fault (typeId.map change)
  | other => other

/-! ## How fragments are changed -/

namespace Definition

variable {change}

theorem renameAll_eq_map (options : List Definition) :
    renameAll change options = options.map (rename change) := by
  induction options with
  | nil => rfl
  | cons option options ih => rw [renameAll, ih, List.map_cons]

theorem renameMembers_eq (members : List (String × Definition)) :
    renameMembers change members = renameTable change members := by
  induction members with
  | nil => rfl
  | cons member members ih => rw [renameMembers, ih]; rfl

/-- A change of the head does not touch what is renamed. -/
theorem rename_mapHead (headChange : TypedHead → TypedHead) (definition : Definition) :
    (definition.mapHead headChange).rename change =
      (definition.rename change).mapHead headChange := by
  cases definition <;> simp [rename, mapHead]

theorem rename_asUnion (definition : Definition) :
    definition.asUnion.rename change = (definition.rename change).asUnion :=
  rename_mapHead ..

/-- A description does not touch what is renamed. -/
theorem rename_withDescription (description : Json) (definition : Definition) :
    (definition.withDescription description).rename change =
      (definition.rename change).withDescription description := by
  cases definition <;> simp [rename, withDescription, mapHead]

theorem renameTable_put {κ : Type} [BEq κ] (table : Table κ Definition) (key : κ)
    (definition : Definition) :
    renameTable change (table.put key definition) =
      (renameTable change table).put key (definition.rename change) :=
  Table.map_put ..

/-- Under an injective change, so it is with shared definitions and their identifiers. -/
theorem renameShared_put (injective : change.Injective) (defs : Table TypeId Definition)
    (id : TypeId) (definition : Definition) :
    renameShared change (defs.put id definition) =
      (renameShared change defs).put (change id) (definition.rename change) :=
  (Table.put_mapEntries (fun _ _ => injective.beq_eq) (rename change) defs id definition).symm

/-- Under an injective change an identifier is shared when its image is. -/
theorem has_renameShared (injective : change.Injective) (defs : Table TypeId Definition)
    (id : TypeId) : (renameShared change defs).has (change id) = defs.has id := by
  rw [Table.has, Table.has, renameShared, Table.find?_mapEntries fun _ _ => injective.beq_eq]
  cases defs.find? id <;> rfl

end Definition

theorem nonEmpty?_map {α β : Type} (f : α → β) (table : List α) :
    nonEmpty? (table.map f) = (nonEmpty? table).map (List.map f) := by
  cases table <;> rfl

/-- The body under changed identifiers is that of the changed fragments. -/
theorem rename_schemaBody {change} (flags : Flags) (name : String) (root : Definition)
    (defs : Table TypeId Definition) :
    (TypeGraph.schemaBody flags name root defs).rename change =
      TypeGraph.schemaBody flags name (root.rename change)
        (Definition.renameShared change defs) := by
  have hdefs : (nonEmpty? defs).map (Definition.renameShared change) =
      nonEmpty? (Definition.renameShared change defs) :=
    (nonEmpty?_map ..).symm
  cases root with
  | object head properties required additional =>
      cases properties with
      | none => simp [TypeGraph.schemaBody, SchemaBody.rename, Definition.rename,
          Definition.renameProperties, hdefs]
      | some properties =>
          have hproperties : (nonEmpty? properties).map (Definition.renameTable change) =
              nonEmpty? (Definition.renameMembers change properties) := by
            rw [Definition.renameMembers_eq]
            exact (nonEmpty?_map ..).symm
          simp [TypeGraph.schemaBody, SchemaBody.rename, Definition.rename,
            Definition.renameProperties, hdefs, hproperties]
  | value | array | reference | oneOf | anyOf | allOf =>
      simp [TypeGraph.schemaBody, SchemaBody.rename, Definition.rename, hdefs]

/-! ## Identifiers as they are -/

theorem DiscriminatorBlock.rename_id (block : DiscriminatorBlock) : block.rename id = block := by
  obtain ⟨name, mapping⟩ := block
  cases mapping with
  | obj members => simp [rename, Json.renameTarget_id]
  | null | bool | int | float | str | arr => rfl

theorem DiscriminatorBlock.map_rename_id (block : Option DiscriminatorBlock) :
    block.map (·.rename id) = block := by
  cases block with
  | none => rfl
  | some block => rw [Option.map_some, block.rename_id]

namespace Definition

mutual

/-- A fragment does not change when no identifier does. -/
theorem rename_id : (definition : Definition) → definition.rename id = definition
  | .value _ _ => rfl
  | .array _ items => by rw [rename, renameItems_id items]
  | .object _ properties _ additional => by
      rw [rename, renameProperties_id properties, renameAdditional_id additional]
  | .reference target _ => by rw [rename, target.renameTarget_id]
  | .oneOf _ options discriminator => by
      rw [rename, renameAll_id options, DiscriminatorBlock.map_rename_id]
  | .anyOf _ options => by rw [rename, renameAll_id options]
  | .allOf _ options => by rw [rename, renameAll_id options]

theorem renameAll_id : (options : List Definition) → renameAll id options = options
  | [] => rfl
  | option :: options => by rw [renameAll, rename_id option, renameAll_id options]

theorem renameMembers_id :
    (members : List (String × Definition)) → renameMembers id members = members
  | [] => rfl
  | (name, definition) :: rest => by
      rw [renameMembers, rename_id definition, renameMembers_id rest]

theorem renameItems_id : (items : Option Definition) → renameItems id items = items
  | none => rfl
  | some items => by rw [renameItems, rename_id items]

theorem renameProperties_id : (properties : Option (List (String × Definition))) →
    renameProperties id properties = properties
  | none => rfl
  | some properties => by rw [renameProperties, renameMembers_id properties]

theorem renameAdditional_id :
    (additional : Additional Definition) → renameAdditional id additional = additional
  | .plain _ => rfl
  | .schema fragment => by rw [renameAdditional, rename_id fragment]

end

theorem renameTable_id {κ : Type} (table : Table κ Definition) : renameTable id table = table :=
  List.map_id'' (fun entry => by rw [rename_id]) table

theorem renameShared_id (defs : Table TypeId Definition) : renameShared id defs = defs :=
  List.map_id'' (fun entry => by rw [rename_id, id]) defs

end Definition

theorem schemaBody_rename_id (body : SchemaBody) : body.rename id = body := by
  have hproperties : (Definition.renameTable id : Table String Definition → _) = id :=
    funext Definition.renameTable_id
  have hoptions : Definition.renameAll id = id := funext Definition.renameAll_id
  have hdefs : Definition.renameShared id = id := funext Definition.renameShared_id
  rw [SchemaBody.rename, hproperties, hoptions, hdefs, DiscriminatorBlock.map_rename_id,
    Option.map_id, Option.map_id, id, id, id]

/-- A document stays as it is when no identifier is changed. -/
theorem SchemaDocument.rename_id (document : SchemaDocument) : document.rename id = document := by
  rw [rename, schemaBody_rename_id]

theorem ToolDocument.rename_id (document : ToolDocument) : document.rename id = document := by
  rw [rename, schemaBody_rename_id]

theorem Error.rename_id (error : Error) : error.rename id = error := by
  cases error <;> simp [rename]

end Schemata
