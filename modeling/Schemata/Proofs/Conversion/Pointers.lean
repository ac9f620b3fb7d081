import Schemata.Proofs.Conversion.Outline
import Schemata.Proofs.Graph.Reachability

/-!
# Pointers of a document

A fragment can point at the whole document or at one of the shared definitions.  This
file collects the pointers of a fragment at any depth and says when the pointers of a
document resolve.

Main results:

- Definition {lit}`SchemaBody.IsClosed`: every pointer of a document resolves.
- Theorem {lit}`mem_pointers_memberTable`: the pointers of an object are among those of
  its properties; {lit}`pointers_subset_memberTable`: with distinct names none is lost.
- Theorem {lit}`mem_pointers_choiceFragment`: a polymorphic type points at its subtypes.
-/

namespace Schemata

namespace Definition

mutual

/-- The targets of all pointers in a fragment, at any depth. -/
def pointers : Definition → List Json
  | .value _ _ => []
  | .array _ items => itemsPointers items
  | .object _ properties _ additional =>
    propertiesPointers properties ++ additionalPointers additional
  | .reference target _ => [target]
  | .oneOf _ options _ => allPointers options
  | .anyOf _ options => allPointers options
  | .allOf _ options => allPointers options

/-- The targets of all pointers in several fragments. -/
def allPointers : List Definition → List Json
  | [] => []
  | option :: options => pointers option ++ allPointers options

/-- The targets of all pointers in named fragments. -/
def tablePointers : List (String × Definition) → List Json
  | [] => []
  | (_, definition) :: rest => pointers definition ++ tablePointers rest

/-- The targets of all pointers in the items of an array. -/
def itemsPointers : Option Definition → List Json
  | none => []
  | some items => pointers items

/-- The targets of all pointers in the properties of an object. -/
def propertiesPointers : Option (List (String × Definition)) → List Json
  | none => []
  | some properties => tablePointers properties

/-- The targets of all pointers in the fragment for members without a name. -/
def additionalPointers : Additional Definition → List Json
  | .plain _ => []
  | .schema fragment => pointers fragment

end

/-! ## Pointers of lists and tables of fragments -/

/-- The pointers of a list of definitions are those of its members. -/
theorem mem_allPointers {options : List Definition} {target : Json} :
    target ∈ allPointers options ↔ ∃ option ∈ options, target ∈ option.pointers := by
  induction options with
  | nil => simp [allPointers]
  | cons option options ih => simp [allPointers, ih]

/-- The pointers of a table are those of its entries. -/
theorem mem_tablePointers {table : List (String × Definition)} {target : Json} :
    target ∈ tablePointers table ↔ ∃ entry ∈ table, target ∈ entry.2.pointers := by
  induction table with
  | nil => simp [tablePointers]
  | cons entry table ih => simp [tablePointers, ih]

/-! ## Changes that keep the pointers -/

/-- The pointers of a fragment are told by its outline. -/
theorem pointers_outline (definition : Definition) :
    definition.outline.pointers = definition.pointers := by
  cases definition <;> rfl

@[simp] theorem pointers_asUnion (definition : Definition) :
    definition.asUnion.pointers = definition.pointers := by
  rw [← pointers_outline, outline_asUnion, pointers_outline]

/-! ## Pointers of containers -/

/-- An array holds the pointers of its items. -/
theorem pointers_array (head : TypedHead) (items : Definition) :
    (array head (some items.asUnion)).pointers = items.pointers := by
  simp [pointers, itemsPointers]

/-- A map holds the pointers of its values. -/
theorem pointers_map (head : TypedHead) (required : Json) (values : Definition) :
    (object head none required (.schema values.asUnion)).pointers = values.pointers := by
  simp [pointers, propertiesPointers, additionalPointers]

end Definition

namespace SchemaBody

/-- The targets of all pointers in a document: in its properties, in its alternatives
and in its shared definitions. -/
def pointers (body : SchemaBody) : List Json :=
  Definition.propertiesPointers body.properties ++
    Definition.allPointers (body.oneOf.getD []) ++ Definition.propertiesPointers body.defs

/-- The keys of the shared definitions. -/
def definedIds (body : SchemaBody) : List TypeId :=
  Table.keys (body.defs.getD [])

/-- A pointer resolves when it means the whole document, whose root is an object, or one
of the shared definitions. -/
def Resolves (body : SchemaBody) (graph : TypeGraph) (target : Json) : Prop :=
  (target = .str "#" ∧ ∃ id, graph.root.id? = some id ∧ graph.IsObject id) ∨
  ∃ id ∈ body.definedIds, target = .str (defsPointer id)

/-- Every pointer of a document resolves. -/
def IsClosed (body : SchemaBody) (graph : TypeGraph) : Prop :=
  ∀ target ∈ body.pointers, body.Resolves graph target

end SchemaBody

namespace Conversion

variable {c : Conversion}

/-! ## Pointers of the fragments that a conversion writes -/

@[simp] theorem pointers_markNullable (nullable : Bool) (definition : Definition) :
    (markNullable nullable definition).pointers = definition.pointers := by
  rw [← Definition.pointers_outline, outline_markNullable, Definition.pointers_outline]

@[simp] theorem pointers_dress (property : Property TypeRef) (required : Bool)
    (definition : Definition) :
    (c.dress property required definition).pointers = definition.pointers := by
  rw [← Definition.pointers_outline, outline_dress, Definition.pointers_outline]

@[simp] theorem pointers_pointer (target : String) (nullable : Bool) :
    (pointer target nullable).pointers = [.str target] := by
  cases nullable <;> rfl

/-- A choice holds one pointer for each of its variants, in either dialect. -/
theorem pointers_choiceFragment (type : PolymorphicType TypeRef) (nullable : Bool) :
    (c.choiceFragment type nullable).pointers =
      Definition.allPointers (variantPointers type) := by
  cases nullable <;> simp [choiceFragment, Definition.pointers, Definition.allPointers,
    nullFragment]

/-- A polymorphic type points at its subtypes. -/
theorem mem_pointers_choiceFragment {type : PolymorphicType TypeRef} {nullable : Bool}
    {target : Json} :
    target ∈ (c.choiceFragment type nullable).pointers ↔
      ∃ variant ∈ type.variants, target = .str (defsPointer variant.id) := by
  rw [pointers_choiceFragment, Definition.mem_allPointers]
  constructor
  · rintro ⟨option, hoption, htarget⟩
    rcases List.mem_map.mp hoption with ⟨variant, hvariant, rfl⟩
    exact ⟨variant, hvariant, List.mem_singleton.mp htarget⟩
  · rintro ⟨variant, hvariant, rfl⟩
    exact ⟨_, List.mem_map_of_mem hvariant, List.mem_singleton.mpr rfl⟩

/-- A property table is written entry by entry. -/
theorem propertyTable_eq_ofEntries (required : List PropertyName)
    (fragments : List (Property TypeRef × Definition)) :
    c.propertyTable required [] fragments = Table.ofEntries (fragments.map fun part =>
      (part.1.name, c.dress part.1 (required.contains part.1.name) part.2)) := by
  rw [propertyTable, Table.ofEntries, List.foldl_map]

/-- The entries of a property table are dressed fragments. -/
theorem mem_propertyTable {required : List PropertyName}
    {fragments : List (Property TypeRef × Definition)} {entry : PropertyName × Definition}
    (h : entry ∈ c.propertyTable required [] fragments) : ∃ part ∈ fragments,
      entry.2 = c.dress part.1 (required.contains part.1.name) part.2 := by
  rw [propertyTable_eq_ofEntries] at h
  rcases Table.value_of_mem_ofEntries h with ⟨written, hwritten, hvalue⟩
  rcases List.mem_map.mp hwritten with ⟨part, hpart, rfl⟩
  exact ⟨part, hpart, hvalue.symm⟩

/-- With distinct names a property table lists all dressed fragments. -/
theorem propertyTable_of_distinct {required : List PropertyName}
    {known : Table PropertyName Definition} {fragments : List (Property TypeRef × Definition)}
    (new : ∀ part ∈ fragments, ∀ entry ∈ known, (part.1.name == entry.1) = false)
    (distinct : fragments.Pairwise fun earlier later =>
      (later.1.name == earlier.1.name) = false) :
    c.propertyTable required known fragments = known ++ fragments.map fun part =>
      (part.1.name, c.dress part.1 (required.contains part.1.name) part.2) := by
  induction fragments generalizing known with
  | nil => simp [propertyTable]
  | cons part rest ih =>
      rw [List.forall_mem_cons] at new
      rw [List.pairwise_cons] at distinct
      rw [propertyTable, List.foldl_cons, Table.put_of_new new.1, ← propertyTable, ih _ distinct.2]
      · simp
      · intro later hlater entry hentry
        rcases List.mem_append.mp hentry with hentry | hentry
        · exact new.2 later hlater entry hentry
        · rw [List.mem_singleton] at hentry
          rw [hentry]
          exact distinct.1 later hlater

/-- The members of an object whose properties have texts for names. -/
theorem memberTable_eq_ofEntries {type : ObjectType TypeRef} {fragments : List Definition}
    (names : ∀ property ∈ type.properties, ∃ name, property.name = .str name) :
    c.memberTable type fragments = Table.ofEntries
      ((type.properties.zip fragments).map fun part => (part.1.name.memberName,
        c.dress part.1 ((c.requiredNames type).contains part.1.name) part.2)) := by
  have hentries : ((type.properties.zip fragments).map fun part => (part.1.name,
      c.dress part.1 ((c.requiredNames type).contains part.1.name) part.2)) =
      ((type.properties.zip fragments).map fun part => (part.1.name.memberName,
        c.dress part.1 ((c.requiredNames type).contains part.1.name) part.2)).map
          fun entry => (Json.str entry.1, entry.2) := by
    rw [List.map_map]
    refine List.map_congr_left fun part hpart => ?_
    rcases names part.1 (List.of_mem_zip hpart).1 with ⟨name, hname⟩
    simp [hname, Json.memberName]
  rw [memberTable, propertyTable_eq_ofEntries, hentries, Table.ofEntries_mapKeys Json.beq_text,
    List.map_map]
  exact List.map_id _

/-- A member of an object whose properties have texts for names is the dressed fragment of
a property of that name. -/
theorem mem_memberTable {type : ObjectType TypeRef} {fragments : List Definition}
    (names : ∀ property ∈ type.properties, ∃ name, property.name = .str name)
    {member : String × Definition} (h : member ∈ c.memberTable type fragments) :
    ∃ part ∈ type.properties.zip fragments, part.1.name = .str member.1 ∧
      member.2 = c.dress part.1 ((c.requiredNames type).contains part.1.name) part.2 := by
  rw [memberTable_eq_ofEntries names] at h
  rcases List.mem_map.mp (Table.mem_ofEntries h) with ⟨part, hpart, rfl⟩
  rcases names part.1 (List.of_mem_zip hpart).1 with ⟨name, hname⟩
  refine ⟨part, hpart, ?_, rfl⟩
  rw [hname]
  rfl

/-- An object holds the pointers of its member table. -/
theorem pointers_objectFragment {type : ObjectType TypeRef} {fragments : List Definition} :
    (c.objectFragment type fragments).pointers =
      Definition.tablePointers (c.memberTable type fragments) := by
  simp [objectFragment, Definition.pointers, Definition.propertiesPointers,
    Definition.additionalPointers]

/-- The pointers of an object are among those of the types of its properties. -/
theorem mem_pointers_memberTable {type : ObjectType TypeRef} {fragments : List Definition}
    {target : Json} (h : target ∈ Definition.tablePointers (c.memberTable type fragments)) :
    ∃ fragment ∈ fragments, target ∈ fragment.pointers := by
  rw [Definition.mem_tablePointers] at h
  rcases h with ⟨member, hmember, htarget⟩
  rcases List.mem_map.mp hmember with ⟨entry, hentry, rfl⟩
  rcases mem_propertyTable hentry with ⟨part, hpart, hdressed⟩
  rw [hdressed, pointers_dress] at htarget
  exact ⟨part.2, (List.of_mem_zip hpart).2, htarget⟩

/-- With distinct names an object keeps all pointers of the types of its properties. -/
theorem pointers_subset_memberTable {type : ObjectType TypeRef} {fragments : List Definition}
    (length : fragments.length = type.properties.length)
    (distinct : type.properties.Pairwise fun earlier later =>
      (later.name == earlier.name) = false)
    {part : Property TypeRef × Definition} (hpart : part ∈ type.properties.zip fragments) :
    part.2.pointers ⊆ Definition.tablePointers (c.memberTable type fragments) := by
  intro target htarget
  have hdistinct : (type.properties.zip fragments).Pairwise fun earlier later =>
      (later.1.name == earlier.1.name) = false := by
    rw [← List.map_fst_zip (Nat.le_of_eq length.symm)] at distinct
    exact List.pairwise_map.mp distinct
  rw [Definition.mem_tablePointers, memberTable,
    propertyTable_of_distinct (by simp) hdistinct]
  refine ⟨_, List.mem_map_of_mem (List.mem_append_right _ (List.mem_map_of_mem hpart)), ?_⟩
  rw [pointers_dress]
  exact htarget

/-- Two identifiers have the same pointer only when they are equal. -/
theorem defsPointer_inj {id other : TypeId} (h : defsPointer id = defsPointer other) :
    id = other :=
  (String.append_right_inj _).mp h

/-- The pointer to a shared definition is not that to the whole document. -/
theorem defsPointer_ne_root (id : TypeId) : defsPointer id ≠ "#" := by
  intro h
  have hlength := congrArg String.length h
  rw [defsPointer, String.length_append] at hlength
  have hpointer : "#/$defs/".length = 8 := rfl
  have hroot : "#".length = 1 := rfl
  omega

end Conversion

end Schemata
