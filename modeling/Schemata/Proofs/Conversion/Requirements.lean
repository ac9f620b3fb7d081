import Mathlib.Data.List.Nodup
import Schemata.Proofs.Conversion.Positions

/-!
# Required properties and the nullable marker

An object in a document requires the properties that the flags select, and every object
written out in a document is that of an object of the graph.  The marker of a nullable
fragment and the list of required properties go together: a required property has a union
instead of the marker, and so have the items of arrays and the values of maps, while shared
definitions and the alternatives of choices do not allow null at all.  So the marker is left
on values of properties that are not required.

Main results:

- Theorem {lit}`listsRequired`: what the fragment of an object lists.
- Theorem {lit}`Stands.exists_member_of_isMarked`: where a marked fragment stands.
- Theorem {lit}`TypeGraph.documents_regulate`: both documents list what the flags select, at
  any depth, and have the marker on values of other properties only.
-/

namespace Schemata

namespace Conversion

variable (c : Conversion)

/-- The flags of a conversion select a property as required. -/
def requires (property : Property TypeRef) : Bool :=
  if c.dialect = .tool ∧ c.flags.strict.isTruthy then true
  else if c.flags.respectDefaults.isTruthy then !property.hasDefault
  else if c.flags.requireNullable.isTruthy then true
  else !property.type.nullable

/-- An object in a document has the properties of an object type as its members, it lists
those that are selected in their order and once each, and it allows no others. -/
structure ListsRequired (type : ObjectType TypeRef) (members : List (String × Definition))
    (required : List Json) (additional : Additional Definition) : Prop where
  keys : members.map Prod.fst = type.properties.map fun property => property.name.memberName
  selected : required = (type.properties.filter c.requires).map (·.name)
  once : (required.map Json.memberName).Nodup
  closed : additional = .plain (.bool false)

/-- The objects in a document are those of the graph and list their required properties, and
the nullable marker is on values of other properties only. -/
structure Regulates (body : SchemaBody) : Prop where
  root : ∀ members ∈ body.properties, ∃ type, c.graph.Leads c.graph.root (.object type) ∧
    c.ListsRequired type members body.required.listed (.plain body.additional)
  objects : ∀ position head members required additional,
    body.Holds position (.object head (some members) required additional) →
      ∃ ref type,
        c.graph.Fills body position (.object head (some members) required additional) ref ∧
        c.graph.Leads ref (.object type) ∧
        c.ListsRequired type members required.listed additional
  marked : ∀ position definition, body.Holds position definition → definition.isMarked = true →
    ∃ name required, position = .property name required ∧
      ∀ listed ∈ required, listed.memberName ≠ name

variable {c} {type : ObjectType TypeRef} {fragments : List Definition}
variable {definition : Definition} {position : Position} {ref : TypeRef}

/-! ## Required names -/

/-- The names that an object requires are those of the selected properties. -/
theorem requiredNames_eq (type : ObjectType TypeRef) :
    c.requiredNames type = (type.properties.filter c.requires).map (·.name) := by
  rw [requiredNames]
  refine congrArg (List.map _) ?_
  have hall (keep : Property TypeRef → Bool) (h : ∀ property, keep property = true) :
      type.properties = type.properties.filter keep :=
    (List.filter_eq_self.mpr fun property _ => h property).symm
  split
  · exact hall _ fun property => by simp [requires, *]
  · split
    · exact List.filter_congr fun property _ => by simp [requires, *]
    · split
      · exact hall _ fun property => by simp [requires, *]
      · exact List.filter_congr fun property _ => by simp [requires, *]

/-- A name is required when a selected property is the same member. -/
theorem contains_requiredNames_iff (agree : type.NamesAgree) {property : Property TypeRef}
    (mem : property ∈ type.properties) :
    (c.requiredNames type).contains property.name = true ↔
      ∃ other ∈ type.properties, c.requires other = true ∧
        property.name.memberName = other.name.memberName := by
  rw [requiredNames_eq, List.contains_iff_exists_mem_beq]
  constructor
  · rintro ⟨name, hname, same⟩
    rcases List.mem_map.mp hname with ⟨other, hother, rfl⟩
    rcases List.mem_filter.mp hother with ⟨hother, selected⟩
    exact ⟨other, hother, selected, (agree _ mem _ hother).mp same⟩
  · rintro ⟨other, hother, selected, same⟩
    exact ⟨other.name, List.mem_map_of_mem (List.mem_filter.mpr ⟨hother, selected⟩),
      (agree _ mem _ hother).mpr same⟩

/-- A property that is not required is not listed. -/
theorem ne_of_mem_requiredList (agree : type.NamesAgree) {property : Property TypeRef}
    (mem : property ∈ type.properties)
    (free : (c.requiredNames type).contains property.name = false) :
    ∀ listed ∈ c.requiredList type, listed.memberName ≠ property.name.memberName := by
  intro listed hlisted same
  rcases List.mem_filter.mp hlisted with ⟨hname, hrequired⟩
  rcases List.mem_map.mp hname with ⟨other, hother, rfl⟩
  rcases (contains_requiredNames_iff agree hother).mp hrequired with ⟨selected, hselected, h, hsame⟩
  rw [(contains_requiredNames_iff agree mem).mpr ⟨selected, hselected, h, same.symm.trans hsame⟩]
    at free
  cases free

/-- The names of properties stand beside their fragments. -/
theorem map_memberName_zip (length : fragments.length = type.properties.length) :
    (type.properties.zip fragments).map (fun part => part.1.name.memberName) =
      type.properties.map fun property => property.name.memberName := by
  conv_rhs => rw [← List.map_fst_zip (Nat.le_of_eq length.symm), List.map_map]
  rfl

section Distinct

variable (agree : type.NamesAgree)
  (distinct : type.properties.Pairwise fun earlier later => (later.name == earlier.name) = false)
include agree distinct

/-- Distinct names are distinct members. -/
theorem nodup_memberNames : (type.properties.map fun property => property.name.memberName).Nodup := by
  rw [List.Nodup, List.pairwise_map]
  refine distinct.imp_of_mem fun {earlier later} hearlier hlater differ same => ?_
  rw [(agree _ hlater _ hearlier).mpr same.symm] at differ
  cases differ

/-- With distinct names the required ones are those of the selected properties. -/
theorem contains_requiredNames {property : Property TypeRef} (mem : property ∈ type.properties) :
    (c.requiredNames type).contains property.name = c.requires property := by
  rw [Bool.eq_iff_iff, contains_requiredNames_iff agree mem]
  constructor
  · rintro ⟨other, hother, selected, same⟩
    rwa [List.inj_on_of_nodup_map (nodup_memberNames agree distinct) mem hother same]
  · exact fun selected => ⟨property, mem, selected, rfl⟩

/-- With distinct names the selected properties are listed, in their order. -/
theorem requiredList_eq : c.requiredList type = (type.properties.filter c.requires).map (·.name) := by
  rw [requiredList, List.filter_map]
  exact congrArg _ (List.filter_congr fun property mem =>
    contains_requiredNames agree distinct mem)

/-- The fragment of an object whose names are distinct has all its properties and lists the
selected ones. -/
theorem listsRequired (length : fragments.length = type.properties.length) :
    c.ListsRequired type (c.memberTable type fragments) (c.requiredList type)
      (.plain (.bool false)) := by
  have hrequired : c.requiredList type = (type.properties.filter c.requires).map (·.name) :=
    requiredList_eq agree distinct
  have hdistinct : (type.properties.zip fragments).Pairwise fun earlier later =>
      (later.1.name == earlier.1.name) = false := by
    rw [← List.map_fst_zip (Nat.le_of_eq length.symm)] at distinct
    exact List.pairwise_map.mp distinct
  constructor
  · rw [memberTable, propertyTable_of_distinct (by simp) hdistinct, List.nil_append,
      List.map_map, List.map_map, ← map_memberName_zip length]
    rfl
  · exact hrequired
  · rw [hrequired, List.map_map]
    exact (nodup_memberNames agree distinct).sublist (List.filter_sublist.map _)
  · rfl

end Distinct

/-! ## Objects and markers in a document -/

/-- An object with properties that describes a reference is written out for an object of the
graph. -/
theorem Describes.eq_object (h : c.Describes ref definition) {head : TypedHead}
    {members : List (String × Definition)} {required : Json} {additional : Additional Definition}
    (object : definition = .object head (some members) required additional) :
    ∃ type fragments, c.graph.Leads ref (.object type) ∧
      fragments.length = type.properties.length ∧ members = c.memberTable type fragments ∧
      required = .arr (c.requiredList type) ∧ additional = .plain (.bool false) := by
  cases h with
  | primitive | enumeration | list | map => cases object
  | @object _ nullable type fragments node length =>
      refine ⟨type, fragments, .named node, length, ?_⟩
      cases nullable <;> cases object <;> exact ⟨rfl, rfl, rfl⟩
  | @choice _ nullable => cases nullable <;> cases object
  | @root _ nullable => cases nullable <;> cases object
  | @shared _ nullable => cases nullable <;> cases object

/-- An object with properties that stands in a position is written out for an object of the
graph. -/
theorem Stands.eq_object {of : Option TypeRef} {head : TypedHead}
    {members : List (String × Definition)} {required : Json} {additional : Additional Definition}
    (h : c.Stands position of (.object head (some members) required additional)) :
    ∃ ref ∈ of, ∃ type fragments, c.graph.Leads ref (.object type) ∧
      fragments.length = type.properties.length ∧ members = c.memberTable type fragments ∧
      required = .arr (c.requiredList type) ∧ additional = .plain (.bool false) := by
  cases of with
  | none => cases h
  | some ref =>
      rcases h.exists_outline with ⟨plain, described, houtline⟩
      rcases Definition.eq_object_of_outline houtline rfl with ⟨inner, hinner⟩
      exact ⟨ref, rfl, described.eq_object hinner⟩

/-- The fragment of a reference with a union bears no marker. -/
theorem Describes.isMarked_asUnion (h : c.Describes ref definition) :
    definition.asUnion.isMarked = false := by
  have htyped (kind : String) (description : Option String) (nullable : Bool) :
      (headFor kind description nullable).asUnion.nullable = .null := by
    cases nullable <;> rfl
  cases h with
  | primitive | enumeration | list | map =>
      simp [Definition.asUnion, Definition.mapHead, Definition.isMarked, Definition.head?, htyped,
        Json.isNull]
  | @object _ nullable => cases nullable <;> rfl
  | @choice _ nullable => cases nullable <;> rfl
  | @root _ nullable => cases nullable <;> rfl
  | @shared _ nullable => cases nullable <;> rfl

/-- A default and a description leave the marker as it is. -/
theorem isMarked_dress (property : Property TypeRef) (required : Bool) (definition : Definition) :
    (c.dress property required definition).isMarked = (c.unite required definition).isMarked := by
  have hsettle (fragment : Definition) :
      (c.settle property required fragment).isMarked = fragment.isMarked := by
    unfold settle
    split
    · rfl
    · split <;> exact Definition.isMarked_mapHead fun _ => rfl
  have hdescribe (fragment : Definition) :
      (describe property fragment).isMarked = fragment.isMarked := by
    unfold describe
    split <;> simp
  rw [dress_eq, hdescribe, hsettle]

/-- A fragment that is written out bears no marker. -/
theorem Written.isMarked_eq_false {id : TypeId} (h : c.Written id definition) :
    definition.isMarked = false := by
  cases h.describes <;> rfl

/-- A marked fragment is the value of a property that is not required, and not in a tool
schema. -/
theorem Stands.exists_member_of_isMarked {of : Option TypeRef}
    (h : c.Stands position of definition) (marked : definition.isMarked = true) :
    c.dialect ≠ .tool ∧ ∃ id type, c.graph.nodes.find? id = some (.object type) ∧
      ∃ property ∈ type.properties, ∃ name, position = .property name (c.requiredList type) ∧
        (c.requiredNames type).contains property.name = false ∧
        (type.NamesAgree → property.name.memberName = name) := by
  cases h with
  | @member id type fragments part name node mem described named =>
      rw [Conversion.member, isMarked_dress, unite] at marked
      split at marked
      · rw [described.isMarked_asUnion] at marked
        cases marked
      · rename_i free
        rw [Bool.or_eq_true, not_or, decide_eq_true_iff, Bool.not_eq_true] at free
        exact ⟨free.2, id, type, node, part.1, (List.of_mem_zip mem).1, name, rfl, free.1, named⟩
  | items described | values described =>
      rw [described.isMarked_asUnion] at marked
      cases marked
  | pointer | null | choice => cases marked
  | shared written =>
      rw [written.isMarked_eq_false] at marked
      cases marked

/-- What a conversion puts in a document lists the selected properties, and bears the marker
on other ones only, when the names of properties agree and are distinct. -/
theorem regulates {body : SchemaBody} (agree : c.graph.NamesAgree)
    (distinct : c.graph.DistinctNames)
    (outermost : ∀ part ∈ body.parts, c.Puts body part.1 part.2)
    (hbody : ∀ members ∈ body.properties, ∃ type fragments,
      c.graph.Leads c.graph.root (.object type) ∧ fragments.length = type.properties.length ∧
      members = c.memberTable type fragments ∧ body.required.listed = c.requiredList type ∧
      body.additional = .bool false) : c.Regulates body := by
  have hlists {ref : TypeRef} {type : ObjectType TypeRef} {fragments : List Definition}
      (leads : c.graph.Leads ref (.object type))
      (length : fragments.length = type.properties.length) :
      c.ListsRequired type (c.memberTable type fragments) (c.requiredList type)
        (.plain (.bool false)) := by
    cases leads with
    | inline unnamed => cases unnamed
    | named found => exact listsRequired (agree _ _ found) (distinct _ _ found) length
  constructor
  · intro members hmembers
    rcases hbody members hmembers with ⟨type, fragments, leads, length, rfl, hrequired, hclosed⟩
    rw [hrequired, hclosed]
    exact ⟨type, leads, hlists leads length⟩
  · intro position head members required additional holds
    rcases holds.puts outermost with ⟨of, stands, fills⟩
    rcases stands.eq_object with ⟨ref, href, type, fragments, leads, length, rfl, rfl, rfl⟩
    exact ⟨ref, type, fills agree ref href, leads, hlists leads length⟩
  · intro position definition holds marked
    rcases holds.puts outermost with ⟨of, stands, -⟩
    rcases stands.exists_member_of_isMarked marked with
      ⟨-, id, type, found, property, mem, name, rfl, free, named⟩
    refine ⟨name, c.requiredList type, rfl, ?_⟩
    rw [← named (agree id type found)]
    exact ne_of_mem_requiredList (agree id type found) mem free

end Conversion

/-! ## Documents -/

namespace TypeGraph

variable {graph : TypeGraph}

/-- The properties in the body of a document are those of the root object. -/
theorem exists_root_of_properties {c : Conversion} {flags : Flags} {name : String}
    {root : Definition} {defs : Table TypeId Definition} (h : c.Describes c.graph.root root) :
    ∀ members ∈ (schemaBody flags name root defs).properties, ∃ type fragments,
      c.graph.Leads c.graph.root (.object type) ∧ fragments.length = type.properties.length ∧
      members = c.memberTable type fragments ∧
      (schemaBody flags name root defs).required.listed = c.requiredList type ∧
      (schemaBody flags name root defs).additional = .bool false := by
  intro members hmembers
  unfold schemaBody at hmembers ⊢
  split at hmembers
  · rename_i head properties required additional
    rcases h.eq_object rfl with ⟨type, fragments, leads, length, rfl, rfl, -⟩
    refine ⟨type, fragments, leads, length, ?_, Json.listed_orNull _, rfl⟩
    have hmembers : nonEmpty? (c.memberTable type fragments) = some members := hmembers
    rw [← getD_nonEmpty? (c.memberTable type fragments), hmembers]
    rfl
  · cases hmembers
  · cases hmembers

/-- In both documents of a graph, the objects at any depth have the members of an object of
the graph and list the properties that the flags select, and the nullable marker is on values
of other properties only. -/
theorem documents_regulate (agree : graph.NamesAgree) (distinct : graph.DistinctNames)
    (flags : Flags) :
    (∀ name document, graph.toSchemaDocument flags name = .ok document →
      Conversion.Regulates ⟨graph, flags, .jsonSchema⟩ document.body) ∧
    ∀ document, graph.toToolDocument flags = .ok document →
      Conversion.Regulates ⟨graph, flags, .tool⟩ document.parameters := by
  constructor
  · intro name document h
    refine Conversion.regulates agree distinct (puts_toSchemaDocument h) ?_
    rcases runs_of_toSchemaDocument h with ⟨root, state, hruns, rfl⟩
    exact exists_root_of_properties hruns.describes_first.2
  · intro document h
    refine Conversion.regulates agree distinct (puts_toToolDocument h) ?_
    rcases runs_of_toToolDocument h with ⟨id, type, fragments, state, root, node, hruns, rfl⟩
    rcases TypeRef.id?_eq_some_iff.mp root with ⟨nullable, href⟩
    rintro _ ⟨⟩
    exact ⟨type, fragments, show graph.Leads graph.root _ from href ▸ .named node,
      hruns.describes_first.2.length, rfl, rfl, rfl⟩

/-- A note that refers to itself, with properties that may be null and need not be there. -/
def draftNote : TypeGraph where
  root := .named "Note" false
  nodes := [
    ("Note", .object {
      name := "Note", properties := [
        { name := "title", type := .inline (.primitive .string none) false },
        { name := "draft", type := .inline (.primitive .boolean none) true, hasDefault := true },
        { name := "author", type := .named "Author" true, hasDefault := true },
        { name := "notes", type := .inline (.list (.named "Note" true) none) true }] }),
    ("Author", .object {
      name := "Author", properties := [
        { name := "name", type := .inline (.primitive .string none) true }] })]

/-- Its document bears the marker on the values of two properties. -/
theorem draftNote_regulates : draftNote.NamesAgree ∧ draftNote.DistinctNames ∧ ∃ document,
    draftNote.toSchemaDocument (.initial .jsonSchema) "Note" = .ok document ∧
    Conversion.Regulates ⟨draftNote, .initial .jsonSchema, .jsonSchema⟩ document.body ∧
    document.body.required.listed = ["title", "notes"] ∧
    ∃ position definition, document.body.Holds position definition ∧
      definition.isMarked = true := by
  have hagree : draftNote.NamesAgree := .of_texts (by simp [draftNote])
  have hdistinct : draftNote.DistinctNames := .of_nodes (by simp [draftNote, Json.beq_text])
  exact ⟨hagree, hdistinct, _, rfl, (documents_regulate hagree hdistinct _).1 _ _ rfl, rfl, _, _,
    .part (List.mem_cons_of_mem _ (List.mem_cons_self ..)), rfl⟩

end TypeGraph

end Schemata
