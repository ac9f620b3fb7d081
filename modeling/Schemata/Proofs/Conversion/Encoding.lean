import Schemata.Proofs.Conversion.Description
import Schemata.Proofs.Schema.Decoding
import Schemata.Settings.Generator

/-!
# Documents of type graphs read back

A document of a type graph is read back from its text when the graph holds the values that
its fields are meant for.  The reader guesses the kind of each fragment, so the proof goes
through the fragments that a conversion can yield and shows that all of them are encodable.

Main results:

- Theorem {lit}`Describes.encodable`: the fragments that describe a reference are encodable.
- Theorem {lit}`documents_readBack`: a document of a graph is read back from its text.
-/

namespace Schemata

/-- The name of the property is a text, and its literal default is regular. -/
structure Property.Regular {ρ : Type} (property : Property ρ) : Prop where
  name : ∃ name, property.name = .str name
  default : property.default.Regular

/-- The name of the announcing property is regular, and each value has one identifier. -/
structure Discriminator.Regular (discriminator : Discriminator) : Prop where
  propertyName : discriminator.propertyName.Regular
  mapping : ∀ table ∈ discriminator.mapping, table.keys.Nodup

/-- The values that a node holds are regular. -/
def NodeOf.Regular {ρ : Type} : NodeOf ρ → Prop
  | .object type => ∀ property ∈ type.properties, property.Regular
  | .polymorphic type => ∀ discriminator ∈ type.discriminator, discriminator.Regular
  | _ => True

/-- The values that the named nodes of a graph hold are regular. -/
def TypeGraph.Regular (graph : TypeGraph) : Prop :=
  ∀ entry ∈ graph.nodes, entry.2.Regular

/-- A node found in a regular graph is regular. -/
theorem TypeGraph.Regular.node {graph : TypeGraph} (regular : graph.Regular) {id : TypeId}
    {node : Node} (found : graph.nodes.find? id = some node) : node.Regular :=
  regular _ (Table.mem_of_find? found)

namespace Conversion

variable {c : Conversion}

/-! ## Encodable fragments -/

theorem regular_ofText? (text : Option String) : (Json.ofText? text).Regular := by
  cases text with
  | none => exact .null
  | some text => exact .str text

theorem regular_marker (nullable : Bool) : (marker nullable).Regular := by
  cases nullable with
  | true => exact .bool true
  | false => exact .null

/-- The head of a typed fragment holds texts and a marker only. -/
theorem regular_headFor (type : String) (description : Option String) (nullable : Bool) :
    (headFor type description nullable).Regular where
  type := .str type
  description := regular_ofText? description
  nullable := regular_marker nullable
  default := .null
  const := .null

/-- No primitive kind is written with the type of an object. -/
theorem schemaType_ne_object (kind : PrimitiveKind) : kind.schemaType ≠ "object" := by
  cases kind <;> decide

/-- No primitive kind is written with the type of an array. -/
theorem schemaType_ne_array (kind : PrimitiveKind) : kind.schemaType ≠ "array" := by
  cases kind <;> decide

/-- A value whose type is a text is encodable when the text names no container. -/
theorem encodable_value {type : String} (notObject : type ≠ "object") (notArray : type ≠ "array")
    (description : Option String) (nullable : Bool) {enum : Json} (entries : enum.Regular) :
    (Definition.value (headFor type description nullable) enum).Encodable :=
  .value (regular_headFor ..) entries (fun h => notObject (Json.str.inj h))
    fun h => notArray (Json.str.inj h)

theorem encodable_pointer (target : String) (nullable : Bool) :
    (pointer target nullable).Encodable := by
  have hreference : (Definition.reference (.str target) .null).Encodable :=
    .reference (.str target) .null
  cases nullable with
  | false => exact hreference
  | true =>
      refine .anyOf .null fun option hoption => ?_
      rcases List.mem_cons.mp hoption with rfl | hoption
      · exact hreference
      · rw [List.mem_singleton.mp hoption]
        exact encodable_value (by decide) (by decide) none false .null

/-- A null marker leaves a definition encodable. -/
theorem encodable_markNullable {definition : Definition} (h : definition.Encodable)
    (nullable : Bool) : (markNullable nullable definition).Encodable := by
  cases nullable with
  | false => exact h
  | true =>
      refine h.mapHead ?_ ?_
      · exact fun head hhead =>
          ⟨hhead.type, hhead.description, .bool true, hhead.default, hhead.const⟩
      · exact fun _ => rfl

/-- Dressing a fragment for a property keeps it encodable. -/
theorem encodable_dress {property : Property TypeRef} (default : property.default.Regular)
    (required : Bool) {definition : Definition} (h : definition.Encodable) :
    (c.dress property required definition).Encodable := by
  have hunite : (c.unite required definition).Encodable := by
    unfold unite
    split
    · exact h.asUnion
    · exact h
  have hsettle : (c.settle property required (c.unite required definition)).Encodable := by
    unfold settle
    split
    · exact hunite
    · split
      · refine hunite.mapHead ?_ ?_
        · exact fun head hhead =>
            ⟨hhead.type, hhead.description, hhead.nullable, hhead.default, default⟩
        · exact fun _ => rfl
      · refine hunite.mapHead ?_ ?_
        · exact fun head hhead =>
            ⟨hhead.type, hhead.description, hhead.nullable, default, hhead.const⟩
        · exact fun _ => rfl
  rw [dress_eq, describe]
  split
  · exact hsettle.withDescription (.str _)
  · exact hsettle

/-! ## Objects -/

/-- The members of an object are encodable when its fragments are. -/
theorem encodable_memberTable {type : ObjectType TypeRef} {fragments : List Definition}
    (properties : ∀ property ∈ type.properties, property.Regular)
    (parts : ∀ part ∈ type.properties.zip fragments, part.2.Encodable) :
    EncodableTable (c.memberTable type fragments) where
  names := by
    rw [memberTable_eq_ofEntries fun property mem => (properties property mem).name]
    exact Table.nodup_keys_ofEntries _
  parts entry hentry := by
    rw [memberTable_eq_ofEntries fun property mem => (properties property mem).name] at hentry
    rcases Table.value_of_mem_ofEntries hentry with ⟨written, hwritten, hvalue⟩
    rcases List.mem_map.mp hwritten with ⟨part, hpart, rfl⟩
    rw [← hvalue]
    exact encodable_dress (properties _ (List.of_mem_zip hpart).1).default _ (parts part hpart)

/-- The names that an object requires are regular. -/
theorem regular_requiredList {type : ObjectType TypeRef}
    (properties : ∀ property ∈ type.properties, property.Regular) :
    (Json.arr (c.requiredList type)).Regular := by
  refine .arr fun name hname => ?_
  rcases List.mem_map.mp (List.mem_filter.mp hname).1 with ⟨property, hproperty, rfl⟩
  rcases (properties property hproperty).name with ⟨text, htext⟩
  rw [htext]
  exact .str text

/-- An object is encodable when the fragments of its properties are. -/
theorem encodable_objectFragment {type : ObjectType TypeRef} {fragments : List Definition}
    (properties : ∀ property ∈ type.properties, property.Regular)
    (parts : ∀ part ∈ type.properties.zip fragments, part.2.Encodable) :
    (c.objectFragment type fragments).Encodable := by
  have htable := encodable_memberTable (c := c) properties parts
  refine .object ⟨.str _, regular_ofText? _, .null, .null, .null⟩ (Or.inl rfl) ?_ ?_
    (regular_requiredList properties) ?_ ?_
  · rintro table ⟨⟩
    exact htable.names
  · rintro table ⟨⟩
    exact htable.parts
  · rintro content ⟨⟩
    exact ⟨.bool false, fun members h => by cases h⟩
  · exact fun fragment h => by cases h

/-! ## Polymorphic types -/

/-- A discriminator block is regular when the discriminator is. -/
theorem regular_discriminatorBlock {discriminator : Option Discriminator}
    (regular : ∀ present ∈ discriminator, present.Regular) :
    ∀ block ∈ c.discriminatorBlock discriminator, block.Regular := by
  intro block hblock
  cases discriminator with
  | none => cases hblock
  | some present =>
      rw [discriminatorBlock] at hblock
      split at hblock
      · cases hblock
      · cases hblock
        refine ⟨(regular present rfl).propertyName, ?_⟩
        cases hmapping : present.mapping with
        | none => exact .null
        | some mapping =>
            refine .obj ?_ fun member hmember => ?_
            · rw [List.map_map]
              exact (regular present rfl).mapping mapping hmapping
            · rcases List.mem_map.mp hmember with ⟨entry, -, rfl⟩
              exact .str _

/-- A choice is encodable when its discriminator, if it has one, is regular. -/
theorem encodable_choiceFragment {type : PolymorphicType TypeRef}
    (regular : ∀ discriminator ∈ type.discriminator, discriminator.Regular) (nullable : Bool) :
    (c.choiceFragment type nullable).Encodable := by
  have hvariants : ∀ option ∈ variantPointers type, option.Encodable := by
    intro option hoption
    rcases List.mem_map.mp hoption with ⟨variant, -, rfl⟩
    exact .reference (.str _) .null
  have hblock := regular_discriminatorBlock (c := c) regular
  cases nullable with
  | false => exact .oneOf (regular_ofText? _) hvariants hblock
  | true =>
      refine .anyOf (regular_ofText? _) fun option hoption => ?_
      rcases List.mem_cons.mp hoption with rfl | hoption
      · exact .oneOf .null hvariants hblock
      · rw [List.mem_singleton.mp hoption]
        exact encodable_value (by decide) (by decide) none false .null

/-! ## All fragments -/

/-- The fragments that describe a reference are encodable. -/
theorem Describes.encodable (regular : c.graph.Regular) {ref : TypeRef} {definition : Definition}
    (h : c.Describes ref definition) : definition.Encodable := by
  induction h with
  | @primitive ref kind description node =>
      exact encodable_value (schemaType_ne_object kind) (schemaType_ne_array kind) _ _ .null
  | enumeration node =>
      refine encodable_value (by decide) (by decide) _ _ (.arr fun entry hentry => ?_)
      rcases List.mem_map.mp hentry with ⟨text, -, rfl⟩
      exact .str text
  | list node element ih =>
      refine .array (regular_headFor ..) (Or.inl rfl) ?_
      rintro fragment ⟨⟩
      exact ih.asUnion
  | map node value ih =>
      refine .object (regular_headFor ..) (Or.inr rfl) ?_ ?_ .null ?_ ?_
      · exact fun table h => by cases h
      · exact fun table h => by cases h
      · exact fun content h => by cases h
      · rintro fragment ⟨⟩
        exact ih.asUnion
  | object node length parts ih =>
      exact encodable_markNullable (encodable_objectFragment (regular.node node) ih) _
  | choice node =>
      exact encodable_choiceFragment (regular.node node) _
  | root => exact encodable_pointer ..
  | shared => exact encodable_pointer ..

/-- The definitions that a run shares are encodable. -/
theorem Runs.encodable_defs (regular : c.graph.Regular) {job : Job} {state : ConversionState}
    (h : c.Runs job {} state) : EncodableTable state.defs where
  names := h.nodup_keys List.nodup_nil
  parts entry hentry :=
    (h.describes_first.1 entry hentry).describes.encodable regular

end Conversion

/-! ## Documents -/

theorem forall_mem_none {α : Type} {P : α → Prop} : ∀ value ∈ (none : Option α), P value :=
  fun value h => absurd h (Option.not_mem_none value)

/-- Dropping an empty table leaves the entries encodable. -/
theorem encodable_nonEmpty? {table : Table String Definition} (h : EncodableTable table) :
    ∀ entries ∈ nonEmpty? table, EncodableTable entries := by
  intro entries hentries
  unfold nonEmpty? at hentries
  split at hentries
  · cases hentries
  · cases hentries
    exact h

/-- Putting null in place of an empty value keeps it regular. -/
theorem Json.Regular.orNull {value : Json} (h : value.Regular) : value.orNull.Regular := by
  unfold Json.orNull
  split
  · exact .null
  · exact h

namespace TypeGraph

variable {graph : TypeGraph} {flags : Flags} {layout : Layout}

/-- The body of a document with an encodable root and encodable definitions. -/
theorem encodable_schemaBody {root : Definition} {defs : Table TypeId Definition} (name : String)
    (hroot : root.Encodable) (hdefs : EncodableTable defs) :
    (schemaBody flags name root defs).Encodable := by
  have hstrict : ∀ text : String,
      (if flags.strict.isTruthy then Json.str text else .null).Regular := by
    intro text
    split
    · exact .str text
    · exact .null
  -- Only an object with properties and a choice leave something of themselves in the body.
  unfold schemaBody
  split
  · cases hroot with
    | object keywords kind names parts listed plain schema => exact {
        schemaUri := hstrict draftAddress
        id := hstrict name
        type := .str "object"
        description := keywords.description
        properties := encodable_nonEmpty? ⟨names _ rfl, parts _ rfl⟩
        required := listed.orNull
        additional := .bool false
        oneOf := forall_mem_none
        discriminator := forall_mem_none
        defs := encodable_nonEmpty? hdefs }
  · cases hroot with
    | oneOf text parts block => exact {
        schemaUri := hstrict draftAddress
        id := hstrict name
        type := .str "object"
        description := text
        properties := forall_mem_none
        required := .null
        additional := .bool false
        oneOf := fun _ h => Option.mem_some.mp h ▸ parts
        discriminator := block
        defs := encodable_nonEmpty? hdefs }
  · exact {
      schemaUri := hstrict draftAddress
      id := hstrict name
      type := .str "object"
      description := .null
      properties := forall_mem_none
      required := .null
      additional := .bool false
      oneOf := forall_mem_none
      discriminator := forall_mem_none
      defs := encodable_nonEmpty? hdefs }

/-- The JSON Schema document of a regular graph is encodable. -/
theorem encodable_toSchemaDocument (regular : graph.Regular) {strict : Bool}
    (hstrict : flags.strict = .bool strict) {name : String} {document : SchemaDocument}
    (h : graph.toSchemaDocument flags name = .ok document) : document.Encodable := by
  rcases runs_of_toSchemaDocument h with ⟨root, state, hrun, rfl⟩
  have hdescribes : Conversion.Describes ⟨graph, flags, .jsonSchema⟩ graph.root root :=
    hrun.describes_first.2
  exact {
    name := .str name
    strict := ⟨strict, hstrict⟩
    description := .null
    body := encodable_schemaBody name (hdescribes.encodable regular)
      (hrun.encodable_defs regular) }

/-- The tool schema of a regular graph is encodable. -/
theorem encodable_toToolDocument (regular : graph.Regular) {strict : Bool}
    (hstrict : flags.strict = .bool strict) {document : ToolDocument}
    (h : graph.toToolDocument flags = .ok document) : document.Encodable := by
  rcases runs_of_toToolDocument h with ⟨id, type, fragments, state, -, node, hrun, rfl⟩
  have hparts := hrun.describes_first.2.parts
  have htable := Conversion.encodable_memberTable (c := ⟨graph, flags, .tool⟩)
    (regular.node node) fun part hpart => (hparts part hpart).encodable regular
  have hparameters : SchemaBody.Encodable {
      properties := some (Conversion.memberTable ⟨graph, flags, .tool⟩ type fragments)
      required := .arr (Conversion.requiredList ⟨graph, flags, .tool⟩ type)
      defs := nonEmpty? state.defs } := {
    schemaUri := .null
    id := .null
    type := .str "object"
    description := .null
    properties := fun _ h => Option.mem_some.mp h ▸ htable
    required := Conversion.regular_requiredList (regular.node node)
    additional := .bool false
    oneOf := forall_mem_none
    discriminator := forall_mem_none
    defs := encodable_nonEmpty? (hrun.encodable_defs regular) }
  exact {
    type := rfl
    name := .str _
    description := .str _
    strict := ⟨strict, hstrict⟩
    parameters := hparameters }

/-- The layout for null or an integer indents by blanks. -/
theorem blankLayout_ofJson {indent : Json} (plain : indent = .null ∨ ∃ width, indent = .int width)
    (h : Layout.ofJson indent = .ok layout) : Json.Parser.BlankLayout layout := by
  rcases plain with rfl | ⟨width, rfl⟩
  · cases h
    trivial
  · simp only [Layout.ofJson, Json.integer?, Layout.ofWidth] at h
    split at h
    · cases h
    · split at h
      · cases h
      · cases h
        intro c hc
        rw [List.eq_of_mem_replicate hc]
        rfl

/-- The documents of a graph are read back from their texts, in every layout for null or an
integer, and are the same as themselves.  An integer has a layout unless it is too large. -/
theorem documents_readBack (regular : graph.Regular) {strict : Bool}
    (hstrict : flags.strict = .bool strict) {indent : Json}
    (plain : indent = .null ∨ ∃ width, indent = .int width) :
    (∀ layout, Layout.ofJson indent = .ok layout →
      (∀ name document, graph.toSchemaDocument flags name = .ok document →
        SchemaDocument.decode (document.encode layout) = .ok document ∧
          document.same document = true) ∧
      (∀ document, graph.toToolDocument flags = .ok document →
        ToolDocument.decode (document.encode layout) = .ok document ∧
          document.same document = true)) ∧
    (∀ error, Layout.ofJson indent = .error error → ∃ width : Int, indent = .int width ∧
      (width < -Layout.wordLimit ∨ Layout.memoryLimit ≤ width)) := by
  constructor
  · intro layout hlayout
    have hblank := blankLayout_ofJson plain hlayout
    constructor
    · intro name document h
      have hdocument := encodable_toSchemaDocument regular hstrict h
      exact ⟨hdocument.decode_encode hblank, hdocument.same_self⟩
    · intro document h
      have hdocument := encodable_toToolDocument regular hstrict h
      exact ⟨hdocument.decode_encode hblank, hdocument.same_self⟩
  · intro error herror
    rcases plain with rfl | ⟨width, rfl⟩
    · cases herror
    · refine ⟨width, rfl, ?_⟩
      simp only [Layout.ofJson, Json.integer?, Layout.ofWidth] at herror
      split at herror
      · next large => exact large.imp_right fun h => Int.le_trans (by decide +kernel) h
      · split at herror
        · next large => exact Or.inr large
        · cases herror

/-- An object with a list of defaults, a map and a subtype that refers back to it. -/
def announcedLeaf : TypeGraph where
  root := .named "Root" false
  nodes := [
    ("Root", .object {
      name := "Root"
      properties := [
        { name := "sizes", type := .inline (.list (.inline (.primitive .int none) true) none) false,
          hasDefault := true, default := .arr [.int 1, .null] },
        { name := "notes", description := some "By name",
          type := .inline (.map (.inline (.primitive .string none) false)
            (.inline (.primitive .string none) true) none) true },
        { name := "base", type := .named "Base" true }] }),
    ("Base", .polymorphic {
      base := "Base", variants := [⟨"Leaf", .named "Leaf" false⟩],
      discriminator := some { mapping := some [("leaf", "Leaf")] } }),
    ("Leaf", .object {
      name := "Leaf", properties := [{ name := "root", type := .named "Root" false }] })]

/-- Both of its documents are read back from their texts with an indentation of two. -/
theorem announcedLeaf_readBack : ∃ layout document tool,
    Layout.ofJson (.int 2) = .ok layout ∧
    announcedLeaf.toSchemaDocument (.initial .jsonSchema) "Root" = .ok document ∧
    announcedLeaf.toToolDocument (.initial .jsonSchema) = .ok tool ∧
    SchemaDocument.decode (document.encode layout) = .ok document ∧
    ToolDocument.decode (tool.encode layout) = .ok tool := by
  have hregular : announcedLeaf.Regular := by
    refine List.forall_mem_cons.mpr ⟨?_, List.forall_mem_cons.mpr ⟨?_, List.forall_mem_cons.mpr
      ⟨?_, fun _ h => absurd h List.not_mem_nil⟩⟩⟩
    · have hsizes : (Json.arr [.int 1, .null]).Regular :=
        .arr (List.forall_mem_cons.mpr ⟨.int 1, List.forall_mem_singleton.mpr .null⟩)
      exact List.forall_mem_cons.mpr ⟨⟨⟨_, rfl⟩, hsizes⟩, List.forall_mem_cons.mpr
        ⟨⟨⟨_, rfl⟩, .null⟩, List.forall_mem_singleton.mpr ⟨⟨_, rfl⟩, .null⟩⟩⟩
    · rintro discriminator ⟨⟩
      refine ⟨.str "type", ?_⟩
      rintro table ⟨⟩
      decide
    · exact List.forall_mem_singleton.mpr ⟨⟨_, rfl⟩, .null⟩
  refine ⟨.indented [' ', ' '], _, _, rfl, rfl, rfl, ?_⟩
  have hread := (documents_readBack hregular
    (show (Flags.initial .jsonSchema).strict = .bool false from rfl) (Or.inr ⟨2, rfl⟩)).1
    (.indented [' ', ' ']) rfl
  exact ⟨(hread.1 "Root" _ rfl).1, (hread.2 _ rfl).1⟩

end TypeGraph

end Schemata
