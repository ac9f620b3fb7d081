import Schemata.Proofs.Conversion.Resolution
import Schemata.Proofs.Conversion.Tree

/-!
# Documents unfold to their graphs

A document whose pointers resolve says what its graph says: down to every depth, the body
with its pointers followed has the tree that the plain recursion gives for the root.

A pointer and a fragment written out have the same tree because both lead to a fragment
that describes the same node.  The proof is an induction on the depth with one statement
for described references and one for pointers to subtypes, which describe nodes of any
kind.

Main results:

- Theorem {lit}`Faithful.agrees`: described references have the trees of their fragments.
- Theorem {lit}`toSchemaDocument_unfold`: a closed document has the trees of its graph.
-/

namespace Schemata

namespace Conversion

variable {c : Conversion} {body : SchemaBody} {depth : Nat}

/-! ## Fragments that are written out -/

variable (c body) in
/-- The pointers of a document lead to fragments that are written out for their nodes. -/
structure Faithful : Prop where
  shared : ∀ id, .str (defsPointer id) ∈ body.pointers → ∃ definition,
    body.resolve (.str (defsPointer id)) = some definition ∧ c.Written id definition ∧
      definition.pointers ⊆ body.pointers
  root : ∀ id type, c.graph.root.id? = some id →
    c.graph.nodes.find? id = some (.object type) → ∃ fragments,
      c.DescribesAll type.properties fragments ∧
      (c.objectFragment type fragments).pointers ⊆ body.pointers ∧
      ∀ below nullable, body.rootFragment.read below nullable =
        (c.objectFragment type fragments).read below nullable

variable (c body) in
/-- Down to a depth, described references have the trees of their fragments, and pointers
the trees of their nodes. -/
structure Agrees (depth : Nat) : Prop where
  described : ∀ ref definition, c.Describes ref definition →
    definition.pointers ⊆ body.pointers →
    c.plain depth ref = definition.unfold body.resolve depth
  pointed : ∀ id, .str (defsPointer id) ∈ body.pointers →
    c.plain depth (.named id false) =
      (Definition.reference (.str (defsPointer id)) .null).unfold body.resolve depth

/-- A head of another type than null allows null exactly when it is nullable. -/
theorem headFor_allowsNull {type : String} (other : type ≠ nullType)
    (description : Option String) (nullable : Bool) :
    (headFor type description nullable).allowsNull = nullable := by
  have htype : (type == nullType) = false := beq_false_of_ne other
  cases nullable <;> simp [TypedHead.allowsNull, TypedHead.types, headFor, marker, Json.isText,
    Json.isTruthy, htype]

/-- Beside null, a head allows values of its own type only. -/
theorem headFor_valueTypes {type : String} (other : type ≠ nullType)
    (description : Option String) (nullable : Bool) :
    (headFor type description nullable).valueTypes = [.str type] := by
  have htype : (type == nullType) = false := beq_false_of_ne other
  simp [TypedHead.valueTypes, TypedHead.types, headFor, Json.isText, htype]

theorem schemaType_ne_nullType (kind : PrimitiveKind) : kind.schemaType ≠ nullType := by
  cases kind <;> decide

/-- The trees of a property table are those of the properties.  A property whose name
occurs again later has no fragment in the table, so nothing is asked of it. -/
theorem unfold_propertyTable (required : List PropertyName)
    (parts : List (Property TypeRef × Definition)) (tree : Definition → Tree)
    (below : TypeRef → Tree)
    (dressed : ∀ part ∈ parts,
      part.2.pointers ⊆ Definition.tablePointers
        ((c.propertyTable required [] parts).map fun entry => (entry.1.memberName, entry.2)) →
      ∀ required, tree (c.dress part.1 required part.2) =
        c.plainProperty part.1 required (below part.1.type)) :
    (c.propertyTable required [] parts).map (fun entry => (entry.1, tree entry.2)) =
      Table.ofEntries (parts.map fun part => (part.1.name,
        c.plainProperty part.1 (required.contains part.1.name) (below part.1.type))) := by
  -- One table with both values shows which fragments are left.
  let pairs := Table.ofEntries (parts.map fun part => (part.1.name,
    (c.dress part.1 (required.contains part.1.name) part.2,
      c.plainProperty part.1 (required.contains part.1.name) (below part.1.type))))
  have hfragments : c.propertyTable required [] parts =
      pairs.map fun entry => (entry.1, entry.2.1) := by
    rw [propertyTable_eq_ofEntries, Table.map_ofEntries, List.map_map]
    rfl
  have htrees : Table.ofEntries (parts.map fun part => (part.1.name,
      c.plainProperty part.1 (required.contains part.1.name) (below part.1.type))) =
      pairs.map fun entry => (entry.1, entry.2.2) := by
    rw [Table.map_ofEntries, List.map_map]
    rfl
  rw [htrees]
  rw [hfragments] at dressed ⊢
  rw [List.map_map]
  refine List.map_congr_left fun entry hentry => ?_
  rcases Table.value_of_mem_ofEntries hentry with ⟨written, hwritten, hvalue⟩
  rcases List.mem_map.mp hwritten with ⟨part, hpart, rfl⟩
  have hleft : part.2.pointers ⊆ Definition.tablePointers
      ((pairs.map fun entry => (entry.1, entry.2.1)).map
        fun entry => (entry.1.memberName, entry.2)) := by
    intro target htarget
    refine Definition.mem_tablePointers.mpr
      ⟨_, List.mem_map_of_mem (List.mem_map_of_mem hentry), ?_⟩
    rw [← hvalue, pointers_dress]
    exact htarget
  simp only [Function.comp_apply, Prod.mk.injEq, true_and]
  rw [← hvalue]
  exact dressed part hpart hleft _

/-- What an object that is written out says is what the plain recursion says. -/
theorem Agrees.object (agrees : c.Agrees body depth) {type : ObjectType TypeRef}
    {fragments : List Definition} (parts : c.DescribesAll type.properties fragments)
    (among : (c.objectFragment type fragments).pointers ⊆ body.pointers) (nullable : Bool) :
    c.plainNode (c.plain depth) nullable (.object type) =
      (c.objectFragment type fragments).read (Definition.unfold body.resolve depth)
        nullable := by
  have htable := unfold_propertyTable (c.requiredNames type) (type.properties.zip fragments)
    (Definition.unfold body.resolve depth) (c.plain depth) fun part hpart hpointers required => by
      have hagree := agrees.described _ _ (parts.parts part hpart) fun target htarget =>
        among (pointers_objectFragment ▸ hpointers htarget)
      rw [unfold_dress (parts.parts part hpart) hagree, hagree]
  have hproperties : type.properties.map (fun property => (property.name,
      c.plainProperty property ((c.requiredNames type).contains property.name)
        (c.plain depth property.type))) =
      (type.properties.zip fragments).map fun part => (part.1.name,
        c.plainProperty part.1 ((c.requiredNames type).contains part.1.name)
          (c.plain depth part.1.type)) := by
    conv => lhs; rw [← List.map_fst_zip (Nat.le_of_eq parts.length.symm)]
    rw [List.map_map]
    rfl
  have hhead : ({ type := "object", description := .ofText? type.description } : TypedHead) =
      headFor "object" type.description false := rfl
  rw [plainNode, hproperties, ← htable, objectFragment, memberTable, Definition.read, hhead,
    headFor_allowsNull (by decide), headFor_valueTypes (by decide), Bool.or_false,
    List.map_map, List.map_map]
  rfl

/-- A choice between pointers says what the plain recursion says. -/
theorem Agrees.choice (agrees : c.Agrees body depth) {type : PolymorphicType TypeRef}
    (among : Definition.allPointers (variantPointers type) ⊆ body.pointers)
    (description : Json) (nullable : Bool) :
    c.plainNode (c.plain depth) nullable (.polymorphic type) =
      (Definition.oneOf description (variantPointers type)
        (c.discriminatorBlock type.discriminator)).read (Definition.unfold body.resolve depth)
        nullable := by
  rw [plainNode, Definition.read, variantPointers, List.map_map, Tree.choice.injEq]
  refine ⟨rfl, List.map_congr_left fun variant hvariant => ?_, rfl⟩
  refine agrees.pointed variant.id (among ?_)
  exact Definition.mem_allPointers.mpr
    ⟨_, List.mem_map_of_mem hvariant, List.mem_singleton.mpr rfl⟩

/-- The marker shows in a tree like null beside the fragment. -/
theorem read_markNullable (below : Definition → Tree) (type : ObjectType TypeRef)
    (fragments : List Definition) (nullable beside : Bool) :
    (markNullable nullable (c.objectFragment type fragments)).read below beside =
      (c.objectFragment type fragments).read below (nullable || beside) := by
  cases nullable with
  | false => rfl
  | true =>
      simp only [markNullable, objectFragment, Definition.mapHead, Definition.read,
        TypedHead.allowsNull, Json.isTruthy, Bool.true_or, Bool.or_true, if_true]
      rfl

/-- What a fragment that is written out says is what the plain recursion says of the node. -/
theorem Agrees.node (agrees : c.Agrees body depth) {ref : TypeRef} {definition : Definition}
    (h : c.Describes ref definition) (apart : ¬ definition.IsPointer)
    (among : definition.pointers ⊆ body.pointers) :
    ∃ node, c.graph.Leads ref node ∧ ∀ beside,
      c.plainNode (c.plain depth) (ref.nullable || beside) node =
        (definition.besideNull.1.follow body.resolve).read (Definition.unfold body.resolve depth)
          (definition.besideNull.2 || beside) := by
  cases h with
  | @primitive _ kind description leads =>
      refine ⟨_, leads, fun beside => ?_⟩
      rw [Bool.or_comm]
      simp only [plainNode, Definition.besideNull, Definition.follow, Definition.read,
        headFor_allowsNull (schemaType_ne_nullType kind),
        headFor_valueTypes (schemaType_ne_nullType kind), Bool.false_or]
      rfl
  | enumeration leads =>
      refine ⟨_, leads, fun beside => ?_⟩
      rw [Bool.or_comm]
      simp only [plainNode, Definition.besideNull, Definition.follow, Definition.read,
        headFor_allowsNull (show "string" ≠ nullType by decide),
        headFor_valueTypes (show "string" ≠ nullType by decide), Bool.false_or]
      rfl
  | list leads element =>
      refine ⟨_, leads, fun beside => ?_⟩
      rw [Definition.pointers_array] at among
      rw [Bool.or_comm]
      simp only [plainNode, Definition.besideNull, Definition.follow, Definition.read,
        headFor_allowsNull (show "array" ≠ nullType by decide),
        headFor_valueTypes (show "array" ≠ nullType by decide), Bool.false_or,
        Option.map_some, Definition.unfold_asUnion, agrees.described _ _ element among]
      rfl
  | map leads value =>
      refine ⟨_, leads, fun beside => ?_⟩
      rw [Definition.pointers_map] at among
      rw [Bool.or_comm]
      simp only [plainNode, Definition.besideNull, Definition.follow, Definition.read,
        headFor_allowsNull (show "object" ≠ nullType by decide),
        headFor_valueTypes (show "object" ≠ nullType by decide), Bool.false_or,
        Additional.map, Definition.unfold_asUnion, agrees.described _ _ value among]
      rfl
  | @object id nullable type fragments found length parts =>
      refine ⟨_, .named found, fun beside => ?_⟩
      rw [pointers_markNullable] at among
      have hbeside : (markNullable nullable (c.objectFragment type fragments)).besideNull =
          (markNullable nullable (c.objectFragment type fragments), false) := by
        cases nullable <;> rfl
      have hfollow : (markNullable nullable (c.objectFragment type fragments)).follow
          body.resolve = markNullable nullable (c.objectFragment type fragments) := by
        cases nullable <;> rfl
      rw [hbeside, hfollow, Bool.false_or, read_markNullable]
      exact agrees.object ⟨length, parts⟩ among _
  | @choice id nullable type found =>
      refine ⟨_, .named found, fun beside => ?_⟩
      rw [pointers_choiceFragment] at among
      cases nullable with
      | false => exact agrees.choice among _ _
      | true => exact agrees.choice among _ _
  | root | shared => exact absurd (isPointer_pointer ..) apart

/-- A fragment that is written out without null has no null beside it and is no pointer. -/
theorem Written.besideNull {id : TypeId} {definition : Definition}
    (h : c.Written id definition) : definition.besideNull = (definition, false) := by
  rcases h with ⟨describes, apart⟩
  cases describes with
  | primitive | enumeration | list | map | object | choice => rfl
  | root | shared => exact absurd (isPointer_pointer ..) apart

/-- A written definition is no reference, so following it stays in place. -/
theorem Written.follow {id : TypeId} {definition : Definition} (h : c.Written id definition)
    (resolve : Json → Option Definition) : definition.follow resolve = definition := by
  rcases h with ⟨describes, apart⟩
  cases describes with
  | primitive | enumeration | list | map | object | choice => rfl
  | root | shared => exact absurd (isPointer_pointer ..) apart

/-- A fragment that is written out says what its node says, with null beside it or not. -/
theorem Agrees.written (agrees : c.Agrees body depth) {id : TypeId} {definition : Definition}
    (h : c.Written id definition) (among : definition.pointers ⊆ body.pointers)
    (nullable : Bool) :
    c.plain (depth + 1) (.named id nullable) =
      definition.read (Definition.unfold body.resolve depth) nullable := by
  rcases agrees.node h.describes h.apart among with ⟨node, leads, hnode⟩
  have hread := hnode nullable
  rw [h.besideNull, h.follow, TypeRef.nullable, Bool.false_or] at hread
  cases leads with
  | named found => rw [plain_of_leads (.named found), TypeRef.nullable, hread]

/-- Setting null aside, a reference is its target and whether it was nullable. -/
theorem besideNull_pointer (target : String) (nullable : Bool) :
    (pointer target nullable).besideNull = (.reference (.str target) .null, nullable) := by
  cases nullable <;> rfl

/-! ## Agreement at every depth -/

/-- Described references have the trees of their fragments, and pointers the trees of
their nodes. -/
theorem Faithful.agrees (faithful : c.Faithful body) (depth : Nat) : c.Agrees body depth := by
  induction depth with
  | zero => exact ⟨fun _ _ _ _ => rfl, fun _ _ => rfl⟩
  | succ depth ih =>
      have hshared : ∀ id nullable, .str (defsPointer id) ∈ body.pointers →
          c.plain (depth + 1) (.named id nullable) =
            (pointer (defsPointer id) nullable).unfold body.resolve (depth + 1) := by
        intro id nullable hid
        rcases faithful.shared id hid with ⟨definition, hresolve, hwritten, among⟩
        rw [ih.written hwritten among, Definition.unfold, besideNull_pointer, Definition.follow,
          hresolve, Option.getD_some]
      refine ⟨fun ref definition h among => ?_, fun id hid => hshared id false hid⟩
      by_cases hpointer : definition.IsPointer
      · cases h with
        | primitive | enumeration | list | map => cases hpointer
        | object => exact absurd hpointer (not_isPointer_object _ _ _)
        | choice => exact absurd hpointer (not_isPointer_choice _ _)
        | @root id nullable type found root =>
            rcases faithful.root id type root found with ⟨fragments, parts, hpointers, hread⟩
            rw [ih.written (.object found parts) hpointers, Definition.unfold,
              besideNull_pointer, ← hread]
            rfl
        | @shared id nullable type found =>
            refine hshared id nullable (among ?_)
            rw [pointers_pointer]
            exact List.mem_singleton.mpr rfl
      · rcases ih.node h hpointer among with ⟨node, leads, hnode⟩
        have hread := hnode false
        rw [Bool.or_false, Bool.or_false] at hread
        rw [plain_of_leads leads, hread, Definition.unfold]

end Conversion

/-! ## Documents -/

namespace TypeGraph

variable {graph : TypeGraph} {flags : Flags} {name : String} {root : Definition}
variable {defs : Table TypeId Definition} {state : ConversionState}

/-- The pointer to a shared definition means one of its name. -/
theorem resolve_defsPointer {body : SchemaBody} {id : TypeId} (h : id ∈ body.definedIds) :
    ∃ definition, (id, definition) ∈ body.defs.getD [] ∧
      body.resolve (.str (defsPointer id)) = some definition := by
  rw [SchemaBody.resolve, if_neg (Conversion.defsPointer_ne_root id)]
  rcases List.mem_map.mp h with ⟨entry, hentry, rfl⟩
  have hsome : (List.find? (fun other => defsPointer other.1 == defsPointer entry.1)
      (body.defs.getD [])).isSome :=
    List.find?_isSome.mpr ⟨entry, hentry, beq_self_eq_true _⟩
  rcases Option.isSome_iff_exists.mp hsome with ⟨found, hfound⟩
  have hpointer : (defsPointer found.1 == defsPointer entry.1) = true := by
    simpa using List.find?_some hfound
  refine ⟨found.2, ?_, by rw [hfound, Option.map_some]⟩
  rw [← Conversion.defsPointer_inj (eq_of_beq hpointer)]
  exact List.mem_of_find?_eq_some hfound

/-- The shared definitions of a document are the table it was built from. -/
theorem defs_schemaBody : (schemaBody flags name root defs).defs.getD [] = defs := by
  have hdefs : (schemaBody flags name root defs).defs = nonEmpty? defs := by
    unfold schemaBody
    split <;> rfl
  rw [hdefs, getD_nonEmpty?]

theorem orNull_orNull (value : Json) : value.orNull.orNull = value.orNull := by
  cases value with
  | arr items => cases items <;> rfl
  | _ => rfl

/-- The body of a document whose root is an object says what its fragment says. -/
theorem read_rootFragment_object (flags : Flags) (name : String) (defs : Table TypeId Definition)
    {c : Conversion} (type : ObjectType TypeRef) (fragments : List Definition)
    (marked nullable : Bool) (below : Definition → Tree) :
    (schemaBody flags name (Conversion.markNullable marked (c.objectFragment type fragments))
      defs).rootFragment.read below nullable =
      (c.objectFragment type fragments).read below nullable := by
  cases marked <;>
    simp [Conversion.markNullable, Conversion.objectFragment, Definition.mapHead, schemaBody,
      SchemaBody.rootFragment, Definition.read, getD_nonEmpty?, orNull_orNull, Additional.map,
      TypedHead.allowsNull, TypedHead.valueTypes, TypedHead.types]

/-- The pointers of a closed document lead to fragments that are written out. -/
theorem faithful_schemaBody
    (closed : (schemaBody flags name root state.defs).IsClosed graph)
    (written : Conversion.WritesShared ⟨graph, flags, .jsonSchema⟩ state)
    (describes : Conversion.Describes ⟨graph, flags, .jsonSchema⟩ graph.root root)
    (apart : ¬ root.IsPointer) (body : graph.HasBody) :
    Conversion.Faithful ⟨graph, flags, .jsonSchema⟩ (schemaBody flags name root state.defs) where
  shared id hid := by
    rcases resolve_defsPointer (mem_definedIds_of_resolves (closed _ hid)) with
      ⟨definition, hentry, hresolve⟩
    rw [defs_schemaBody] at hentry
    exact ⟨definition, hresolve, written _ hentry, fun _ h =>
      tablePointers_subset_schemaBody (pointers_subset_tablePointers hentry h)⟩
  root id type hid found := by
    rcases describes.root_cases apart body with
      ⟨other, nullable, type', fragments, href, found', parts, rfl⟩ |
      ⟨other, type', href, found', _⟩
    · rw [href] at hid
      cases hid
      cases found.symm.trans found'
      exact ⟨fragments, parts, pointers_subset_schemaBody_object ..,
        fun below nullable => read_rootFragment_object _ _ _ type fragments _ nullable below⟩
    · rw [href] at hid
      cases hid
      cases found.symm.trans found'

/-- Down to every depth, a document whose pointers resolve has the tree that the plain
recursion gives for the root of its graph. -/
theorem toSchemaDocument_unfold {document : SchemaDocument}
    (h : graph.toSchemaDocument flags name = .ok document) (body : graph.HasBody)
    (closed : document.body.IsClosed graph) (depth : Nat) :
    document.body.unfold depth =
      Conversion.plain ⟨graph, flags, .jsonSchema⟩ depth (graph.root.withNullable false) := by
  rcases runs_of_toSchemaDocument h with ⟨root, state, hruns, rfl⟩
  rcases hruns.describes_first with
    ⟨hwritten, hdescribes⟩
  have hagrees := (faithful_schemaBody closed hwritten hdescribes hruns.root_apart body).agrees
  cases depth with
  | zero => rfl
  | succ depth =>
      rcases hdescribes.root_cases hruns.root_apart body with
        ⟨id, nullable, type, fragments, href, found, parts, rfl⟩ | ⟨id, type, href, found, rfl⟩
      · rw [href, TypeRef.withNullable, (hagrees depth).written (.object found parts)
          (pointers_subset_schemaBody_object ..)]
        rw [SchemaBody.unfold, Definition.unfold]
        refine Eq.trans ?_ (read_rootFragment_object flags name state.defs type fragments nullable
          false _)
        cases nullable <;> rfl
      · rw [href, TypeRef.withNullable, (hagrees depth).written
          ⟨.choice found, Conversion.not_isPointer_choice _ _⟩
          (pointers_subset_schemaBody_choice ..)]
        rfl

/-- The document of an object with a subtype that refers back to it, four levels deep. -/
theorem unlistedRoot_unfold : ∃ document,
    unlistedRoot.toSchemaDocument (.initial .jsonSchema) "Root" = .ok document ∧
    document.body.unfold 4 = Conversion.plain ⟨unlistedRoot, .initial .jsonSchema, .jsonSchema⟩ 4
      (unlistedRoot.root.withNullable false) := by
  refine ⟨_, rfl, toSchemaDocument_unfold rfl ⟨"Root", rfl, Or.inl ⟨_, rfl⟩⟩ ?_ 4⟩
  intro target htarget
  have htarget : target ∈ [Json.str (defsPointer "Leaf"), .str "#"] := htarget
  rw [List.mem_cons, List.mem_singleton] at htarget
  rcases htarget with rfl | rfl
  · exact Or.inr ⟨"Leaf", List.mem_singleton.mpr rfl, rfl⟩
  · exact Or.inl ⟨rfl, "Root", rfl, _, rfl⟩

end TypeGraph

end Schemata
