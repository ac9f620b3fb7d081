import Schemata.Proofs.Conversion.Description

/-!
# Trees of fragments and of type graphs

A document and its graph describe the same values, in different forms: the document
shares definitions and has three spellings of nullability.  A tree shows what either of
them says down to a depth.

A fragment is unfolded with its pointers followed.  A reference is converted by the plain
recursion that writes every object and every subtype out where it is used, and that keeps
no state.  Descriptions are left out, and so are the defaults of objects and choices.

Main results:

- Theorem {lit}`unfold_asUnion`: the spelling of nullability does not show in a tree.
- Theorem {lit}`unfold_dress`: dressing the fragment of a property's type gives its tree
  the default of the property.
-/

namespace Schemata

/-- What a fragment or a type says, down to a depth. -/
inductive Tree where
  /-- What lies below the depth. -/
  | cut
  | value (nullable : Bool) (types : List Json) (enum default const : Json)
  | array (nullable : Bool) (types : List Json) (items : Option Tree) (default const : Json)
  | map (nullable : Bool) (types : List Json) (required : Json) (additional : Additional Tree)
      (default const : Json)
  | object (nullable : Bool) (types : List Json) (properties : List (String × Tree))
      (required : Json) (additional : Additional Tree)
  | choice (nullable : Bool) (options : List Tree) (discriminator : Option DiscriminatorBlock)
  | anyOf (nullable : Bool) (options : List Tree)
  | allOf (nullable : Bool) (options : List Tree)
  /-- A pointer that leads nowhere. -/
  | pointer (nullable : Bool) (target : Json)
  /-- A reference that leads nowhere. -/
  | missing

/-- A default, or the only value when it is fixed.  Objects and choices have none. -/
def Tree.withDefault (fixed : Bool) (content : Json) : Tree → Tree
  | .value nullable types enum default const =>
    if fixed then .value nullable types enum default content
    else .value nullable types enum content const
  | .array nullable types items default const =>
    if fixed then .array nullable types items default content
    else .array nullable types items content const
  | .map nullable types required additional default const =>
    if fixed then .map nullable types required additional default content
    else .map nullable types required additional content const
  | other => other

/-- Replace the fragment for members without a name. -/
def Additional.map {α β : Type} (f : α → β) : Additional α → Additional β
  | .plain value => .plain value
  | .schema fragment => .schema (f fragment)

/-! ## Trees of fragments -/

namespace TypedHead

/-- Whether null is among the types, or marked. -/
def allowsNull (head : TypedHead) : Bool :=
  head.nullable.isTruthy || head.types.any (·.isText nullType)

/-- The types other than null. -/
def valueTypes (head : TypedHead) : List Json :=
  head.types.filter (!·.isText nullType)

end TypedHead

namespace Definition

/-- The alternative that stands beside null. -/
def nullBeside? : List Definition → Option Definition
  | [fragment, .value head _] => if head.type.isText nullType then some fragment else none
  | _ => none

/-- A fragment without null beside it, and whether there was. -/
def besideNull : Definition → Definition × Bool
  | .anyOf description options =>
    match nullBeside? options with
    | some fragment => (fragment, true)
    | none => (.anyOf description options, false)
  | fragment => (fragment, false)

/-- The fragment that a pointer leads to; another fragment itself. -/
def follow (resolve : Json → Option Definition) : Definition → Definition
  | .reference target description => (resolve target).getD (.reference target description)
  | fragment => fragment

/-- What a fragment says, given what the fragments in it say and whether there is null
beside it. -/
def read (below : Definition → Tree) (nullable : Bool) : Definition → Tree
  | .value head enum =>
    .value (nullable || head.allowsNull) head.valueTypes enum head.default head.const
  | .array head items =>
    .array (nullable || head.allowsNull) head.valueTypes (items.map below) head.default
      head.const
  | .object head (some properties) required additional =>
    .object (nullable || head.allowsNull) head.valueTypes
      (properties.map fun entry => (entry.1, below entry.2)) required.orNull
      (additional.map below)
  | .object head none required additional =>
    .map (nullable || head.allowsNull) head.valueTypes required.orNull (additional.map below)
      head.default head.const
  | .reference target _ => .pointer nullable target
  | .oneOf _ options discriminator => .choice nullable (options.map below) discriminator
  | .anyOf _ options => .anyOf nullable (options.map below)
  | .allOf _ options => .allOf nullable (options.map below)

/-- What a fragment says down to a depth, with its pointers followed. -/
def unfold (resolve : Json → Option Definition) : Nat → Definition → Tree
  | 0, _ => .cut
  | depth + 1, fragment =>
    (fragment.besideNull.1.follow resolve).read (unfold resolve depth) fragment.besideNull.2

end Definition

namespace SchemaBody

/-- The body as a fragment: its properties, or its alternatives. -/
def rootFragment (body : SchemaBody) : Definition :=
  match body.oneOf with
  | some options => .oneOf body.description options body.discriminator
  | none =>
    .object { type := body.type } (some (body.properties.getD [])) body.required
      (.plain body.additional)

/-- The fragment that a pointer of a document means. -/
def resolve (body : SchemaBody) : Json → Option Definition
  | .str target =>
    if target = "#" then some body.rootFragment
    else (List.find? (fun entry => defsPointer entry.1 == target) (body.defs.getD [])).map
      fun entry => entry.2
  | _ => none

/-- What a body says down to a depth. -/
def unfold (body : SchemaBody) (depth : Nat) : Tree :=
  body.rootFragment.unfold body.resolve depth

end SchemaBody

/-! ## Trees of references -/

/-- The node that a reference leads to, if there is one. -/
def TypeGraph.nodeOf? (graph : TypeGraph) : TypeRef → Option Node
  | .inline node _ => if node.needsName then none else some node
  | .named id _ => graph.nodes.find? id

/-- The node a reference leads to is the one looked up for it. -/
theorem TypeGraph.Leads.nodeOf? {graph : TypeGraph} {ref : TypeRef} {node : Node}
    (h : graph.Leads ref node) : graph.nodeOf? ref = some node := by
  cases h with
  | inline unnamed => simp [TypeGraph.nodeOf?, unnamed]
  | named found => exact found

namespace Conversion

variable (c : Conversion)

/-- The tree of a property's type with the default of the property. -/
def plainProperty (property : Property TypeRef) (required : Bool) (tree : Tree) : Tree :=
  if property.default.isNull then tree
  else tree.withDefault (c.flags.strict.isTruthy && required) property.default

/-- The tree of a node, given those of the references in it.  Of properties with one name
the last counts. -/
def plainNode (below : TypeRef → Tree) (nullable : Bool) : Node → Tree
  | .primitive kind _ => .value nullable [.str kind.schemaType] .null .null .null
  | .enumeration type => .value nullable ["string"] (.arr (type.entries.map .str)) .null .null
  | .list element _ => .array nullable ["array"] (some (below element)) .null .null
  | .map _ value _ => .map nullable ["object"] .null (.schema (below value)) .null .null
  | .object type =>
    let required := c.requiredNames type
    let table := Table.ofEntries (type.properties.map fun property =>
      (property.name,
        c.plainProperty property (required.contains property.name) (below property.type)))
    .object nullable ["object"] (table.map fun entry => (entry.1.memberName, entry.2))
      (Json.arr (c.requiredList type)).orNull (.plain (.bool false))
  | .polymorphic type =>
    .choice nullable (type.variants.map fun variant => below (.named variant.id false))
      (c.discriminatorBlock type.discriminator)
  | .other _ => .missing

/-- The tree of a reference down to a depth, by plain recursion. -/
def plain : Nat → TypeRef → Tree
  | 0, _ => .cut
  | depth + 1, ref =>
    match c.graph.nodeOf? ref with
    | some node => c.plainNode (plain depth) ref.nullable node
    | none => .missing

variable {c}

/-- The tree of a reference is that of the node that it leads to. -/
theorem plain_of_leads {depth : Nat} {ref : TypeRef} {node : Node}
    (h : c.graph.Leads ref node) :
    c.plain (depth + 1) ref = c.plainNode (c.plain depth) ref.nullable node := by
  rw [plain, h.nodeOf?]

end Conversion

/-! ## The spellings of nullability -/

namespace TypedHead

/-- Written as a union, a nullable head lists null among its types once. -/
theorem types_asUnion {head : TypedHead} (marked : head.nullable.isTruthy) :
    head.asUnion.types =
      if head.types.any (·.isText nullType) then head.types
      else head.types ++ [.str nullType] := by
  rw [asUnion, if_pos marked]
  rfl

/-- Replacing the marker by a union keeps whether null is allowed. -/
@[simp] theorem allowsNull_asUnion (head : TypedHead) :
    head.asUnion.allowsNull = head.allowsNull := by
  by_cases marked : head.nullable.isTruthy
  · rw [allowsNull, allowsNull, marked, Bool.true_or, Bool.or_eq_true_iff, types_asUnion marked]
    right
    split
    · assumption
    · rw [List.any_append, Bool.or_eq_true_iff]
      exact Or.inr (by decide)
  · rw [asUnion, if_neg marked]

/-- Replacing the marker by a union keeps the other types. -/
@[simp] theorem valueTypes_asUnion (head : TypedHead) :
    head.asUnion.valueTypes = head.valueTypes := by
  by_cases marked : head.nullable.isTruthy
  · rw [valueTypes, valueTypes, types_asUnion marked]
    split
    · rfl
    · rw [List.filter_append, List.filter_cons_of_neg (by decide), List.filter_nil,
        List.append_nil]
  · rw [asUnion, if_neg marked]

@[simp] theorem default_asUnion (head : TypedHead) : head.asUnion.default = head.default := by
  unfold asUnion
  split <;> rfl

@[simp] theorem const_asUnion (head : TypedHead) : head.asUnion.const = head.const := by
  unfold asUnion
  split <;> rfl

end TypedHead

namespace Definition

variable {resolve : Json → Option Definition} {depth : Nat}

/-- The spelling of nullability does not show in a tree. -/
@[simp] theorem unfold_asUnion (definition : Definition) :
    definition.asUnion.unfold resolve depth = definition.unfold resolve depth := by
  cases depth with
  | zero => rfl
  | succ depth =>
      cases definition with
      | value | array => simp [asUnion, mapHead, unfold, besideNull, follow, read]
      | object head properties =>
          cases properties <;> simp [asUnion, mapHead, unfold, besideNull, follow, read]
      | reference | oneOf | anyOf | allOf => rfl

/-- The description does not show in a tree. -/
@[simp] theorem unfold_withDescription (description : Json) (definition : Definition) :
    (definition.withDescription description).unfold resolve depth =
      definition.unfold resolve depth := by
  cases depth with
  | zero => rfl
  | succ depth =>
      cases definition with
      | value | array | oneOf | allOf => rfl
      | object head properties => cases properties <;> rfl
      | reference target =>
          simp only [withDescription, unfold, besideNull, follow]
          cases resolve target <;> rfl
      | anyOf description options =>
          simp only [withDescription, unfold, besideNull]
          cases nullBeside? options <;> rfl

/-- A default of a fragment with a type shows in its tree. -/
theorem unfold_mapHead_default {definition : Definition} (typed : definition.head?.isSome)
    (content : Json) :
    (definition.mapHead fun head => { head with default := content }).unfold resolve depth =
      (definition.unfold resolve depth).withDefault false content := by
  cases depth with
  | zero => rfl
  | succ depth =>
      cases definition with
      | value | array => rfl
      | object head properties => cases properties <;> rfl
      | reference | oneOf | anyOf | allOf => cases typed

/-- A fixed value of a fragment with a type shows in its tree. -/
theorem unfold_mapHead_const {definition : Definition} (typed : definition.head?.isSome)
    (content : Json) :
    (definition.mapHead fun head => { head with const := content }).unfold resolve depth =
      (definition.unfold resolve depth).withDefault true content := by
  cases depth with
  | zero => rfl
  | succ depth =>
      cases definition with
      | value | array => rfl
      | object head properties => cases properties <;> rfl
      | reference | oneOf | anyOf | allOf => cases typed

end Definition

namespace Conversion

variable {c : Conversion} {resolve : Json → Option Definition} {depth : Nat}

/-! ## Dressed fragments -/

/-- The tree of an object or of a choice has no default. -/
theorem withDefault_plain {id : TypeId} (nullable : Bool)
    (named : c.graph.IsObject id ∨ c.graph.IsPolymorphic id) (fixed : Bool) (content : Json) :
    (c.plain depth (.named id nullable)).withDefault fixed content =
      c.plain depth (.named id nullable) := by
  cases depth with
  | zero => rfl
  | succ depth =>
      rcases named with ⟨type, found⟩ | ⟨type, found⟩
      · rw [plain_of_leads (.named found)]
        rfl
      · rw [plain_of_leads (.named found)]
        rfl

/-- A marker that is written as a union unfolds to the same tree. -/
theorem unfold_unite (required : Bool) (definition : Definition) :
    (c.unite required definition).unfold resolve depth = definition.unfold resolve depth := by
  unfold unite
  split
  · exact Definition.unfold_asUnion definition
  · rfl

/-- A description is no part of what a property unfolds to. -/
theorem unfold_describe (property : Property TypeRef) (definition : Definition) :
    (describe property definition).unfold resolve depth = definition.unfold resolve depth := by
  unfold describe
  split
  · exact Definition.unfold_withDescription ..
  · rfl

/-- The default of a property shows in the tree of a fragment with a type. -/
theorem unfold_settle {definition : Definition} (typed : definition.head?.isSome)
    (property : Property TypeRef) (required : Bool) :
    (c.settle property required definition).unfold resolve depth =
      c.plainProperty property required (definition.unfold resolve depth) := by
  unfold settle plainProperty
  split
  · rfl
  · split
    · rename_i fixed
      rw [fixed, Definition.unfold_mapHead_const typed]
    · rename_i fixed
      rw [Bool.eq_false_iff.mpr fixed, Definition.unfold_mapHead_default typed]

/-- Dressing leaves a fragment without keywords of its own as it is. -/
theorem settle_unite_of_untyped {definition : Definition} (untyped : definition.head? = none)
    (property : Property TypeRef) (required : Bool) :
    c.settle property required (c.unite required definition) = definition := by
  cases definition with
  | value | array | object => cases untyped
  | reference | oneOf | anyOf | allOf =>
      simp [settle, unite, Definition.asUnion, Definition.mapHead]

/-- Dressing the fragment of a property's type gives its tree the default of the
property. -/
theorem unfold_dress {property : Property TypeRef} {definition : Definition}
    (h : c.Describes property.type definition)
    (agree : c.plain depth property.type = definition.unfold resolve depth)
    (required : Bool) :
    (c.dress property required definition).unfold resolve depth =
      c.plainProperty property required (definition.unfold resolve depth) := by
  rw [dress_eq, unfold_describe]
  cases htyped : definition.head? with
  | some head =>
      have typed : (c.unite required definition).head?.isSome := by
        unfold unite
        split
        · cases definition <;> cases htyped <;> rfl
        · rw [htyped]; rfl
      rw [unfold_settle typed, unfold_unite]
  | none =>
      have named : ∃ id nullable, property.type = .named id nullable ∧
          (c.graph.IsObject id ∨ c.graph.IsPolymorphic id) := by
        generalize property.type = ref at h
        cases h with
        | primitive | enumeration | list | map => cases htyped
        | object node => exact ⟨_, _, rfl, Or.inl ⟨_, node⟩⟩
        | choice node => exact ⟨_, _, rfl, Or.inr ⟨_, node⟩⟩
        | root node => exact ⟨_, _, rfl, Or.inl ⟨_, node⟩⟩
        | shared node => exact ⟨_, _, rfl, Or.inl ⟨_, node⟩⟩
      rcases named with ⟨id, nullable, href, named⟩
      rw [settle_unite_of_untyped htyped, plainProperty]
      split
      · rfl
      · rw [← agree, href, withDefault_plain nullable named]

end Conversion

end Schemata
