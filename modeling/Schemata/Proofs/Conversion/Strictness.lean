import Schemata.Proofs.Conversion.Requirements

/-!
# Tool schemas without markers and with all properties required

In a tool schema the value of every property has a union instead of the marker, whether the
property is required or not, so the marker is nowhere.  The strict flag takes precedence over
the flags that select required properties: every object in a strict tool schema requires all
its properties, wherever it is written out.

Main results:

- Theorem {lit}`requiredList_of_strict`, {lit}`mem_keys_memberTable_iff`: what an object lists
  as required in a strict tool schema, and what its members are.
- Theorem {lit}`TypeGraph.toToolDocument_isStrict`: a tool schema bears no marker, and requires
  all properties when it is strict.
-/

namespace Schemata

/-- An object has exactly the members that it requires. -/
def RequiresEach (members : List (String × Definition)) (required : Json) : Prop :=
  ∀ name, name ∈ members.map Prod.fst ↔ name ∈ required.listed.map Json.memberName

/-- All objects in a document require all their properties, and so does its body. -/
structure SchemaBody.RequiresAll (body : SchemaBody) : Prop where
  root : ∃ members, body.properties = some members ∧ RequiresEach members body.required
  objects : ∀ position head members required additional,
    body.Holds position (.object head (some members) required additional) →
      RequiresEach members required

namespace Conversion

variable {c : Conversion} {type : ObjectType TypeRef} {fragments : List Definition}

/-- Strict tool schemas select every property. -/
theorem requires_of_strict (tool : c.dialect = .tool) (strict : c.flags.strict.isTruthy = true)
    (property : Property TypeRef) : c.requires property = true := by
  rw [requires, if_pos ⟨tool, strict⟩]

/-- In a strict tool schema an object lists all its properties. -/
theorem requiredList_of_strict (agree : type.NamesAgree) (tool : c.dialect = .tool)
    (strict : c.flags.strict.isTruthy = true) :
    c.requiredList type = type.properties.map (·.name) := by
  rw [requiredList, List.filter_eq_self, List.forall_mem_map]
  intro property mem
  exact (contains_requiredNames_iff agree mem).mpr
    ⟨property, mem, requires_of_strict tool strict property, rfl⟩

/-- The members of an object are its properties. -/
theorem mem_keys_memberTable_iff (agree : type.NamesAgree)
    (length : fragments.length = type.properties.length) {name : String} :
    name ∈ (c.memberTable type fragments).keys ↔
      name ∈ type.properties.map fun property => property.name.memberName := by
  rw [memberTable_of_agree agree, Table.mem_keys_ofEntries, List.map_map,
    ← map_memberName_zip length]
  rfl

/-- In a strict tool schema an object requires all its members. -/
theorem requiresEach_of_strict (agree : type.NamesAgree)
    (length : fragments.length = type.properties.length) (tool : c.dialect = .tool)
    (strict : c.flags.strict.isTruthy = true) :
    RequiresEach (c.memberTable type fragments) (.arr (c.requiredList type)) := by
  intro name
  rw [Json.listed, requiredList_of_strict agree tool strict, List.map_map]
  exact mem_keys_memberTable_iff agree length

end Conversion

namespace TypeGraph

variable {graph : TypeGraph} {flags : Flags} {document : ToolDocument}

/-- No fragment of a tool schema bears the marker, whatever the flags are, and all objects in
a strict one require all their properties. -/
theorem toToolDocument_isStrict (h : graph.toToolDocument flags = .ok document) :
    (∀ position definition, document.parameters.Holds position definition →
      definition.isMarked = false) ∧
    (graph.NamesAgree → flags.strict.isTruthy = true → document.parameters.RequiresAll) := by
  constructor
  · intro position definition holds
    rcases holds.puts (puts_toToolDocument h) with ⟨of, stands, -⟩
    rw [← Bool.not_eq_true]
    exact fun marked => (stands.exists_member_of_isMarked marked).1 rfl
  · intro agree strict
    constructor
    · rcases runs_of_toToolDocument h with ⟨id, type, fragments, state, root, node, hruns, rfl⟩
      exact ⟨_, rfl, Conversion.requiresEach_of_strict (agree id type node)
        hruns.describes_first.2.length rfl strict⟩
    · intro position head members required additional holds
      rcases holds.puts (puts_toToolDocument h) with ⟨of, stands, -⟩
      rcases stands.eq_object with ⟨ref, -, type, fragments, leads, length, rfl, rfl, -⟩
      cases leads with
      | inline unnamed => cases unnamed
      | named node =>
          exact Conversion.requiresEach_of_strict (agree _ type node) length rfl strict

/-- The tool schema of a note, strict although the flags select properties without a default
only. -/
theorem draftNote_isStrict : draftNote.NamesAgree ∧ ∃ document,
    draftNote.toToolDocument (.ofBools true true false) = .ok document ∧
    (∀ position definition, document.parameters.Holds position definition →
      definition.isMarked = false) ∧
    document.parameters.RequiresAll ∧
    document.parameters.required.listed = ["title", "draft", "author", "notes"] := by
  have hagree : draftNote.NamesAgree := .of_texts (by simp [draftNote])
  have hdocument := toToolDocument_isStrict
    (show draftNote.toToolDocument (.ofBools true true false) = .ok _ from rfl)
  exact ⟨hagree, _, rfl, hdocument.1, hdocument.2 hagree rfl, rfl⟩

end TypeGraph

end Schemata
