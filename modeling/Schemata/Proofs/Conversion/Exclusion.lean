import Schemata.Proofs.Conversion.Options

/-!
# Choices whose alternatives exclude one another

When every subtype is an object that begins with a property for its tag, or a polymorphic
type again, a strict document keeps the alternatives of a choice apart.  The property is
required whatever the flags say, and strictness makes the tag its only value.  A value that
an alternative accepts therefore bears the tag of a subtype below the alternative, and in a
forest no subtype is below two alternatives.

Main results:

- Definition {lit}`SchemaBody.IsExclusive`: no value is accepted by two alternatives.
- Theorem {lit}`bears_of_object`: what a tagged object accepts bears its tag.
- Theorem {lit}`Renders.exists_tag`: what a pointer to a subtype accepts bears the tag of an
  object below it.
- Theorem {lit}`Renders.isExclusive`: the choices of a tagged forest are exclusive.
-/

namespace Schemata

/-- The members of that name, of which there is at least one, are all the tag. -/
def Json.Bears (value : Json) (name : PropertyName) (tag : String) : Prop :=
  ∃ members text, value = .obj members ∧ name = .str text ∧
    (∃ member ∈ members, member.1 = text) ∧
    ∀ member ∈ members, member.1 = text → member.2 = .str tag

/-- A value bears one tag. -/
theorem Json.Bears.unique {value : Json} {name : PropertyName} {tag other : String}
    (h : value.Bears name tag) (hother : value.Bears name other) : tag = other := by
  rcases h with ⟨members, text, rfl, rfl, ⟨member, hmember, hname⟩, htag⟩
  rcases hother with ⟨_, _, hvalue, htext, -, hother⟩
  cases hvalue
  cases htext
  exact Json.str.inj ((htag member hmember hname).symm.trans (hother member hmember hname))

/-- The property for a tag: a text that is the tag. -/
def Property.tagged (name : PropertyName) (tag : String) : Property TypeRef :=
  { name, type := .inline (.primitive .string none) false, default := .str tag }

/-- The object begins with the property for its tag, and no other property has its name. -/
def ObjectType.IsTagged (type : ObjectType TypeRef) (name : PropertyName) (tag : String) : Prop :=
  ∃ rest, type.properties = .tagged name tag :: rest ∧
    ∀ property ∈ rest, (∃ text, property.name = .str text) ∧ property.name ≠ name

/-- Subtypes are listed once, form trees, and are objects with their identifiers as tags or
polymorphic types. -/
structure TypeGraph.IsTagged (graph : TypeGraph) (name : PropertyName) : Prop where
  forest : graph.IsForest
  distinct : ∀ base type, graph.nodes.find? base = some (.polymorphic type) →
    (type.variants.map (·.id)).Nodup
  tagged : ∀ base type id node, graph.nodes.find? base = some (.polymorphic type) →
    id ∈ type.variants.map (·.id) → graph.nodes.find? id = some node →
    (∃ object, node = .object object ∧ object.IsTagged name id) ∨
      ∃ other, node = .polymorphic other

/-- No value is accepted by two alternatives of a choice of the document. -/
def SchemaBody.IsExclusive (body : SchemaBody) : Prop :=
  ∀ marked options, body.Offers options → options.Pairwise fun first second =>
    ∀ value, ¬ ((body.interpretation marked).Accepts first value ∧
      (body.interpretation marked).Accepts second value)

namespace Conversion

variable {c : Conversion} {r : Interpretation} {budget : Nat} {value : Json}

/-! ## Tagged objects -/

/-- A property without a default and without null is required under all flags. -/
theorem mem_requiredNames {type : ObjectType TypeRef} {property : Property TypeRef}
    (mem : property ∈ type.properties) (given : property.hasDefault = false)
    (present : property.type.nullable = false) : property.name ∈ c.requiredNames type := by
  refine List.mem_map_of_mem ?_
  split
  · exact mem
  · split
    · exact List.mem_filter.mpr ⟨mem, by simp [given]⟩
    · split
      · exact mem
      · exact List.mem_filter.mpr ⟨mem, by simp [present]⟩

/-- A required name that equals itself counts as required. -/
theorem contains_of_mem {names : List PropertyName} {name : PropertyName} (mem : name ∈ names)
    (itself : (name == name) = true) : names.contains name = true := by
  rw [List.contains_eq_any_beq, List.any_eq_true]
  exact ⟨name, mem, itself⟩

/-- In a strict document the required property for a tag has the tag as its only value. -/
theorem dress_tagged (strict : c.flags.strict.isTruthy = true) (name : PropertyName)
    (tag : String) :
    c.dress (.tagged name tag) true (.value (headFor "string" none false) .null) =
      .value { type := "string", const := .str tag } .null := by
  rw [dress_eq, settle, strict]
  rfl

/-- The type of the property for a tag is described by a text. -/
theorem Describes.tagged {definition : Definition}
    (h : c.Describes (.inline (.primitive .string none) false) definition) :
    definition = .value (headFor "string" none false) .null := by
  cases h with
  | primitive node =>
      cases node
      rfl
  | enumeration node | list node | map node => cases node

/-- What has the tag as its only value is the tag. -/
theorem eq_tag_of_judge {tag : String}
    (h : r.judge budget (.value { type := "string", const := .str tag } .null) value = some true) :
    value = .str tag := by
  cases budget with
  | zero => cases h
  | succ budget =>
      simp only [Interpretation.judge, Interpretation.layer, Option.some.injEq,
        Bool.and_eq_true] at h
      exact Json.eq_of_equal_text (Bool.and_eq_true_iff.mp h.1).2

/-- What a tagged object accepts bears its tag. -/
theorem bears_of_object {type : ObjectType TypeRef} {fragments : List Definition}
    {name : PropertyName} {tag : String} (tagged : type.IsTagged name tag)
    (itself : (name == name) = true) (strict : c.flags.strict.isTruthy = true)
    (parts : c.DescribesAll type.properties fragments)
    (h : r.judge (budget + 1) (c.objectFragment type fragments) value = some true) :
    value.Bears name tag := by
  rcases tagged with ⟨rest, hproperties, hrest⟩
  have hfirst : .tagged name tag ∈ type.properties := hproperties ▸ List.mem_cons_self ..
  have hcontains : (c.requiredNames type).contains (Property.tagged name tag).name = true :=
    contains_of_mem (mem_requiredNames hfirst rfl rfl) itself
  have hrequired : name ∈ c.requiredList type :=
    List.mem_filter.mpr ⟨List.mem_map.mpr ⟨_, hfirst, rfl⟩, hcontains⟩
  rcases Interpretation.members_of_judge rfl rfl h with ⟨members, rfl, hpresent, hmembers⟩
  rw [Interpretation.hasRequired, List.all_eq_true] at hpresent
  rcases List.any_eq_true.mp (hpresent name hrequired) with ⟨member, hmember, htext⟩
  rw [Json.isText_iff] at htext
  subst htext
  refine ⟨members, _, rfl, rfl, ⟨member, hmember, rfl⟩, fun other hother hname => ?_⟩
  have hnames : ∀ property ∈ type.properties, ∃ text, property.name = .str text := by
    rw [hproperties]
    exact List.forall_mem_cons.mpr ⟨⟨_, rfl⟩, fun property mem => (hrest property mem).1⟩
  have hother := hmembers other hother
  rw [Interpretation.judgeMember, Option.getD_some] at hother
  split at hother
  · rename_i fragment hfragment
    rcases mem_memberTable hnames (List.mem_reverse.mp (Table.mem_of_find? hfragment)) with
      ⟨part, hpart, hpartName, hdressed⟩
    have hpartFirst : part.1 = .tagged (.str member.1) tag := by
      have hmem := (List.of_mem_zip hpart).1
      rw [hproperties, List.mem_cons] at hmem
      refine hmem.resolve_right fun hlater => (hrest _ hlater).2 ?_
      rw [hpartName, hname]
    have hdescribes := parts.parts part hpart
    rw [hpartFirst] at hdescribes hdressed
    rw [hdescribes.tagged, hcontains, dress_tagged strict] at hdressed
    obtain rfl : fragment = _ := hdressed
    exact eq_tag_of_judge hother
  · cases hother

/-! ## Alternatives -/

variable {body : SchemaBody} {marked : Bool} {name : PropertyName}

/-- What the pointer to a subtype accepts bears the tag of the subtype or of one below it.
The induction is on the budget, since a subtype may be polymorphic again. -/
theorem Renders.exists_tag (renders : c.Renders body) (tagged : c.graph.IsTagged name)
    (itself : (name == name) = true) (strict : c.flags.strict.isTruthy = true)
    {base id : TypeId} {type : PolymorphicType TypeRef}
    (found : c.graph.nodes.find? base = some (.polymorphic type))
    (mem : id ∈ type.variants.map (·.id))
    (h : (body.interpretation marked).judge budget (.reference (.str (defsPointer id)) .null)
      value = some true) :
    ∃ tag, (tag = id ∨ c.graph.Descends id tag) ∧ value.Bears name tag := by
  induction budget using Nat.strongRecOn generalizing base id type with
  | ind budget ih =>
      cases budget with
      | zero => cases h
      | succ budget =>
          rcases Interpretation.exists_meaning h with ⟨fragment, hresolve, hjudge⟩
          have hwritten : c.Written id fragment :=
            renders.shared _ (SchemaBody.mem_defs_of_resolve hresolve)
          cases budget with
          | zero => cases hjudge
          | succ budget =>
              rcases hwritten.exists_node with ⟨node, hnode⟩
              rcases tagged.tagged _ _ _ _ found mem hnode with
                ⟨object, rfl, hobject⟩ | ⟨other, rfl⟩
              · rcases hwritten.eq_object hnode with ⟨fragments, hparts, rfl⟩
                exact ⟨id, Or.inl rfl, bears_of_object hobject itself strict hparts hjudge⟩
              · rw [hwritten.eq_choice hnode] at hjudge
                rcases Interpretation.exists_accepted_option hjudge with ⟨option, hoption, hjudge⟩
                rcases List.mem_map.mp hoption with ⟨variant, hvariant, rfl⟩
                have hlisted := List.mem_map_of_mem (f := (·.id)) hvariant
                rcases ih budget (by omega) hnode hlisted hjudge with ⟨tag, rfl | hbelow, hbears⟩
                · exact ⟨_, Or.inr (.subtype hnode hlisted), hbears⟩
                · exact ⟨tag, Or.inr (.through hnode hlisted hbelow), hbears⟩

/-- The choices of a strict document are exclusive when the subtypes of its graph are
tagged. -/
theorem Renders.isExclusive (renders : c.Renders body) (tagged : c.graph.IsTagged name)
    (itself : (name == name) = true) (strict : c.flags.strict.isTruthy = true) :
    body.IsExclusive := by
  intro marked options offers
  rcases renders.offers options offers with ⟨base, type, found, rfl⟩
  have hdistinct := List.pairwise_map.mp (tagged.distinct _ _ found)
  refine List.pairwise_map.mpr (hdistinct.imp_of_mem ?_)
  rintro first second hfirst hsecond apart value ⟨⟨budget, haccepts⟩, other, hother⟩
  have hfirst := List.mem_map_of_mem (f := (·.id)) hfirst
  have hsecond := List.mem_map_of_mem (f := (·.id)) hsecond
  rcases renders.exists_tag tagged itself strict found hfirst haccepts with ⟨tag, habove, hbears⟩
  rcases renders.exists_tag tagged itself strict found hsecond hother with
    ⟨_, habove', hbears'⟩
  obtain rfl := hbears.unique hbears'
  exact apart (tagged.forest.eq_of_siblings found hfirst hsecond habove habove')

end Conversion

end Schemata
