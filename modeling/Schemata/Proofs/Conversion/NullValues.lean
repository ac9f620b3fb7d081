import Schemata.Graph.Validation
import Schemata.Proofs.Conversion.Sites
import Schemata.Proofs.Conversion.Unfolding
import Schemata.Proofs.Schema.Allowance

/-!
# Sites that take null

Null is let in in three ways: by the marker, by a union with null, and by an alternative beside
a pointer or a choice.  Each way comes from a reference that is nullable, and each lets null in,
whatever a pointer beside it leads to, except in the fragment of an enumeration: its types
let null in, but its list of values has no null.  What a reference that is not nullable points
at is written out without null, so no chain of pointers ends in a fragment that takes it.

Main results:

- Theorem {lit}`Describes.null_cases`: how the fragment of a reference speaks of null.
- Theorem {lit}`Composes.refuses`: a reference that is not nullable has no fragment that allows
  null.
- Theorem {lit}`TypeGraph.documents_takeNull`: a site takes null exactly when its reference is
  nullable and leads to no enumeration.
-/

namespace Schemata

namespace TypeGraph

/-- The reference leads to an enumeration. -/
def IsEnumeration (graph : TypeGraph) (ref : TypeRef) : Prop :=
  ∃ type, graph.Leads ref (.enumeration type)

/-- Each fragment for values in a document has a site, and a site without a literal default
takes null exactly when its reference is nullable and leads to no enumeration. -/
structure TakesNull (graph : TypeGraph) (body : SchemaBody) : Prop where
  sites : ∀ position definition, body.Holds position definition → position.isSite = true →
    ∃ site, graph.Emits body position definition site
  null : ∀ position definition site, graph.Emits body position definition site →
    site.isFree = true → ((body.interpretation true).Allows definition .null ↔
      site.ref.nullable = true ∧ ¬ graph.IsEnumeration site.ref)

variable {graph : TypeGraph} {ref : TypeRef} {node : Node}

/-- A reference that leads to another sort of node leads to no enumeration. -/
theorem Leads.not_isEnumeration (h : graph.Leads ref node)
    (other : ∀ type, node ≠ .enumeration type) : ¬ graph.IsEnumeration ref :=
  fun ⟨type, hother⟩ => other type (h.unique hother)

end TypeGraph

namespace Conversion

open Interpretation (listsNull)

variable {c : Conversion} {body : SchemaBody} {r : Interpretation}
variable {ref : TypeRef} {definition : Definition} {site : Site} {budget : Nat}

/-! ## Fragments of references -/

/-- The fragment of a reference has types with null for a nullable one, or an alternative with
null for a nullable one, or it is a pointer or a choice between pointers for one that is not
nullable.  Only the values of an enumeration are listed. -/
theorem Describes.null_cases (h : c.Describes ref definition) :
    (∃ head, definition.head? = some head ∧ head.const.isNull = true ∧
      head.allowsNull = ref.nullable ∧
      (listsNull definition = true ↔ ¬ c.graph.IsEnumeration ref)) ∨
    ¬ c.graph.IsEnumeration ref ∧ ((ref.nullable = true ∧
      ∃ description options, definition = .anyOf description options ∧ nullFragment ∈ options) ∨
    (ref.nullable = false ∧ ((∃ target, definition = .reference target .null) ∨
      ∃ description type discriminator,
        definition = .oneOf description (variantPointers type) discriminator))) := by
  cases h with
  | @primitive _ kind _ node =>
      refine Or.inl ⟨_, rfl, rfl, headFor_allowsNull (schemaType_ne_nullType kind) _ _, ?_⟩
      exact iff_of_true rfl (node.not_isEnumeration (by simp))
  | @enumeration _ type node =>
      refine Or.inl ⟨_, rfl, rfl, headFor_allowsNull (by decide) _ _, ?_⟩
      have hlists : listsNull (.value (headFor "string" type.description ref.nullable)
          (.arr (type.entries.map .str))) = false := by
        refine List.any_eq_false.mpr fun value mem => ?_
        rcases List.mem_map.mp mem with ⟨entry, -, rfl⟩
        exact Bool.false_ne_true
      rw [hlists]
      exact iff_of_false Bool.false_ne_true fun h => h ⟨type, node⟩
  | list node =>
      refine Or.inl ⟨_, rfl, rfl, headFor_allowsNull (by decide) _ _, ?_⟩
      exact iff_of_true rfl (node.not_isEnumeration (by simp))
  | map node =>
      refine Or.inl ⟨_, rfl, rfl, headFor_allowsNull (by decide) _ _, ?_⟩
      exact iff_of_true rfl (node.not_isEnumeration (by simp))
  | @object id nullable type fragments node =>
      have hplain : ¬ c.graph.IsEnumeration (.named id nullable) :=
        TypeGraph.Leads.not_isEnumeration (.named node) (by simp)
      cases nullable <;> exact Or.inl ⟨_, rfl, rfl, rfl, iff_of_true rfl hplain⟩
  | @choice id nullable type node =>
      refine Or.inr ⟨TypeGraph.Leads.not_isEnumeration (.named node) (by simp), ?_⟩
      cases nullable with
      | false => exact Or.inr ⟨rfl, Or.inr ⟨_, type, _, rfl⟩⟩
      | true => exact Or.inl ⟨rfl, _, _, rfl, by simp⟩
  | @root id nullable _ node | @shared id nullable _ node =>
      refine Or.inr ⟨TypeGraph.Leads.not_isEnumeration (.named node) (by simp), ?_⟩
      cases nullable with
      | false => exact Or.inr ⟨rfl, Or.inl ⟨_, rfl⟩⟩
      | true => exact Or.inl ⟨rfl, _, _, rfl, by simp⟩

/-- The null fragment allows null under every reading of references. -/
theorem allows_nullFragment (r : Interpretation) : r.Allows nullFragment .null :=
  ⟨1, rfl⟩

/-- The fragment of a nullable reference allows null, unless its values are listed. -/
theorem Describes.allows_null (h : c.Describes ref definition) (marked : r.marked = true)
    (nullable : ref.nullable = true) (unlisted : ¬ c.graph.IsEnumeration ref) :
    r.Allows definition .null := by
  rcases h.null_cases with ⟨head, typed, loose, allows, lists⟩ |
    ⟨-, ⟨-, description, options, rfl, mem⟩ | ⟨hfalse, -⟩⟩
  · refine ⟨1, ?_⟩
    rw [Interpretation.allow_null_of_types marked typed loose, allows, nullable,
      lists.mpr unlisted]
    rfl
  · exact (allows_nullFragment r).anyOf mem
  · rw [hfalse] at nullable
    cases nullable

/-- The fragment of an enumeration does not allow null. -/
theorem Describes.refuses_of_isEnumeration (h : c.Describes ref definition)
    (marked : r.marked = true) (listed : c.graph.IsEnumeration ref) :
    r.allow budget definition .null ≠ some true := by
  rcases h.null_cases with ⟨head, typed, loose, -, lists⟩ | ⟨unlisted, -⟩
  · have hlists : listsNull definition = false := by
      rw [← Bool.not_eq_true, lists]
      exact fun unlisted => unlisted listed
    cases budget with
    | zero => simp [Interpretation.allow]
    | succ budget =>
        rw [Interpretation.allow_null_of_types marked typed loose, hlists, Bool.and_false]
        simp
  · exact absurd listed unlisted

/-! ## Pointers -/

/-- The whole document is an object. -/
theorem Composes.refuses_whole (composes : c.Composes body) (marked : r.marked = true) :
    r.allow budget body.whole .null ≠ some true := by
  intro accepted
  cases budget with
  | zero => cases accepted
  | succ budget =>
      have hobject := Interpretation.allow_of_mem_allOf accepted (List.mem_cons_self ..)
      cases budget with
      | zero => cases hobject
      | succ budget =>
          rw [Interpretation.allow_null_of_types marked rfl rfl, composes.type] at hobject
          cases hobject

/-- No pointer of a document allows null, and no fragment of a reference that is not nullable.
Pointers mean the whole document or shared definitions, which describe such references, with
less budget. -/
theorem Composes.refuses (composes : c.Composes body) (budget : Nat) :
    (∀ ref definition, c.Describes ref definition → ref.nullable = false →
      (body.interpretation true).allow budget definition .null ≠ some true) ∧
    ∀ target description, (body.interpretation true).allow budget
      (.reference target description) .null ≠ some true := by
  induction budget with
  | zero => exact ⟨by simp [Interpretation.allow], by simp [Interpretation.allow]⟩
  | succ budget ih =>
      have hmarked : (body.interpretation true).marked = true := rfl
      have hpointer : ∀ target description, (body.interpretation true).allow (budget + 1)
          (.reference target description) .null ≠ some true := by
        intro target description accepted
        rcases Interpretation.exists_allowing_meaning accepted with ⟨fragment, meaning, accepted⟩
        rcases SchemaBody.eq_whole_or_mem_of_resolve meaning with rfl | ⟨entry, mem, rfl⟩
        · exact composes.refuses_whole hmarked accepted
        · have hpart : (.shared entry.1, entry.2) ∈ body.parts :=
            List.mem_append_right _ (List.mem_map_of_mem mem)
          exact ih.1 _ _ (composes.written hpart).describes rfl accepted
      refine ⟨fun ref definition described nullable accepted => ?_, hpointer⟩
      rcases described.null_cases with ⟨head, typed, loose, allows, -⟩ |
        ⟨-, ⟨htrue, -⟩ | ⟨-, ⟨target, rfl⟩ | ⟨description, type, discriminator, rfl⟩⟩⟩
      · rw [Interpretation.allow_null_of_types hmarked typed loose, allows, nullable] at accepted
        cases accepted
      · rw [nullable] at htrue
        cases htrue
      · exact hpointer _ _ accepted
      · rcases Interpretation.exists_allowing_option accepted with ⟨option, mem, accepted⟩
        rcases List.mem_map.mp mem with ⟨variant, -, rfl⟩
        exact ih.2 _ _ accepted

/-! ## Sites -/

/-- A dress without a default does not change whether a fragment allows null. -/
theorem allow_null_dress (marked : r.marked = true) {property : Property TypeRef}
    (free : property.default.isNull = true) (required : Bool) (definition : Definition) :
    r.allow budget (c.dress property required definition) .null =
      r.allow budget definition .null := by
  have hunite : r.allow budget (c.unite required definition) .null =
      r.allow budget definition .null := by
    unfold unite
    split
    · exact Interpretation.allow_null_asUnion marked ..
    · rfl
  have hdescribe (fragment : Definition) : r.allow budget (describe property fragment) .null =
      r.allow budget fragment .null := by
    unfold describe
    split
    · exact Interpretation.allow_null_withDescription marked ..
    · rfl
  rw [dress_eq, hdescribe, settle, if_pos free, hunite]

/-- A fragment for a site allows null like a fragment of its reference. -/
theorem Shows.exists_allowing (h : c.Shows site definition) (marked : r.marked = true)
    (free : site.isFree = true) : ∃ plain, c.Describes site.ref plain ∧
      ∀ budget, r.allow budget definition .null = r.allow budget plain .null := by
  cases h with
  | member described => exact ⟨_, described, fun _ => allow_null_dress marked free ..⟩
  | contents described =>
      exact ⟨_, described, fun budget => Interpretation.allow_null_asUnion marked _ budget⟩

/-- In a document that a conversion puts together, the sites take null that the graph says. -/
theorem Composes.takesNull (composes : c.Composes body) (agree : c.graph.NamesAgree) :
    c.graph.TakesNull body := by
  refine ⟨fun position definition holds => holds.exists_site composes agree, ?_⟩
  intro position definition site emits free
  have hmarked : (body.interpretation true).marked = true := rfl
  rcases (emits.shows composes agree).exists_allowing hmarked free with
    ⟨plain, described, hallow⟩
  constructor
  · rintro ⟨budget, accepted⟩
    rw [hallow] at accepted
    constructor
    · rw [← Bool.not_eq_false]
      exact fun nullable => (composes.refuses budget).1 _ _ described nullable accepted
    · exact fun listed => described.refuses_of_isEnumeration hmarked listed accepted
  · rintro ⟨nullable, unlisted⟩
    rcases described.allows_null hmarked nullable unlisted with ⟨budget, accepted⟩
    exact ⟨budget, (hallow budget).trans accepted⟩

end Conversion

namespace TypeGraph

variable {graph : TypeGraph}

/-- In both documents of a graph, a site without a literal default takes null exactly when its
reference is nullable and leads to no enumeration. -/
theorem documents_takeNull (agree : graph.NamesAgree) (flags : Flags) :
    (∀ name document, graph.toSchemaDocument flags name = .ok document →
      graph.TakesNull document.body) ∧
    ∀ document, graph.toToolDocument flags = .ok document →
      graph.TakesNull document.parameters :=
  ⟨fun _ _ h => (composes_toSchemaDocument h).takesNull agree,
    fun _ h => (composes_toToolDocument h).takesNull agree⟩

/-- A survey that may be followed by another one, with an answer that may be missing. -/
def survey : TypeGraph where
  root := .named "Survey" false
  nodes := [
    ("Survey", .object {
      name := "Survey", properties := [
        { name := "answer", type := .named "Answer" true },
        { name := "next", type := .named "Survey" true }] }),
    ("Answer", .enumeration { name := "Answer", entries := ["Yes", "No"] })]

/-- The next survey may be null. -/
theorem survey_takesNull : survey.NamesAgree ∧ ∃ document,
    survey.toSchemaDocument (.initial .jsonSchema) "Survey" = .ok document ∧
    survey.TakesNull document.body ∧
    survey.Emits document.body (.property "next" ["answer", "next"])
      (Conversion.pointer "#" true) (.member { name := "next", type := .named "Survey" true }) ∧
    (document.body.interpretation true).Allows (Conversion.pointer "#" true) .null := by
  have hagree : survey.NamesAgree := .of_texts (by simp [survey])
  have htakes := (documents_takeNull hagree (.initial .jsonSchema)).1 "Survey" _ rfl
  have hunlisted : ¬ survey.IsEnumeration (.named "Survey" true) :=
    Leads.not_isEnumeration (.named rfl) (by simp)
  refine ⟨hagree, _, rfl, htakes, ?emits, (htakes.null _ _ _ ?emits rfl).mpr ⟨rfl, hunlisted⟩⟩
  exact .body (List.mem_cons_of_mem _ (List.mem_cons_self ..)) (.property (.named rfl) rfl)

/-- The fragment of the answer in both documents. -/
def surveyAnswer : Definition :=
  .value { type := .arr ["string", "null"] } (.arr ["Yes", "No"])

/-- The answer may not be null, although it may be missing and the tool schema requires it. -/
theorem survey_refusesNull : survey.validate = .ok () ∧ ∃ document,
    survey.toToolDocument (.initial .tool) = .ok document ∧
    survey.Emits document.parameters (.property "answer" ["answer", "next"]) surveyAnswer
      (.member { name := "answer", type := .named "Answer" true }) ∧
    ¬ (document.parameters.interpretation true).Allows surveyAnswer .null := by
  refine ⟨rfl, _, rfl, .body (List.mem_cons_self ..) (.property (.named rfl) rfl), ?_⟩
  rintro ⟨budget, accepted⟩
  cases budget <;> cases accepted

end TypeGraph

end Schemata
