import Schemata.Proofs.Declaration.Hierarchy
import Schemata.Proofs.Graph.Reachability

/-!
# Tags and the polymorphic types that announce them

A polymorphic type maps the tags of its direct subtypes to their identifiers, and each
object below it carries its own identifier as its tag.  So the tag of an object is
announced by the polymorphic types that list the object, and by none above them.

A class of a module of the language becomes an empty object, which carries no tag.

Main results:

- Definition {lit}`PolymorphicType.Announces`: the tag of an object is a key of the
  mapping.
- Theorem {lit}`Declarations.introspect_announces_iff`: the objects that a polymorphic type
  announces are its direct subtypes with properties.
- Theorem {lit}`deepShapes_not_announces`: an object two levels below is not announced.
-/

namespace Schemata

/-- An object carries a key of the mapping as the fixed value of the property that the
discriminator names. -/
def PolymorphicType.Announces (type : PolymorphicType TypeRef) (object : ObjectType TypeRef) :
    Prop :=
  ∃ discriminator ∈ type.discriminator, ∃ mapping ∈ discriminator.mapping,
    ∃ property ∈ object.properties, property.name = discriminator.propertyName ∧
      ∃ tag ∈ mapping.keys, property.default = .str tag

namespace DeclarationIntrospection

variable {c : DeclarationIntrospection} {graph : TypeGraph} {ids : Table Hint TypeId}

/-- A polymorphic type of a hierarchy announces what carries the identifier of one of its
subtypes as a tag. -/
theorem announces_iff {type : PolymorphicType TypeRef} {object : ObjectType TypeRef}
    (discriminated : type.discriminator = some (c.settings.discriminator
      (Table.ofEntries ((type.variants.map (·.id)).map fun id => (id, id))))) :
    type.Announces object ↔ ∃ property ∈ object.properties,
      property.name = c.settings.discriminatorProperty ∧
        ∃ tag ∈ type.variants.map (·.id), property.default = .str tag := by
  have hkeys : ∀ tag, tag ∈ (Table.ofEntries ((type.variants.map (·.id)).map
      fun id => (id, id))).keys ↔ tag ∈ type.variants.map (·.id) := by
    intro tag
    rw [Table.mem_keys_ofEntries, List.map_map]
    exact Iff.of_eq (congrArg (tag ∈ ·) (List.map_id _))
  constructor
  · rintro ⟨discriminator, hdiscriminator, mapping, hmapping, property, mem, hname, tag, htag, hdefault⟩
    rw [discriminated] at hdiscriminator
    cases hdiscriminator
    cases hmapping
    exact ⟨property, mem, hname, tag, (hkeys tag).mp htag, hdefault⟩
  · rintro ⟨property, mem, hname, tag, htag, hdefault⟩
    exact ⟨_, discriminated, _, rfl, property, mem, hname, tag, (hkeys tag).mpr htag, hdefault⟩

/-- The object of a class with a parent carries its identifier as its tag and nothing else
under that name, or it is empty. -/
theorem Depicts.tagged {cls : ClassDecl} {id : TypeId} {object : ObjectType TypeRef}
    (h : c.Depicts ids (.declared cls.key) id (.object object))
    (found : c.declarations.class? cls.key = some cls)
    (below : (c.declarations.hierarchyParent? cls).isSome = true) :
    object.properties = [] ∨ (∃ rest, object.properties = c.tagProperty id :: rest) ∧
      ∀ property ∈ object.properties, property.name = c.settings.discriminatorProperty →
        property.default = .str id := by
  generalize howner : Hint.declared cls.key = owner at h
  generalize hnode : NodeOf.object object = node at h
  cases h with
  | enumeration | hierarchy => cases hnode
  | unsupported =>
      cases hnode
      exact Or.inl rfl
  | alone named _ top _ =>
      subst howner
      rcases class?_of_namedClass? named with ⟨hkey, hclass⟩
      rw [← Hint.declared.inj hkey, found] at hclass
      rw [Option.some.inj hclass, top] at below
      cases below
  | subtype named _ _ texts =>
      cases hnode
      refine Or.inr ⟨⟨_, rfl⟩, fun property mem hname => ?_⟩
      rcases List.mem_cons.mp mem with rfl | mem
      · rfl
      · exact absurd hname (Property.name_of_mem_filter texts mem).2

end DeclarationIntrospection

open DeclarationIntrospection in
/-- In the graph of a class, the objects below a polymorphic type that the type announces
are those which are its own subtypes and have properties. -/
theorem Declarations.introspect_announces_iff {ds : Declarations} {settings : IntrospectionSettings}
    {hint : Hint} {graph : TypeGraph} (keys : ds.HasKeys)
    (h : (ds.introspect settings hint).1.graph = .ok graph) {base id : TypeId}
    {type : PolymorphicType TypeRef} {object : ObjectType TypeRef}
    (found : graph.nodes.find? base = some (.polymorphic type)) (descends : graph.Descends base id)
    (leaf : graph.nodes.find? id = some (.object object)) :
    type.Announces object ↔ id ∈ type.variants.map (·.id) ∧ object.properties ≠ [] := by
  rcases portrays_introspect h with ⟨ids, hportrays⟩
  rcases hportrays.hierarchy found with ⟨_, -, -, -, hdiscriminator, -⟩
  rcases descends.exists_parent with ⟨_, _, hparent, hlisted, -⟩
  rcases hportrays.subclass keys hparent hlisted with ⟨parent, cls, hfound, root, -, hclass, hbase, howns⟩
  have htagged := (hportrays.depicts howns leaf).tagged hclass
    (hierarchyParent?_isSome hfound root hbase)
  rw [announces_iff hdiscriminator]
  constructor
  · rintro ⟨property, mem, hname, tag, htag, hdefault⟩
    rcases htagged with hempty | ⟨-, hfixed⟩
    · rw [hempty] at mem
      cases mem
    · rw [hfixed property mem hname] at hdefault
      cases hdefault
      exact ⟨htag, List.ne_nil_of_mem mem⟩
  · rintro ⟨mem, nonempty⟩
    rcases htagged with hempty | ⟨⟨rest, hproperties⟩, -⟩
    · exact absurd hempty nonempty
    · exact ⟨_, hproperties ▸ List.mem_cons_self .., rfl, id, mem, rfl⟩

/-- A hierarchy of three classes one below the other. -/
def deepShapes : Declarations where
  classes := [
    { key := "Shape", name := "Shape", qualname := "Shape", kind := .plain },
    { key := "Round", name := "Round", qualname := "Round", kind := .plain, bases := ["Shape"] },
    { key := "Circle", name := "Circle", qualname := "Circle", kind := .plain, bases := ["Round"] }]

/-- Its graph: the tag of the last class names the class in the middle. -/
def deepShapesGraph : TypeGraph where
  root := .named "Shape" false
  nodes := [
    ("Shape", .polymorphic {
      base := "Shape"
      variants := [⟨"Shape.Round", .named "Shape.Round" false⟩]
      discriminator := some { mapping := some [("Shape.Round", "Shape.Round")] } }),
    ("Shape.Round", .polymorphic {
      base := "Round"
      variants := [⟨"Round.Circle", .named "Round.Circle" false⟩]
      discriminator := some { mapping := some [("Round.Circle", "Round.Circle")] } }),
    ("Round.Circle", .object {
      name := "Circle"
      properties := [{
        name := "type", type := .inline (.primitive .string none) false
        default := .str "Round.Circle" }]
      required := ["type"] })]

/-- The three classes are read into that graph. -/
theorem deepShapes_introspect :
    (deepShapes.introspect {} (.declared "Shape")).1.graph = .ok deepShapesGraph :=
  rfl

/-- The class in the middle announces the last class, which is its own subtype. -/
theorem deepShapes_announces : deepShapes.HasKeys ∧
    (deepShapes.introspect {} (.declared "Shape")).1.graph = .ok deepShapesGraph ∧
    deepShapesGraph.Descends "Shape.Round" "Round.Circle" ∧
    ∃ type object, deepShapesGraph.nodes.find? "Shape.Round" = some (.polymorphic type) ∧
      deepShapesGraph.nodes.find? "Round.Circle" = some (.object object) ∧ type.Announces object := by
  have hkeys : deepShapes.HasKeys := by
    simp [Declarations.HasKeys, deepShapes]
  have hdescends : deepShapesGraph.Descends "Shape.Round" "Round.Circle" :=
    .subtype rfl (List.mem_singleton.mpr rfl)
  refine ⟨hkeys, deepShapes_introspect, hdescends, _, _, rfl, rfl, ?_⟩
  refine (Declarations.introspect_announces_iff hkeys deepShapes_introspect rfl hdescends rfl).mpr ?_
  exact ⟨List.mem_singleton.mpr rfl, List.cons_ne_nil _ _⟩

/-- The first class does not announce the last one, although its subtypes lead there. -/
theorem deepShapes_not_announces :
    (deepShapes.introspect {} (.declared "Shape")).1.graph = .ok deepShapesGraph ∧
    deepShapesGraph.Descends "Shape" "Round.Circle" ∧
    ∃ type object, deepShapesGraph.nodes.find? "Shape" = some (.polymorphic type) ∧
      deepShapesGraph.nodes.find? "Round.Circle" = some (.object object) ∧
      ¬ type.Announces object := by
  have hdescends : deepShapesGraph.Descends "Shape" "Round.Circle" :=
    .through rfl (List.mem_singleton.mpr rfl) (.subtype rfl (List.mem_singleton.mpr rfl))
  refine ⟨deepShapes_introspect, hdescends, _, _, rfl, rfl, ?_⟩
  rintro ⟨discriminator, hdiscriminator, mapping, hmapping, property, mem, -, tag, htag, hdefault⟩
  cases hdiscriminator
  cases hmapping
  rw [List.mem_singleton] at mem
  subst mem
  cases hdefault
  revert htag
  decide

end Schemata
