import Schemata.Proofs.Conversion.Requirements
import Schemata.Proofs.Declaration.Hierarchy
import Schemata.Proofs.Descriptor.Depiction

/-!
# Required properties of introspected objects in documents

What an object requires is noted twice.  The reading of a descriptor, of a class, of a function
and of a constructor notes it with the node, each in its own way, and a conversion notes it
again from the defaults of the properties.  The two agree: when the flags say that defaults
count, a document lists for each object what its node requires.

Main results:

- Theorem {lit}`TypeGraph.listsRequired_of_requiresByDefault`: a document lists what the nodes
  require, when they require their properties without a default.
- Theorem {lit}`introspections_requireByDefault`: all graphs that come out of an introspection
  have such nodes.
-/

namespace Schemata

/-- The names of the properties of all objects in the table are texts. -/
def TypeGraph.HasTextNames (graph : TypeGraph) : Prop :=
  ∀ id type, graph.nodes.find? id = some (.object type) →
    ∀ property ∈ type.properties, property.HasText

/-- A document lists for an object exactly what the object requires, in the order of its
properties when these have distinct names. -/
structure ObjectType.IsListedAs (type : ObjectType TypeRef) (listed : List Json) : Prop where
  names : ∀ name, name ∈ listed ↔ name ∈ type.required
  order : (type.properties.map (·.name)).Nodup →
    listed = (type.properties.filter (!·.hasDefault)).map (·.name)

/-- A document lists for the root object and for every object in it, at any depth, what the
object of the graph requires that it is the fragment of. -/
structure TypeGraph.ListsRequired (graph : TypeGraph) (body : SchemaBody) : Prop where
  root : ∀ type, graph.Leads graph.root (.object type) → type.IsListedAs body.required.listed
  objects : ∀ position head members required additional,
    body.Holds position (.object head (some members) required additional) →
      ∃ ref type,
        graph.Fills body position (.object head (some members) required additional) ref ∧
        graph.Leads ref (.object type) ∧ type.IsListedAs required.listed

/-- Documents list what the objects of the graph require when the flags say that defaults
count. -/
def TypeGraph.DocumentsListRequired (graph : TypeGraph) : Prop :=
  ∀ flags name document, flags.respectDefaults.isTruthy = true →
    graph.toSchemaDocument flags name = .ok document → graph.ListsRequired document.body

/-! ## Documents of graphs -/

namespace Conversion

variable {c : Conversion} {type : ObjectType TypeRef} {ref : TypeRef} {root : Definition}
  {state : ConversionState}

/-- When defaults count a JSON Schema document requires what has none. -/
theorem requires_of_respectDefaults (dialect : c.dialect = .jsonSchema)
    (respects : c.flags.respectDefaults.isTruthy = true) (property : Property TypeRef) :
    c.requires property = !property.hasDefault := by
  rw [requires, if_neg (by simp [dialect]), if_pos respects]

/-- Texts are one member only when they are the same. -/
theorem eq_of_memberName_eq {first second : Property TypeRef} (hfirst : first.HasText)
    (hsecond : second.HasText) (same : first.name.memberName = second.name.memberName) :
    first.name = second.name := by
  rcases hfirst with ⟨text, htext⟩
  rcases hsecond with ⟨other, hother⟩
  rw [htext, hother] at same ⊢
  exact congrArg Json.str same

/-- What is listed for an object is what it requires, when both are found by the defaults. -/
theorem isListedAs_requiredList (dialect : c.dialect = .jsonSchema)
    (respects : c.flags.respectDefaults.isTruthy = true) (required : type.RequiresByDefault)
    (texts : ∀ property ∈ type.properties, property.HasText) :
    type.IsListedAs (c.requiredList type) := by
  have hagree : type.NamesAgree := .of_texts texts
  have hrequires := requires_of_respectDefaults dialect respects
  constructor
  · intro name
    rw [required, requiredList, List.mem_filter]
    constructor
    · rintro ⟨hname, hcontains⟩
      rcases List.mem_map.mp hname with ⟨property, hproperty, rfl⟩
      rcases (contains_requiredNames_iff hagree hproperty).mp hcontains with
        ⟨other, hother, selected, same⟩
      rw [eq_of_memberName_eq (texts _ hproperty) (texts _ hother) same]
      exact List.mem_map_of_mem (List.mem_filter.mpr ⟨hother, hrequires other ▸ selected⟩)
    · intro hname
      rcases List.mem_map.mp hname with ⟨property, hmem, rfl⟩
      rcases List.mem_filter.mp hmem with ⟨hproperty, hfree⟩
      refine ⟨List.mem_map_of_mem hproperty, (contains_requiredNames_iff hagree hproperty).mpr ?_⟩
      exact ⟨property, hproperty, (hrequires property).trans hfree, rfl⟩
  · intro nodup
    have hdistinct : type.properties.Pairwise fun earlier later =>
        (later.name == earlier.name) = false := by
      refine (List.pairwise_map.mp nodup).imp_of_mem fun {earlier later} hearlier hlater differ => ?_
      rw [← Bool.not_eq_true, hagree _ hlater _ hearlier]
      exact fun same => differ (eq_of_memberName_eq (texts _ hearlier) (texts _ hlater) same.symm)
    rw [requiredList_eq hagree hdistinct]
    exact congrArg _ (List.filter_congr fun property _ => hrequires property)

/-- The object that the root leads to is written out as the root, whether a pointer refers back
to it or not. -/
theorem Runs.eq_object_of_root (h : c.Runs (.fragment c.graph.root root) {} state)
    (leads : c.graph.Leads c.graph.root (.object type)) :
    ∃ head members additional, root = .object head (some members)
      (.arr (c.requiredList type)) additional := by
  generalize href : c.graph.root = ref at h leads
  cases leads with
  | inline unnamed => cases unnamed
  | @named id nullable _ found =>
      have hroot : c.graph.root.id? = some id := by
        rw [href]
        rfl
      have hsame {other : ObjectType TypeRef}
          (node : c.graph.nodes.find? id = some (.object other)) : other = type := by
        rw [found] at node
        cases node
        rfl
      cases h with
      | primitive node | enumeration node | list node | map node =>
          cases node with
          | named node => rw [found] at node; cases node
      | rootInside _ inside | objectInside _ inside | choiceInside _ inside => cases inside
      | objectShared _ _ shared => cases shared
      | objectInPlace node | rootPromised node =>
          cases hsame node
          cases nullable <;> exact ⟨_, _, _, rfl⟩
      | objectPromised _ _ _ _ other => exact absurd hroot other
      | choice node => rw [found] at node; cases node

end Conversion

namespace TypeGraph

variable {graph : TypeGraph}

/-- A document lists what the nodes require, when they require their properties without a
default and defaults count. -/
theorem listsRequired_of_requiresByDefault (required : graph.RequiresByDefault)
    (texts : graph.HasTextNames) : graph.DocumentsListRequired := by
  intro flags name document respects h
  let c : Conversion := ⟨graph, flags, .jsonSchema⟩
  have hlisted {ref : TypeRef} {type : ObjectType TypeRef}
      (leads : graph.Leads ref (.object type)) : type.IsListedAs (c.requiredList type) := by
    cases leads with
    | inline unnamed => cases unnamed
    | named found =>
        exact Conversion.isListedAs_requiredList rfl respects (required _ _ found) (texts _ _ found)
  have hagree : graph.NamesAgree := fun id type found => .of_texts (texts id type found)
  constructor
  · intro type leads
    rcases runs_of_toSchemaDocument h with ⟨root, state, hruns, rfl⟩
    rcases hruns.eq_object_of_root leads with ⟨head, members, additional, rfl⟩
    rw [show (schemaBody flags name (.object head (some members) (.arr (c.requiredList type))
      additional) state.defs).required.listed = c.requiredList type from Json.listed_orNull _]
    exact hlisted leads
  · intro position head members listed additional holds
    rcases holds.puts (puts_toSchemaDocument h) with ⟨of, stands, fills⟩
    rcases stands.eq_object with ⟨ref, href, type, fragments, leads, -, -, rfl, -⟩
    exact ⟨ref, type, fills hagree ref href, leads, hlisted leads⟩

end TypeGraph

/-! ## Graphs of descriptors -/

/-- The object of a descriptor requires the elements that are not optional. -/
theorem Catalog.Depicts.requiresByDefault {catalog : Catalog} {root : DescriptorKey}
    {descriptor : Descriptor} {type : ObjectType TypeRef}
    (h : catalog.Depicts root descriptor (.object type)) :
    type.RequiresByDefault ∧ ∀ property ∈ type.properties, property.HasText := by
  cases h with
  | object kind parts =>
      refine ⟨map_name_filter_hasDefault (parts.imp fun _ _ h => ⟨h.1, h.2.1⟩), ?_⟩
      intro property hproperty
      rcases Attempt.exists_of_mem_right parts hproperty with ⟨element, -, hname, -⟩
      exact ⟨element.name, hname⟩
  | empty => exact ⟨rfl, by simp⟩

/-- Objects read from a catalog require what has no default, and their properties have texts as
names. -/
theorem Catalog.requiresByDefault_introspect {catalog : Catalog}
    {settings : IntrospectionSettings} {root : DescriptorKey} {graph : TypeGraph}
    (h : (catalog.introspect settings root).graph = .ok graph) :
    graph.RequiresByDefault ∧ graph.HasTextNames := by
  have hobject : ∀ id type, graph.nodes.find? id = some (.object type) →
      type.RequiresByDefault ∧ ∀ property ∈ type.properties, property.HasText := by
    intro id type found
    rcases (depicts_introspect h).2 id _ (Table.mem_of_find? found) with ⟨entry, -, -, hdepicts⟩
    exact hdepicts.requiresByDefault
  exact ⟨fun id type found => (hobject id type found).1,
    fun id type found => (hobject id type found).2⟩

/-! ## Graphs of classes and functions -/

namespace DeclarationIntrospection

variable {c : DeclarationIntrospection} {ids : Table Hint TypeId} {hint : Hint} {id : TypeId}
  {type : ObjectType TypeRef} {graph : TypeGraph}

/-- The object of a class requires its tag, if it has one, and what has no default. -/
theorem Depicts.requiresByDefault (h : c.Depicts ids hint id (.object type)) :
    type.RequiresByDefault := by
  cases h with
  | subtype | alone | unsupported => rfl

/-- A tag has the name that the settings give, all other properties are named by texts. -/
theorem Depicts.hasText (h : c.Depicts ids hint id (.object type)) {text : String}
    (tag : c.settings.discriminatorProperty = .str text) :
    ∀ property ∈ type.properties, property.HasText := by
  cases h with
  | subtype named leaf below texts =>
      refine List.forall_mem_cons.mpr ⟨⟨text, tag⟩, fun property hproperty => ?_⟩
      exact texts property (List.mem_filter.mp hproperty).1
  | alone named leaf top texts => exact texts
  | unsupported => simp

/-- Every node of a graph shows a declaration, or the parameters of what is called. -/
def Shown (c : DeclarationIntrospection) (graph : TypeGraph) : Prop :=
  ∀ id node, graph.nodes.find? id = some node →
    (∃ ids owner, c.Depicts ids owner id node) ∨ ∃ owner, IsCallable owner node

/-- Objects of a graph that shows declarations require what has no default. -/
theorem Shown.requiresByDefault (h : c.Shown graph) : graph.RequiresByDefault := by
  intro id type found
  rcases h id _ found with ⟨ids, owner, hdepicts⟩ | ⟨owner, key, name, own, text, -, hnode, -⟩
  · exact hdepicts.requiresByDefault
  · cases hnode
    rfl

/-- Their properties have texts as names when the discriminator property is a text. -/
theorem Shown.hasTextNames (h : c.Shown graph) {text : String}
    (tag : c.settings.discriminatorProperty = .str text) : graph.HasTextNames := by
  intro id type found
  rcases h id _ found with ⟨ids, owner, hdepicts⟩ | ⟨owner, key, name, own, _, -, hnode, htexts⟩
  · exact hdepicts.hasText tag
  · cases hnode
    exact htexts

/-- A graph that portrays the owners of its identifiers shows declarations. -/
theorem Portrays.shown (h : c.Portrays ids graph) : c.Shown graph := by
  intro id node found
  rcases h.shows id node found with ⟨owner, -, hdepicts | hcallable⟩
  · exact Or.inl ⟨ids, owner, hdepicts⟩
  · exact Or.inr ⟨owner, hcallable⟩

/-- The graph of a constructor shows its parameters, and the classes that they lead to. -/
theorem shown_introspectConstructor {settings : IntrospectionSettings} {ds : Declarations}
    {cls : ClassDecl} (h : (ds.introspectConstructor settings cls).1.graph = .ok graph) :
    (⟨ds, settings⟩ : DeclarationIntrospection).Shown graph := by
  rcases Session.introspect_graph_eq_ok_iff.mp h with ⟨root, after, hrun, rfl⟩
  have hordered := isOrdered_startOf ds.forms (.declared cls.key) cls.name
  -- the form of the node does not depend on what owns it
  have hkeeps := keeps_callableNode (c := ⟨ds, settings⟩) hordered cls.key cls.name
    (ds.hints cls.key) (classParameters ⟨ds, settings⟩ cls) cls.annotations (ds.doc? cls.key)
  intro id node found
  rcases (shows_callableRef hkeeps hrun).2 id node
    (Session.mem_nodes.mp (Table.mem_of_find? found)) with ⟨owner, -, hdepicts | ⟨-, hcallable⟩⟩
  · exact Or.inl ⟨_, owner, hdepicts⟩
  · exact Or.inr ⟨_, hcallable⟩

end DeclarationIntrospection

/-- Some introspection of the declarations gives the graph: that of a class or any other hint,
of a function, or of a constructor. -/
def Declarations.Gives (ds : Declarations) (settings : IntrospectionSettings)
    (graph : TypeGraph) : Prop :=
  (∃ hint, (ds.introspect settings hint).1.graph = .ok graph) ∨
    (∃ function, (ds.introspectFunction settings function).1.graph = .ok graph) ∨
    ∃ cls, (ds.introspectConstructor settings cls).1.graph = .ok graph

/-- Whatever introspection gives a graph, the graph shows declarations. -/
theorem Declarations.Gives.shown {ds : Declarations} {settings : IntrospectionSettings}
    {graph : TypeGraph} (h : ds.Gives settings graph) :
    (⟨ds, settings⟩ : DeclarationIntrospection).Shown graph := by
  rcases h with ⟨hint, h⟩ | ⟨function, h⟩ | ⟨cls, h⟩
  · rcases DeclarationIntrospection.portrays_introspect h with ⟨ids, hportrays⟩
    exact hportrays.shown
  · rcases DeclarationIntrospection.portrays_introspectFunction h with ⟨ids, hportrays⟩
    exact hportrays.shown
  · exact DeclarationIntrospection.shown_introspectConstructor h

/-- In the graphs of descriptors, of classes and of functions every object requires its
properties without a default and no others, and when defaults count the JSON Schema documents
of these graphs list just that.  The tag of a subtype is named as the settings say, which for
documents has to be a text. -/
theorem introspections_requireByDefault :
    (∀ (catalog : Catalog) (settings : IntrospectionSettings) (root : DescriptorKey) graph,
      (catalog.introspect settings root).graph = .ok graph →
        graph.RequiresByDefault ∧ graph.DocumentsListRequired) ∧
    ∀ (ds : Declarations) (settings : IntrospectionSettings) graph, ds.Gives settings graph →
      graph.RequiresByDefault ∧
        ∀ text, settings.discriminatorProperty = .str text → graph.DocumentsListRequired := by
  constructor
  · intro catalog settings root graph h
    rcases Catalog.requiresByDefault_introspect h with ⟨required, texts⟩
    exact ⟨required, TypeGraph.listsRequired_of_requiresByDefault required texts⟩
  · intro ds settings graph h
    have hshown := h.shown
    refine ⟨hshown.requiresByDefault, fun text tag => ?_⟩
    exact TypeGraph.listsRequired_of_requiresByDefault hshown.requiresByDefault
      (hshown.hasTextNames tag)

/-- A shape whose color has a default. -/
def coloredShape : Catalog :=
  [("text", { serialName := "String", kind := .string }),
    ("Shape", { serialName := "Shape", kind := .record, elements :=
      [{ name := "label", descriptor := "text" },
        { name := "color", descriptor := "text", isOptional := true },
        { name := "next", descriptor := "Shape", nullable := true }] })]

/-- A hierarchy of shapes with a circle whose color has a default. -/
def coloredCircle : Declarations where
  classes := [
    { key := "Shape", name := "Shape", qualname := "Shape", kind := .plain },
    { key := "Circle", name := "Circle", qualname := "Circle", kind := .record, bases := ["Shape"]
      fields := [
        { name := "radius", hint := .foreign "builtins" "float" },
        { name := "color", hint := .foreign "builtins" "str", default := some (.literal "red") }] }]

/-- In their documents, what has a default is not listed, and the tag of the circle is. -/
theorem coloredShapes_requireByDefault :
    (∃ graph document, (coloredShape.introspect {} "Shape").graph = .ok graph ∧
      graph.RequiresByDefault ∧
      graph.toSchemaDocument (.initial .jsonSchema) "Shape" = .ok document ∧
      graph.ListsRequired document.body ∧ document.body.required.listed = ["label", "next"]) ∧
    ∃ graph document, (coloredCircle.introspect {} (.declared "Circle")).1.graph = .ok graph ∧
      graph.RequiresByDefault ∧
      graph.toSchemaDocument (.initial .jsonSchema) "Circle" = .ok document ∧
      graph.ListsRequired document.body ∧ document.body.required.listed = ["type", "radius"] := by
  have hshape : (coloredShape.introspect {} "Shape").graph = .ok _ := rfl
  have hcircle : (coloredCircle.introspect {} (.declared "Circle")).1.graph = .ok _ := rfl
  have hfirst := introspections_requireByDefault.1 _ _ _ _ hshape
  have hsecond := introspections_requireByDefault.2 _ _ _ (Or.inl ⟨_, hcircle⟩)
  exact ⟨⟨_, _, hshape, hfirst.1, rfl, hfirst.2 _ _ _ rfl rfl, rfl⟩,
    _, _, hcircle, hsecond.1, rfl, hsecond.2 _ rfl _ _ _ rfl rfl, rfl⟩

end Schemata
