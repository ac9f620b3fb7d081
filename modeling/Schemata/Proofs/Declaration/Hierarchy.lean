import Mathlib.Data.List.Nodup
import Schemata.Proofs.Declaration.Identity
import Schemata.Proofs.Introspection.Defaults

/-!
# Hierarchies in the graphs of declarations

When an introspection gives a graph, every node of its table shows the declaration that
owns its identifier.  The subtypes of a polymorphic node are then owned by the direct
subclasses of the class that owns the node, and a node of a subclass is never that of a
class without a parent.

In the graph of a function one node is its own: that of the function, whose name no class
of the graph owns.

Main results:

- Definition {lit}`DeclarationIntrospection.Portrays`: the nodes of a graph show their
  owners.
- Theorem {lit}`portrays_introspect`, {lit}`portrays_introspectFunction`: graphs of
  classes and functions portray their declarations.
- Theorem {lit}`Portrays.subclass`: a subtype is owned by a direct subclass.
-/

namespace Schemata

/-- Classes are told apart by their keys. -/
def Declarations.HasKeys (ds : Declarations) : Prop :=
  (ds.classes.map (·.key)).Nodup

namespace DeclarationIntrospection

variable (c : DeclarationIntrospection)

/-- The node of a function: an object with a property for each parameter. -/
def IsCallable (owner : Hint) (node : Node) : Prop :=
  ∃ key name properties description, owner = .function key ∧
    node = .object (objectType name properties description) ∧
    ∀ property ∈ properties, property.HasText

/-- An identifier has one owner, a class owns one identifier, and every node of a graph
shows the declaration that owns its identifier, or the parameters of the function that
does. -/
structure Portrays (ids : Table Hint TypeId) (graph : TypeGraph) : Prop where
  single : ∀ first second id, (first, id) ∈ ids → (second, id) ∈ ids → first = second
  own : ∀ hint id, (hint, id) ∈ ids → hint.isClass = true → ids.find? hint = some id
  shows : ∀ id node, graph.nodes.find? id = some node → ∃ owner, (owner, id) ∈ ids ∧
    (c.Depicts ids owner id node ∨ IsCallable owner node)

variable {c} {graph : TypeGraph} {ids : Table Hint TypeId} {session : Session Hint Forms}

/-- A session whose slots show their owners has a graph that portrays them. -/
theorem portrays_graph (root : TypeRef) (ordered : IsOrdered session)
    (nodup : (session.ids.map Prod.snd).Nodup)
    (distinct : session.ids.Pairwise fun first second => (second.1 == first.1) = false)
    (shows : ∀ id node, (id, some node) ∈ session.slots → ∃ owner, (owner, id) ∈ session.ids ∧
      (c.Depicts session.ids owner id node ∨ IsCallable owner node)) :
    c.Portrays session.ids (session.graph root) where
  single _ _ _ hfirst hsecond := ordered.single nodup hfirst hsecond
  own _ _ mem isClass := find?_of_pairwise distinct mem (Hint.beq_self_of_isClass isClass)
  shows id node found := shows id node (Session.mem_nodes.mp (Table.mem_of_find? found))

/-! ## Graphs of classes -/

/-- The graph of a class or any other hint portrays its declarations. -/
theorem portrays_introspect {settings : IntrospectionSettings} {ds : Declarations} {hint : Hint}
    (h : (ds.introspect settings hint).1.graph = .ok graph) :
    ∃ ids, (⟨ds, settings⟩ : DeclarationIntrospection).Portrays ids graph := by
  rcases Session.introspect_graph_eq_ok_iff.mp h with ⟨root, after, hrun, rfl⟩
  have hkeeps := keepsAll_below (c := ⟨ds, settings⟩) hint false _ (isOrdered_start ds.forms)
  have hfollows := hkeeps.of_run hrun
  refine ⟨after.ids, portrays_graph root hfollows.ordered (hfollows.grows.nodup List.nodup_nil)
    (hfollows.grows.pairwise .nil) ?_⟩
  intro id node hslot
  rcases hfollows.built id node hslot with hold | ⟨owner, howner, hbuilt⟩
  · cases hold
  · exact ⟨owner, howner, Or.inl hbuilt.depicts⟩

/-! ## Graphs of functions -/

/-- The node of a function shows its parameters. -/
theorem keeps_callableNode (ordered : IsOrdered session) (key name : String)
    (hints : Declarations.Reading (Table String Hint)) (parameters : List Parameter)
    (annotations : List Annotation) (doc : Option String) :
    c.Keeps session (c.callableNode c.below name hints parameters annotations doc)
      (fun built _ => ∀ node, built = some node → IsCallable (.function key) node) := by
  have hparameter : ∀ table parameter session, IsOrdered session →
      c.Keeps session (c.parameterProperty c.below table parameter)
        (fun property _ => property.name = .str parameter.name ∧
          property.hasDefault = parameter.hasDefault) := by
    intro table parameter session ordered
    rw [parameterProperty]
    refine (keepsAll_below _ false session ordered).bind fun type middle hmiddle _ => ?_
    refine (keeps_describe hmiddle.ordered _).bind fun description after hafter _ => ?_
    exact keeps_pure hafter.ordered ⟨rfl, rfl⟩
  rw [callableNode]
  refine (keeps_onMemory ordered _).bind fun table first hfirst _ => ?_
  refine (Keeps.mapEach _ (fun _ _ _ _ _ h => h)
    (fun parameter _ session ordered => hparameter table parameter session ordered)
    hfirst.ordered).bind fun properties middle hmiddle hparts => ?_
  refine (keeps_describe hmiddle.ordered _).bind fun marked after hafter _ => ?_
  refine keeps_pure hafter.ordered ?_
  rintro _ ⟨⟩
  rw [map_name_filter_hasDefault hparts]
  refine ⟨key, name, properties, _, rfl, rfl, fun property hproperty => ?_⟩
  rcases Attempt.exists_of_mem_right hparts hproperty with ⟨parameter, -, hname, -⟩
  exact ⟨parameter.name, hname⟩

/-- What something that is called is read into: a session in which it owns its name. -/
def startOf (memory : Forms) (owner : Hint) (name : String) : Session Hint Forms where
  ids := [(owner, name)]
  owners := [(name, owner)]
  memory := memory

/-- The session that something called is read in is ordered. -/
theorem isOrdered_startOf (memory : Forms) (owner : Hint) (name : String) :
    IsOrdered ((startOf memory owner name).reserve name) where
  inverse := rfl
  refs := by simp [startOf, Session.reserve]

section Callable

variable {memory : Forms} {owner : Hint} {name module : String} {node : Step (Option Node)}
  {root : TypeRef} {after : Session Hint Forms}

/-- The node of what is called is filled in last, when its parameters have been read. -/
theorem run_callableRef
    (h : (c.callableRef owner name module node).run { memory } = (.ok root, after)) :
    ∃ built finish, node.run ((startOf memory owner name).reserve name) = (.ok built, finish) ∧
      after = (finish.leave name).fill name built := by
  have hclaim : Attempt.run (Session.claim c.declarations.display owner name (some module))
      { memory } = (.ok name, startOf memory owner name) := rfl
  rw [callableRef, Attempt.run_bind_ok hclaim, Attempt.run_bind_eq_ok_iff] at h
  rcases h with ⟨_, last, hregister, hroot⟩
  rw [Session.run_register rfl] at hregister
  cases hroot
  rcases hrun : node.run ((startOf memory owner name).reserve name) with ⟨outcome, finish⟩
  rw [hrun] at hregister
  cases outcome with
  | error error => cases hregister
  | ok built =>
      cases hregister
      exact ⟨built, finish, rfl, rfl⟩

/-- In the session after it every slot shows its owner, or is that of what is called. -/
theorem shows_callableRef {holds : Node → Prop}
    (hkeeps : c.Keeps ((startOf memory owner name).reserve name) node
      (fun built _ => ∀ found, built = some found → holds found))
    (h : (c.callableRef owner name module node).run { memory } = (.ok root, after)) :
    (IsOrdered after ∧ (after.ids.map Prod.snd).Nodup ∧
      after.ids.Pairwise fun first second => (second.1 == first.1) = false) ∧
    ∀ id found, (id, some found) ∈ after.slots → ∃ other, (other, id) ∈ after.ids ∧
      (c.Depicts after.ids other id found ∨ other = owner ∧ holds found) := by
  rcases run_callableRef h with ⟨built, finish, hbuild, rfl⟩
  have hfollows := hkeeps.of_run hbuild
  have hnodup : (finish.ids.map Prod.snd).Nodup :=
    hfollows.grows.nodup (by simp [startOf, Session.reserve])
  have hdistinct := hfollows.grows.pairwise (by simp [startOf, Session.reserve])
  have hordered : IsOrdered ((finish.leave name).fill name built) :=
    ⟨hfollows.ordered.inverse, hfollows.ordered.refs⟩
  refine ⟨⟨hordered, hnodup, hdistinct⟩, fun id found hslot => ?_⟩
  rcases Table.mem_put hslot with hown | hslot
  · obtain ⟨rfl, hnode⟩ := Prod.mk.inj hown
    exact ⟨owner, hfollows.grows.isPrefix.subset (List.mem_singleton.mpr rfl),
      Or.inr ⟨rfl, hkeeps.of_ok hbuild found hnode.symm⟩⟩
  · rcases hfollows.built id found hslot with hold | ⟨other, hother, hbuilt⟩
    · simp [startOf, Session.reserve, Table.put] at hold
    · exact ⟨other, hother, Or.inl hbuilt.depicts⟩

end Callable

/-- The graph of a function portrays the function and its declarations. -/
theorem portrays_introspectFunction {settings : IntrospectionSettings} {ds : Declarations}
    {function : FunctionDecl} (h : (ds.introspectFunction settings function).1.graph = .ok graph) :
    ∃ ids, (⟨ds, settings⟩ : DeclarationIntrospection).Portrays ids graph := by
  rw [Declarations.introspectFunction] at h
  split at h
  · cases h
  · rcases Session.introspect_graph_eq_ok_iff.mp h with ⟨root, after, hrun, rfl⟩
    have hordered := isOrdered_startOf ds.forms (.function function.key) function.name
    have hkeeps := keeps_callableNode (c := ⟨ds, settings⟩) hordered function.key function.name
      (functionHints ⟨ds, settings⟩ function) function.parameters function.annotations
      (ds.functionDoc? function)
    rcases shows_callableRef hkeeps hrun with ⟨⟨hafter, hnodup, hdistinct⟩, hshows⟩
    refine ⟨after.ids, portrays_graph root hafter hnodup hdistinct fun id node hslot => ?_⟩
    rcases hshows id node hslot with ⟨owner, howner, hdepicts | ⟨rfl, hcallable⟩⟩
    · exact ⟨owner, howner, Or.inl hdepicts⟩
    · exact ⟨_, howner, Or.inr hcallable⟩

/-! ## Subtypes -/

/-- The named class of a hint is declared under its key. -/
theorem class?_of_namedClass? {hint : Hint} {cls : ClassDecl}
    (named : c.namedClass? hint = some cls) :
    hint = .declared cls.key ∧ c.declarations.class? cls.key = some cls := by
  cases hint with
  | declared key =>
      rw [namedClass?, Option.filter_eq_some_iff] at named
      rw [(class?_mem named.1).2]
      exact ⟨rfl, named.1⟩
  | _ => cases named

/-- Where keys tell classes apart, a declared class is the one found at its key. -/
theorem class?_eq {cls : ClassDecl} (keys : c.declarations.HasKeys)
    (mem : cls ∈ c.declarations.classes) : c.declarations.class? cls.key = some cls := by
  cases hfind : c.declarations.class? cls.key with
  | none =>
      rw [Declarations.class?, List.find?_eq_none] at hfind
      exact absurd (beq_self_eq_true cls.key) (hfind cls mem)
  | some other =>
      rcases class?_mem hfind with ⟨hmem, hkey⟩
      rw [List.inj_on_of_nodup_map keys hmem mem hkey]

/-- A class with a base that is the root of a hierarchy has a parent. -/
theorem hierarchyParent?_isSome {parent cls : ClassDecl}
    (found : c.declarations.class? parent.key = some parent)
    (root : c.declarations.isHierarchyRoot parent = true) (base : parent.key ∈ cls.bases) :
    (c.declarations.hierarchyParent? cls).isSome = true := by
  rw [Declarations.hierarchyParent?, List.find?_isSome]
  exact ⟨parent, List.mem_filterMap.mpr ⟨parent.key, base, found⟩, root⟩

/-- A polymorphic node is owned by the root of a hierarchy, and its subtypes are owned by
the direct subclasses one by one. -/
theorem Portrays.hierarchy (h : c.Portrays ids graph) {base : TypeId}
    {type : PolymorphicType TypeRef} (found : graph.nodes.find? base = some (.polymorphic type)) :
    ∃ parent, c.declarations.class? parent.key = some parent ∧
      c.declarations.isHierarchyRoot parent = true ∧
      ids.find? (.declared parent.key) = some base ∧
      type.discriminator = some (c.settings.discriminator
        (Table.ofEntries ((type.variants.map (·.id)).map fun id => (id, id)))) ∧
      List.Forall₂ (fun key id => ids.find? (.declared key) = some id)
        (c.declarations.subclasses parent.key) (type.variants.map (·.id)) := by
  rcases h.shows base _ found with ⟨owner, howner, hdepicts | ⟨key, name, own, description, -, hnode, -⟩⟩
  · cases hdepicts with
    | @hierarchy cls _ subtypes named root owned =>
        rcases class?_of_namedClass? named with ⟨rfl, hclass⟩
        have hids : (subtypes.map fun id => (⟨id, .named id false⟩ : Variant TypeRef)).map (·.id) =
            subtypes := by
          rw [List.map_map]
          exact List.map_id _
        refine ⟨cls, hclass, root, h.own _ _ howner rfl, ?_, ?_⟩
        · rw [hids]
        · rw [hids]
          exact owned
  · cases hnode

/-- A subtype is owned by a direct subclass of the class that owns the polymorphic node. -/
theorem Portrays.subclass (h : c.Portrays ids graph) (keys : c.declarations.HasKeys)
    {base id : TypeId} {type : PolymorphicType TypeRef}
    (found : graph.nodes.find? base = some (.polymorphic type))
    (mem : id ∈ type.variants.map (·.id)) :
    ∃ parent cls, c.declarations.class? parent.key = some parent ∧
      c.declarations.isHierarchyRoot parent = true ∧
      ids.find? (.declared parent.key) = some base ∧
      c.declarations.class? cls.key = some cls ∧ parent.key ∈ cls.bases ∧
      ids.find? (.declared cls.key) = some id := by
  rcases h.hierarchy found with ⟨parent, hclass, root, hbase, -, howned⟩
  rcases Attempt.exists_of_mem_right howned mem with ⟨key, hkey, hid⟩
  rcases List.mem_map.mp hkey with ⟨cls, hcls, rfl⟩
  rcases List.mem_filter.mp hcls with ⟨hdeclared, hbases⟩
  exact ⟨parent, cls, hclass, root, hbase, class?_eq keys hdeclared, by simpa using hbases, hid⟩

/-- The node of a class shows the class. -/
theorem Portrays.depicts (h : c.Portrays ids graph) {key : String} {id : TypeId} {node : Node}
    (owned : ids.find? (.declared key) = some id) (found : graph.nodes.find? id = some node) :
    c.Depicts ids (.declared key) id node := by
  rcases Table.exists_key_of_find? owned with ⟨known, same, hknown⟩
  obtain rfl := Hint.eq_of_isClass rfl same
  rcases h.shows id node found with ⟨owner, howner, hshows⟩
  obtain rfl := h.single _ _ _ hknown howner
  rcases hshows with hdepicts | ⟨other, name, own, description, hfunction, -, -⟩
  · exact hdepicts
  · cases hfunction

end DeclarationIntrospection

end Schemata
