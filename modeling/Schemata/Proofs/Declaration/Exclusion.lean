import Schemata.Proofs.Conversion.Exclusion
import Schemata.Proofs.Declaration.Hierarchy

/-!
# Strict documents of classes

When each class has at most one base that is the root of a hierarchy, the direct
subclasses of the roots form trees, and so do the subtypes of a graph, for every
identifier is owned by one class.  Each of them shows its own identifier as a tag or its
own subtypes.  The choices of strict documents are then exclusive.

Main results:

- Definition {lit}`Declarations.IsForest`: classes whose hierarchies are trees.
- Theorem {lit}`Portrays.isTagged`: the subtypes of their graphs are tagged.
- Theorem {lit}`Declarations.isExclusive_of_strict`: the choices of strict documents are
  exclusive.
-/

namespace Schemata

/-- No class is below itself, each has at most one base that is the root of a hierarchy,
and what is below a root is declared outside the language and no enumeration. -/
structure Declarations.IsForest (ds : Declarations) : Prop where
  keys : ds.HasKeys
  acyclic : ∃ rank : String → Nat, ∀ cls ∈ ds.classes, ∀ base ∈ cls.bases,
    rank base < rank cls.key
  single : ∀ cls ∈ ds.classes, ∀ first ∈ ds.classes, ∀ second ∈ ds.classes,
    first.key ∈ cls.bases → second.key ∈ cls.bases → ds.isHierarchyRoot first = true →
    ds.isHierarchyRoot second = true → first.key = second.key
  subclasses : ∀ cls ∈ ds.classes, (ds.hierarchyParent? cls).isSome = true →
    Declarations.isOwn cls = true ∧ cls.kind ≠ .enumeration

namespace DeclarationIntrospection

variable {c : DeclarationIntrospection} {graph : TypeGraph} {ids : Table Hint TypeId}

/-- The node of a subclass is an object with a tag or a polymorphic type. -/
theorem Depicts.isTagged {cls : ClassDecl} {id : TypeId} {node : Node}
    (h : c.Depicts ids (.declared cls.key) id node)
    (found : c.declarations.class? cls.key = some cls)
    (below : (c.declarations.hierarchyParent? cls).isSome = true)
    (own : Declarations.isOwn cls = true ∧ cls.kind ≠ .enumeration) :
    (∃ object, node = .object object ∧ object.IsTagged c.settings.discriminatorProperty id) ∨
      ∃ type, node = .polymorphic type := by
  have hnamed : c.namedClass? (.declared cls.key) = some cls := by
    simp [namedClass?, found, own.1]
  generalize Hint.declared cls.key = owner at h hnamed
  cases h with
  | enumeration named kind =>
      cases hnamed.symm.trans named
      exact absurd kind own.2
  | hierarchy => exact Or.inr ⟨_, rfl⟩
  | subtype named _ _ texts =>
      exact Or.inl ⟨_, rfl, _, rfl, fun property mem => Property.name_of_mem_filter texts mem⟩
  | alone named _ top =>
      cases hnamed.symm.trans named
      rw [top] at below
      cases below
  | unsupported unnamed => cases hnamed.symm.trans unnamed

/-- An identifier is owned by one class. -/
theorem Portrays.key_eq (h : c.Portrays ids graph) {key other : String} {id : TypeId}
    (owned : ids.find? (.declared key) = some id) (again : ids.find? (.declared other) = some id) :
    key = other := by
  rcases Table.exists_key_of_find? owned with ⟨known, same, hknown⟩
  obtain rfl := Hint.eq_of_isClass rfl same
  rcases Table.exists_key_of_find? again with ⟨known, same, hother⟩
  obtain rfl := Hint.eq_of_isClass rfl same
  exact Hint.declared.inj (h.single _ _ _ hknown hother)

/-- The subtypes of a graph form trees. -/
theorem Portrays.isForest (h : c.Portrays ids graph) (forest : c.declarations.IsForest) :
    graph.IsForest where
  parent first second type other id found found' mem mem' := by
    rcases h.subclass forest.keys found mem with
      ⟨parent, cls, hparent, root, hfirst, hcls, hbase, howned⟩
    rcases h.subclass forest.keys found' mem' with
      ⟨parent', cls', hparent', root', hsecond, hcls', hbase', howned'⟩
    have hsame := h.key_eq howned howned'
    rw [← hsame, hcls, Option.some.injEq] at hcls'
    subst hcls'
    have hkey := forest.single cls (class?_mem hcls).1 parent (class?_mem hparent).1 parent'
      (class?_mem hparent').1 hbase hbase' root root'
    rw [hkey, hsecond, Option.some.injEq] at hfirst
    exact hfirst.symm
  acyclic id cycle := by
    rcases forest.acyclic with ⟨rank, hrank⟩
    have hbelow : ∀ {first second : TypeId}, graph.Descends first second →
        ∃ key other, ids.find? (.declared key) = some first ∧
          ids.find? (.declared other) = some second ∧ rank key < rank other := by
      intro first second descends
      induction descends with
      | subtype found mem =>
          rcases h.subclass forest.keys found mem with
            ⟨parent, cls, -, -, hfirst, hcls, hbase, howned⟩
          exact ⟨_, _, hfirst, howned, hrank cls (class?_mem hcls).1 _ hbase⟩
      | through found mem _ ih =>
          rcases h.subclass forest.keys found mem with
            ⟨parent, cls, -, -, hfirst, hcls, hbase, howned⟩
          rcases ih with ⟨key, other, hmiddle, hother, hless⟩
          obtain rfl := h.key_eq howned hmiddle
          exact ⟨_, _, hfirst, hother, Nat.lt_trans (hrank cls (class?_mem hcls).1 _ hbase) hless⟩
    rcases hbelow cycle with ⟨key, other, hkey, hother, hless⟩
    obtain rfl := h.key_eq hkey hother
    exact Nat.lt_irrefl _ hless

/-- The subtypes of a graph are tagged. -/
theorem Portrays.isTagged (h : c.Portrays ids graph) (forest : c.declarations.IsForest) :
    graph.IsTagged c.settings.discriminatorProperty where
  forest := h.isForest forest
  distinct base type found := by
    rcases h.hierarchy found with ⟨parent, -, -, -, -, howned⟩
    have hkeys : (c.declarations.subclasses parent.key).Nodup :=
      List.Nodup.sublist (List.Sublist.map _ List.filter_sublist) forest.keys
    have hunique : Relator.BiUnique fun key id => ids.find? (.declared key) = some id :=
      ⟨fun _ _ _ => h.key_eq, fun _ _ _ hid hother => Option.some.inj (hid.symm.trans hother)⟩
    exact (List.rel_nodup hunique howned).mp hkeys
  tagged base type id node found mem hnode := by
    rcases h.subclass forest.keys found mem with
      ⟨parent, cls, hparent, root, -, hcls, hbase, howned⟩
    have hbelow := hierarchyParent?_isSome hparent root hbase
    exact (h.depicts howned hnode).isTagged hcls hbelow
      (forest.subclasses cls (class?_mem hcls).1 hbelow)

end DeclarationIntrospection

open DeclarationIntrospection in
/-- The strict documents of a class or a function, in both dialects, have exclusive choices
when the hierarchies of its classes are trees.  The name of the property for tags has to
equal itself, as every text does. -/
theorem Declarations.isExclusive_of_strict {ds : Declarations} {settings : IntrospectionSettings}
    {flags : Flags} {graph : TypeGraph} (forest : ds.IsForest)
    (itself : (settings.discriminatorProperty == settings.discriminatorProperty) = true)
    (strict : flags.strict.isTruthy = true)
    (h : (∃ hint, (ds.introspect settings hint).1.graph = .ok graph) ∨
      ∃ function, (ds.introspectFunction settings function).1.graph = .ok graph) :
    (∀ name document, graph.toSchemaDocument flags name = .ok document →
      document.body.IsExclusive) ∧
    ∀ document, graph.toToolDocument flags = .ok document → document.parameters.IsExclusive := by
  have hportrays : ∃ ids, (⟨ds, settings⟩ : DeclarationIntrospection).Portrays ids graph := by
    rcases h with ⟨hint, h⟩ | ⟨function, h⟩
    · exact portrays_introspect h
    · exact portrays_introspectFunction h
  rcases hportrays with ⟨ids, hportrays⟩
  have htagged := hportrays.isTagged forest
  constructor
  · intro name document hdocument
    exact (TypeGraph.renders_toSchemaDocument hdocument).isExclusive htagged itself strict
  · intro document hdocument
    exact (TypeGraph.renders_toToolDocument hdocument).isExclusive htagged itself strict

/-- A class with two subclasses, of which the second has a subclass as well. -/
def nestedShapes : Declarations where
  classes := [
    { key := "Shape", name := "Shape", qualname := "Shape", kind := .plain },
    { key := "Circle", name := "Circle", qualname := "Circle", kind := .plain, bases := ["Shape"] },
    { key := "Round", name := "Round", qualname := "Round", kind := .plain, bases := ["Shape"] },
    { key := "Disc", name := "Disc", qualname := "Disc", kind := .plain, bases := ["Round"] }]

/-- A function that takes a shape. -/
def drawShape : FunctionDecl where
  key := "draw"
  name := "draw"
  qualname := "draw"
  parameters := [{ name := "shape", hint := some (.declared "Shape") }]

/-- The function can be called with an object of the last class. -/
def drawDisc : Json :=
  .obj [("shape", .obj [("type", "Round.Disc")])]

/-- What the strict documents of the function say about the call. -/
def judgeDrawDisc : Except Error (Option Bool × Option Bool) := do
  let graph ← (nestedShapes.introspectFunction {} drawShape).1.graph
  let document ← graph.toSchemaDocument (.ofBools true true true) "draw"
  let tool ← graph.toToolDocument (.initial .tool)
  return ((document.body.interpretation false).judge 9 document.body.whole drawDisc,
    (tool.parameters.interpretation false).judge 9 tool.parameters.whole drawDisc)

theorem judgeDrawDisc_eq : judgeDrawDisc = .ok (some true, some true) :=
  eq_ok_of_toOption (by decide +kernel)

/-- The nested shapes form a forest. -/
theorem nestedShapes_isForest : nestedShapes.IsForest where
  keys := by simp [Declarations.HasKeys, nestedShapes]
  acyclic := ⟨fun key => if key = "Shape" then 0 else if key = "Round" then 1 else 2, by decide⟩
  single := by decide
  subclasses := by decide

/-- Both documents of the function have exclusive choices and accept the call. -/
theorem drawShape_isExclusive : nestedShapes.IsForest ∧ ∃ graph document tool,
    (nestedShapes.introspectFunction {} drawShape).1.graph = .ok graph ∧
    graph.toSchemaDocument (.ofBools true true true) "draw" = .ok document ∧
    graph.toToolDocument (.initial .tool) = .ok tool ∧
    document.body.IsExclusive ∧ tool.parameters.IsExclusive ∧
    (document.body.interpretation false).Accepts document.body.whole drawDisc ∧
    (tool.parameters.interpretation false).Accepts tool.parameters.whole drawDisc := by
  have hjudge := judgeDrawDisc_eq
  rw [judgeDrawDisc] at hjudge
  rcases bind_eq_ok_iff.mp hjudge with ⟨graph, hgraph, hjudge⟩
  rcases bind_eq_ok_iff.mp hjudge with ⟨document, hdocument, hjudge⟩
  rcases bind_eq_ok_iff.mp hjudge with ⟨tool, htool, hjudge⟩
  have hverdicts := Prod.mk.inj (Except.ok.inj hjudge)
  have hexclusive := fun (flags : Flags) (strict : flags.strict.isTruthy = true) =>
    Declarations.isExclusive_of_strict nestedShapes_isForest rfl strict
      (Or.inr ⟨drawShape, hgraph⟩)
  exact ⟨nestedShapes_isForest, graph, document, tool, hgraph, hdocument, htool,
    (hexclusive _ rfl).1 _ _ hdocument, (hexclusive _ rfl).2 _ htool, ⟨9, hverdicts.1⟩,
    9, hverdicts.2⟩

end Schemata
