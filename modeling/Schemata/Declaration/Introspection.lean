import Schemata.Declaration.Display
import Schemata.Declaration.Docstring
import Schemata.Declaration.Documentation
import Schemata.Declaration.Fields
import Schemata.Introspection.Outcome

/-!
# Type graphs of declarations

Scalars, lists and maps are written where they are used.  An enumeration, a hierarchy
and every other declared class become named nodes, and a hint of any other kind becomes
an empty object with a warning.  A class takes its qualified name as identifier, and a
subclass of a hierarchy the names of its parent and itself.

The functions that read one hint take two readings: that of the hints inside it, and that
of the hints in the body of a class.  {lit}`within` closes the first loop with a budget of
hints inside one another, and {lit}`reference` the second one with a budget of classes.
-/

namespace Schemata

namespace Hint

/-- The class `str`, which stands for hints that are not given. -/
def str : Hint := .foreign "builtins" "str"

/-- The hint that allows everything. -/
def any : Hint := .foreign "typing" "Any"

/-- The scalar that a hint stands for. -/
def primitive? : Hint → Option PrimitiveKind
  | .foreign "builtins" "str" => some .string
  | .foreign "builtins" "bool" => some .boolean
  | .foreign "builtins" "int" => some .int
  | .foreign "builtins" "float" => some .double
  | _ => none

/-- The arguments of a generic type. -/
def arguments : Hint → List Hint
  | .foreignOf _ _ arguments | .aliasOf _ arguments | .declaredOf _ arguments => arguments
  | _ => []

/-- The class that a generic type comes from: its module and name, where the aliases of
the typing module have a module of their own. -/
def origin? : Hint → Option (String × String)
  | .foreign module name | .foreignOf module name _ => some (module, name)
  | .alias name | .aliasOf name _ => some ("typing", name)
  | _ => none

/-- The classes whose values are written as arrays. -/
def listOrigins : List (String × String) :=
  (["list", "tuple", "set", "frozenset"].map ("builtins", ·)) ++
    (["Sequence", "MutableSequence", "Set", "MutableSet", "Iterable", "Collection"].map
      ("collections.abc", ·)) ++
    (["List", "Tuple", "Set", "FrozenSet", "Sequence", "MutableSequence", "AbstractSet",
      "MutableSet", "Iterable", "Collection"].map ("typing", ·))

/-- The classes whose values are written as objects with any names. -/
def mapOrigins : List (String × String) :=
  [("builtins", "dict"), ("collections.abc", "Mapping"), ("collections.abc", "MutableMapping"),
    ("typing", "Dict"), ("typing", "Mapping"), ("typing", "MutableMapping")]

/-- Whether a hint comes from one of the given classes. -/
def comesFrom (hint : Hint) (origins : List (String × String)) : Bool :=
  hint.origin?.any origins.contains

end Hint

/-- What an introspection of declarations is about. -/
structure DeclarationIntrospection where
  declarations : Declarations
  settings : IntrospectionSettings

namespace DeclarationIntrospection

/-- A step of an introspection of declarations. -/
abbrev Step := Session.Step Hint Forms

/-- The reading of the hints inside one, or in the body of a class. -/
abbrev Below := Hint → Bool → Step TypeRef

variable (c : DeclarationIntrospection)

/-- The first description among annotations. -/
def describe (annotations : List Annotation) : Step (Option String) :=
  Attempt.ofExcept (c.settings.describe annotations)

/-- The identifier of a class, which it owns from now on. -/
def typeId (cls : ClassDecl) : Step TypeId := do
  let session ← Attempt.get
  match session.ids.find? (.declared cls.key) with
  | some id => return id
  | none =>
    let id := match c.declarations.hierarchyParent? cls with
      | some parent => Session.qualify parent.name cls.name
      | none => cls.qualname
    Session.claim c.declarations.display (.declared cls.key) id (some cls.module)

/-- The identifier of an unsupported hint, which it owns from now on. -/
def hintId (hint : Hint) : Step TypeId := do
  let session ← Attempt.get
  match session.ids.find? hint with
  | some id => return id
  | none =>
    Session.claim c.declarations.display hint (c.declarations.hintName hint)
      (c.declarations.hintModule? hint)

/-- The reference to the empty object that stands for an unsupported hint. -/
def unsupported (hint : Hint) (nullable : Bool) : Step TypeRef := do
  if !hint.isKey then Attempt.fail .wrongType
  let id ← c.hintId hint
  Session.report ("Unsupported type hint " ++ c.declarations.display hint ++
    ", emitting an empty object")
  Session.refer hint id nullable (pure (some (.object { name := id })))

/-! ## Classes -/

/-- The node of an enumeration. -/
def enumNode (cls : ClassDecl) : Step (Option Node) := do
  let description ← c.describe cls.annotations
  return some (.enumeration {
    name := cls.name
    entries := (c.declarations.canonicalMembers cls).map (·.1)
    description })

/-- The identifier of a direct subclass. -/
def subtype (below : Below) (key : String) : Step TypeId := do
  let ref ← below (.declared key) false
  match ref.id? with
  | some id => return id
  | none => Attempt.fail .missingAttribute

/-- The node of the root of a hierarchy. -/
def polymorphicNode (below : Below) (cls : ClassDecl) : Step (Option Node) := do
  let ids ← Attempt.mapEach (c.declarations.subclasses cls.key) (subtype below)
  let description ← c.describe cls.annotations
  return some (.polymorphic {
    base := cls.name
    variants := ids.map fun id => ⟨id, .named id false⟩
    discriminator := some (c.settings.discriminator
      (Table.ofEntries (ids.map fun id => (id, id))))
    description })

/-- The property of a record's field. -/
def fieldProperty (below : Below) (cls : ClassDecl) (hints : Table String Hint) (field : Field) :
    Step (Property TypeRef) := do
  let hint := (hints.find? field.name).getD .any
  let description ← c.describe hint.metadata
  let description := match description, field.metadata.find? "description" with
    | none, some (.str text) => some text
    | description, _ => description
  let type ← below hint false
  let default := field.default.map fun value =>
    Declarations.literalOf (c.declarations.valueHint cls field.name value)
  return {
    name := field.name, type, description
    hasDefault := field.default.isSome || field.factory
    default := if field.factory then .null else default.getD .null }

/-- The property of an annotated attribute of a plain class. -/
def attributeProperty (below : Below) (cls : ClassDecl) (entry : String × Hint) :
    Step (Property TypeRef) := do
  let type ← below entry.2 false
  let description ← c.describe entry.2.metadata
  let value := c.declarations.value? cls.key entry.1
  return {
    name := entry.1, type, description
    hasDefault := value.isSome
    default := (value.map Declarations.literalOf).getD .null }

/-- Whether an annotated attribute of a plain class is a property of its objects. -/
def isProperty (entry : String × Hint) : Bool :=
  let isClassVar := match entry.2.unwrap.1 with
    | .classVar _ => true
    | _ => false
  !isClassVar && !"_".isPrefixOf entry.1

/-- The properties of a class. -/
def classProperties (below : Below) (cls : ClassDecl) : Step (List (Property TypeRef)) := do
  let hints ← Session.onMemory (c.declarations.hints cls.key)
  match c.declarations.fields? cls.key with
  | some fields => Attempt.mapEach (fields.filter (·.init)) (c.fieldProperty below cls hints)
  | none => Attempt.mapEach (hints.filter isProperty) (c.attributeProperty below cls)

/-- The property that holds the fixed tag of a subtype. -/
def tagProperty (id : TypeId) : Property TypeRef :=
  { name := c.settings.discriminatorProperty
    type := .inline (.primitive .string none) false
    default := .str id }

/-- The tag that a class begins with when it is a subtype.  An array or an object is no
name of a property. -/
def tag? (cls : ClassDecl) (id : TypeId) : Step (Option (Property TypeRef)) :=
  if (c.declarations.hierarchyParent? cls).isNone then pure none
  else if c.settings.discriminatorProperty.isContainer then Attempt.fail .wrongType
  else pure (some (c.tagProperty id))

/-- The node of a class.  A subtype begins with its tag, in place of a property of that
name, and it requires the tag. -/
def objectNode (below : Below) (cls : ClassDecl) (id : TypeId) : Step (Option Node) := do
  let tag ← c.tag? cls id
  let properties ← c.classProperties below cls
  let own := match tag with
    | some tag => properties.filter (·.name != tag.name)
    | none => properties
  let description ← c.describe cls.annotations
  return some (.object {
    name := cls.name
    properties := tag.toList ++ own
    required := tag.toList.map (·.name) ++ (own.filter (!·.hasDefault)).map (·.name)
    description })

/-- The reference to a class. -/
def classRef (below : Below) (cls : ClassDecl) (nullable : Bool) : Step TypeRef := do
  let hint := Hint.declared cls.key
  if cls.kind = .enumeration then
    Session.refer hint (← c.typeId cls) nullable (c.enumNode cls)
  else if c.declarations.isHierarchyRoot cls then
    Session.refer hint (← c.typeId cls) nullable (c.polymorphicNode below cls)
  else if Declarations.isOwn cls then do
    let id ← c.typeId cls
    Session.refer hint id nullable (c.objectNode below cls id)
  else c.unsupported hint nullable

/-! ## Hints -/

/-- The reference to a hint that becomes a named node. -/
def namedRef (below : Below) (hint : Hint) (nullable : Bool) : Step TypeRef := do
  let session ← Attempt.get
  match session.cached? hint nullable with
  | some ref => return ref
  | none =>
    match hint with
    | .declared key =>
      match c.declarations.class? key with
      | some cls => c.classRef below cls nullable
      | none => c.unsupported hint nullable
    | _ => c.unsupported hint nullable

/-- One layer of the reading of a hint, given that of the hints inside it and that of the
hints in the body of a class. -/
def layer (inside below : Below) : Below := fun declaration nullable =>
  let hint := declaration.unwrap.1
  match hint with
  | .union _ members =>
    let others := members.filter (!·.isNoneType)
    let nullable := nullable || others.length < members.length
    match others with
    | [only] => inside only nullable
    | _ => c.unsupported hint nullable
  | _ =>
    match hint.primitive? with
    | some kind => pure (.inline (.primitive kind none) nullable)
    | none =>
      if !hint.isKey then Attempt.fail .wrongType
      else if hint.comesFrom Hint.listOrigins then do
        let element ← inside (hint.arguments.headD .str) false
        return .inline (.list element none) nullable
      else if hint.comesFrom Hint.mapOrigins then do
        let (key, value) := match hint.arguments with
          | [key, value] => (key, value)
          | _ => (.str, .str)
        let keyRef ← inside key false
        let valueRef ← inside value false
        return .inline (.map keyRef valueRef none) nullable
      else c.namedRef below hint nullable

/-- The reference to a hint, with a budget of hints inside one another. -/
def within (below : Below) : Nat → Below
  | 0 => fun _ _ => Attempt.fail .endless
  | depth + 1 => c.layer (within below depth) below

/-- The reference to a hint, with a budget of classes inside one another.  A hint leaves
room for the text that stands for arguments that are not given. -/
def reference : Nat → Below
  | 0 => fun _ _ => Attempt.fail .endless
  | budget + 1 => fun hint => c.within (reference budget) (hint.depth + 1) hint

/-- A budget for all classes: no class is read inside itself. -/
def budget : Nat :=
  c.declarations.classes.length + 1

/-- The reference to a hint. -/
def below : Below :=
  c.reference c.budget

/-! ## Functions -/

/-- The property of a parameter. -/
def parameterProperty (below : Below) (hints : Table String Hint) (parameter : Parameter) :
    Step (Property TypeRef) := do
  let hint := (hints.find? parameter.name).getD .str
  let type ← below hint false
  let description ← c.describe hint.metadata
  return { name := parameter.name, type, description, hasDefault := parameter.hasDefault }

/-- Whether a parameter is one that callers give by its own. -/
def isGiven (parameter : Parameter) : Bool :=
  parameter.kind = .ordinary && parameter.name != "self" && parameter.name != "cls"

/-- The node of something that is called. -/
def callableNode (below : Below) (name : String)
    (hints : Declarations.Reading (Table String Hint)) (parameters : List Parameter)
    (annotations : List Annotation) (doc : Option String) : Step (Option Node) := do
  let hints ← Session.onMemory hints
  let given := parameters.filter isGiven
  let properties ← Attempt.mapEach given (c.parameterProperty below hints)
  let marked ← c.describe annotations
  let description := match marked with
    | some text => some text
    | none => doc.bind Docstring.summary?
  return some (.object {
    name
    properties
    required := (given.filter (!·.hasDefault)).map fun parameter => parameter.name
    description })

/-- The reference to the node of something that is called. -/
def callableRef (hint : Hint) (name module : String)
    (node : Step (Option Node)) : Step TypeRef := do
  let id ← Session.claim c.declarations.display hint name (some module)
  let _ ← Session.register id node
  return .named id false

/-- Read the hints of a function's parameters. -/
def functionHints (function : FunctionDecl) : Declarations.Reading (Table String Hint) :=
  function.parameters.foldlM (fun table parameter => do
    match parameter.hint with
    | some hint =>
      let hint ← c.declarations.typeOf { module := function.module } hint
      return table.put parameter.name hint
    | none => return table) []

/-- The parameters that the class of every enumeration takes. -/
def enumParameters : List Parameter :=
  { name := "value" } ::
    ["names", "module", "qualname", "type", "start", "boundary"].map fun name =>
      { name, hasDefault := true }

/-- The parameters of a function that is called on an object. -/
def boundParameters : List Parameter → List Parameter
  | first :: rest => if first.kind = .collecting then first :: rest else rest
  | [] => []

/-- The parameters that the body of a class makes its objects with: those of a function
that it defines for that, or the fields of a record. -/
def bodyParameters? (cls : ClassDecl) : Option (List Parameter) :=
  match c.declarations.classDefinition? cls "__init__" with
  | some (.function key) =>
    (c.declarations.function? key).map fun function => boundParameters function.parameters
  | _ =>
    if cls.kind = .record then
      (c.declarations.fields? cls.key).map fun fields =>
        (fields.filter (·.init)).map fun field =>
          { name := field.name, hasDefault := field.default.isSome || field.factory }
    else none

/-- The parameters that make an object of a class, which are those of its first ancestor
that says so. -/
def classParameters (cls : ClassDecl) : List Parameter :=
  if cls.kind = .enumeration then enumParameters
  else ((c.declarations.lineage cls.key).findSome? c.bodyParameters?).getD []

end DeclarationIntrospection

namespace Declarations

variable (ds : Declarations)

/-- The type graph of a hint, and the forms that are in use after it. -/
def introspect (settings : IntrospectionSettings) (hint : Hint) : Introspected × Forms :=
  let c : DeclarationIntrospection := { declarations := ds, settings }
  Session.introspect ds.forms (c.below hint false)

/-- The type graph of a function's parameters, and the forms that are in use after it. -/
def introspectFunction (settings : IntrospectionSettings) (function : FunctionDecl) :
    Introspected × Forms :=
  let c : DeclarationIntrospection := { declarations := ds, settings }
  if function.awaited then
    ({ graph := .error (.awaitedFunction function.name), warnings := [] }, ds.forms)
  else
    Session.introspect ds.forms (c.callableRef (.function function.key) function.name
      function.module (c.callableNode c.below function.name (c.functionHints function)
        function.parameters function.annotations (ds.functionDoc? function)))

/-- The type graph of the parameters that make an object of a class, and the forms that
are in use after it. -/
def introspectConstructor (settings : IntrospectionSettings) (cls : ClassDecl) :
    Introspected × Forms :=
  let c : DeclarationIntrospection := { declarations := ds, settings }
  Session.introspect ds.forms (c.callableRef (.declared cls.key) cls.name cls.module
    (c.callableNode c.below cls.name (ds.hints cls.key) (c.classParameters cls)
      cls.annotations (ds.doc? cls.key)))

end Declarations

end Schemata
