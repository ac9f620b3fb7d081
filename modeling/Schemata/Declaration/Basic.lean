import Schemata.Declaration.Forms

/-!
# Declarations

The classes and functions that types are described by: records with fields, plain
classes with annotated attributes, enumerations, and functions with parameters.
Classes have bases, and a class can be an attribute of another.

This file holds the declarations and the questions about them that need no type
hints: linearization of bases, subclasses, and what a name is defined as.
-/

namespace Schemata

/-- The value of an attribute or a default. -/
inductive AttributeValue where
  | literal (value : Json)
  /-- A member of an enumeration. -/
  | member (key name : String)
  /-- Several values that cannot change. -/
  | tuple (items : List Json)
  /-- An object without attributes. -/
  | object

/-- A field of a record, or an annotated attribute of a plain class. -/
structure Field where
  name : String
  hint : Hint
  /-- Whether a record that writes it has a class variable instead of a field. -/
  classVariable : Bool := false
  default : Option AttributeValue := none
  /-- Whether each object gets a default of its own. -/
  factory : Bool := false
  /-- Whether the field is a parameter when an object is made. -/
  init : Bool := true
  metadata : Table String Json := []

/-- The kinds of classes. -/
inductive ClassKind where
  | record
  | plain
  | enumeration
deriving DecidableEq

/-- A declared class. -/
structure ClassDecl where
  key : String
  name : String
  module : String := "app"
  qualname : String
  kind : ClassKind
  bases : List String := []
  annotations : List Annotation := []
  doc : Option String := none
  /-- Whether the class takes a type argument. -/
  generic : Bool := false
  /-- The class that it is an attribute of. -/
  nestedIn : Option String := none
  fields : List Field := []
  /-- What an enumeration writes as its members, with their values. -/
  members : List (String × Json) := []
  /-- The class of the language whose values the members are. -/
  mixin : Option String := none

/-- The kinds of parameters. -/
inductive ParameterKind where
  | ordinary
  /-- Takes all further positions or names. -/
  | collecting
deriving DecidableEq

/-- A parameter of a function. -/
structure Parameter where
  name : String
  hint : Option Hint := none
  kind : ParameterKind := .ordinary
  hasDefault : Bool := false

/-- A declared function. -/
structure FunctionDecl where
  key : String
  name : String
  module : String := "app"
  qualname : String
  parameters : List Parameter := []
  doc : Option String := none
  annotations : List Annotation := []
  /-- Whether its result is awaited. -/
  awaited : Bool := false
  nestedIn : Option String := none

/-- Classes in the order of definition, and functions, with the forms that their hints
are made of. -/
structure Declarations where
  classes : List ClassDecl := []
  functions : List FunctionDecl := []
  forms : Forms := {}

/-- Where the definition of a class is found among its ancestors. -/
inductive Ancestor where
  | declared (key : String)
  /-- A class of the language or its library. -/
  | foreign (name : String)
deriving DecidableEq

/-- The modules of the language whose classes are never read as declared types. -/
def foreignModules : List String :=
  ["builtins", "typing", "abc", "collections.abc", "enum"]

namespace Declarations

variable (ds : Declarations)

/-- The class of a key. -/
def class? (key : String) : Option ClassDecl :=
  ds.classes.find? (·.key == key)

/-- The function of a key. -/
def function? (key : String) : Option FunctionDecl :=
  ds.functions.find? (·.key == key)

/-- The keys of the direct subclasses in the order of definition. -/
def subclasses (key : String) : List String :=
  (ds.classes.filter (·.bases.contains key)).map (·.key)

/-- Whether a class is declared outside the modules of the language. -/
def isOwn (cls : ClassDecl) : Bool :=
  !foreignModules.contains cls.module

/-- Whether a class is the root of a hierarchy: declared outside the language, no
enumeration, with subclasses. -/
def isHierarchyRoot (cls : ClassDecl) : Bool :=
  cls.kind != .enumeration && isOwn cls && !(ds.subclasses cls.key).isEmpty

/-- The first base that is the root of a hierarchy. -/
def hierarchyParent? (cls : ClassDecl) : Option ClassDecl :=
  (cls.bases.filterMap ds.class?).find? ds.isHierarchyRoot

/-! ## Linearization -/

/-- The bases of a class, with those that its kind brings along. -/
def ancestorBases (cls : ClassDecl) : List Ancestor :=
  let declared := cls.bases.map Ancestor.declared
  let foreign : List Ancestor :=
    (match cls.mixin with
      | some name => [.foreign name]
      | none => []) ++
    (if cls.kind = .enumeration ∧ cls.bases.all (fun key =>
        (ds.class? key).all (·.kind != .enumeration)) then [.foreign "Enum"] else []) ++
    (if cls.generic then [.foreign "Generic"] else [])
  declared ++ foreign

/-- Merge linearizations: take the first head that stands in no tail, and go on
without it. -/
def merge : Nat → List (List Ancestor) → List Ancestor
  | 0, _ => []
  | budget + 1, lists =>
    let lists := lists.filter (!·.isEmpty)
    let heads := lists.filterMap List.head?
    match heads.find? fun head => lists.all fun list => !(list.drop 1).contains head with
    | some head =>
      head :: merge budget (lists.map fun list => if list.head? = some head then list.drop 1 else list)
    | none => []

/-- The class and its ancestors in the order in which attributes are looked up. -/
def linearize : Nat → String → List Ancestor
  | 0, _ => []
  | budget + 1, key =>
    match ds.class? key with
    | none => []
    | some cls =>
      let bases := ds.ancestorBases cls
      let lists := bases.map fun base =>
        match base with
        | .declared key => linearize budget key
        | .foreign name => [.foreign name]
      .declared key :: merge (lists.flatten.length + bases.length + 1) (lists ++ [bases])

/-- The class and its ancestors in the order in which attributes are looked up. -/
def ancestors (key : String) : List Ancestor :=
  ds.linearize (ds.classes.length + 1) key

/-- The declared ones among a class and its ancestors. -/
def lineage (key : String) : List ClassDecl :=
  (ds.ancestors key).filterMap fun ancestor =>
    match ancestor with
    | .declared key => ds.class? key
    | .foreign _ => none

/-! ## Definitions by name -/

/-- The class or function that is an attribute of a class or a module.  Of several with
one name the last counts, and functions come after classes. -/
def definition? (belongs : String → Option String → Bool) (name : String) : Option Hint :=
  let functions := ds.functions.filter fun f => f.name == name && belongs f.module f.nestedIn
  let classes := ds.classes.filter fun c => c.name == name && belongs c.module c.nestedIn
  match functions.getLast?, classes.getLast? with
  | some function, _ => some (.function function.key)
  | none, some cls => some (.declared cls.key)
  | none, none => none

/-- The class or function of a name in a module. -/
def moduleDefinition? (module name : String) : Option Hint :=
  ds.definition? (fun owner nestedIn => nestedIn.isNone && owner == module) name

/-- The class or function of a name in the body of a class. -/
def classDefinition? (cls : ClassDecl) (name : String) : Option Hint :=
  ds.definition? (fun _ nestedIn => nestedIn == some cls.key) name

end Declarations

end Schemata
