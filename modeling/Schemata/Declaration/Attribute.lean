import Schemata.Declaration.Enumeration

/-!
# Attributes

What a point and a name after a class, a function or a member of an enumeration stand
for.  A class has the classes and functions that are defined in it, its members, and
the defaults of its fields, also those of its ancestors.
-/

namespace Schemata

/-- A literal as a hint. -/
def Hint.ofLiteral : Json → Hint
  | .null => .nothing
  | .str content => .text content
  | other => .value other

/-- An optional text as a hint. -/
def Hint.ofText? : Option String → Hint
  | some content => .text content
  | none => .nothing

namespace Declarations

variable (ds : Declarations)

/-- The value of an attribute of a class as a hint. -/
def valueHint (cls : ClassDecl) (name : String) : AttributeValue → Hint
  | .literal value => .ofLiteral value
  | .member key member => (ds.memberHint? key member).getD (.member key member)
  | .tuple items => .tuple (items.map .ofLiteral)
  | .object => .foreignObject (cls.key ++ "." ++ name) "<object object>" none none

/-- What the body of a class gives to an attribute. -/
def ownValue? (cls : ClassDecl) (name : String) : Option Hint :=
  match ds.classDefinition? cls name with
  | some hint => some hint
  | none =>
    match ds.memberHint? cls.key name, Table.find? cls.members name with
    | some hint, _ => some hint
    | none, some value => some (.ofLiteral value)
    | none, none =>
      (cls.fields.reverse.find? (·.name == name)).bind fun field =>
        if field.factory then none else field.default.map (ds.valueHint cls name)

/-- The value of an attribute of a class, its own or that of the first ancestor. -/
def value? (key name : String) : Option Hint :=
  (ds.lineage key).findSome? fun cls => ds.ownValue? cls name

/-- What stands for an attribute's value as a JSON literal, or null. -/
def literalOf : Hint → Json
  | .text content => .str content
  | .value value => if value.isContainer then .null else value
  | .member _ name => .str name
  | _ => .null

/-- The class of what a hint stands for. -/
def classOf (hint : Hint) : Hint :=
  match hint with
  | .nothing => Hint.noneType
  | .text _ => .foreign "builtins" "str"
  | .value value => .foreign "builtins" value.typeName
  | .tuple _ => .foreign "builtins" "tuple"
  | .ellipsis => .foreign "builtins" "ellipsis"
  | .function _ => .foreign "builtins" "function"
  | .member key _ => .declared key
  | .declared key =>
    if (ds.class? key).any (·.kind = .enumeration) then .foreign "enum" "EnumType"
    else .foreign "builtins" "type"
  | _ => .foreign "builtins" "type"

/-- The class that all others descend from. -/
def rootClass : Hint :=
  .foreign "builtins" "object"

/-- An attribute of a class. -/
def classAttribute? (cls : ClassDecl) (name : String) : Option Hint :=
  match name with
  | "__name__" => some (.text cls.name)
  | "__qualname__" => some (.text cls.qualname)
  | "__module__" => some (.text cls.module)
  | "__doc__" => some (.ofText? cls.doc)
  | "__bases__" =>
    some (.tuple (if cls.bases.isEmpty then [rootClass] else cls.bases.map .declared))
  | "__mro__" =>
    some (.tuple ((ds.lineage cls.key).map (fun cls => .declared cls.key) ++ [rootClass]))
  | "__dict__" | "__annotations__" => some (.value (.obj []))
  | "__members__" =>
    if cls.kind = .enumeration then some (.value (.obj [])) else ds.value? cls.key name
  | name => ds.value? cls.key name

/-- An attribute of a function. -/
def functionAttribute? (function : FunctionDecl) (name : String) : Option Hint :=
  match name with
  | "__name__" => some (.text function.name)
  | "__qualname__" => some (.text function.qualname)
  | "__module__" => some (.text function.module)
  | "__doc__" => some (.ofText? function.doc)
  | _ => none

/-- An attribute of a member of an enumeration. -/
def memberAttribute? (cls : ClassDecl) (member name : String) : Option Hint :=
  match name with
  | "name" | "_name_" => some (.text member)
  | "value" | "_value_" => (ds.memberValue? cls.key member).map .ofLiteral
  | "__module__" => some (.text cls.module)
  | "__doc__" => some (.ofText? cls.doc)
  | "__objclass__" => some (.declared cls.key)
  | name => ds.value? cls.key name

/-- What the language says about its classes, which is prose and no expression. -/
def languageDoc : Hint :=
  .text "A class of the language."

/-- An attribute of what a hint stands for. -/
def attribute? (hint : Hint) (name : String) : Option Hint :=
  if name == "__class__" then some (ds.classOf hint)
  else
    match hint with
    | .text _ | .value _ | .tuple _ => if name == "__doc__" then some languageDoc else none
    | .declared key => (ds.class? key).bind fun cls => ds.classAttribute? cls name
    | .function key => (ds.function? key).bind fun function => functionAttribute? function name
    | .member key member => (ds.class? key).bind fun cls => ds.memberAttribute? cls member name
    | .foreign module className =>
      match name with
      | "__name__" | "__qualname__" => some (.text className)
      | "__module__" => some (.text module)
      | "__doc__" => if hint.isNoneType then some .nothing else some languageDoc
      | _ => none
    | .foreignObject _ _ module qualname =>
      match name with
      | "__name__" | "__qualname__" => qualname.map .text
      | "__module__" => module.map .text
      | "__doc__" => some languageDoc
      | _ => none
    | _ => none

/-- An attribute of a module. -/
def moduleAttribute? (module name : String) : Option Hint :=
  match ds.moduleDefinition? module name, name with
  | some hint, _ => some hint
  | none, "__name__" => some (.text module)
  | none, "__doc__" | none, "__spec__" | none, "__loader__" | none, "__package__" => some .nothing
  | none, _ => none

end Declarations

end Schemata
