import Schemata.Declaration.Basic
import Schemata.Json.Parser

/-!
# Reading declarations

Declarations are given as a JSON object with the lists {lit}`classes` and
{lit}`functions`.  A hint is a text for a class or an object with one member that says
its form.  Hints are made in the order in which they are written, those inside a hint
before it.
-/

namespace Schemata

namespace Json

/-- The text that a value is. -/
def asText : Json → Except String String
  | .str text => .ok text
  | value => .error ("expected a text, got " ++ value.typeName)

/-- The text that a value is, or nothing for null. -/
def asText? : Json → Except String (Option String)
  | .null => .ok none
  | value => do return some (← value.asText)

/-- The items of an array; null has none. -/
def asItems : Json → Except String (List Json)
  | .null => .ok []
  | .arr items => .ok items
  | value => .error ("expected an array, got " ++ value.typeName)

/-- The members of an object; null has none. -/
def asMembers : Json → Except String (List (String × Json))
  | .null => .ok []
  | .obj members => .ok members
  | value => .error ("expected an object, got " ++ value.typeName)

/-- The text of a member. -/
def textMember (value : Json) (name : String) : Except String String :=
  (value.memberOrNull name).asText

/-- The text of a member, or a default when it is absent. -/
def textMemberD (value : Json) (name default : String) : Except String String := do
  return (← (value.memberOrNull name).asText?).getD default

/-- The items of a member. -/
def itemsMember (value : Json) (name : String) : Except String (List Json) :=
  (value.memberOrNull name).asItems

/-- Whether a member counts as true. -/
def flagMember (value : Json) (name : String) : Bool :=
  (value.memberOrNull name).isTruthy

/-- The value of a JSON text inside a text; null is null. -/
def asInner : Json → Except String Json
  | .null => .ok .null
  | value => do (Json.parse (← value.asText)).mapError (·.message)

end Json

/-- Read an annotation. -/
def Annotation.read (value : Json) : Except String Annotation := do
  match value.member? "str", value.member? "bytes" with
  | some content, _ => return .text (← content.asText)
  | none, some content => return .bytes (← content.asText)
  | none, none =>
    let name ← value.textMember "name"
    if value.flagMember "class_object" then return .classObject name
    else
      let attributes ← (value.memberOrNull "attrs").asMembers
      match name, attributes with
      | "Description", [("value", .str content)] => return .marker content
      | _, _ => return .object name attributes

/-- Read annotations. -/
def Annotation.readAll (value : Json) : Except String (List Annotation) := do
  (← value.asItems).mapM Annotation.read

namespace Hint

/-- The classes of the language that a text names. -/
def builtinNames : List String :=
  ["str", "bool", "int", "float", "bytes", "object", "complex", "type", "list", "tuple", "set",
    "frozenset", "dict"]

/-- The classes among the names of the typing module. -/
def typingClasses : List String :=
  ["Any", "Annotated", "ForwardRef", "Generic", "ParamSpec", "Protocol", "TypeVar",
    "TypeVarTuple", "SupportsAbs", "SupportsBytes", "SupportsComplex", "SupportsFloat",
    "SupportsIndex", "SupportsInt", "SupportsRound", "BinaryIO", "IO", "TextIO", "NewType",
    "ParamSpecArgs", "ParamSpecKwargs"]

/-- The name after the module of typing forms. -/
def typingName? (content : String) : Option String :=
  if "typing.".isPrefixOf content then some (String.ofList (content.toList.drop 7)) else none

/-- A name of the typing module. -/
def ofTypingName (name : String) : Hint :=
  if name == "Text" then .foreign "builtins" "str"
  else if name == "AnyStr" then .typeVar name "typing"
  else if typingClasses.contains name then .foreign "typing" name
  else .alias name

/-- The class or alias that a text names. -/
def ofName (content : String) : Hint :=
  if content == "none" then .nothing
  else if content == "any" then .foreign "typing" "Any"
  else if builtinNames.contains content then .foreign "builtins" content
  else
    match typingName? content with
    | some name => ofTypingName name
    | none => .foreign "collections.abc" content

/-- A step of the reading of hints. -/
abbrev Reader := StateT Forms (Except String)

/-- Carry out the making of a hint. -/
def make (making : Forms.Making Hint) : Reader Hint :=
  modifyGet making.run

/-- A generic class or alias with arguments. -/
def subscripted (content : String) (arguments : List Hint) : Reader Hint :=
  match typingName? content, arguments with
  | some "Union", hints => make (Forms.union hints)
  | some "Optional", [hint] => make (Forms.optional hint)
  | some "ClassVar", [hint] => make (Forms.classVar hint)
  | some name, hints => make (Forms.aliasOf name hints)
  | none, hints =>
    match ofName content with
    | .foreign module name => pure (.foreignOf module name hints)
    | hint => pure hint

/-- Different literals in order. -/
def distinctLiterals (values : List Json) : List Json :=
  values.foldl (fun known value =>
    if known.any (sameLiteral value) then known else known ++ [value]) []

/-- Read a hint that is written in a module, with a budget of nested hints. -/
def read (module : String) : Nat → Json → Reader Hint
  | 0, _ => throw "hints are nested too deeply"
  | _ + 1, .str name => return ofName name
  | budget + 1, json => do
    let all (name : String) : Reader (List Hint) := do
      (← json.itemsMember name).mapM (read module budget)
    match json with
    | .obj ((_, _) :: _) =>
      if let some name := json.member? "g" then
        let arguments ← all "args"
        let dots := if json.flagMember "ellipsis" then [Hint.ellipsis] else []
        subscripted (← name.asText) (arguments ++ dots)
      else if let some content := json.member? "optional" then
        make (Forms.optional (← read module budget content))
      else if (json.member? "union").isSome then make (Forms.union (← all "union"))
      else if (json.member? "pipe").isSome then make (Forms.barUnion (← all "pipe"))
      else if let some content := json.member? "annotated" then
        let base ← read module budget content
        make (Forms.annotated base (← Annotation.readAll (json.memberOrNull "meta")))
      else if let some key := json.member? "class" then return .declared (← key.asText)
      else if let some key := json.member? "generic" then
        make (Forms.declaredOf (← key.asText) (← all "args"))
      else if let some content := json.member? "forward" then return .text (← content.asText)
      else if let some content := json.member? "classvar" then
        if content.isNull then return .alias "ClassVar"
        else make (Forms.classVar (← read module budget content))
      else if let some name := json.member? "typevar" then
        make (Forms.typeVar (← name.asText) module)
      else if let some name := json.member? "newtype" then
        make (Forms.newType (← name.asText) module)
      else if (json.member? "literal").isSome then
        return .literal (distinctLiterals (← json.itemsMember "literal"))
      else if let some key := json.member? "opaque" then
        return .foreignObject (← key.asText) (← json.textMember "repr")
          (← (json.memberOrNull "module").asText?) (← (json.memberOrNull "qualname").asText?)
      else throw "a hint has an unknown form"
    | _ => throw "expected a hint"

end Hint

namespace Declarations

mutual

/-- How many values a JSON value holds one inside the other. -/
def nesting : Json → Nat
  | .arr items => nestingOfItems items + 1
  | .obj members => nestingOfMembers members + 1
  | _ => 1

/-- The greatest nesting in a list. -/
def nestingOfItems : List Json → Nat
  | [] => 0
  | item :: items => max (nesting item) (nestingOfItems items)

/-- The greatest nesting among members. -/
def nestingOfMembers : List (String × Json) → Nat
  | [] => 0
  | (_, value) :: members => max (nesting value) (nestingOfMembers members)

end

/-- Read a hint that is written in a module. -/
def readHint (module : String) (value : Json) : Hint.Reader Hint :=
  Hint.read module (nesting value + 1) value

/-- Read the value of an attribute or a default. -/
def readValue : Json → Except String AttributeValue
  | .str text => do return .literal (← (Json.str text).asInner)
  | value =>
    match value.member? "enum", value.member? "tuple" with
    | some key, _ => do return .member (← key.asText) (← value.textMember "member")
    | none, some items => do return .tuple (← items.asItems)
    | none, none => .ok .object

/-- Read the default of a field or parameter, which may be absent. -/
def readDefault (value : Json) : Except String (Option AttributeValue) := do
  match value.memberOrNull "default" with
  | .null => return none
  | content => return some (← readValue content)

/-- Read a field that is written in a module. -/
def readField (module : String) (value : Json) : Hint.Reader Field := do
  let hint := value.memberOrNull "hint"
  return {
    name := ← value.textMember "name"
    hint := ← readHint module hint
    classVariable := (hint.member? "classvar").isSome
    default := ← readDefault value
    factory := value.flagMember "factory"
    init := match value.memberOrNull "init" with
      | .null => true
      | init => init.isTruthy
    metadata := ← (value.memberOrNull "metadata").asMembers }

/-- Read the kind of a class. -/
def readKind : String → Except String ClassKind
  | "dataclass" => .ok .record
  | "plain" => .ok .plain
  | "enum" => .ok .enumeration
  | kind => .error ("unknown kind of class " ++ kind)

/-- Read a member of an enumeration. -/
def readMember (value : Json) : Except String (String × Json) := do
  match ← value.asItems with
  | [name, content] => return (← name.asText, content)
  | _ => .error "a member of an enumeration has a name and a value"

/-- Read a class. -/
def readClass (value : Json) : Hint.Reader ClassDecl := do
  let name ← value.textMember "name"
  let module ← value.textMemberD "module" "app"
  let fields ← (← value.itemsMember "fields").mapM (readField module)
  return {
    key := ← value.textMemberD "key" name
    name, module
    qualname := ← value.textMemberD "qualname" name
    kind := ← readKind (← value.textMember "kind")
    bases := ← (← value.itemsMember "bases").mapM fun base => base.asText
    annotations := ← Annotation.readAll (value.memberOrNull "annotations")
    doc := ← (value.memberOrNull "doc").asText?
    generic := value.flagMember "generic"
    nestedIn := ← (value.memberOrNull "nested_in").asText?
    fields
    members := ← (← value.itemsMember "members").mapM fun member => readMember member
    mixin := ← (value.memberOrNull "mixin").asText? }

/-- Read a parameter of a function in a module. -/
def readParameter (module : String) (value : Json) : Hint.Reader Parameter := do
  let hint ← match value.memberOrNull "hint" with
    | .null => pure none
    | content => do pure (some (← readHint module content))
  let kind := match value.memberOrNull "kind" with
    | .str "var_pos" | .str "var_kw" => ParameterKind.collecting
    | _ => .ordinary
  return {
    name := ← value.textMember "name"
    hint, kind
    hasDefault := !(value.memberOrNull "default").isNull }

/-- Read a function. -/
def readFunction (value : Json) : Hint.Reader FunctionDecl := do
  let name ← value.textMember "name"
  let module ← value.textMemberD "module" "app"
  let parameters ← (← value.itemsMember "params").mapM (readParameter module)
  return {
    key := ← value.textMemberD "key" name
    name, module
    qualname := ← value.textMemberD "qualname" name
    parameters
    doc := ← (value.memberOrNull "doc").asText?
    annotations := ← Annotation.readAll (value.memberOrNull "annotations")
    awaited := value.flagMember "async"
    nestedIn := ← (value.memberOrNull "nested_in").asText? }

/-- Read declarations. -/
def read (value : Json) : Except String Declarations := do
  let (classes, forms) ← ((← value.itemsMember "classes").mapM readClass).run {}
  let (functions, forms) ← ((← value.itemsMember "functions").mapM readFunction).run forms
  return { classes, functions, forms }

/-- Read a hint beside declarations, which keep the forms that it is made of. -/
def readBeside (ds : Declarations) (value : Json) : Except String (Hint × Declarations) := do
  let (hint, forms) ← (readHint "app" value).run ds.forms
  return (hint, { ds with forms })

end Declarations

end Schemata
