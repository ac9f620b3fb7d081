import Schemata.Attempt
import Schemata.Declaration.Display
import Schemata.Declaration.Value
import Schemata.Expression.Parser

/-!
# Reading annotations

The text of an annotation is an expression.  A name in it stands for a class or function
of the module that holds the annotation, or for an attribute of the class whose body
holds it, or for a class or function of the language; a name that stands for nothing is
an error.  When the expression stands for a text, that text is read in turn, unless it
is being read already.

The forward references inside a hint are read with it.  Annotations of a class are read
anew each time; a function takes a forward reference as it was last read.
-/

namespace Schemata

/-- Where an annotation stands. -/
structure Scope where
  module : String
  /-- The class whose body holds the annotation. -/
  owner : Option ClassDecl := none

namespace Declarations

/-- A step of the reading of annotations. -/
abbrev Reading := Attempt Forms

/-- Carry out the making of a hint. -/
def making {α : Type} (make : Forms.Making α) : Reading α := fun forms =>
  let (value, forms) := make.run forms
  (.ok value, forms)

/-! ## Names -/

/-- The classes of the language. -/
def languageClasses : List String :=
  ["ArithmeticError", "AssertionError", "AttributeError", "BaseException", "BaseExceptionGroup",
    "BlockingIOError", "BrokenPipeError", "BufferError", "BytesWarning", "ChildProcessError",
    "ConnectionAbortedError", "ConnectionError", "ConnectionRefusedError",
    "ConnectionResetError", "DeprecationWarning", "EOFError", "EncodingWarning", "Exception",
    "ExceptionGroup", "FileExistsError", "FileNotFoundError", "FloatingPointError",
    "FutureWarning", "GeneratorExit", "ImportError", "ImportWarning", "IndentationError",
    "IndexError", "InterruptedError", "IsADirectoryError", "KeyError", "KeyboardInterrupt",
    "LookupError", "MemoryError", "ModuleNotFoundError", "NameError", "NotADirectoryError",
    "NotImplementedError", "OSError", "OverflowError", "PendingDeprecationWarning",
    "PermissionError", "ProcessLookupError", "RecursionError", "ReferenceError",
    "ResourceWarning", "RuntimeError", "RuntimeWarning", "StopAsyncIteration", "StopIteration",
    "SyntaxError", "SyntaxWarning", "SystemError", "SystemExit", "TabError", "TimeoutError",
    "TypeError", "UnboundLocalError", "UnicodeDecodeError", "UnicodeEncodeError",
    "UnicodeError", "UnicodeTranslateError", "UnicodeWarning", "UserWarning", "ValueError",
    "Warning", "ZeroDivisionError", "bool", "bytearray", "bytes", "classmethod", "complex",
    "dict", "enumerate", "filter", "float", "frozenset", "int", "list", "map", "memoryview",
    "object", "property", "range", "reversed", "set", "slice", "staticmethod", "str", "super",
    "tuple", "type", "zip"]

/-- The classes of the language that take arguments. -/
def genericClasses : List String :=
  ["list", "tuple", "set", "frozenset", "dict", "type", "enumerate", "BaseExceptionGroup",
    "ExceptionGroup"]

/-- The functions of the language. -/
def languageFunctions : List String :=
  ["abs", "aiter", "all", "anext", "any", "ascii", "bin", "breakpoint", "callable", "chr",
    "compile", "delattr", "dir", "divmod", "eval", "exec", "format", "getattr", "globals",
    "hasattr", "hash", "hex", "id", "input", "isinstance", "issubclass", "iter", "len", "locals",
    "max", "min", "next", "oct", "open", "ord", "pow", "print", "repr", "round", "setattr",
    "sorted", "sum", "vars"]

/-- What a name stands for in the language. -/
def languageName? (name : String) : Option Hint :=
  if languageClasses.contains name then some (.foreign "builtins" name)
  else if name == "EnvironmentError" || name == "IOError" then some (.foreign "builtins" "OSError")
  else if languageFunctions.contains name then
    some (.foreignObject name ("<built-in function " ++ name ++ ">")
      (some (if name == "open" then "io" else "builtins")) (some name))
  else if name == "Ellipsis" then some .ellipsis
  else if name == "NotImplemented" then some (.foreignObject name name none none)
  else if name == "__debug__" then some (.value (.bool true))
  else none

variable (ds : Declarations)

/-- What a name stands for in the body of a class. -/
def bodyName? (cls : ClassDecl) (name : String) : Option Hint :=
  match ds.ownValue? cls name, name with
  | some hint, _ => some hint
  | none, "__module__" => some (.text cls.module)
  | none, _ => none

/-- What a name stands for. -/
def lookup (scope : Scope) (name : String) : Except Error Hint :=
  match ds.moduleAttribute? scope.module name with
  | some hint => .ok hint
  | none =>
    match scope.owner.bind fun cls => ds.bodyName? cls name with
    | some hint => .ok hint
    | none =>
      match languageName? name with
      | some hint => .ok hint
      | none => .error (.unresolvedName name)

/-! ## Expressions -/

/-- A member of an enumeration in brackets after it. -/
def memberNamed (key : String) (index : Hint) : Except Error Hint :=
  match ds.textOf? index with
  | some name =>
    match ds.memberHint? key name with
    | some hint => .ok hint
    | none => .error .unknownMember
  | none => .error (if index.isKey then .unknownMember else .wrongType)

/-- Refuse texts that are no expressions. -/
def checkTexts (hints : List Hint) : Reading Unit :=
  Attempt.forEach hints fun hint =>
    match hint with
    | .text content => Attempt.ofExcept ((Expression.ofText content).map fun _ => ())
    | _ => pure ()

/-- A hint with another one in brackets after it. -/
def subscript (base index : Hint) : Reading Hint :=
  let items := match index with
    | .tuple items => items
    | hint => [hint]
  let arguments := items.map fun hint => ((ds.textOf? hint).map .text).getD hint
  match base with
  | .foreign "builtins" name =>
    if genericClasses.contains name then pure (.foreignOf "builtins" name arguments)
    else Attempt.fail .wrongType
  | .declared key =>
    match ds.class? key with
    | none => Attempt.fail .wrongType
    | some cls =>
      if cls.kind = .enumeration then Attempt.ofExcept (ds.memberNamed key index)
      else if (ds.lineage key).any (·.generic) then do
        checkTexts arguments
        if cls.generic && arguments.length == 1 then making (Forms.declaredOf key arguments)
        else Attempt.fail .wrongType
      else Attempt.fail .wrongType
  | base => Attempt.ofExcept (ds.partOf base index)

/-- A new object of a class. -/
def newObject (cls : ClassDecl) : Reading Hint := do
  let number ← making Forms.number
  return .foreignObject ("object " ++ toString number)
    ("<" ++ cls.module ++ "." ++ cls.qualname ++ " object>") (some cls.module) none

/-- Whether objects of a class are made without arguments and by nothing but their class. -/
def isBare (cls : ClassDecl) : Bool :=
  (ds.lineage cls.key).all fun cls =>
    cls.kind = .plain && (ds.classDefinition? cls "__init__").isNone

/-- What a class of the language makes without arguments. -/
def emptyValue? : String → Option Hint
  | "str" => some (.text "")
  | "int" => some (.value (.int 0))
  | "float" => some (.value (.float (.zero false)))
  | "bool" => some (truth false)
  | "tuple" => some (.tuple [])
  | "list" => some (.value (.arr []))
  | "dict" | "set" => some (.value (.obj []))
  | _ => none

/-- The member of an enumeration that has a value. -/
def memberOf (cls : ClassDecl) (argument : Hint) : Except Error Hint :=
  match argument with
  | .member key name =>
    if key == cls.key then .ok (.member key name)
    else .error (.invalidMember (ds.memberDisplay key name) cls.qualname)
  | .nothing => found .null
  | .text content => found (.str content)
  | .value content => found content
  | _ => .error .wrongType
where
  /-- The member that has a literal as its value. -/
  found (content : Json) : Except Error Hint :=
    match List.find? (·.2.same content) (ds.canonicalMembers cls) with
    | some member => .ok (.member cls.key member.1)
    | none => .error (.invalidMember content.literalDisplay cls.qualname)

/-- A hint that is called. -/
def called (callee : Hint) (arguments : List Hint) : Reading Hint :=
  match callee, arguments with
  | .foreign "builtins" "type", [argument] => pure (ds.classOf argument)
  | .foreign "builtins" name, [] =>
    match emptyValue? name with
    | some hint => pure hint
    | none => Attempt.fail .wrongType
  | .declared key, [argument] =>
    match ds.class? key with
    | some cls =>
      if cls.kind = .enumeration then Attempt.ofExcept (ds.memberOf cls argument)
      else Attempt.fail .wrongType
    | none => Attempt.fail .wrongType
  | .declared key, [] | .declaredOf key _, [] =>
    match ds.class? key with
    | some cls => if ds.isBare cls then newObject cls else Attempt.fail .wrongType
    | none => Attempt.fail .wrongType
  | _, _ => Attempt.fail .wrongType

mutual

/-- What an expression stands for. -/
def evaluate (scope : Scope) : Expression → Reading Hint
  | .name name => Attempt.ofExcept (ds.lookup scope name)
  | .text content => pure (.text content)
  | .value value => pure (.ofLiteral value)
  | .dots => pure .ellipsis
  | .attribute base name => do
    match ds.attribute? (← evaluate scope base) name with
    | some hint => pure hint
    | none => Attempt.fail .missingAttribute
  | .item base index => do
    let base ← evaluate scope base
    ds.subscript base (← evaluate scope index)
  | .bar left right => do
    let left ← evaluate scope left
    let right ← evaluate scope right
    match ← making (Forms.bar? left right) with
    | some hint => pure hint
    | none => Attempt.ofExcept (ds.operate "|" left right)
  | .either left right => do
    let left ← evaluate scope left
    if ds.isTruthy left then pure left else evaluate scope right
  | .both left right => do
    let left ← evaluate scope left
    if ds.isTruthy left then evaluate scope right else pure left
  | .negation operand => do
    return .value (.bool (!ds.isTruthy (← evaluate scope operand)))
  | .choice condition first second => do
    if ds.isTruthy (← evaluate scope condition) then evaluate scope first
    else evaluate scope second
  | .operation symbol left right => do
    let left ← evaluate scope left
    Attempt.ofExcept (ds.operate symbol left (← evaluate scope right))
  | .sign symbol operand => do
    Attempt.ofExcept (ds.signed symbol (← evaluate scope operand))
  | .call callee arguments => do
    let callee ← evaluate scope callee
    ds.called callee (← evaluateAll scope arguments)
  | .tuple items => do return .tuple (← evaluateAll scope items)
  | .list items => do
    return .value (.arr ((← evaluateAll scope items).map fun _ => .null))
  | .collection items => do
    return .value (.obj ((← evaluateAll scope items).map fun _ => ("", .null)))
  | .range bounds => do
    let _ ← evaluateAll scope bounds
    return .value (.obj [])
  | .function => do
    let number ← making Forms.number
    return .foreignObject ("function " ++ toString number) "<function <lambda>>"
      (some scope.module) (some "<lambda>")

/-- What expressions stand for. -/
def evaluateAll (scope : Scope) : List Expression → Reading (List Hint)
  | [] => pure []
  | expression :: expressions => do
    let first ← evaluate scope expression
    return first :: (← evaluateAll scope expressions)

end

/-! ## Texts inside hints -/

/-- What a text stands for: a text that is being read already stays a forward
reference. -/
def meaning (pending : List String) (read : String → Reading Hint) (content : String) :
    Reading Hint :=
  if pending.contains content then making (Forms.forward content) else read content

/-- What a forward reference stands for. -/
def dereference (scope : Scope) (pending : List String) (read : String → Reading Hint)
    (number : Nat) (content : String) : Reading Hint := do
  if pending.contains content then return .forward number content
  else
    match scope.owner, (← Attempt.get).meanings.find? number with
    | none, some hint => return hint
    | _, _ =>
      let hint ← read content
      Attempt.modify fun forms => { forms with meanings := forms.meanings.put number hint }
      return hint

/-- Hints with bars between them. -/
def rejoin : List Hint → Reading Hint
  | [] => Attempt.fail .wrongType
  | first :: rest => rest.foldlM (fun hint next => do
      match ← making (Forms.bar? hint next) with
      | some hint => pure hint
      | none => Attempt.fail .wrongType) first

mutual

/-- Replace the texts in a hint by what they stand for. -/
def resolve (scope : Scope) (pending : List String) (read : String → Reading Hint) :
    Hint → Reading Hint
  | .forward number content => dereference scope pending read number content
  | .foreignOf module name arguments => do
    checkTexts arguments
    return .foreignOf module name (← resolveArguments scope pending read arguments)
  | .aliasOf name arguments => do
    return .aliasOf name (← resolveAll scope pending read arguments)
  | .declaredOf key arguments => do
    return .declaredOf key (← resolveAll scope pending read arguments)
  | .union style members => do
    let found ← resolveAll scope pending read members
    if Hint.sameAll found members then return .union style members
    else
      match style with
      | .form => making (Forms.union found)
      | .bars => rejoin found
  | .annotated base annotations => do
    let base ← resolve scope pending read base
    if base.isBareValue then Attempt.fail .missingAttribute
    else return base.annotate annotations
  | .classVar content => do return .classVar (← resolve scope pending read content)
  | hint => pure hint

/-- Replace the texts in a list of hints. -/
def resolveAll (scope : Scope) (pending : List String) (read : String → Reading Hint) :
    List Hint → Reading (List Hint)
  | [] => pure []
  | hint :: hints => do
    let first ← resolve scope pending read hint
    return first :: (← resolveAll scope pending read hints)

/-- Replace the texts among the arguments of a class, which may be plain ones. -/
def resolveArguments (scope : Scope) (pending : List String) (read : String → Reading Hint) :
    List Hint → Reading (List Hint)
  | [] => pure []
  | .text content :: hints => do
    let first ← meaning pending read content
    return first :: (← resolveArguments scope pending read hints)
  | hint :: hints => do
    let first ← resolve scope pending read hint
    return first :: (← resolveArguments scope pending read hints)

end

/-! ## Annotations -/

/-- The type that the text of an annotation stands for, while other texts are being
read, with a budget of texts that lead to one another. -/
def readText (scope : Scope) : Nat → List String → String → Reading Hint
  | 0, _, _ => Attempt.fail .endless
  | budget + 1, pending, content => do
    let expression ← Attempt.ofExcept (Expression.ofText content)
    let found ← ds.evaluate scope expression
    let pending := content :: pending
    match ds.textOf? found, found with
    | some inner, _ => meaning pending (readText scope budget pending) inner
    | none, .nothing => return Hint.noneType
    | none, .tuple _ => Attempt.fail .wrongType
    | none, hint => resolve scope pending (readText scope budget pending) hint

/-- The texts that a class can lead to. -/
def classTexts (cls : ClassDecl) : List String :=
  [cls.name, cls.qualname, cls.module, cls.doc.getD ""] ++
    (cls.fields.filterMap fun field =>
      match field.default with
      | some (.literal (.str content)) => some content
      | _ => none) ++
    cls.members.flatMap fun member => [member.1, member.2.toWord]

/-- The texts that a function can lead to. -/
def functionTexts (function : FunctionDecl) : List String :=
  [function.name, function.qualname, function.module, function.doc.getD ""]

/-- How many texts can lead to one another: each of them is read once, and so is every
text quoted in it. -/
def textBudget : Nat :=
  let texts := ds.classes.flatMap classTexts ++ ds.functions.flatMap functionTexts
  texts.foldl (fun n content => n + content.length + 1) 1

/-- The type that an annotation stands for. -/
def typeOf (scope : Scope) (hint : Hint) : Reading Hint :=
  let read (content : String) : Reading Hint :=
    ds.readText scope (ds.textBudget + content.length) [] content
  match hint with
  | .nothing => pure Hint.noneType
  | .text content => read content
  | hint => resolve scope [] read hint

end Declarations

end Schemata
