import Schemata.Declaration.Attribute

/-!
# Documentation of declarations

A class without documentation has that of the first ancestor with any.  A function
without documentation that is an attribute of a class has that of the attribute of its
name in the first ancestor where it has any; every class has the methods that the
language gives to all.
-/

namespace Schemata

namespace Declarations

/-- The documentation of classes that the language brings along. -/
def foreignDoc? : String → Option String
  | "Enum" => some "Create a collection of name/value pairs."
  | "Generic" => some "Abstract base class for generic types."
  | "str" => some "str(object='') -> str\nstr(bytes_or_buffer[, encoding[, errors]]) -> str"
  | "int" => some "int([x]) -> integer\nint(x, base=10) -> integer"
  | "float" => some "Convert a string or number to a floating point number, if possible."
  | "bool" => some "bool(x) -> bool"
  | "list" => some "Built-in mutable sequence."
  | "tuple" => some "Built-in immutable sequence."
  | "object" => some "The base class of the class hierarchy."
  | "type" => some "type(object) -> the object's type\ntype(name, bases, dict, **kwds) -> a new type"
  | _ => none

/-- The documentation of the methods that all classes have. -/
def commonDocs : List (String × String) :=
  [("__call__", "Call self as a function."),
    ("__delattr__", "Implement delattr(self, name)."),
    ("__dir__", "Default dir() implementation."),
    ("__eq__", "Return self==value."),
    ("__format__", "Default object formatter."),
    ("__ge__", "Return self>=value."),
    ("__getattribute__", "Return getattr(self, name)."),
    ("__getstate__", "Helper for pickle."),
    ("__gt__", "Return self>value."),
    ("__hash__", "Return hash(self)."),
    ("__init__", "Initialize self.  See help(type(self)) for accurate signature."),
    ("__init_subclass__", "This method is called when a class is subclassed."),
    ("__instancecheck__", "Check if an object is an instance."),
    ("__le__", "Return self<=value."),
    ("__lt__", "Return self<value."),
    ("__ne__", "Return self!=value."),
    ("__new__", "Create and return a new object.  See help(type) for accurate signature."),
    ("__or__", "Return self|value."),
    ("__prepare__", "__prepare__() -> dict\nused to create the namespace for the class statement"),
    ("__reduce__", "Helper for pickle."),
    ("__reduce_ex__", "Helper for pickle."),
    ("__repr__", "Return repr(self)."),
    ("__ror__", "Return value|self."),
    ("__setattr__", "Implement setattr(self, name, value)."),
    ("__sizeof__", "Size of object in memory, in bytes."),
    ("__str__", "Return str(self)."),
    ("__subclasscheck__", "Check if a class is a subclass."),
    ("__subclasses__", "Return a list of immediate subclasses."),
    ("__subclasshook__", "Abstract classes can override this to customize issubclass()."),
    ("mro", "Return a type's method resolution order.")]

variable (ds : Declarations)

/-- The documentation of a class, which is that of the first ancestor that has any. -/
def doc? (key : String) : Option String :=
  (ds.ancestors key).findSome? fun ancestor =>
    match ancestor with
    | .declared key => (ds.class? key).bind (·.doc)
    | .foreign name => foreignDoc? name

/-- The documentation that what a hint stands for has of its own. -/
def ownDoc? (hint : Hint) : Option String :=
  match hint with
  | .declared key | .member key _ => (ds.class? key).bind (·.doc)
  | .function key => (ds.function? key).bind (·.doc)
  | .foreignObject _ _ _ _ => foreignDoc? "object"
  | .nothing => none
  | hint =>
    match ds.classOf hint with
    | .foreign _ name => foreignDoc? name
    | _ => none

/-- The class that the qualified name of a function puts it in. -/
def ownerOf? (function : FunctionDecl) : Option ClassDecl := do
  let names := ((Text.splitAt '.' function.qualname.toList).map String.ofList).dropLast
  match names with
  | [] => none
  | name :: names =>
    let first ← ds.moduleDefinition? function.module name
    match ← names.foldlM ds.attribute? first with
    | .declared key => ds.class? key
    | _ => none

/-- The documentation of an attribute of a class. -/
def attributeDoc? (cls : ClassDecl) (name : String) : Option String :=
  match ds.value? cls.key name with
  | some hint => ds.ownDoc? hint
  | none => Table.find? commonDocs name

/-- The documentation that a function has from the class that it is an attribute of. -/
def inheritedDoc? (function : FunctionDecl) : Option String := do
  let cls ← ds.ownerOf? function
  match ds.value? cls.key function.name with
  | some (.function key) =>
    if key == function.key then
      match (ds.lineage cls.key).findSome? fun cls => ds.attributeDoc? cls function.name with
      | some doc => some doc
      | none => Table.find? commonDocs function.name
    else none
  | _ => none

/-- The documentation of a function, its own or what it has from its class. -/
def functionDoc? (function : FunctionDecl) : Option String :=
  match function.doc with
  | some doc => some doc
  | none => ds.inheritedDoc? function

end Declarations

end Schemata
