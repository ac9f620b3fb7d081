import Schemata.Declaration.Enumeration

/-!
# Names and displays of type hints

A type hint that schemas do not support takes its identifier from its qualified name,
or from its display when it has none.  Warnings and errors show the display.
-/

namespace Schemata

namespace Annotation

/-- Bytes between apostrophes or quotation marks. -/
def bytesDisplay (content : String) : String :=
  let mark := Quoted.mark content.toList
  let shown := content.toUTF8.toList.flatMap fun byte =>
    let c := Char.ofNat byte.toNat
    if byte.toNat < 0x80 then Quoted.escaped mark c
    else '\\' :: 'x' :: Quoted.hex 2 byte.toNat
  String.ofList ('b' :: mark :: shown ++ [mark])

/-- An annotation as the language displays it. -/
def display : Annotation → String
  | .marker content => "Description(value=" ++ quote content ++ ")"
  | .object className _ => className ++ "()"
  | .classObject className => "<class '" ++ className ++ "'>"
  | .text content => quote content
  | .bytes content => bytesDisplay content

end Annotation

namespace Declarations

variable (ds : Declarations)

/-- A name after its module, which goes without saying for the language's own. -/
def afterModule (module name : String) : String :=
  if module == "builtins" then name else module ++ "." ++ name

/-- The qualified name of a declared class after its module. -/
def classPath (key : String) : String :=
  match ds.class? key with
  | some cls => afterModule cls.module cls.qualname
  | none => key

/-- A declared class on its own: an enumeration and a class of the language by their
names, another one by its path. -/
def classDisplay (key : String) : String :=
  match ds.class? key with
  | some cls =>
    if cls.kind = .enumeration then "<enum " ++ quote cls.name ++ ">"
    else if cls.module == "builtins" then "<class '" ++ cls.name ++ "'>"
    else "<class '" ++ cls.module ++ "." ++ cls.qualname ++ "'>"
  | none => key

/-- A member of an enumeration. -/
def memberDisplay (key name : String) : String :=
  match ds.class? key with
  | some cls =>
    let value := (ds.memberValue? key name).getD .null
    "<" ++ cls.name ++ "." ++ name ++ ": " ++ value.literalDisplay ++ ">"
  | none => name

/-- Texts with commas between them. -/
def commas (texts : List String) : String :=
  ", ".intercalate texts

/-- Texts between brackets. -/
def inBrackets (texts : List String) : String :=
  "[" ++ (if texts.isEmpty then "()" else commas texts) ++ "]"

/-- Where a hint is displayed. -/
inductive Place where
  /-- On its own. -/
  | alone
  /-- Inside a form of the typing module. -/
  | form
  /-- Inside the brackets after a class. -/
  | brackets
  /-- Between bars. -/
  | bars
deriving DecidableEq

/-- A class of the language: quoted on its own, else by its path. -/
def foreignDisplay (place : Place) (module name : String) : String :=
  if place = .bars ∧ module == "builtins" ∧ name == "NoneType" then "None"
  else if place = .alone ∧ !(module == "typing" ∧ name == "Any") then
    "<class '" ++ afterModule module name ++ "'>"
  else afterModule module name

/-- A function: quoted on its own, by its name in a form, else by its path. -/
def functionDisplay (place : Place) (key : String) : String :=
  match ds.function? key, place with
  | none, _ => key
  | some function, .alone => "<function " ++ function.qualname ++ ">"
  | some function, .form => function.name
  | some function, _ => afterModule function.module function.qualname

/-- An object of unknown kind: by its path inside brackets or between bars when it has
one. -/
def objectDisplay (place : Place) (shown : String) (module qualname : Option String) : String :=
  match place, module, qualname with
  | .brackets, some module, some qualname | .bars, some module, some qualname =>
    afterModule module qualname
  | _, _, _ => shown

mutual

/-- A hint as the language displays it in a place. -/
def displayIn (place : Place) : Hint → String
  | .nothing => "None"
  | .text content => quote content
  | .forward _ content => "ForwardRef(" ++ quote content ++ ")"
  | .foreign module name => foreignDisplay place module name
  | .declared key => if place = .alone then ds.classDisplay key else ds.classPath key
  | .function key => ds.functionDisplay place key
  | .alias name => "typing." ++ name
  | .foreignOf module name arguments =>
    afterModule module name ++ inBrackets (displays .brackets arguments)
  | .aliasOf "Callable" [argument, result] =>
    "typing.Callable[[" ++ displayIn .form argument ++ "], " ++ displayIn .form result ++ "]"
  | .aliasOf "Unpack" [argument] => "*" ++ displayIn .alone argument
  | .aliasOf name arguments => "typing." ++ name ++ inBrackets (displays .form arguments)
  | .declaredOf key arguments => ds.classPath key ++ inBrackets (displays .form arguments)
  | .ellipsis => if place = .alone then "Ellipsis" else "..."
  | .tuple [item] => "(" ++ displayIn .alone item ++ ",)"
  | .tuple items => "(" ++ commas (displays .alone items) ++ ")"
  | .union .form members =>
    let texts := displays .form members
    match members, texts with
    | [a, b], [first, second] =>
      if a.isNoneType then "typing.Optional[" ++ second ++ "]"
      else if b.isNoneType then "typing.Optional[" ++ first ++ "]"
      else "typing.Union[" ++ commas texts ++ "]"
    | _, _ => "typing.Union[" ++ commas texts ++ "]"
  | .union .bars members => " | ".intercalate (displays .bars members)
  | .annotated base annotations =>
    "typing.Annotated[" ++ commas (displayIn .form base :: annotations.map (·.display)) ++ "]"
  | .classVar content => "typing.ClassVar[" ++ displayIn .form content ++ "]"
  | .typeVar name _ => "~" ++ name
  | .newType name module =>
    match place with
    | .brackets | .bars => afterModule module name
    | .alone | .form => module ++ "." ++ name
  | .literal [] => "typing.Literal[()]"
  | .literal values => "typing.Literal[" ++ commas (values.map (·.literalDisplay)) ++ "]"
  | .foreignObject _ shown module qualname => objectDisplay place shown module qualname
  | .value content => content.literalDisplay
  | .member key name => ds.memberDisplay key name

/-- Hints as the language displays them in a place. -/
def displays (place : Place) : List Hint → List String
  | [] => []
  | hint :: hints => displayIn place hint :: displays place hints

end

/-- A hint as the language displays it on its own. -/
def display (hint : Hint) : String :=
  ds.displayIn .alone hint

/-- The qualified name of a hint. -/
def qualname? : Hint → Option String
  | .foreign _ name | .foreignOf _ name _ | .alias name | .aliasOf name _ => some name
  | .declared key => (ds.class? key).map (·.qualname)
  | .declaredOf key _ => (ds.class? key).map (·.name)
  | .function key => (ds.function? key).map (·.qualname)
  | .union .form _ => some "Union"
  | .classVar _ => some "ClassVar"
  | .newType name _ => some name
  | .literal _ => some "Literal"
  | .foreignObject _ _ _ qualname => qualname
  | _ => none

/-- The name that a hint's identifier is made from. -/
def hintName (hint : Hint) : String :=
  match ds.qualname? hint with
  | some name => if name.isEmpty then ds.display hint else name
  | none => ds.display hint

/-- The module of a hint. -/
def hintModule? : Hint → Option String
  | .foreign module _ | .foreignOf module _ _ => some module
  | .declared key | .declaredOf key _ | .member key _ => (ds.class? key).map (·.module)
  | .function key => (ds.function? key).map (·.module)
  | .union .bars _ => some "types"
  | .alias _ | .aliasOf _ _ | .union .form _ | .annotated _ _ | .classVar _ | .literal _
  | .forward _ _ => some "typing"
  | .typeVar _ module | .newType _ module => some module
  | .foreignObject _ _ module _ => module
  | _ => none

end Declarations

end Schemata
