import Schemata.Introspection.Annotation

/-!
# Type hints

A type hint is what a property or a parameter is annotated with: a class, a generic
type with arguments, a union, a hint with annotations of its own, or one of several
forms that schemas do not support.

Unions are flat and hold each member once, a union of one member is that member, and
annotations on annotations form one list.  The functions {lit}`unionOf` and
{lit}`annotate` keep this so.

Two unions are the same when they have the same members in any order and spelling, and
two forward references when they have the same text.
-/

namespace Schemata

/-- How a union is spelled. -/
inductive UnionStyle where
  /-- With the special form of the typing module. -/
  | form
  /-- With bars between the members. -/
  | bars
deriving DecidableEq

/-- A type hint. -/
inductive Hint where
  /-- The value None itself. -/
  | nothing
  /-- A plain text, which stands for a type where annotations are read. -/
  | text (content : String)
  /-- A text inside a form of the typing module, told apart from others by a number. -/
  | forward (number : Nat) (content : String)
  /-- A class of the language or its library. -/
  | foreign (module name : String)
  /-- A declared class. -/
  | declared (key : String)
  /-- A declared function. -/
  | function (key : String)
  /-- A generic alias of the typing module without arguments. -/
  | alias (name : String)
  /-- A class of the language or its library with arguments. -/
  | foreignOf (module name : String) (arguments : List Hint)
  /-- A generic alias of the typing module with arguments. -/
  | aliasOf (name : String) (arguments : List Hint)
  /-- A declared generic class with arguments. -/
  | declaredOf (key : String) (arguments : List Hint)
  /-- The dots that stand for further arguments. -/
  | ellipsis
  /-- Several hints in one, which are no type. -/
  | tuple (items : List Hint)
  | union (style : UnionStyle) (members : List Hint)
  | annotated (base : Hint) (annotations : List Annotation)
  /-- An attribute of the class rather than of its objects. -/
  | classVar (content : Hint)
  | typeVar (name module : String)
  | newType (name module : String)
  | literal (values : List Json)
  /-- An object of unknown kind, told apart from others by its key. -/
  | foreignObject (key display : String) (module qualname : Option String)
  /-- A value that is no type. -/
  | value (content : Json)
  /-- A member of a declared enumeration. -/
  | member (key name : String)

namespace Hint

/-- The class of the value None. -/
def noneType : Hint := .foreign "builtins" "NoneType"

/-- Whether a hint is the class of the value None. -/
def isNoneType : Hint → Bool
  | .foreign "builtins" "NoneType" => true
  | _ => false

/-- Whether two literals are the same value of the same type. -/
def sameLiteral (a b : Json) : Bool :=
  a.typeName == b.typeName && a.same b

/-- Whether every literal of one list occurs in the other. -/
def literalsIn (as bs : List Json) : Bool :=
  as.all fun a => bs.any (sameLiteral a)

/-- Whether two lists of annotations are equal one by one. -/
def sameAnnotations (as bs : List Annotation) : Bool :=
  as.length == bs.length && (as.zip bs).all fun pair => pair.1.same pair.2

mutual

/-- Whether two hints stand for the same type. -/
def same : Hint → Hint → Bool
  | .nothing, .nothing => true
  | .text a, .text b => a == b
  | .forward _ a, .forward _ b => a == b
  | .foreign m a, .foreign n b => m == n && a == b
  | .declared a, .declared b => a == b
  | .function a, .function b => a == b
  | .alias a, .alias b => a == b
  | .foreignOf m a as, .foreignOf n b bs => m == n && a == b && sameAll as bs
  | .aliasOf a as, .aliasOf b bs => a == b && sameAll as bs
  | .declaredOf a as, .declaredOf b bs => a == b && sameAll as bs
  | .ellipsis, .ellipsis => true
  | .tuple as, .tuple bs => sameAll as bs
  | .union _ as, .union _ bs => within as bs && bs.all (anySame as)
  | .annotated a as, .annotated b bs => same a b && sameAnnotations as bs
  | .classVar a, .classVar b => same a b
  | .typeVar a _, .typeVar b _ => a == b
  | .newType a _, .newType b _ => a == b
  | .literal as, .literal bs => literalsIn as bs && literalsIn bs as
  | .foreignObject a _ _ _, .foreignObject b _ _ _ => a == b
  | .value a, .value b => a.same b
  | .member k a, .member l b => k == l && a == b
  | _, _ => false
termination_by structural hint => hint

/-- Whether two lists of hints are the same one by one. -/
def sameAll : List Hint → List Hint → Bool
  | [], [] => true
  | a :: as, b :: bs => same a b && sameAll as bs
  | _, _ => false
termination_by structural hints => hints

/-- Whether some hint of a list is the same as a given one. -/
def anySame : List Hint → Hint → Bool
  | [], _ => false
  | a :: as, b => same a b || anySame as b
termination_by structural hints => hints

/-- Whether every hint of a list occurs in another. -/
def within : List Hint → List Hint → Bool
  | [], _ => true
  | a :: as, bs => bs.any (same a) && within as bs
termination_by structural hints => hints

end

instance : BEq Hint := ⟨same⟩

/-! ## Building hints -/

/-- The members of a union, or the hint itself. -/
def members : Hint → List Hint
  | .union _ members => members
  | hint => [hint]

/-- Leave out every hint that occurs earlier in the list. -/
def distinct (hints : List Hint) : List Hint :=
  (hints.foldl (fun known hint => if known.any (same hint) then known else hint :: known)
    []).reverse

/-- A union with a spelling; a union of one member is that member. -/
def unionOf (style : UnionStyle) (hints : List Hint) : Hint :=
  match distinct (hints.flatMap members) with
  | [hint] => hint
  | hints => .union style hints

/-- Whether bars between this hint and a class make a union spelled with bars. -/
def takesBars : Hint → Bool
  | .nothing | .foreign _ _ | .declared _ | .foreignOf _ _ _ | .union .bars _ => true
  | _ => false

/-- Whether bars between this hint and anything make a form of the typing module. -/
def bringsForm : Hint → Bool
  | .alias _ | .aliasOf _ _ | .declaredOf _ _ | .union .form _ | .annotated _ _ | .classVar _
  | .typeVar _ _ | .newType _ _ | .literal _ | .forward _ _ => true
  | _ => false

/-- None as a class; other hints stay as they are. -/
def asClass : Hint → Hint
  | .nothing => noneType
  | hint => hint

/-- A hint with annotations, after those that it has. -/
def annotate (annotations : List Annotation) : Hint → Hint
  | .annotated base inner => .annotated base (inner ++ annotations)
  | base => .annotated base annotations

/-- Whether a hint is a value that takes no annotations. -/
def isBareValue : Hint → Bool
  | .value _ | .ellipsis => true
  | _ => false

/-- The hint without its annotations, and the annotations. -/
def unwrap : Hint → Hint × List Annotation
  | .annotated base annotations =>
    let (hint, inner) := unwrap base
    (hint, annotations ++ inner)
  | hint => (hint, [])

/-- The annotations of a hint, and of the members of a union. -/
def metadata (hint : Hint) : List Annotation :=
  let (hint, annotations) := hint.unwrap
  match hint with
  | .union _ members =>
    annotations ++ (members.filter (!·.isNoneType)).flatMap fun member => member.unwrap.2
  | _ => annotations

mutual

/-- Whether a hint can be looked up in a table; arrays and objects cannot. -/
def isKey : Hint → Bool
  | .foreignOf _ _ arguments | .aliasOf _ arguments | .declaredOf _ arguments => areKeys arguments
  | .union _ members => areKeys members
  | .tuple items => areKeys items
  | .annotated base _ => isKey base
  | .classVar content => isKey content
  | .literal values => values.all (!·.isContainer)
  | .value content => !content.isContainer
  | _ => true

/-- Whether all hints of a list can be looked up in a table. -/
def areKeys : List Hint → Bool
  | [] => true
  | hint :: hints => isKey hint && areKeys hints

end

mutual

/-- How many hints a hint holds one inside the other; a text counts its characters. -/
def depth : Hint → Nat
  | .text content | .forward _ content => content.length + 1
  | .foreignOf _ _ arguments | .aliasOf _ arguments | .declaredOf _ arguments =>
    depths arguments + 1
  | .union _ members => depths members + 1
  | .tuple items => depths items + 1
  | .annotated base _ => depth base + 1
  | .classVar content => depth content + 1
  | _ => 1

/-- The greatest depth in a list. -/
def depths : List Hint → Nat
  | [] => 0
  | hint :: hints => max (depth hint) (depths hints)

end

end Hint

end Schemata
