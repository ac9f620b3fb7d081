import Schemata.Declaration.Hint

/-!
# Forms in use

A form of the typing module that is used twice with equal arguments gives one hint: the
second use is spelled as the first one was, and the texts inside it are the same forward
references.  Classes with arguments and unions with bars are made anew each time.

A forward reference also keeps what it stood for when it was last read.

Main results:

- Definition {lit}`Forms.reuse`: a use that was made before gives the hint that it gave then.
-/

namespace Schemata

/-- The forms that hints are made with. -/
inductive Form where
  | union
  | optional
  | classVar
  | annotated
  | alias (name : String)
  | generic (key : String)
  | typeVar (name : String)
  | newType (name : String)
deriving DecidableEq

/-- One use of a form. -/
structure FormUse where
  form : Form
  arguments : List Hint := []
  annotations : List Annotation := []

/-- Whether two uses are of one form with equal arguments. -/
def FormUse.same (a b : FormUse) : Bool :=
  a.form = b.form && Hint.sameAll a.arguments b.arguments &&
    Hint.sameAnnotations a.annotations b.annotations

/-- The uses of forms so far. -/
structure Forms where
  /-- The hint of each use, in the order in which they were made. -/
  made : List (FormUse × Hint) := []
  /-- How many numbers were given to forward references and objects. -/
  numbers : Nat := 0
  /-- What forward references stood for when they were last read. -/
  meanings : Table Nat Hint := []

namespace Forms

/-- The making of a value out of forms. -/
abbrev Making := StateM Forms

/-- The hint of a use that was made before. -/
def known? (forms : Forms) (use : FormUse) : Option Hint :=
  (forms.made.find? fun entry => entry.1.same use).map (·.2)

/-- Use a form.  A use that cannot be looked up is made anew. -/
def reuse (use : FormUse) (make : Making Hint) : Making Hint := fun forms =>
  if Hint.areKeys use.arguments then
    match forms.known? use with
    | some hint => (hint, forms)
    | none =>
      let (hint, forms) := make.run forms
      (hint, { forms with made := forms.made ++ [(use, hint)] })
  else make.run forms

/-- A number that was not given before. -/
def number : Making Nat := fun forms =>
  (forms.numbers, { forms with numbers := forms.numbers + 1 })

/-- A new forward reference. -/
def forward (content : String) : Making Hint := do
  return .forward (← number) content

/-- A hint as an argument of a form. -/
def argument : Hint → Making Hint
  | .nothing => pure Hint.noneType
  | .text content => forward content
  | hint => pure hint

/-- Hints as arguments of a form. -/
def arguments : List Hint → Making (List Hint)
  | [] => pure []
  | hint :: hints => do
    let first ← argument hint
    return first :: (← arguments hints)

/-- A union spelled with the form of the typing module. -/
def union (hints : List Hint) : Making Hint :=
  reuse { form := .union, arguments := hints } do
    return Hint.unionOf .form (← arguments hints)

/-- A hint that allows None too. -/
def optional (hint : Hint) : Making Hint :=
  reuse { form := .optional, arguments := [hint] } do
    union [← argument hint, Hint.noneType]

/-- Two hints with a bar between them, unless they do not take one. -/
def bar? (first second : Hint) : Making (Option Hint) := do
  match first, second with
  | .nothing, .nothing => return none
  | first, second =>
    if first.takesBars && second.takesBars then
      return some (Hint.unionOf .bars [first.asClass, second.asClass])
    else if first.bringsForm || second.bringsForm then return some (← union [first, second])
    else return none

/-- Hints with bars between them; where no bar can stand, the union is spelled with the
form of the typing module. -/
def barUnion : List Hint → Making Hint
  | [] => union []
  | first :: rest => rest.foldlM (fun hint next => do
      match ← bar? hint next with
      | some hint => return hint
      | none => union [hint, next]) first

/-- A hint with annotations. -/
def annotated (hint : Hint) (annotations : List Annotation) : Making Hint :=
  reuse { form := .annotated, arguments := [hint], annotations } do
    return (← argument hint).annotate annotations

/-- A class variable. -/
def classVar (hint : Hint) : Making Hint :=
  reuse { form := .classVar, arguments := [hint] } do
    return .classVar (← argument hint)

/-- A generic alias of the typing module with arguments. -/
def aliasOf (name : String) (hints : List Hint) : Making Hint :=
  reuse { form := .alias name, arguments := hints } do
    return .aliasOf name (← arguments hints)

/-- A declared generic class with arguments. -/
def declaredOf (key : String) (hints : List Hint) : Making Hint :=
  reuse { form := .generic key, arguments := hints } do
    return .declaredOf key (← arguments hints)

/-- A type variable, which belongs to the module that first names it. -/
def typeVar (name module : String) : Making Hint :=
  reuse { form := .typeVar name } (pure (.typeVar name module))

/-- A new type, which belongs to the module that first names it. -/
def newType (name module : String) : Making Hint :=
  reuse { form := .newType name } (pure (.newType name module))

end Forms

end Schemata
