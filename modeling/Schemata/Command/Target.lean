import Schemata.Command.Usage
import Schemata.Declaration.Evaluation
import Schemata.Text.Lines

/-!
# Targets

A target names what a document is about: a module and, after a colon, an attribute of
it.  The attribute may go on with points to attributes of classes, members of
enumerations, and their names and values.
-/

namespace Schemata.Command

/-- Split a text at every point. -/
def splitAtPoints (text : String) : List String :=
  (Text.splitAt '.' text.toList).map String.ofList

/-- The module and the attribute of a target. -/
def splitTarget (target : String) : String × String :=
  (String.ofList (target.toList.takeWhile (· != ':')),
    String.ofList ((target.toList.dropWhile (· != ':')).drop 1))

/-- Find a module, given by its names from the innermost one out.  A module that is not
declared is missing, and a declared one has no others inside. -/
def checkModule (declared : String → Bool) (module : String) :
    List String → Except UsageFault Unit
  | [] => .ok ()
  | name :: outer =>
    let path := ".".intercalate (name :: outer).reverse
    if declared path then .ok ()
    else if outer.isEmpty then .error (.unknownModule module path none)
    else do
      checkModule declared module outer
      .error (.unknownModule module path (some (".".intercalate outer.reverse)))

/-- What a module of the language has under a name. -/
def languageAttribute? (module name : String) : Option Hint :=
  if module != "builtins" then none
  else
    match name with
    | "None" => some .nothing
    | "True" => some (.value (.bool true))
    | "False" => some (.value (.bool false))
    | name => Declarations.languageName? name

/-- What a target names. -/
def findTarget (ds : Declarations) (target : String) : Except Stop Hint := do
  let (module, path) := splitTarget target
  if module.isEmpty || path.isEmpty then throw (.misused (.malformedTarget target))
  if ".".isPrefixOf module then throw (.escaped .wrongType)
  let declared (name : String) : Bool :=
    name == "builtins" || ds.classes.any (·.module == name) || ds.functions.any (·.module == name)
  match checkModule declared module (splitAtPoints module).reverse with
  | .error fault => throw (.misused fault)
  | .ok () => pure ()
  let missing : Stop := .misused (.unknownAttribute module path)
  match splitAtPoints path with
  | [] => throw missing
  | name :: names =>
    let some first := (ds.moduleAttribute? module name).or (languageAttribute? module name)
      | throw missing
    let some found := names.foldlM ds.attribute? first | throw missing
    return found

end Schemata.Command
