import Schemata.Error

/-!
# Faults in a command line

What can be wrong with the words of a command line, apart from what they ask for.
-/

namespace Schemata.Command

/-- Why a command line is refused. -/
inductive UsageFault where
  | unknownOption (spelling : String) (similar : List String)
  | missingValue (spelling : String)
  | unexpectedValue (spelling : String)
  | missingTarget
  | extraWords (words : List String)
  /-- The settings file does not exist. -/
  | missingFile (path : String)
  | unknownFormat (name : String)
  | notInteger (text : String)
  /-- A target is not a module and an attribute with a colon between them. -/
  | malformedTarget (target : String)
  /-- A module does not exist, or lies in one that is no package. -/
  | unknownModule (module missing : String) (outer : Option String)
  | unknownAttribute (module path : String)
deriving DecidableEq

/-- The names of the output formats. -/
def formatNames : List (String × Dialect) :=
  [("json-schema", .jsonSchema), ("function-calling", .tool)]

/-- Quoted words with commas between them. -/
def quotedList (words : List String) : String :=
  ", ".intercalate (words.map quote)

/-- The wording of a fault. -/
def UsageFault.message : UsageFault → String
  | .unknownOption spelling similar =>
    let hint := match similar with
      | [] => ""
      | [only] => s!" Did you mean {quote only}?"
      | several =>
        let sorted := several.mergeSort fun a b => decide (a ≤ b)
        s!" (Did you mean one of: {quotedList sorted}?)"
    s!"No such option {quote spelling}." ++ hint
  | .missingValue spelling => s!"Option {quote spelling} requires an argument."
  | .unexpectedValue spelling => s!"Option {quote spelling} does not take a value."
  | .missingTarget => "Missing argument 'TARGET'."
  | .extraWords words =>
    let plural := if words.length = 1 then "" else "s"
    let all := " ".intercalate words
    s!"Got unexpected extra argument{plural} ({all})"
  | .missingFile path =>
    s!"Invalid value for '--config' / '-c': Path {quote path} does not exist."
  | .unknownFormat name =>
    let names := quotedList (formatNames.map Prod.fst)
    s!"Invalid value for '--format' / '-f': {quote name} is not one of {names}."
  | .notInteger text => s!"Invalid value for '--indent': {quote text} is not a valid integer."
  | .malformedTarget target =>
    s!"Invalid value for TARGET: expected 'module:attribute', got '{target}'"
  | .unknownModule module missing outer =>
    let reason := match outer with
      | some outer => s!"; {quote outer} is not a package"
      | none => ""
    s!"Invalid value for TARGET: cannot import module '{module}': No module named " ++
      quote missing ++ reason
  | .unknownAttribute module path =>
    s!"Invalid value for TARGET: '{module}' has no attribute '{path}'"

/-- Why a command ends without a result. -/
inductive Stop where
  /-- The command line is refused. -/
  | misused (fault : UsageFault)
  /-- The command reports a failure. -/
  | reported (error : Error)
  /-- A failure that the command does not expect. -/
  | escaped (error : Error)

end Schemata.Command
