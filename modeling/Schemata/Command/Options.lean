import Schemata.Command.Usage
import Schemata.Files.Tree
import Schemata.Text.Number
import Schemata.Text.Similarity

/-!
# Options of the command line

Options may stand before, between and after the other words.  A long option takes its
value after an equals sign or from the next word; short options can be joined, and the
rest of the word after one that takes a value is that value.  After two hyphens no
option is read.

An option that is given again counts with its last value.  Values are checked in the
order in which their options were first given.
-/

namespace Schemata.Command

/-- What an option sets. -/
inductive Parameter where
  | name
  | config
  | format
  | strict
  | indent
  | verbose
  | help
deriving DecidableEq

/-- Whether a parameter has a value of its own. -/
def Parameter.takesValue : Parameter → Bool
  | .name | .config | .format | .indent => true
  | _ => false

/-- The long options. -/
def longOptions : List (String × Parameter) :=
  [("--name", .name), ("--config", .config), ("--format", .format), ("--strict", .strict),
    ("--no-strict", .strict), ("--indent", .indent), ("--verbose", .verbose), ("--help", .help)]

/-- The short options. -/
def shortOptions : List (Char × Parameter) :=
  [('n', .name), ('c', .config), ('f', .format), ('v', .verbose)]

/-- An option with the value that it is given, which is its spelling when it takes none. -/
structure Given where
  parameter : Parameter
  value : String

/-- The words of a command line, told apart. -/
structure Words where
  options : List Given := []
  others : List String := []

/-- What one word says: options, and perhaps one whose value is the next word. -/
structure WordOptions where
  options : List Given := []
  pending : Option (String × Parameter) := none

/-- Options joined in one word. -/
def readShort : List Char → Except UsageFault WordOptions
  | [] => .ok {}
  | letter :: rest => do
    let spelling := "-" ++ letter.toString
    match Table.find? shortOptions letter with
    | none => .error (.unknownOption spelling [])
    | some parameter =>
      if !parameter.takesValue then
        let others ← readShort rest
        return { others with options := ⟨parameter, spelling⟩ :: others.options }
      else if rest.isEmpty then return { pending := some (spelling, parameter) }
      else return { options := [⟨parameter, String.ofList rest⟩] }

/-- A long option with the value that is attached to it. -/
def readLong (spelling : String) (parameter : Parameter) (attached : Option String) :
    Except UsageFault WordOptions :=
  match attached with
  | some value =>
    if parameter.takesValue then .ok { options := [⟨parameter, value⟩] }
    else .error (.unexpectedValue spelling)
  | none =>
    if parameter.takesValue then .ok { pending := some (spelling, parameter) }
    else .ok { options := [⟨parameter, spelling⟩] }

/-- The options in a word that begins with a hyphen. -/
def readOption (word : String) : Except UsageFault WordOptions :=
  let chars := word.toList
  let spelling := String.ofList (chars.takeWhile (· != '='))
  let attached := match chars.dropWhile (· != '=') with
    | _ :: value => some (String.ofList value)
    | [] => none
  match Table.find? longOptions spelling with
  | some parameter => readLong spelling parameter attached
  | none =>
    if "--".isPrefixOf word then
      .error (.unknownOption spelling (Text.closest spelling (longOptions.map Prod.fst)))
    else readShort (chars.drop 1)

/-- Tell the words of a command line apart. -/
def readWords : List String → Except UsageFault Words
  | [] => .ok {}
  | word :: rest =>
    if word == "--" then .ok { others := rest }
    else if "-".isPrefixOf word && word != "-" then do
      let read ← readOption word
      match read.pending, rest with
      | none, rest =>
        let words ← readWords rest
        return { words with options := read.options ++ words.options }
      | some (spelling, _), [] => .error (.missingValue spelling)
      | some (_, parameter), value :: rest =>
        let words ← readWords rest
        return { words with options := read.options ++ ⟨parameter, value⟩ :: words.options }
    else do
      let words ← readWords rest
      return { words with others := word :: words.others }
termination_by words => words.length

/-- What a command line asks for. -/
structure Options where
  name : Option String := none
  /-- The settings file. -/
  config : Option Place := none
  format : Option Dialect := none
  strict : Option Bool := none
  indent : Option Int := none
  verbose : Bool := false
  target : String := ""
  /-- The file that the document goes to. -/
  output : Option Place := none

/-- A command line is a request for help or for a document. -/
inductive Request where
  | help
  | document (options : Options)

/-- The place of a path that begins in a working folder. -/
def placeOf (folder : Place) (path : String) : Except Stop Place :=
  if path.toList.contains '\x00' then .error (.escaped .zeroInPath)
  else .ok ((FilePath.ofText path).resolve folder)

/-- Take an option over, with paths that begin in a working folder. -/
def Options.take (tree : FileTree) (folder : Place) (options : Options) (given : Given) :
    Except Stop Options :=
  match given.parameter with
  | .name => .ok { options with name := some given.value }
  | .config => do
    let place ← placeOf folder given.value
    if (tree.occupant? place).isSome then return { options with config := some place }
    else throw (.misused (.missingFile given.value))
  | .format =>
    match Table.find? formatNames given.value with
    | some dialect => .ok { options with format := some dialect }
    | none => .error (.misused (.unknownFormat given.value))
  | .strict => .ok { options with strict := some (given.value == "--strict") }
  | .indent =>
    match Text.integer? given.value.toList with
    | some width => .ok { options with indent := some width }
    | none => .error (.misused (.notInteger given.value))
  | .verbose => .ok { options with verbose := true }
  | .help => .ok options

/-- The options with their last values, in the order in which they were first given. -/
def lastValues (options : List Given) : List Given :=
  (options.map (·.parameter)).eraseDups.filterMap fun parameter =>
    options.reverse.find? (·.parameter = parameter)

/-- Read a command line. -/
def Request.read (tree : FileTree) (folder : Place) (words : List String) :
    Except Stop Request := do
  let words ← (readWords words).mapError .misused
  if words.options.any (·.parameter = .help) then return .help
  let options ← (lastValues words.options).foldlM (Options.take tree folder) {}
  match words.others with
  | [] => throw (.misused .missingTarget)
  | [target] => return .document { options with target }
  | target :: output :: extra => do
    let place ← placeOf folder output
    if extra.isEmpty then return .document { options with target, output := some place }
    else throw (.misused (.extraWords extra))

end Schemata.Command
