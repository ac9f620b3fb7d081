import Schemata.Command.Options
import Schemata.Command.Target
import Schemata.Conversion.Document
import Schemata.Declaration.Introspection
import Schemata.Files.Writing
import Schemata.Settings.Generator
import Schemata.Text.Styling

/-!
# The command

The command reads its settings, finds its target, builds the target's type graph and
prints the document or writes it to a file.  Everything it works on is a value: the
declarations, the files and the words of the command line.
-/

namespace Schemata.Command

/-! ## Log lines -/

/-- How important a log line is. -/
inductive Level where
  | debug
  | info
  | warning
deriving DecidableEq

/-- The label of a level. -/
def Level.label : Level → String
  | .debug => "DEBUG"
  | .info => "INFO"
  | .warning => "WARNING"

/-- The parts of the command that log. -/
inductive Source where
  | graph
  | declarations
  | schemaDocument
  | toolDocument
  | writer

/-- The name under which a part logs. -/
def Source.name : Source → String
  | .graph => "type_graph_schema.introspect.context"
  | .declarations => "type_graph_schema.introspect.reflection"
  | .schemaDocument => "type_graph_schema.json_schema.transformer"
  | .toolDocument => "type_graph_schema.json_schema.function_calling"
  | .writer => "type_graph_schema.writer"

/-- A log line. -/
structure LogLine where
  level : Level
  source : Source
  content : String

/-- A log line as it is printed. -/
def LogLine.text (line : LogLine) : String :=
  line.level.label ++ " " ++ line.source.name ++ ": " ++ line.content

/-! ## Progress and outcome -/

/-- What a command leaves behind. -/
structure Outcome where
  exitCode : Nat := 0
  output : String := ""
  /-- The text for the standard error. -/
  messages : String := ""
  /-- A failure that the command does not expect. -/
  escaped : Option Error := none
  files : FileTree

/-- What a command works on. -/
structure Workplace where
  declarations : Declarations
  files : FileTree
  /-- The working folder. -/
  folder : Place

/-- The lines about the use of the command. -/
def usage : String :=
  "Usage: schemata [OPTIONS] TARGET [OUTPUT]\n"

/-- The help text. -/
def help : String :=
  usage ++ "\n" ++
  "  Generate a JSON Schema or function-calling schema for TARGET (module:attribute).\n\n" ++
  "Options:\n" ++
  "  -n, --name TEXT         Root name of the generated schema\n" ++
  "  -c, --config PATH\n" ++
  "  -f, --format [json-schema|function-calling]\n" ++
  "  --strict / --no-strict  Override the strict flag of the chosen preset\n" ++
  "  --indent INTEGER        JSON indentation (overrides config file)\n" ++
  "  -v, --verbose           Log graph building and transformation\n" ++
  "  --help                  Show this message and exit.\n"

/-- A text as the command prints it, without styling. -/
def plainly (content : String) : String :=
  String.ofList (Text.withoutStyling content.toList)

/-- The outcome of a command that stops. -/
def Stop.outcome (files : FileTree) (log : String) : Stop → Outcome
  | .misused fault =>
    { exitCode := 2, files
      messages := log ++ usage ++ "Try 'schemata --help' for help.\n\n" ++
        plainly ("Error: " ++ fault.message ++ "\n") }
  | .reported error =>
    { exitCode := 1, files
      messages := log ++ plainly ("Error: " ++ error.message ++ "\n") }
  | .escaped error => { exitCode := 1, files, messages := log, escaped := some error }

/-! ## Steps -/

/-- The settings in a file. -/
def readSettings (tree : FileTree) (place : Place) : Except Error GeneratorSettings :=
  match tree.occupant? place with
  | some (.file content) =>
    match Json.parse content with
    | .ok data => GeneratorSettings.ofJson data
    | .error error => .error (.unreadableSettings error)
  | some .folder => .error .placeIsFolder
  | none => .error .noFolder

/-- The settings of a command line. -/
def Options.settings (options : Options) (tree : FileTree) : Except Error GeneratorSettings := do
  let settings ← match options.config with
    | some place => readSettings tree place
    | none => pure {}
  return match options.indent with
    | some width => { settings with indent := .int width }
    | none => settings

/-- The dialect of the document: the format that is asked for, or else the one that fits
the target. -/
def Options.dialect (options : Options) (target : Hint) : Dialect :=
  match options.format, target with
  | some dialect, _ => dialect
  | none, .function _ => .tool
  | none, _ => .jsonSchema

/-- Override the strict flag. -/
def Options.adjust (options : Options) (flags : Flags) : Flags :=
  match options.strict with
  | some strict => { flags with strict := .bool strict }
  | none => flags

/-- The type graph of a target in a dialect. -/
def introspect (ds : Declarations) (settings : IntrospectionSettings) (dialect : Dialect)
    (target : Hint) : Introspected :=
  match dialect with
  | .jsonSchema => (ds.introspect settings target).1
  | .tool =>
    let refused : Introspected := { graph := .error .missingAttribute, warnings := [] }
    match target with
    | .function key => ((ds.function? key).map (ds.introspectFunction settings · |>.1)).getD refused
    | .declared key => ((ds.class? key).map (ds.introspectConstructor settings · |>.1)).getD refused
    | _ => refused

/-- The document of a graph, and what is logged about it. -/
def Options.document (options : Options) (settings : GeneratorSettings) (dialect : Dialect)
    (graph : TypeGraph) : Except Error ((Layout → String) × LogLine) := do
  let name := graph.documentName options.name
  match dialect with
  | .jsonSchema =>
    let document ← graph.toSchemaDocument (options.adjust settings.jsonSchema) name
    let entries := (document.body.defs.getD []).length
    return (document.encode, ⟨.debug, .schemaDocument,
      s!"Transformed '{name}' into JSON schema with {entries} $defs entries"⟩)
  | .tool =>
    let (_, type) ← graph.toolRoot
    let document ← graph.toToolDocument (options.adjust settings.tool)
    return (document.encode, ⟨.debug, .toolDocument,
      s!"Transformed '{name}' into function-calling schema '{type.name}'"⟩)

/-- The text of a document, and what is logged on the way to it. -/
def Options.generate (options : Options) (settings : GeneratorSettings) (ds : Declarations)
    (target : Hint) : Except Error String × List LogLine :=
  let dialect := options.dialect target
  let found := introspect ds settings.introspection dialect target
  let warnings := found.warnings.map fun text => (⟨.warning, .declarations, text⟩ : LogLine)
  match found.graph with
  | .error error => (.error error, warnings)
  | .ok graph =>
    let log := warnings ++
      [⟨.debug, .graph, s!"Built type graph with {graph.nodes.length} named nodes"⟩]
    match options.document settings dialect graph with
    | .error error => (.error error, log)
    | .ok (encode, line) => ((Layout.ofJson settings.indent).map encode, log ++ [line])

/-- Whether the command expects a failure and reports it. -/
def isReported : Error → Bool
  | .dangling .. | .invalidGraph .. | .undecodable _ | .invalidOutput _ | .unknownPreset ..
  | .awaitedFunction _ | .invalidMember .. => true
  | _ => false

/-- The log lines that are printed. -/
def printed (verbose : Bool) (log : List LogLine) : String :=
  String.join ((log.filter fun line => verbose || line.level = .warning).map (·.text ++ "\n"))

/-- The text of a place. -/
def placeText (place : Place) : String :=
  FilePath.toText { absolute := true, names := place }

/-- Carry a request for a document out. -/
def Options.run (options : Options) (work : Workplace) : Outcome :=
  let prepared : Except Stop (GeneratorSettings × Hint) := do
    let settings ← (options.settings work.files).mapError .escaped
    return (settings, ← findTarget work.declarations options.target)
  match prepared with
  | .error stop => stop.outcome work.files ""
  | .ok (settings, target) =>
    let (result, log) := options.generate settings work.declarations target
    let logged := printed options.verbose log
    match result with
    | .error error =>
      let stop : Stop := if isReported error then .reported error else .escaped error
      stop.outcome work.files logged
    | .ok text =>
      match options.output with
      | none => { output := plainly (text ++ "\n"), messages := logged, files := work.files }
      | some place =>
        let path : FilePath := { absolute := true, names := place }
        match FileTree.write (fun _ => false) {} work.folder path text |>.run work.files with
        | (.error error, files) => (Stop.escaped error).outcome files logged
        | (.ok (), files) =>
          let line : LogLine := ⟨.info, .writer, s!"Wrote schema to {placeText place}"⟩
          { messages := logged ++ printed options.verbose [line], files }

/-- Carry a command line out. -/
def run (work : Workplace) (words : List String) : Outcome :=
  match Request.read work.files work.folder words with
  | .error stop => stop.outcome work.files ""
  | .ok .help => { output := help, files := work.files }
  | .ok (.document options) => options.run work

end Schemata.Command
