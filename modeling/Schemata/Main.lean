import Schemata.Command.Run
import Schemata.Declaration.Reader

/-!
# The program

The program runs the command on the files around the working folder.  It takes the
declarations from the file {lit}`declarations.json` in that folder, reads the files that
the command line names, and writes what the command changed.
-/

namespace Schemata.Program

/-- The file that holds the declarations. -/
def declarationsFile : String :=
  "declarations.json"

/-- What stands at a place of the system. -/
def readPlace (place : Place) : IO (Option FileEntry) := do
  let path := Command.placeText place
  try
    if ← (← IO.FS.realPath path).isDir then return some .folder
    else return some (.file (← IO.FS.readFile path))
  catch _ => return none

/-- The places that a command line names, each after the folders that it lies in. -/
def namedPlaces (folder : Place) (words : List String) : List Place :=
  match Command.readWords words with
  | .error _ => []
  | .ok words =>
    let configs := (words.options.filter (·.parameter = .config)).map (·.value)
    let paths := configs ++ (words.others.drop 1).take 1
    paths.flatMap fun path =>
      let place := (FilePath.ofText path).resolve folder
      (List.range place.length).map fun n => place.take (n + 1)

/-- The files and folders at the given places. -/
def readTree (places : List Place) : IO FileTree :=
  places.foldlM (fun tree place => do
    match ← readPlace place with
    | some entry => return tree.put place entry
    | none => return tree) {}

/-- Make the system agree with a changed tree. -/
def writeChanges (before after : FileTree) : IO Unit := do
  for (place, entry) in after.entries do
    if before.occupant? place != some entry then
      let path := Command.placeText place
      match entry with
      | .folder => IO.FS.createDirAll path
      | .file content =>
        let name := after.temporaryName place.dropLast (place.getLast?.getD "")
        let temporary := Command.placeText (place.dropLast ++ [name])
        IO.FS.writeFile temporary content
        IO.FS.rename temporary path

/-- The declarations of a folder; a folder without any has none. -/
def readDeclarations (folder : Place) : IO (Except String Declarations) := do
  match ← readPlace (folder ++ [declarationsFile]) with
  | some (.file content) =>
    match Json.parse content with
    | .ok value => return Declarations.read value
    | .error error => return .error error.message
  | _ => return .ok {}

/-- Run the command. -/
def run (words : List String) : IO UInt32 := do
  let folder := (FilePath.ofText (← IO.currentDir).toString).names
  match ← readDeclarations folder with
  | .error message =>
    IO.eprintln (declarationsFile ++ ": " ++ message)
    return 1
  | .ok declarations =>
    let files ← readTree (namedPlaces folder words)
    let outcome := Command.run { declarations, files, folder } words
    writeChanges files outcome.files
    IO.print outcome.output
    IO.eprint outcome.messages
    if let some error := outcome.escaped then IO.eprintln error.message
    return UInt32.ofNat outcome.exitCode

end Schemata.Program

/-- The entry point of the program. -/
def main (words : List String) : IO UInt32 :=
  Schemata.Program.run words
