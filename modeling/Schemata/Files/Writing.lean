import Schemata.Files.Temporary
import Schemata.Json.Parser

/-!
# Writing a file

A file is replaced as a whole: the content goes to a temporary file beside the target,
which is then renamed.  The folders on the way are created first.  When a step fails,
the temporary file is removed, and all that stays are the new folders.

The system may refuse any step; {lit}`Refusals` says which ones, so the laws of writing
hold wherever it fails.
-/

namespace Schemata

/-- The steps that the system carries out for a write. -/
inductive WriteStep where
  | createFolder (place : Place)
  | createTemporary (place : Place)
  | append (place : Place) (content : String)
  | rename (source target : Place)

/-- The steps that the system refuses. -/
abbrev Refusals := WriteStep → Bool

/-- How a file is written. -/
structure WriteOptions where
  /-- Whether an existing file is replaced. -/
  overwrite : Bool := true
  /-- Whether the content has to be JSON. -/
  validate : Bool := true

namespace FileTree

/-- A step that changes the tree. -/
abbrev Step := Attempt FileTree

/-- Carry out a step unless the system refuses it. -/
def carryOut (refuses : Refusals) (step : WriteStep) (change : FileTree → FileTree) : Step Unit :=
  if refuses step then Attempt.fail .refusedBySystem else Attempt.modify change

/-- Have a folder at a place. -/
def createFolder (refuses : Refusals) (place : Place) : Step Unit := do
  match (← Attempt.get).occupant? place with
  | some .folder => pure ()
  | some (.file _) => Attempt.fail .placeTaken
  | none => carryOut refuses (.createFolder place) (·.put place .folder)

/-- The failure of a step that needs a place which names do not lead to. -/
def Obstacle.error : Obstacle → Error
  | .nothing | .file => .noFolder
  | .length => .refusedBySystem

/-- Have a folder where names lead to, the last of them first; what is missing on the
way is created. -/
def createFolders (refuses : Refusals) (start : Place) : List String → Step Unit
  | [] => pure ()
  | name :: outer => do
    match (← Attempt.get).locate start (name :: outer).reverse with
    | .ok place => createFolder refuses place
    | .error .nothing =>
      createFolders refuses start outer
      match (← Attempt.get).locate start (name :: outer).reverse with
      | .ok place => createFolder refuses place
      | .error obstacle => Attempt.fail obstacle.error
    | .error obstacle => Attempt.fail obstacle.error

/-- Refuse a path that cannot be handed to the system. -/
def checkPath (path : FilePath) : Step Unit :=
  match path.fault? with
  | some error => Attempt.fail error
  | none => pure ()

/-- Put a new empty file at a place, unless its name is too long. -/
def createTemporary (refuses : Refusals) (folder : Place) (name : String) : Step Unit := do
  checkPath { absolute := true, names := folder ++ [name] }
  if longestName < name.utf8ByteSize then Attempt.fail .refusedBySystem
  else
    let place := folder ++ [name]
    carryOut refuses (.createTemporary place) (·.put place (.file ""))

/-- Add a text at the end of a file. -/
def append (refuses : Refusals) (place : Place) (content : String) : Step Unit :=
  carryOut refuses (.append place content) fun tree =>
    match tree.occupant? place with
    | some (.file before) => tree.put place (.file (before ++ content))
    | _ => tree

/-- Move a file to a free place or to the place of another file. -/
def rename (refuses : Refusals) (source target : Place) : Step Unit := do
  let tree ← Attempt.get
  match tree.occupant? source, tree.occupant? target with
  | _, some .folder => Attempt.fail .placeIsFolder
  | some entry, _ =>
    carryOut refuses (.rename source target) fun tree => (tree.erase source).put target entry
  | none, _ => Attempt.fail .refusedBySystem

/-- Whether a text ends with a line feed. -/
def endsLine (content : String) : Bool :=
  content.toList.getLast? = some '\n'

/-- Fill the temporary file. -/
def fill (refuses : Refusals) (temporary : Place) (content : String) : Step Unit := do
  append refuses temporary content
  if endsLine content then pure () else append refuses temporary "\n"

/-- Fill the temporary file and move it to a name in its folder; without a name there
is nowhere to move it. -/
def replace (refuses : Refusals) (temporary folder : Place) (name : Option String)
    (content : String) : Step Unit :=
  Attempt.onFailure (do
      fill refuses temporary content
      match name with
      | some name => rename refuses temporary (folder ++ [name])
      | none => Attempt.fail .refusedBySystem)
    (·.erase temporary)

/-- The name of the file that a path leads to. -/
def fileName? (path : FilePath) : Option String :=
  path.names.getLast?.bind fun name => if name == ".." then none else some name

/-- Refuse a content that is not JSON. -/
def checkContent (content : String) : Except Error Unit :=
  match Json.parse content with
  | .ok _ => .ok ()
  | .error error => .error (.invalidOutput error)

/-- Put a content at the end of a path that begins in a working folder. -/
def store (refuses : Refusals) (folder : Place) (path : FilePath) (content : String) :
    Step Unit := do
  let start := path.start folder
  checkPath path.outer
  createFolders refuses start path.outer.names.reverse
  let tree ← Attempt.get
  match tree.locate start path.outer.names with
  | .error obstacle => Attempt.fail obstacle.error
  | .ok parent =>
    let name := tree.temporaryName parent (path.names.getLast?.getD "")
    createTemporary refuses parent name
    replace refuses (parent ++ [name]) parent (fileName? path) content

/-- Write a file. -/
def write (refuses : Refusals) (options : WriteOptions) (folder : Place) (path : FilePath)
    (content : String) : Step Unit := do
  let tree ← Attempt.get
  let taken ← if options.overwrite then pure false else Attempt.ofExcept (tree.exists? folder path)
  if taken then Attempt.fail (.outputExists path.toText)
  else
    if options.validate then Attempt.ofExcept (checkContent content) else pure ()
    store refuses folder path content

end FileTree

end Schemata
