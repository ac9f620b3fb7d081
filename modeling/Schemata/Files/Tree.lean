import Schemata.Attempt
import Schemata.Error
import Schemata.Table
import Schemata.Text.Lines

/-!
# Files and folders

A file tree says which files and folders there are under one root, each at the place
that its names lead to.  A path is what a text says: names between slashes, from the
root or from a working folder.  Looking a path up walks over the names; a name of two
dots leads back, and every name but the last has to lead to a folder.

The system sets limits to the length of names and paths, and a text with a zero
character is no path.

Main results:

- Theorem {lit}`occupant?_put`, {lit}`occupant?_erase`: a change shows at its own place and
  nowhere else.
-/

namespace Schemata

/-- Names that lead from the root to a file or folder. -/
abbrev Place := List String

/-- What stands at a place. -/
inductive FileEntry where
  | file (content : String)
  | folder
deriving DecidableEq

/-- The files and folders under a root, which is a folder itself. -/
structure FileTree where
  entries : Table Place FileEntry := []

namespace FileTree

/-- What stands at a place. -/
def occupant? (tree : FileTree) (place : Place) : Option FileEntry :=
  if place.isEmpty then some .folder else Table.find? tree.entries place

/-- Put a file or folder at a place. -/
def put (tree : FileTree) (place : Place) (entry : FileEntry) : FileTree :=
  { entries := Table.put tree.entries place entry }

/-- Remove what stands at a place. -/
def erase (tree : FileTree) (place : Place) : FileTree :=
  { entries := Table.erase tree.entries place }

end FileTree

/-! ## Paths -/

/-- A path: names from the root or from the working folder. -/
structure FilePath where
  absolute : Bool := false
  names : List String

namespace FilePath

/-- The path of a text; empty names and single dots lead nowhere. -/
def ofText (text : String) : FilePath :=
  { absolute := "/".isPrefixOf text
    names := ((Text.splitAt '/' text.toList).map String.ofList).filter fun name => name != "" && name != "." }

/-- The text of a path. -/
def toText (path : FilePath) : String :=
  if path.absolute then "/" ++ "/".intercalate path.names
  else if path.names.isEmpty then "."
  else "/".intercalate path.names

/-- The most bytes that a path has. -/
def longest : Nat :=
  4095

/-- Why a path cannot be handed to the system. -/
def fault? (path : FilePath) : Option Error :=
  if path.names.any (·.toList.contains '\x00') then some .zeroInPath
  else if longest < path.toText.utf8ByteSize then some .refusedBySystem
  else none

/-- The path of the folder that a path leads through last. -/
def outer (path : FilePath) : FilePath :=
  { path with names := path.names.dropLast }

/-- The place where the names of a path begin. -/
def start (path : FilePath) (folder : Place) : Place :=
  if path.absolute then [] else folder

/-- The place of a path when names of two dots lead back whatever they follow. -/
def resolve (path : FilePath) (folder : Place) : Place :=
  path.names.foldl (fun place name => if name == ".." then place.dropLast else place ++ [name])
    (path.start folder)

end FilePath

namespace FileTree

/-- Why a path leads nowhere. -/
inductive Obstacle where
  /-- A name on the way leads to nothing. -/
  | nothing
  /-- A name on the way leads to a file. -/
  | file
  /-- A name is too long. -/
  | length
deriving DecidableEq

/-- The most bytes that a name has. -/
def longestName : Nat :=
  255

/-- The place that names lead to.  What they follow has to be a folder. -/
def locate (tree : FileTree) (place : Place) : List String → Except Obstacle Place
  | [] => .ok place
  | name :: names =>
    match tree.occupant? place with
    | none => .error .nothing
    | some (.file _) => .error .file
    | some .folder =>
      if longestName < name.utf8ByteSize then .error .length
      else locate tree (if name == ".." then place.dropLast else place ++ [name]) names

/-- Whether a path leads to something. -/
def exists? (tree : FileTree) (folder : Place) (path : FilePath) : Except Error Bool :=
  match path.fault? with
  | some .zeroInPath => .ok false
  | some error => .error error
  | none =>
    match tree.locate (path.start folder) path.names with
    | .ok place => .ok (tree.occupant? place).isSome
    | .error .length => .error .refusedBySystem
    | .error _ => .ok false

/-! ## Laws -/

/-- An entry that is put on a place stands there, and everything else stays. -/
theorem occupant?_put (tree : FileTree) {place : Place} (h : place ≠ []) (entry : FileEntry)
    (other : Place) :
    (tree.put place entry).occupant? other =
      if other = place then some entry else tree.occupant? other := by
  unfold occupant? put
  by_cases ho : other = place
  · subst ho
    simp [h, Table.find?_put]
  · cases other with
    | nil => simp [ho]
    | cons name names => simp [Table.find?_put, ho]

/-- An erased place is not found any more, and every other one is found as before. -/
theorem find?_erase (entries : Table Place FileEntry) (place other : Place) :
    Table.find? (Table.erase entries place) other =
      if other = place then none else Table.find? entries other := by
  induction entries with
  | nil => simp [Table.erase]
  | cons entry rest ih =>
    obtain ⟨key, value⟩ := entry
    by_cases hk : key = place
    · subst hk
      have : Table.erase ((key, value) :: rest) key = Table.erase rest key := by
        simp [Table.erase]
      rw [this, ih, Table.find?_cons]
      by_cases ho : other = key <;> simp [ho]
    · have : Table.erase ((key, value) :: rest) place = (key, value) :: Table.erase rest place := by
        simp [Table.erase, hk]
      rw [this, Table.find?_cons, Table.find?_cons, ih]
      by_cases ho : other = key
      · subst ho
        simp [hk]
      · simp [ho]

/-- Nothing stands on an erased place, and everything else stays. -/
theorem occupant?_erase (tree : FileTree) {place : Place} (h : place ≠ []) (other : Place) :
    (tree.erase place).occupant? other = if other = place then none else tree.occupant? other := by
  unfold occupant? erase
  cases other with
  | nil => simp [h.symm]
  | cons name names => simp [find?_erase]

end FileTree

end Schemata
