import Schemata.Declaration.Evaluation

/-!
# Fields and hints of classes

A record has the fields of its ancestors, from the most distant one on, and its own.
A field that is written again keeps its place, also as a class variable, which is no
field any more.  The hints of a class are collected in the same order, and every hint is
read in the module of the class that wrote it.
-/

namespace Schemata

namespace Declarations

variable (ds : Declarations)

/-- The fields that a record writes itself. -/
def ownFields (cls : ClassDecl) : Table String Field :=
  Table.ofEntries (cls.fields.map fun field => (field.name, field))

/-- The fields of a record with those of its ancestors; of a plain class, those of
its first ancestor that is a record.  A class variable takes the place of a field of
that name. -/
def recordFields? : Nat → String → Option (Table String Field)
  | 0, _ => none
  | budget + 1, key =>
    match ds.lineage key with
    | [] => none
    | cls :: ancestors =>
      if cls.kind = .record then
        let inherited := ancestors.reverse.filterMap fun ancestor =>
          recordFields? budget ancestor.key
        some ((inherited ++ [ownFields cls]).foldl
          (fun table fields => fields.foldl (fun table entry => Table.put table entry.1 entry.2) table)
          [])
      else (ancestors.find? (·.kind == .record)).bind fun ancestor =>
        recordFields? budget ancestor.key

/-- The fields of a class that is a record or has one among its ancestors. -/
def fields? (key : String) : Option (List Field) :=
  (ds.recordFields? (ds.classes.length + 1) key).map fun table =>
    (table.map (·.2)).filter (!·.classVariable)

/-- Read the hints that a class writes itself after those that are known. -/
def ownHints (cls : ClassDecl) (known : Table String Hint) : Reading (Table String Hint) :=
  (Table.ofEntries (cls.fields.map fun field => (field.name, field.hint))).foldlM
    (fun table entry => do
      let hint ← ds.typeOf { module := cls.module, owner := some cls } entry.2
      return Table.put table entry.1 hint)
    known

/-- Read the hints of a class and its ancestors by name. -/
def hints (key : String) : Reading (Table String Hint) :=
  (ds.lineage key).reverse.foldlM (fun table cls => ds.ownHints cls table) []

end Declarations

end Schemata
