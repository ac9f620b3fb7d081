import Schemata.Proofs.Conversion.Correspondence

/-!
# What documents depend on

A document depends on the nodes that references lead to from the root, and on their identifiers
as names.  It does not depend on the order of the table, on nodes out of reach, or on the keys of
maps, and other identifiers stand in it where the old ones did.  Both are cases of graphs that
resemble one another: in the first the identifiers stay, in the second all of the graph is
renamed.  Failures depend on no more than documents do.

Main results:

- Theorem {lit}`TypeGraph.documents_of_agrees`: graphs that agree within reach have the same
  documents, or fail alike.
- Theorem {lit}`TypeGraph.documents_of_rename`: the documents of a renamed graph are the renamed
  documents of the graph, or the failures name the new identifiers.
-/

namespace Schemata.TypeGraph

variable {change : TypeId → TypeId} {graph other : TypeGraph}

/-! ## Nodes within reach -/

/-- An outcome stays as it is when its result and its cause do. -/
theorem map_mapError_of_fixed {α : Type} {image : α → α} {cause : Error → Error}
    (results : ∀ result, image result = result) (causes : ∀ error, cause error = error)
    (outcome : Except Error α) : (outcome.map image).mapError cause = outcome := by
  cases outcome with
  | error error => exact congrArg Except.error (causes error)
  | ok result => exact congrArg Except.ok (results result)

/-- Graphs with the same root that agree on every reachable identifier have the same documents
in both dialects, with the shared definitions in the same order, or fail alike. -/
theorem documents_of_agrees (agrees : graph.Agrees other) (flags : Flags) :
    (∀ name, other.toSchemaDocument flags name = graph.toSchemaDocument flags name) ∧
      other.toToolDocument flags = graph.toToolDocument flags := by
  constructor
  · intro name
    rw [agrees.toSchemaDocument Function.injective_id flags name]
    exact map_mapError_of_fixed SchemaDocument.rename_id Error.rename_id _
  · rw [agrees.toToolDocument Function.injective_id flags]
    exact map_mapError_of_fixed ToolDocument.rename_id Error.rename_id _

/-- A list holds all that is reachable when it holds what the root and the nodes lead to. -/
theorem Reaches.mem_of_closed {ids : List TypeId} {id : TypeId} (h : graph.Reaches id)
    (root : graph.root.targets ⊆ ids)
    (closed : ∀ entry ∈ graph.nodes, entry.2.targets ⊆ ids) : id ∈ ids := by
  cases h with
  | root target => exact root target
  | step _ found target => exact closed _ (Table.mem_of_find? found) target

/-- Folders that hold other folders and labelled files. -/
def archive : TypeGraph where
  root := .named "Folder" false
  nodes := [
    ("Folder", .object {
      name := "Folder", properties := [
        { name := "entries", type := .inline (.list (.named "Entry" false) none) false }] }),
    ("Entry", .polymorphic {
      base := "Entry"
      variants := [⟨"File", .named "File" false⟩, ⟨"Folder", .named "Folder" false⟩]
      discriminator := some { mapping := some [("file", "File"), ("folder", "Folder")] } }),
    ("File", .object {
      name := "File", properties := [
        { name := "labels", type := .inline (.map (.inline (.primitive .string none) false)
            (.inline (.primitive .string none) false) none) true },
        { name := "parent", type := .named "Folder" true }] })]

/-- The same folders and files in another order, with labels under keys of a missing type and
links that nothing leads to. -/
def linkedArchive : TypeGraph where
  root := .named "Folder" false
  nodes := [
    ("Link", .list (.named "File" true) none),
    ("File", .object {
      name := "File", properties := [
        { name := "labels", type := .inline (.map (.named "Label" false)
            (.inline (.primitive .string none) false) none) true },
        { name := "parent", type := .named "Folder" true }] }),
    ("Entry", .polymorphic {
      base := "Entry"
      variants := [⟨"File", .named "File" false⟩, ⟨"Folder", .named "Folder" false⟩]
      discriminator := some { mapping := some [("file", "File"), ("folder", "Folder")] } }),
    ("Folder", .object {
      name := "Folder", properties := [
        { name := "entries", type := .inline (.list (.named "Entry" false) none) false }] })]

/-- The two archives have the same document. -/
theorem archive_agrees : archive.Agrees linkedArchive ∧ ∃ document,
    archive.toSchemaDocument (.initial .jsonSchema) "Archive" = .ok document ∧
    linkedArchive.toSchemaDocument (.initial .jsonSchema) "Archive" = .ok document := by
  have hagrees : archive.Agrees linkedArchive := by
    refine ⟨.named, fun id reached => ?_⟩
    have hid : id ∈ ["Folder", "Entry", "File"] :=
      reached.mem_of_closed (by simp [archive, TypeRef.targets])
        (by simp [archive, NodeOf.targets, TypeRef.targets, TypeRef.inlineTargets])
    simp only [List.mem_cons, List.not_mem_nil, or_false] at hid
    rcases hid with rfl | rfl | rfl
    · exact .some (.object (.cons (.retype (.inline (.list .named))) .nil))
    · exact .some (.polymorphic rfl)
    · exact .some (.object (.cons (.retype (.inline (.map (.inline .primitive))))
        (.cons (.retype .named) .nil)))
  refine ⟨hagrees, _, rfl, ?_⟩
  rw [(documents_of_agrees hagrees (.initial .jsonSchema)).1 "Archive"]
  rfl

/-! ## Other identifiers -/

/-- In both dialects, the document of a renamed graph is the renamed document of the graph, or
both conversions fail, the one with the renamed failure of the other, when the change keeps
identifiers apart. -/
theorem documents_of_rename (injective : change.Injective) (graph : TypeGraph) (flags : Flags) :
    (∀ name, (graph.rename change).toSchemaDocument flags name =
        ((graph.toSchemaDocument flags name).map (·.rename change)).mapError (·.rename change)) ∧
      (graph.rename change).toToolDocument flags =
        ((graph.toToolDocument flags).map (·.rename change)).mapError (·.rename change) := by
  have hresembles := graph.corresponds_rename injective
  exact ⟨hresembles.toSchemaDocument injective flags, hresembles.toToolDocument injective flags⟩

/-- The archive has a document, and with a mark before every identifier, the document has the
marks. -/
theorem archive_rename : ("old." ++ ·).Injective ∧ ∃ document,
    archive.toSchemaDocument (.initial .jsonSchema) "Archive" = .ok document ∧
    (archive.rename ("old." ++ ·)).toSchemaDocument (.initial .jsonSchema) "Archive" =
      .ok (document.rename ("old." ++ ·)) ∧
    (document.rename ("old." ++ ·)).body.definedIds = ["old.File", "old.Folder"] := by
  have hinjective : ("old." ++ ·).Injective := fun first second same =>
    (String.append_right_inj _).mp same
  refine ⟨hinjective, _, rfl, ?_, rfl⟩
  rw [(documents_of_rename hinjective archive (.initial .jsonSchema)).1 "Archive"]
  rfl

end Schemata.TypeGraph
