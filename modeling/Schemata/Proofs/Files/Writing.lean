import Schemata.Files.Writing
import Schemata.Proofs.Attempt

/-!
# A file is written as a whole

A write puts the content into a temporary file beside the target and renames that file.
Whatever step the system refuses, the files that were there stay as they were: until the
rename the only changes are new folders on the way to the target and the temporary file,
and the temporary file goes away again when a later step fails.

Steps follow one another, so each of them is shown to end well or badly from the tree that
the step before leaves.  The place of the temporary file was free, which is why removing it
brings the old tree back.

Main results:

- Theorem {lit}`ends_createFolders`: the folders on the way are there in the end, and nothing
  but such folders is new.
- Theorem {lit}`ends_replace`: the temporary file takes the place of the target, or nothing
  changes.
- Theorem {lit}`write_isAtomic`: a write that succeeds leaves the content at the target, one
  that fails leaves everything as it was, and both may leave new folders on the way.
-/

namespace Schemata

/-! ## Where names lead -/

/-- One of the folders that a path leads through before its last name. -/
def FilePath.LeadsThrough (path : FilePath) (folder place : Place) : Prop :=
  ∃ names, names <+: path.outer.names ∧
    place = ({ path with names := names } : FilePath).resolve folder

namespace FileTree

variable {tree before middle after : FileTree} {start place found : Place} {names : List String}

/-- The place that names lead to when names of two dots lead back whatever they follow. -/
def followed (start : Place) (names : List String) : Place :=
  names.foldl (fun place name => if name == ".." then place.dropLast else place ++ [name]) start

/-- Going on to one more name that is no step up appends it to the place. -/
theorem followed_concat (start : Place) (names : List String) {name : String}
    (ordinary : name ≠ "..") :
    followed start (names ++ [name]) = followed start names ++ [name] := by
  simp [followed, ordinary]

/-- Where names lead to something, they lead to the place that they spell. -/
theorem locate_eq_followed (h : tree.locate start names = .ok found) :
    found = followed start names := by
  induction names generalizing start with
  | nil =>
      cases h
      rfl
  | cons name names ih =>
      rw [locate] at h
      split at h
      · cases h
      · cases h
      · split at h
        · cases h
        · exact ih h

/-- What names lead to depends on the folders on the way only. -/
theorem locate_of_folders
    (folders : ∀ place, before.occupant? place = some .folder →
      after.occupant? place = some .folder)
    (h : before.locate start names = .ok found) : after.locate start names = .ok found := by
  induction names generalizing start with
  | nil => exact h
  | cons name names ih =>
      rw [locate] at h ⊢
      split at h
      · cases h
      · cases h
      · next hfolder =>
          rw [folders start hfolder]
          split at h
          · cases h
          · next hshort =>
              rw [if_neg hshort]
              exact ih h

/-- One more name is followed from a folder when it is not too long. -/
theorem locate_concat (name : String) (h : tree.locate start names = .ok found)
    (hfolder : tree.occupant? found = some .folder) (short : name.utf8ByteSize ≤ longestName)
    (ordinary : name ≠ "..") : tree.locate start (names ++ [name]) = .ok (found ++ [name]) := by
  induction names generalizing start with
  | nil =>
      cases h
      rw [List.nil_append, locate, hfolder]
      simp [locate, short, ordinary]
  | cons first names ih =>
      rw [List.cons_append, locate]
      rw [locate] at h
      split at h
      · cases h
      · cases h
      · split at h
        · cases h
        · next hshort =>
            rw [if_neg hshort]
            exact ih h

/-! ## New folders -/

/-- Everything is as it was, but for new folders where some may be. -/
def GainsFolders (before : FileTree) (may : Place → Prop) (after : FileTree) : Prop :=
  ∀ place, after.occupant? place = before.occupant? place ∨
    may place ∧ before.occupant? place = none ∧ after.occupant? place = some .folder

namespace GainsFolders

variable {may : Place → Prop}

theorem refl (tree : FileTree) : tree.GainsFolders may tree :=
  fun _ => Or.inl rfl

theorem trans (h : before.GainsFolders may middle) (h' : middle.GainsFolders may after) :
    before.GainsFolders may after := by
  intro place
  rcases h' place with hsame | ⟨hmay, hnone, hfolder⟩
  · rw [hsame]
    exact h place
  · right
    refine ⟨hmay, ?_, hfolder⟩
    rcases h place with hsame | ⟨-, -, hnew⟩
    · rw [← hsame]
      exact hnone
    · rw [hnone] at hnew
      cases hnew

/-- What was a folder is one still. -/
theorem folder (h : before.GainsFolders may after)
    (hfolder : before.occupant? place = some .folder) : after.occupant? place = some .folder := by
  rcases h place with hsame | ⟨-, -, hnew⟩
  · rw [hsame]
    exact hfolder
  · exact hnew

end GainsFolders

section Steps

variable (refuses : Refusals) {may : Place → Prop}

/-- A step that is refused leaves the tree as it is. -/
theorem ends_carryOut {step : WriteStep} {change : FileTree → FileTree}
    {success : Unit → FileTree → Prop} {failure : FileTree → Prop}
    (hdone : success () (change tree)) (hrefused : failure tree) :
    (carryOut refuses step change).Ends tree success failure := by
  unfold carryOut
  split
  · exact Attempt.meets_fail.mpr hrefused
  · exact hdone

omit refuses in
/-- A place without a folder on it is not the root. -/
theorem ne_nil_of_occupant? (h : tree.occupant? place ≠ some .folder) : place ≠ [] := by
  intro hroot
  rw [hroot] at h
  exact h rfl

/-- Creating a folder ends with a folder at the place, and gains no other ones. -/
theorem ends_createFolder (hmay : may place) :
    (createFolder refuses place).Ends tree
      (fun _ after => tree.GainsFolders may after ∧ after.occupant? place = some .folder)
      (tree.GainsFolders may) := by
  rw [createFolder, Attempt.Ends, Attempt.meets_get_bind]
  cases hplace : tree.occupant? place with
  | none =>
      have hroot : place ≠ [] := by
        apply ne_nil_of_occupant?
        rw [hplace]
        simp
      apply ends_carryOut
      · constructor
        · intro other
          rw [occupant?_put tree hroot]
          by_cases same : other = place
          · right
            rw [same, if_pos rfl]
            exact ⟨hmay, hplace, rfl⟩
          · left
            rw [if_neg same]
        · rw [occupant?_put tree hroot, if_pos rfl]
      · exact .refl tree
  | some entry =>
      cases entry with
      | folder => exact Attempt.meets_pure.mpr ⟨.refl tree, hplace⟩
      | file content => exact Attempt.meets_fail.mpr (.refl tree)

/-- The folders on the way are there in the end, and nothing but such folders is new. -/
theorem ends_createFolders (hmay : ∀ outer, outer <+: names.reverse → may (followed start outer)) :
    (createFolders refuses start names).Ends tree
      (fun _ after => tree.GainsFolders may after ∧
        (names ≠ [] → after.occupant? (followed start names.reverse) = some .folder))
      (tree.GainsFolders may) := by
  induction names generalizing tree with
  | nil => exact Attempt.meets_pure.mpr ⟨.refl tree, fun h => absurd rfl h⟩
  | cons name outer ih =>
      have hlast : may (followed start (name :: outer).reverse) := hmay _ (List.prefix_refl _)
      have hcreate : ∀ tree place, tree.locate start (name :: outer).reverse = .ok place →
          (createFolder refuses place).Ends tree
            (fun _ after => tree.GainsFolders may after ∧ (name :: outer ≠ [] →
              after.occupant? (followed start (name :: outer).reverse) = some .folder))
            (tree.GainsFolders may) := by
        intro tree place hplace
        rw [locate_eq_followed hplace]
        apply (ends_createFolder refuses hlast).imp
        intro _ after h
        exact ⟨h.1, fun _ => h.2⟩
      rw [createFolders, Attempt.Ends, Attempt.meets_get_bind]
      cases hlocate : tree.locate start (name :: outer).reverse with
      | ok place => exact hcreate tree place hlocate
      | error obstacle =>
          cases obstacle with
          | file | length => exact Attempt.meets_fail.mpr (.refl tree)
          | nothing =>
              have houter : ∀ names, names <+: outer.reverse → may (followed start names) := by
                intro names h
                apply hmay
                rw [List.reverse_cons]
                exact h.trans (List.prefix_append ..)
              apply (ih houter).bind
              intro _ middle hmiddle
              rw [Attempt.meets_get_bind]
              cases hagain : middle.locate start (name :: outer).reverse with
              | error obstacle => exact Attempt.meets_fail.mpr hmiddle.1
              | ok place =>
                  apply (hcreate middle place hagain).mono
                  · intro _ after h
                    exact ⟨hmiddle.1.trans h.1, h.2⟩
                  · intro _ after h
                    exact hmiddle.1.trans h

/-! ## The temporary file -/

/-- The temporary file has a content, and everything else is as it was. -/
def HoldsTemporary (before : FileTree) (temporary : Place) (content : String) (after : FileTree) :
    Prop :=
  ∀ place, after.occupant? place =
    if place = temporary then some (.file content) else before.occupant? place

/-- The temporary file with a content has gone to the target. -/
def Moves (before : FileTree) (temporary target : Place) (content : String) (after : FileTree) :
    Prop :=
  ∀ place, after.occupant? place =
    if place = target then some (.file content)
    else if place = temporary then none else before.occupant? place

/-- A content with the end of its last line. -/
def asLines (content : String) : String :=
  if endsLine content then content else content ++ "\n"

variable {refuses} {temporary target : Place} {content : String}

/-- Checking a path leaves the tree alone, whether it finds a fault or not. -/
theorem ends_checkPath (path : FilePath) {success : Unit → FileTree → Prop}
    {failure : FileTree → Prop} (hfine : success () tree) (hfault : failure tree) :
    (checkPath path).Ends tree success failure := by
  unfold checkPath
  split
  · exact Attempt.meets_fail.mpr hfault
  · exact Attempt.meets_pure.mpr hfine

/-- Creating the temporary file ends with an empty one under a name that is short enough, or
changes nothing. -/
theorem ends_createTemporary (folder : Place) (name : String) :
    (createTemporary refuses folder name).Ends tree
      (fun _ after => name.utf8ByteSize ≤ longestName ∧
        tree.HoldsTemporary (folder ++ [name]) "" after)
      (fun after => after = tree) := by
  unfold createTemporary
  have hpath : (checkPath { absolute := true, names := folder ++ [name] }).Ends tree
      (fun _ after => after = tree) (fun after => after = tree) := ends_checkPath _ rfl rfl
  apply hpath.bind
  rintro _ _ rfl
  split
  · exact Attempt.meets_fail.mpr rfl
  · next hshort =>
      apply ends_carryOut
      · refine ⟨Nat.not_lt.mp hshort, fun place => ?_⟩
        exact occupant?_put _ (by simp) _ place
      · rfl

/-- Appending ends with the text after the content, or with the content alone. -/
theorem ends_append (more : String) (hroot : temporary ≠ [])
    (h : before.HoldsTemporary temporary content tree) :
    (append refuses temporary more).Ends tree
      (fun _ after => before.HoldsTemporary temporary (content ++ more) after)
      (before.HoldsTemporary temporary content) := by
  apply ends_carryOut
  · intro place
    have hfile : tree.occupant? temporary = some (.file content) := by
      rw [h temporary, if_pos rfl]
    rw [hfile]
    dsimp only
    rw [occupant?_put _ hroot, h place]
    by_cases same : place = temporary
    · rw [if_pos same, if_pos same]
    · rw [if_neg same, if_neg same, if_neg same]
  · exact h

/-- Filling ends with the content as lines, or with what was written before the failure. -/
theorem ends_fill (hroot : temporary ≠ []) (h : before.HoldsTemporary temporary "" tree) :
    (fill refuses temporary content).Ends tree
      (fun _ after => before.HoldsTemporary temporary (asLines content) after)
      (fun after => ∃ written, before.HoldsTemporary temporary written after) := by
  unfold fill asLines
  have hcontent : (append refuses temporary content).Ends tree
      (fun _ after => before.HoldsTemporary temporary content after)
      (before.HoldsTemporary temporary "") := by
    simpa using ends_append content hroot h
  apply (hcontent.mono (fun _ _ hafter => hafter) fun _ _ hafter => ⟨_, hafter⟩).bind
  intro _ middle hmiddle
  split
  · exact Attempt.meets_pure.mpr hmiddle
  · exact (ends_append "\n" hroot hmiddle).mono (fun _ _ hafter => hafter)
      fun _ _ hafter => ⟨_, hafter⟩

/-- Renaming moves the temporary file over the target, which is no folder, or leaves it where it
is. -/
theorem ends_rename (hroot : temporary ≠ []) (hne : target ≠ temporary)
    (h : before.HoldsTemporary temporary content tree) :
    (rename refuses temporary target).Ends tree
      (fun _ after => before.Moves temporary target content after ∧
        before.occupant? target ≠ some .folder)
      (before.HoldsTemporary temporary content) := by
  have hfile : tree.occupant? temporary = some (.file content) := by
    rw [h temporary, if_pos rfl]
  have htarget : tree.occupant? target = before.occupant? target := by
    rw [h target, if_neg hne]
  unfold rename
  rw [Attempt.Ends, Attempt.meets_get_bind, hfile, htarget]
  split
  · exact Attempt.meets_fail.mpr h
  · next hentry hfolder =>
      cases hentry
      have hplace : target ≠ [] := ne_nil_of_occupant? hfolder
      apply ends_carryOut
      · refine ⟨fun place => ?_, hfolder⟩
        rw [occupant?_put _ hplace, occupant?_erase _ hroot, h place]
        by_cases same : place = target
        · rw [if_pos same, if_pos same]
        · rw [if_neg same, if_neg same]
          by_cases other : place = temporary
          · rw [if_pos other, if_pos other]
          · rw [if_neg other, if_neg other, if_neg other]
      · exact h
  · exact Attempt.meets_fail.mpr h

/-- The temporary file takes the place of the target, or nothing changes. -/
theorem ends_replace {parent : Place} {name : Option String} (hroot : temporary ≠ [])
    (hne : ∀ last ∈ name, parent ++ [last] ≠ temporary) (free : before.occupant? temporary = none)
    (h : before.HoldsTemporary temporary "" tree) :
    (replace refuses temporary parent name content).Ends tree
      (fun _ after => ∃ last ∈ name,
        before.Moves temporary (parent ++ [last]) (asLines content) after ∧
          before.occupant? (parent ++ [last]) ≠ some .folder)
      (fun after => ∀ place, after.occupant? place = before.occupant? place) := by
  have herase : ∀ after content, before.HoldsTemporary temporary content after →
      ∀ place, (after.erase temporary).occupant? place = before.occupant? place := by
    intro after content hafter place
    rw [occupant?_erase after hroot, hafter place]
    by_cases same : place = temporary
    · rw [if_pos same, same, free]
    · rw [if_neg same, if_neg same]
  unfold replace
  apply Attempt.Meets.onFailure
  have hfill : (fill refuses temporary content).Ends tree
      (fun _ after => before.HoldsTemporary temporary (asLines content) after)
      (fun after => ∀ place, (after.erase temporary).occupant? place = before.occupant? place) := by
    apply (ends_fill hroot h).mono
    · exact fun _ _ hafter => hafter
    · rintro _ after ⟨written, hafter⟩
      exact herase after written hafter
  apply hfill.bind
  intro _ middle hmiddle
  cases name with
  | none => exact Attempt.meets_fail.mpr (herase middle _ hmiddle)
  | some last =>
      apply (ends_rename hroot (hne last rfl) hmiddle).mono
      · exact fun _ after hafter => ⟨last, rfl, hafter⟩
      · exact fun _ after hafter => herase after _ hafter

end Steps

/-! ## The whole write -/

/-- The temporary name is longer than the name of the file. -/
theorem utf8ByteSize_lt_temporaryName (tree : FileTree) (folder : Place) (name : String) :
    name.utf8ByteSize < (tree.temporaryName folder name).utf8ByteSize := by
  have hpoint : ".".utf8ByteSize = 1 := by decide
  simp only [temporaryName, nameBeside, String.utf8ByteSize_append, hpoint]
  omega

/-- A path with a file name leads from its outer folder to that name. -/
theorem resolve_of_fileName? {path : FilePath} {last : String} (h : last ∈ fileName? path) :
    path.names = path.outer.names ++ [last] ∧ last ≠ ".." ∧
      ∀ folder, path.resolve folder = path.outer.resolve folder ++ [last] := by
  rw [fileName?, Option.mem_def, Option.bind_eq_some_iff] at h
  obtain ⟨name, hlast, hname⟩ := h
  split at hname
  · cases hname
  · next hordinary =>
      cases hname
      have hnames : path.names = path.outer.names ++ [last] :=
        (List.dropLast_append_getLast? last hlast).symm
      have hne : last ≠ ".." := by simpa using hordinary
      refine ⟨hnames, hne, fun folder => ?_⟩
      calc path.resolve folder
        _ = followed (path.start folder) (path.outer.names ++ [last]) := by
            rw [← hnames]
            rfl
        _ = path.outer.resolve folder ++ [last] := followed_concat _ _ hne

/-- The content stands at the target, which the path leads to, and everything else is as it
was, but for new folders on the way. -/
structure Written (before : FileTree) (path : FilePath) (folder : Place) (content : String)
    (after : FileTree) : Prop where
  content : after.occupant? (path.resolve folder) = some (.file (asLines content))
  leads : before.occupant? (path.start folder) = some .folder →
    after.locate (path.start folder) path.names = .ok (path.resolve folder)
  others : ∀ place, place ≠ path.resolve folder →
    after.occupant? place = before.occupant? place ∨
      path.LeadsThrough folder place ∧ before.occupant? place = none ∧
        after.occupant? place = some .folder

variable {path : FilePath} {folder parent : Place} {content last : String}

/-- When the temporary file has gone to the target, the content is written. -/
theorem Moves.written {temporary : String} (name : last ∈ fileName? path)
    (gains : before.GainsFolders (path.LeadsThrough folder) middle)
    (hparent : middle.locate (path.start folder) path.outer.names = .ok parent)
    (hfolder : path.outer.names ≠ [] → middle.occupant? parent = some .folder)
    (free : middle.occupant? (parent ++ [temporary]) = none)
    (short : last.utf8ByteSize ≤ longestName)
    (hmoves : middle.Moves (parent ++ [temporary]) (parent ++ [last]) (asLines content) after)
    (noFolder : middle.occupant? (parent ++ [last]) ≠ some .folder) :
    before.Written path folder content after := by
  obtain ⟨hnames, hordinary, hresolve⟩ := resolve_of_fileName? name
  have hplace : parent = path.outer.resolve folder := locate_eq_followed hparent
  have htarget : path.resolve folder = parent ++ [last] := by
    rw [hresolve, hplace]
  have hfolders : ∀ place, middle.occupant? place = some .folder →
      after.occupant? place = some .folder := by
    intro place h
    have hnotTarget : place ≠ parent ++ [last] := by
      rintro rfl
      exact noFolder h
    have hnotTemporary : place ≠ parent ++ [temporary] := by
      rintro rfl
      rw [free] at h
      cases h
    rw [hmoves place, if_neg hnotTarget, if_neg hnotTemporary, h]
  constructor
  · rw [htarget, hmoves, if_pos rfl]
  · intro hstart
    have hmiddle : middle.occupant? parent = some .folder := by
      by_cases hempty : path.outer.names = []
      · rw [hempty] at hparent
        cases hparent
        exact gains.folder hstart
      · exact hfolder hempty
    rw [htarget, hnames]
    apply locate_concat last (locate_of_folders hfolders hparent) (hfolders parent hmiddle) short
      hordinary
  · intro place hne
    rw [htarget] at hne
    have hsame : after.occupant? place = middle.occupant? place := by
      rw [hmoves place, if_neg hne]
      split
      · next same => rw [same, free]
      · rfl
    rw [hsame]
    exact gains place

/-- Storing ends with the content written in the folder, or with more folders on the way and
nothing else. -/
theorem ends_store (refuses : Refusals) (folder : Place) (path : FilePath) (content : String)
    (tree : FileTree) :
    (store refuses folder path content).Ends tree
      (fun _ after => tree.Written path folder content after)
      (tree.GainsFolders (path.LeadsThrough folder)) := by
  have hpath : (checkPath path.outer).Ends tree (fun _ after => after = tree)
      (tree.GainsFolders (path.LeadsThrough folder)) := ends_checkPath _ rfl (.refl tree)
  have hfolders : (createFolders refuses (path.start folder) path.outer.names.reverse).Ends tree
      (fun _ after => tree.GainsFolders (path.LeadsThrough folder) after ∧
        (path.outer.names.reverse ≠ [] → after.occupant?
          (followed (path.start folder) path.outer.names.reverse.reverse) = some .folder))
      (tree.GainsFolders (path.LeadsThrough folder)) := by
    apply ends_createFolders
    intro names h
    rw [List.reverse_reverse] at h
    exact ⟨names, h, rfl⟩
  unfold store
  apply hpath.bind
  rintro _ tree rfl
  apply hfolders.bind
  intro _ middle hmiddle
  rw [Attempt.meets_get_bind]
  cases hlocate : middle.locate (path.start folder) path.outer.names with
  | error obstacle => exact Attempt.meets_fail.mpr hmiddle.1
  | ok parent =>
      have hfolder : path.outer.names ≠ [] → middle.occupant? parent = some .folder := by
        intro hne
        rw [locate_eq_followed hlocate]
        simpa using hmiddle.2 (by simpa using hne)
      have free := middle.occupant?_temporaryName parent (path.names.getLast?.getD "")
      have hlong := middle.utf8ByteSize_lt_temporaryName parent (path.names.getLast?.getD "")
      dsimp only
      generalize middle.temporaryName parent (path.names.getLast?.getD "") = temporary at free hlong
      have hname : ∀ last ∈ fileName? path, last.utf8ByteSize < temporary.utf8ByteSize := by
        intro last h
        rw [(resolve_of_fileName? h).1] at hlong
        simpa using hlong
      have htemporary : (createTemporary refuses parent temporary).Ends middle
          (fun _ after => temporary.utf8ByteSize ≤ longestName ∧
            middle.HoldsTemporary (parent ++ [temporary]) "" after)
          (tree.GainsFolders (path.LeadsThrough folder)) := by
        apply (ends_createTemporary parent temporary).mono
        · exact fun _ _ h => h
        · rintro _ _ rfl
          exact hmiddle.1
      apply htemporary.bind
      rintro _ started ⟨hshort, hstarted⟩
      have hother : ∀ last ∈ fileName? path, parent ++ [last] ≠ parent ++ [temporary] := by
        intro last hlast same
        rw [List.append_cancel_left_eq, List.cons.injEq] at same
        exact absurd (hname last hlast) (by simp [same.1])
      apply (ends_replace (by simp) hother free hstarted).mono
      · rintro _ after ⟨last, hlast, hmoves, noFolder⟩
        have hlength := Nat.le_trans (Nat.le_of_lt (hname last hlast)) hshort
        exact hmoves.written hlast hmiddle.1 hlocate hfolder free hlength noFolder
      · intro _ after hsame
        apply hmiddle.1.trans
        exact fun place => Or.inl (hsame place)

/-- A write that succeeds leaves the content at the target, and one that fails leaves
everything as it was, wherever it fails.  Both may leave new folders on the way. -/
theorem write_isAtomic (refuses : Refusals) (options : WriteOptions) (folder : Place)
    (path : FilePath) (content : String) (tree : FileTree) :
    (write refuses options folder path content).Ends tree
      (fun _ after => tree.Written path folder content after)
      (fun after => tree.GainsFolders (path.LeadsThrough folder) after) := by
  have hunchanged : tree.GainsFolders (path.LeadsThrough folder) tree := .refl tree
  have hstore := ends_store refuses folder path content tree
  have hunread : ∀ {α : Type} (outcome : Except Error α),
      (Attempt.ofExcept outcome).Ends tree (fun _ after => after = tree)
        (tree.GainsFolders (path.LeadsThrough folder)) :=
    fun outcome => Attempt.meets_ofExcept.mpr ⟨fun _ _ => rfl, fun _ _ => hunchanged⟩
  -- The two checks come first and leave the tree as it is, whether they are made or not.
  have hvalid : ∀ taken : Bool,
      (if taken then Attempt.fail (.outputExists path.toText)
        else if options.validate then
          Attempt.ofExcept (checkContent content) >>= fun _ => store refuses folder path content
        else store refuses folder path content : Step Unit).Ends tree
          (fun _ after => tree.Written path folder content after)
          (tree.GainsFolders (path.LeadsThrough folder)) := by
    intro taken
    split
    · exact Attempt.meets_fail.mpr hunchanged
    · split
      · apply (hunread _).bind
        rintro _ _ rfl
        exact hstore
      · exact hstore
  unfold write
  rw [Attempt.Ends, Attempt.meets_get_bind]
  by_cases overwrite : options.overwrite = true
  · rw [if_pos overwrite]
    exact hvalid false
  · rw [if_neg overwrite]
    apply (hunread _).bind
    rintro taken _ rfl
    exact hvalid taken

end FileTree

end Schemata
