import Schemata.Files.Tree

/-!
# Temporary names

The temporary name beside a file is the file's name between points, with a number of
eight digits or more that no other file has.

Main results:

- Theorem {lit}`occupant?_temporaryName`: nothing stands under a temporary name.
-/

namespace Schemata.FileTree

/-- The digits of a number, at least eight. -/
def eightDigits (number : Nat) : List Char :=
  let digits := Nat.toDigits 10 number
  List.replicate (8 - digits.length) '0' ++ digits

/-- A name beside a file. -/
def nameBeside (name : String) (number : Nat) : String :=
  "." ++ name ++ "." ++ String.ofList (eightDigits number) ++ ".tmp"

/-- The places beside a file that are tried. -/
def placesBeside (tree : FileTree) (folder : Place) (name : String) : List Place :=
  (List.range (tree.entries.length + 1)).map fun number => folder ++ [nameBeside name number]

/-- A free name for a temporary file beside a file. -/
def temporaryName (tree : FileTree) (folder : Place) (name : String) : String :=
  let number := (List.range (tree.entries.length + 1)).find? fun number =>
    (tree.occupant? (folder ++ [nameBeside name number])).isNone
  nameBeside name (number.getD 0)

/-! ## Laws -/

/-- Different numbers have different digits. -/
theorem eightDigits_inj {m n : Nat} (h : eightDigits m = eightDigits n) : m = n := by
  have value (k : Nat) : Nat.ofDigitChars 10 (eightDigits k) 0 = k := by
    simp [eightDigits, Nat.ofDigitChars_append, Nat.ofDigitChars_replicate_zero,
      Nat.ofDigitChars_ten_toDigits]
  rw [← value m, h, value]

/-- Different numbers give different names beside a file. -/
theorem nameBeside_inj {name : String} {m n : Nat} (h : nameBeside name m = nameBeside name n) :
    m = n := by
  have h := congrArg String.toList h
  simp only [nameBeside, String.toList_append, String.toList_ofList, List.append_cancel_right_eq,
    List.append_cancel_left_eq] at h
  exact eightDigits_inj h

/-- The places that are tried for a temporary file are all different. -/
theorem nodup_placesBeside (tree : FileTree) (folder : Place) (name : String) :
    (tree.placesBeside folder name).Nodup := by
  refine List.Pairwise.map _ (fun m n hne heq => hne ?_) List.nodup_range
  simp only [List.append_cancel_left_eq, List.cons.injEq, and_true] at heq
  exact nameBeside_inj heq

/-- A place on which something stands is in the table, unless it is the root. -/
theorem mem_keys_of_occupant? {tree : FileTree} {place : Place} (hplace : place ≠ [])
    (h : (tree.occupant? place).isSome) : place ∈ Table.keys tree.entries := by
  have hempty : place.isEmpty = false := by simpa using hplace
  simp only [occupant?, hempty, Bool.false_eq_true, if_false] at h
  generalize tree.entries = entries at h
  induction entries with
  | nil => cases h
  | cons entry rest ih =>
    obtain ⟨key, value⟩ := entry
    rw [Table.find?_cons] at h
    by_cases hkey : place = key
    · simp [Table.keys, hkey]
    · rw [if_neg (by simpa using hkey)] at h
      exact List.mem_cons_of_mem _ (ih h)

/-- Not all places beside a file are taken, since there are more of them than entries. -/
theorem exists_free (tree : FileTree) (folder : Place) (name : String) :
    ∃ number ∈ List.range (tree.entries.length + 1),
      (tree.occupant? (folder ++ [nameBeside name number])).isNone := by
  refine Classical.byContradiction fun hnone => ?_
  have hsubset : tree.placesBeside folder name ⊆ Table.keys tree.entries := by
    intro place hplace
    obtain ⟨number, hnumber, rfl⟩ := List.mem_map.1 hplace
    refine mem_keys_of_occupant? (by simp) ?_
    cases hoccupant : tree.occupant? (folder ++ [nameBeside name number]) with
    | none => exact absurd ⟨number, hnumber, by simp [hoccupant]⟩ hnone
    | some entry => rfl
  have hlength := (tree.nodup_placesBeside folder name).length_le_of_subset hsubset
  simp only [placesBeside, Table.keys, List.length_map, List.length_range] at hlength
  omega

/-- Nothing stands under a temporary name. -/
theorem occupant?_temporaryName (tree : FileTree) (folder : Place) (name : String) :
    tree.occupant? (folder ++ [tree.temporaryName folder name]) = none := by
  obtain ⟨number, hnumber, hfree⟩ := tree.exists_free folder name
  rw [temporaryName]
  cases hfind : (List.range (tree.entries.length + 1)).find? fun number =>
      (tree.occupant? (folder ++ [nameBeside name number])).isNone with
  | none => exact absurd hfree (List.find?_eq_none.1 hfind number hnumber)
  | some found => simpa using List.find?_some hfind

end Schemata.FileTree
