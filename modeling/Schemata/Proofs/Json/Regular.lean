import Schemata.Json.Basic

/-!
# Regular JSON values

A value is regular when it holds no NaN and the members of every object in it have
distinct names.  Such a value is the same as itself, and its text says all about it: of
members with one name a reader keeps the last.

Main result:

- Theorem {lit}`Regular.same_self`: a regular value is the same as itself.
-/

namespace Schemata.Json

/-- A value without NaN in which the members of every object have distinct names. -/
inductive Regular : Json → Prop
  | null : Regular .null
  | bool (value : Bool) : Regular (.bool value)
  | int (value : Int) : Regular (.int value)
  | float {value : Binary64} (number : value ≠ .nan) : Regular (.float value)
  | str (text : String) : Regular (.str text)
  | arr {items : List Json} (all : ∀ item ∈ items, Regular item) : Regular (.arr items)
  | obj {members : List (String × Json)} (names : (members.map Prod.fst).Nodup)
      (all : ∀ member ∈ members, Regular member.2) : Regular (.obj members)

/-- An array is the same as itself when its items are. -/
theorem sameItems_self {items : List Json} (all : ∀ item ∈ items, item.same item = true) :
    sameItems items items = true := by
  induction items with
  | nil => rfl
  | cons item items ih =>
      rw [List.forall_mem_cons] at all
      simp only [sameItems, all.1, ih all.2, Bool.and_self]

/-- Members that are found under their names on the other side, and are the same as
themselves, are the same as the other side. -/
theorem sameMembers_of_find? {members others : List (String × Json)}
    (found : ∀ member ∈ members, Table.find? others member.1 = some member.2)
    (all : ∀ member ∈ members, member.2.same member.2 = true) :
    sameMembers members others = true := by
  induction members with
  | nil => rfl
  | cons member members ih =>
      rcases member with ⟨name, value⟩
      rw [List.forall_mem_cons] at found all
      simp only [sameMembers, found.1, all.1, ih found.2 all.2, Bool.and_self]

/-- A regular value is the same as itself. -/
theorem Regular.same_self {value : Json} (regular : value.Regular) : value.same value = true := by
  induction regular with
  | null => rfl
  | bool value => simp [same, sameScalar, integer?]
  | int value => simp [same, sameScalar, integer?]
  | @float value number =>
      cases value with
      | nan => exact absurd rfl number
      | infinity | finite => simp [same, sameScalar, Binary64.same]
  | str text => simp [same, sameScalar]
  | arr all ih =>
      simp only [same]
      exact sameItems_self ih
  | @obj members names all ih =>
      have found : ∀ member ∈ members, Table.find? members member.1 = some member.2 :=
        fun member hmember => Table.find?_of_mem names hmember
      simp only [same, beq_self_eq_true, Bool.true_and]
      exact sameMembers_of_find? found ih

end Schemata.Json
