import Schemata.Error
import Schemata.Json.Parser
import Schemata.Proofs.Json.Regular

/-!
# Values that texts hold

The reader writes the members of an object into a table one by one, and of members with one
name the last counts, so names are distinct at every depth.  A value that a text holds is
therefore regular unless it has NaN in it.

Main result:

- Theorem {lit}`regular_of_parse`: a value that a text holds is regular unless it holds NaN.
-/

namespace Schemata.Json

mutual

/-- Whether a value is NaN or has NaN in it, at any depth. -/
def holdsNaN : Json → Bool
  | .float .nan => true
  | .arr items => itemsHoldNaN items
  | .obj members => membersHoldNaN members
  | _ => false

/-- Whether one of the items of an array holds NaN. -/
def itemsHoldNaN : List Json → Bool
  | [] => false
  | item :: items => holdsNaN item || itemsHoldNaN items

/-- Whether the value of one of the members of an object holds NaN. -/
def membersHoldNaN : List (String × Json) → Bool
  | [] => false
  | (_, value) :: members => holdsNaN value || membersHoldNaN members

end

/-- Whether the value that a text holds has NaN in it. -/
def textHoldsNaN (text : String) : Bool :=
  match Json.parse text with
  | .ok value => value.holdsNaN
  | .error _ => false

theorem itemsHoldNaN_eq_false_iff {items : List Json} :
    itemsHoldNaN items = false ↔ ∀ item ∈ items, item.holdsNaN = false := by
  induction items with
  | nil => exact iff_of_true rfl nofun
  | cons item items ih => rw [itemsHoldNaN, Bool.or_eq_false_iff, ih, List.forall_mem_cons]

theorem membersHoldNaN_eq_false_iff {members : List (String × Json)} :
    membersHoldNaN members = false ↔ ∀ member ∈ members, member.2.holdsNaN = false := by
  induction members with
  | nil => exact iff_of_true rfl nofun
  | cons member members ih => rw [membersHoldNaN, Bool.or_eq_false_iff, ih, List.forall_mem_cons]

namespace Parser

/-- A value that is regular unless it holds NaN. -/
def Proper (value : Json) : Prop :=
  value.holdsNaN = false → value.Regular

/-- Members with distinct names and proper values. -/
structure ProperMembers (members : Table String Json) : Prop where
  names : members.keys.Nodup
  values : ∀ member ∈ members, Proper member.2

/-- A value that contains no others is proper. -/
theorem proper_of_not_isContainer {value : Json} (scalar : value.isContainer = false) :
    Proper value := by
  intro number
  cases value with
  | null => exact .null
  | bool value => exact .bool value
  | int value => exact .int value
  | float value =>
      refine .float ?_
      rintro rfl
      cases number
  | str text => exact .str text
  | arr | obj => cases scalar

/-- An array of proper values is proper. -/
theorem proper_arr {items : List Json} (all : ∀ item ∈ items, Proper item) :
    Proper (.arr items) := by
  intro number
  rw [holdsNaN, itemsHoldNaN_eq_false_iff] at number
  exact .arr fun item mem => all item mem (number item mem)

/-- An object with distinct names and proper values is proper. -/
theorem ProperMembers.proper_obj {members : Table String Json} (h : ProperMembers members) :
    Proper (.obj members) := by
  intro number
  rw [holdsNaN, membersHoldNaN_eq_false_iff] at number
  exact .obj h.names fun member mem => h.values member mem (number member mem)

theorem ProperMembers.nil : ProperMembers [] := ⟨List.nodup_nil, nofun⟩

/-- One more member keeps the names distinct, whether its name is new or not. -/
theorem ProperMembers.put {members : Table String Json} (h : ProperMembers members) (name : String)
    {value : Json} (proper : Proper value) : ProperMembers (members.put name value) where
  names := Table.nodup_keys_put h.names name value
  values member mem := by
    rcases Table.value_of_mem_put mem with hvalue | mem
    · exact hvalue ▸ proper
    · exact h.values member mem

/-- A number is no container. -/
theorem isContainer_number {text rest : List Char} {value : Json}
    (h : number text = .ok (value, rest)) : value.isContainer = false := by
  unfold number at h
  dsimp only at h
  split at h
  · cases h
  · split at h <;> cases h <;> rfl

/-- What the reader finds with a budget is proper. -/
structure FindsProper (budget : Nat) : Prop where
  value {text rest : List Char} {found : Json} (h : value budget text = .ok (found, rest)) :
    Proper found
  items {text rest : List Char} {found : List Json} (h : items budget text = .ok (found, rest)) :
    ∀ item ∈ found, Proper item
  members {known : Table String Json} {text rest : List Char} {found : Table String Json}
    (h : members budget known text = .ok (found, rest)) (proper : ProperMembers known) :
    ProperMembers found

theorem findsProper_zero : FindsProper 0 where
  value h := by rw [Parser.value] at h; cases h
  items h := by rw [Parser.items] at h; cases h
  members h _ := by rw [Parser.members] at h; cases h

/-- A value found with one more unit of budget is proper. -/
theorem FindsProper.value_succ {budget : Nat} (less : FindsProper budget) {text rest : List Char}
    {found : Json} (h : Parser.value (budget + 1) text = .ok (found, rest)) : Proper found := by
  unfold Parser.value at h
  split at h
  · obtain ⟨_, _, h⟩ := bind_eq_ok_iff.mp h
    cases h
    exact proper_of_not_isContainer rfl
  · split at h
    · cases h
      exact ProperMembers.nil.proper_obj
    · obtain ⟨_, hmembers, h⟩ := bind_eq_ok_iff.mp h
      cases h
      exact (less.members hmembers .nil).proper_obj
  · split at h
    · cases h
      exact proper_arr nofun
    · obtain ⟨_, hitems, h⟩ := bind_eq_ok_iff.mp h
      cases h
      exact proper_arr (less.items hitems)
  case h_10 => exact proper_of_not_isContainer (isContainer_number h)
  -- What is left are the names of null, of the truth values and of three numbers.
  all_goals
    cases h
    exact proper_of_not_isContainer rfl

/-- Items found with one more unit of budget are proper. -/
theorem FindsProper.items_succ {budget : Nat} (less : FindsProper budget) {text rest : List Char}
    {found : List Json} (h : Parser.items (budget + 1) text = .ok (found, rest)) :
    ∀ item ∈ found, Proper item := by
  rw [Parser.items] at h
  obtain ⟨⟨item, middle⟩, hitem, h⟩ := bind_eq_ok_iff.mp h
  dsimp only at h
  split at h
  · cases h
    exact List.forall_mem_singleton.mpr (less.value hitem)
  · obtain ⟨_, hmore, h⟩ := bind_eq_ok_iff.mp h
    cases h
    exact List.forall_mem_cons.mpr ⟨less.value hitem, less.items hmore⟩
  · cases h

/-- Members found with one more unit of budget keep the known ones proper. -/
theorem FindsProper.members_succ {budget : Nat} (less : FindsProper budget)
    {known found : Table String Json} {text rest : List Char}
    (h : Parser.members (budget + 1) known text = .ok (found, rest))
    (proper : ProperMembers known) : ProperMembers found := by
  unfold Parser.members at h
  split at h
  · obtain ⟨⟨name, middle⟩, _, h⟩ := bind_eq_ok_iff.mp h
    dsimp only at h
    split at h
    · obtain ⟨⟨content, _⟩, hcontent, h⟩ := bind_eq_ok_iff.mp h
      have hput := proper.put (String.ofList name) (less.value hcontent)
      dsimp only at h
      split at h
      · cases h
        exact hput
      · exact less.members h hput
      · cases h
    · cases h
  · cases h

/-- Every value that the reader finds is proper, by induction on its budget. -/
theorem findsProper (budget : Nat) : FindsProper budget := by
  induction budget with
  | zero => exact findsProper_zero
  | succ budget ih => exact ⟨ih.value_succ, ih.items_succ, ih.members_succ⟩

end Parser

/-- A value that a text holds is regular unless it holds NaN. -/
theorem regular_of_parse {text : String} {value : Json} (h : Json.parse text = .ok value)
    (number : textHoldsNaN text = false) : value.Regular := by
  rw [textHoldsNaN, h] at number
  unfold Json.parse at h
  dsimp only at h
  cases hdocument : Parser.document text.toList with
  | error stop => rw [hdocument] at h; cases h
  | ok found =>
      rw [hdocument] at h
      cases h
      unfold Parser.document at hdocument
      split at hdocument
      · cases hdocument
      · obtain ⟨⟨result, rest⟩, hvalue, hend⟩ := bind_eq_ok_iff.mp hdocument
        dsimp only at hend
        split at hend
        · cases hend
          exact (Parser.findsProper _).value hvalue number
        · cases hend

end Schemata.Json
