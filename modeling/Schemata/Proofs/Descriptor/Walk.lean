import Mathlib.Data.Nat.Init
import Schemata.Descriptor.Introspection

/-!
# The walk that names subtypes

Subtypes take their identifiers in a walk over all descriptors that the root leads to,
breadth first.  The walk comes to each of them, for every step takes a descriptor off the
list, and a descriptor puts its elements on the list once only.  So a subtype is named after
the first sealed descriptor on the walk that holds it.

Main results:

- Definition {lit}`Catalog.visits`: the keys that a walk comes to, in order.
- Theorem {lit}`Catalog.mem_visits_iff`: the walk from a root comes to what the root leads to.
- Theorem {lit}`Catalog.nodup_visits`: it comes to each key once.
- Theorem {lit}`Catalog.visits_eq_of_le`: it ends by itself, for more budget leads no further.
- Theorem {lit}`Catalog.find?_subtypeIds`: a subtype takes its identifier under the first
  descriptor on the walk that holds it.
-/

namespace Schemata

namespace Catalog

variable (catalog : Catalog)

/-- The keys that a walk comes to, in the order in which it reads them. -/
def visits : Nat → List DescriptorKey → List DescriptorKey → List DescriptorKey
  | 0, _, _ => []
  | _ + 1, [], _ => []
  | budget + 1, key :: pending, seen =>
    if seen.contains key then visits budget pending seen
    else
      match Table.find? catalog key with
      | none => key :: visits budget pending (key :: seen)
      | some descriptor =>
        key :: visits budget (pending ++ descriptor.elements.map (·.descriptor)) (key :: seen)

/-- The keys that a key leads to through elements, itself included. -/
inductive Leads (root : DescriptorKey) : DescriptorKey → Prop
  | root : Leads root root
  | step {key : DescriptorKey} {descriptor : Descriptor} {element : Element}
      (earlier : Leads root key) (found : Table.find? catalog key = some descriptor)
      (mem : element ∈ descriptor.elements) : Leads root element.descriptor

/-- How many elements the descriptors hold that a walk has not come to. -/
def unseen (seen : List DescriptorKey) : Nat :=
  ((catalog.filter fun entry => !seen.contains entry.1).flatMap fun entry => entry.2.elements).length

/-- A walk that had seen some keys came to all others of its list, and to the elements of
what it came to. -/
structure Covers (seen pending visited : List DescriptorKey) : Prop where
  list : ∀ key ∈ pending, key ∈ seen ∨ key ∈ visited
  elements : ∀ key ∈ visited, ∀ descriptor, Table.find? catalog key = some descriptor →
    ∀ element ∈ descriptor.elements, element.descriptor ∈ seen ∨ element.descriptor ∈ visited

variable {catalog} {root key : DescriptorKey} {descriptor : Descriptor}
variable {seen pending more visited : List DescriptorKey}

/-! ## Where a walk comes to -/

/-- A walk comes only to what its list leads to. -/
theorem leads_of_mem_visits {budget : Nat}
    (known : ∀ other ∈ pending, catalog.Leads root other)
    (mem : key ∈ catalog.visits budget pending seen) : catalog.Leads root key := by
  induction budget generalizing pending seen with
  | zero => cases mem
  | succ budget ih =>
      cases pending with
      | nil => cases mem
      | cons first pending =>
          rw [List.forall_mem_cons] at known
          rw [visits] at mem
          split at mem
          · exact ih known.2 mem
          · split at mem
            · rcases List.mem_cons.mp mem with rfl | mem
              · exact known.1
              · exact ih known.2 mem
            · rename_i descriptor found
              rcases List.mem_cons.mp mem with rfl | mem
              · exact known.1
              · refine ih (fun other hother => ?_) mem
                rcases List.mem_append.mp hother with hother | hother
                · exact known.2 other hother
                · rcases List.mem_map.mp hother with ⟨element, helement, rfl⟩
                  exact .step known.1 found helement

/-- An entry counts for its elements until a walk has come to it. -/
theorem unseen_entry (entry : DescriptorKey × Descriptor) (rest : Catalog)
    (seen : List DescriptorKey) :
    unseen (entry :: rest) seen =
      (if seen.contains entry.1 then 0 else entry.2.elements.length) + rest.unseen seen := by
  rw [unseen, unseen, List.filter_cons]
  cases seen.contains entry.1 <;> simp

/-- At first all elements count. -/
theorem unseen_nil (catalog : Catalog) :
    catalog.unseen [] = (catalog.flatMap fun entry => entry.2.elements).length := by
  have hall : catalog.filter (fun entry => !List.contains [] entry.1) = catalog := by simp
  rw [unseen, hall]

/-- Seeing one more key leaves no more elements unseen. -/
theorem unseen_cons_le (catalog : Catalog) (key : DescriptorKey) (seen : List DescriptorKey) :
    catalog.unseen (key :: seen) ≤ catalog.unseen seen := by
  induction catalog with
  | nil => exact Nat.le_refl _
  | cons entry rest ih =>
      rw [unseen_entry, unseen_entry, List.contains_cons]
      by_cases same : entry.1 = key
      · rw [same, beq_self_eq_true, Bool.true_or, if_pos rfl]
        omega
      · rw [beq_eq_false_iff_ne.mpr same, Bool.false_or]
        omega

/-- The elements of a descriptor do not count any more when a walk has come to it. -/
theorem unseen_cons (mem : (key, descriptor) ∈ catalog)
    (new : key ∉ seen) :
    descriptor.elements.length + catalog.unseen (key :: seen) ≤ catalog.unseen seen := by
  induction catalog with
  | nil => cases mem
  | cons entry rest ih =>
      rw [unseen_entry, unseen_entry, List.contains_cons]
      rcases List.mem_cons.mp mem with rfl | mem
      · have hrest := unseen_cons_le rest key seen
        have hnew : seen.contains key = false := by simpa using new
        rw [beq_self_eq_true, Bool.true_or, if_pos rfl, hnew, if_neg Bool.false_ne_true]
        dsimp only
        omega
      · have hrest := ih mem
        by_cases same : entry.1 = key
        · rw [same, beq_self_eq_true, Bool.true_or, if_pos rfl]
          omega
        · rw [beq_eq_false_iff_ne.mpr same, Bool.false_or]
          omega

/-- A key goes in front of what was visited after it. -/
theorem Covers.cons {first : DescriptorKey} (h : catalog.Covers (first :: seen) more visited)
    (list : ∀ key ∈ pending, key ∈ more)
    (elements : ∀ descriptor, Table.find? catalog first = some descriptor →
      ∀ element ∈ descriptor.elements, element.descriptor ∈ more) :
    catalog.Covers seen (first :: pending) (first :: visited) := by
  have hmove : ∀ {key}, key ∈ first :: seen ∨ key ∈ visited → key ∈ seen ∨ key ∈ first :: visited := by
    intro key h
    rw [List.mem_cons] at h ⊢
    rcases h with (rfl | hseen) | hvisited
    · exact Or.inr (Or.inl rfl)
    · exact Or.inl hseen
    · exact Or.inr (Or.inr hvisited)
  constructor
  · intro key mem
    rcases List.mem_cons.mp mem with rfl | mem
    · exact Or.inr (List.mem_cons_self ..)
    · exact hmove (h.list key (list key mem))
  · intro key mem descriptor found element helement
    rcases List.mem_cons.mp mem with rfl | mem
    · exact hmove (h.list _ (elements descriptor found element helement))
    · exact hmove (h.elements key mem descriptor found element helement)

/-- A walk with enough budget comes to its list, and to all elements of what it comes to. -/
theorem covers_visits {budget : Nat} (enough : pending.length + catalog.unseen seen ≤ budget) :
    catalog.Covers seen pending (catalog.visits budget pending seen) := by
  induction budget generalizing pending seen with
  | zero =>
      have hempty : pending = [] := List.length_eq_zero_iff.mp (by omega)
      rw [hempty]
      exact ⟨by simp, by simp [visits]⟩
  | succ budget ih =>
      cases pending with
      | nil => exact ⟨by simp, by simp [visits]⟩
      | cons first pending =>
          rw [List.length_cons] at enough
          rw [visits]
          split
          · rename_i known
            have hrest : catalog.Covers seen pending (catalog.visits budget pending seen) :=
              ih (by omega)
            exact ⟨List.forall_mem_cons.mpr ⟨Or.inl (List.contains_iff_mem.mp known), hrest.list⟩,
              hrest.elements⟩
          · rename_i new
            rw [List.contains_iff_mem] at new
            split
            · rename_i unknown
              have hless := unseen_cons_le catalog first seen
              refine (ih (by omega)).cons (fun _ mem => mem) fun descriptor found => ?_
              cases unknown.symm.trans found
            · rename_i descriptor found
              have hless := unseen_cons (Table.mem_of_find? found) new
              refine (ih ?_).cons (fun _ mem => List.mem_append_left _ mem) ?_
              · rw [List.length_append, List.length_map]
                omega
              · intro other hother element helement
                cases found.symm.trans hother
                exact List.mem_append_right _ (List.mem_map_of_mem helement)

/-- The walk from a root has enough budget for the root and all elements. -/
theorem enough_budget (catalog : Catalog) (root : DescriptorKey) :
    [root].length + catalog.unseen [] ≤
      (catalog.flatMap fun entry => entry.2.elements).length + 2 := by
  rw [unseen_nil, List.length_singleton]
  omega

/-- The walk from a root comes to what the root leads to. -/
theorem mem_visits_iff : key ∈ catalog.visits
    ((catalog.flatMap fun entry => entry.2.elements).length + 2) [root] [] ↔
      catalog.Leads root key := by
  have hcovers := covers_visits (enough_budget catalog root)
  constructor
  · exact leads_of_mem_visits (by simp [Leads.root])
  · intro h
    induction h with
    | root => exact (hcovers.list root (List.mem_singleton.mpr rfl)).resolve_left List.not_mem_nil
    | step _ found mem ih =>
        exact (hcovers.elements _ ih _ found _ mem).resolve_left List.not_mem_nil

/-- A walk comes to a key once, and not to those that it has seen. -/
theorem nodup_visits {budget : Nat} :
    (catalog.visits budget pending seen).Nodup ∧
      ∀ key ∈ catalog.visits budget pending seen, key ∉ seen := by
  induction budget generalizing pending seen with
  | zero => exact ⟨List.nodup_nil, nofun⟩
  | succ budget ih =>
      cases pending with
      | nil => exact ⟨List.nodup_nil, nofun⟩
      | cons first pending =>
          have hfirst (more : List DescriptorKey) (new : first ∉ seen) :
              (first :: catalog.visits budget more (first :: seen)).Nodup ∧
                ∀ key ∈ first :: catalog.visits budget more (first :: seen), key ∉ seen := by
            have hrest : (catalog.visits budget more (first :: seen)).Nodup ∧
                ∀ key ∈ catalog.visits budget more (first :: seen), key ∉ first :: seen := ih
            rcases hrest with ⟨hnodup, hunseen⟩
            refine ⟨List.nodup_cons.mpr ⟨fun mem => ?_, hnodup⟩, ?_⟩
            · exact hunseen first mem (List.mem_cons_self ..)
            · refine List.forall_mem_cons.mpr ⟨new, fun key mem old => ?_⟩
              exact hunseen key mem (List.mem_cons_of_mem _ old)
          rw [visits]
          split
          · exact ih
          · rename_i new
            rw [List.contains_iff_mem] at new
            split <;> exact hfirst _ new

/-- With enough budget for its list and what is not seen yet, a walk ends by itself. -/
theorem visits_succ {budget : Nat} (enough : pending.length + catalog.unseen seen ≤ budget) :
    catalog.visits (budget + 1) pending seen = catalog.visits budget pending seen := by
  induction budget generalizing pending seen with
  | zero =>
      have hempty : pending = [] := List.length_eq_zero_iff.mp (by omega)
      rw [hempty]
      rfl
  | succ budget ih =>
      cases pending with
      | nil => rfl
      | cons first pending =>
          rw [List.length_cons] at enough
          rw [visits, visits]
          split
          · exact ih (by omega)
          · rename_i new
            rw [List.contains_iff_mem] at new
            split
            · have hless := unseen_cons_le catalog first seen
              rw [ih (by omega)]
            · rename_i descriptor found
              have hless := unseen_cons (Table.mem_of_find? found) new
              rw [ih ?_]
              rw [List.length_append, List.length_map]
              omega

/-- More budget than the walk from a root takes leads no further. -/
theorem visits_eq_of_le {budget : Nat}
    (enough : (catalog.flatMap fun entry => entry.2.elements).length + 2 ≤ budget) :
    catalog.visits budget [root] [] =
      catalog.visits ((catalog.flatMap fun entry => entry.2.elements).length + 2) [root] [] := by
  induction budget, enough using Nat.le_induction with
  | base => rfl
  | succ budget enough ih => rw [visits_succ (Nat.le_trans (enough_budget catalog root) enough), ih]

/-! ## The names of subtypes -/

/-- The descriptor is a well-formed sealed one that holds the subtype. -/
def holds (catalog : Catalog) (base : Descriptor) (key : DescriptorKey) : Bool :=
  base.kind = .sealed && (catalog.subtypes? base).any (·.contains key)

/-- The first sealed descriptor on the walk from a root that holds the subtype. -/
def base? (catalog : Catalog) (root key : DescriptorKey) : Option Descriptor :=
  ((catalog.visits ((catalog.flatMap fun entry => entry.2.elements).length + 2) [root] []).filterMap
    catalog.find?).find? (catalog.holds · key)

/-- The identifier that a descriptor gives to a subtype that it holds. -/
def nameUnder? (catalog : Catalog) (base : Descriptor) (key : DescriptorKey) : Option TypeId :=
  (Table.find? catalog key).map fun subtype =>
    Session.qualify base.simpleName subtype.simpleName

/-- A subtype is held by some descriptor exactly when the root leads to one that holds it. -/
theorem base?_isSome_iff : (catalog.base? root key).isSome = true ↔
    ∃ other base, catalog.Leads root other ∧ Table.find? catalog other = some base ∧
      catalog.holds base key = true := by
  rw [base?, List.find?_isSome]
  constructor
  · rintro ⟨base, mem, hholds⟩
    rcases List.mem_filterMap.mp mem with ⟨other, hother, found⟩
    exact ⟨other, base, mem_visits_iff.mp hother, found, hholds⟩
  · rintro ⟨other, base, hleads, found, hholds⟩
    exact ⟨base, List.mem_filterMap.mpr ⟨other, mem_visits_iff.mpr hleads, found⟩, hholds⟩

/-- Give a subtype its identifier, unless it has one or is unknown. -/
def nameSubtype (catalog : Catalog) (base : Descriptor) (ids : Table DescriptorKey TypeId)
    (key : DescriptorKey) : Table DescriptorKey TypeId :=
  match Table.find? catalog key with
  | some subtype =>
    if Table.has ids key then ids
    else Table.put ids key (Session.qualify base.simpleName subtype.simpleName)
  | none => ids

/-- Naming a subtype fills in its identifier where there is none, and changes no other. -/
theorem find?_nameSubtype (base : Descriptor) (ids : Table DescriptorKey TypeId)
    (other : DescriptorKey) :
    (catalog.nameSubtype base ids other).find? key =
      (ids.find? key).or (if key == other then catalog.nameUnder? base key else none) := by
  rw [nameSubtype, nameUnder?]
  by_cases same : key = other
  · subst same
    rw [if_pos (beq_self_eq_true key)]
    cases Table.find? catalog key with
    | none => rw [Option.map_none, Option.or_none]
    | some subtype =>
        rw [Option.map_some]
        dsimp only
        by_cases known : Table.has ids key = true
        · rw [if_pos known]
          rcases Option.isSome_iff_exists.mp known with ⟨id, hid⟩
          rw [hid, Option.some_or]
        · have hnone : ids.find? key = none := Option.not_isSome_iff_eq_none.mp known
          rw [if_neg known, Table.find?_put, if_pos (beq_self_eq_true key), hnone, Option.none_or]
  · have hne : (key == other) = false := beq_eq_false_iff_ne.mpr same
    rw [hne, if_neg Bool.false_ne_true, Option.or_none]
    cases Table.find? catalog other with
    | none => rfl
    | some subtype =>
        dsimp only
        split
        · rfl
        · rw [Table.find?_put, hne, if_neg Bool.false_ne_true]

/-- Naming subtypes one after the other gives identifiers to those that have none. -/
theorem find?_foldl_nameSubtype (base : Descriptor) (subtypes : List DescriptorKey)
    (ids : Table DescriptorKey TypeId) :
    (subtypes.foldl (catalog.nameSubtype base) ids).find? key = (ids.find? key).or
      (if subtypes.contains key then catalog.nameUnder? base key else none) := by
  induction subtypes generalizing ids with
  | nil => simp
  | cons first subtypes ih =>
      rw [List.foldl_cons, ih, find?_nameSubtype, Option.or_assoc, List.contains_cons]
      congr 1
      cases key == first
      · simp
      · cases catalog.nameUnder? base key <;> simp

/-- Naming the subtypes of a descriptor gives identifiers to those that have none. -/
theorem find?_nameSubtypes (base : Descriptor) (ids : Table DescriptorKey TypeId) :
    (catalog.nameSubtypes base ids).find? key =
      (ids.find? key).or (if catalog.holds base key then catalog.nameUnder? base key else none) := by
  rw [nameSubtypes, holds]
  split
  · rename_i subtypes kind hsubtypes
    rw [hsubtypes, decide_eq_true kind, Option.any_some, Bool.true_and]
    exact find?_foldl_nameSubtype base subtypes ids
  · rename_i other
    have hfalse : (decide (base.kind = .sealed) &&
        (catalog.subtypes? base).any (·.contains key)) = false := by
      rw [Bool.and_eq_false_iff]
      cases hsubtypes : catalog.subtypes? base with
      | none => exact Or.inr rfl
      | some subtypes => exact Or.inl (decide_eq_false fun kind => other subtypes kind hsubtypes)
    rw [hfalse, if_neg Bool.false_ne_true, Option.or_none]

/-- A walk names the subtypes of what it comes to in order. -/
theorem find?_walk {budget : Nat} (ids : Table DescriptorKey TypeId) :
    (catalog.walk budget pending seen ids).find? key = (ids.find? key).or
      ((((catalog.visits budget pending seen).filterMap catalog.find?).find?
        (catalog.holds · key)).bind (catalog.nameUnder? · key)) := by
  induction budget generalizing pending seen ids with
  | zero => simp [walk, visits]
  | succ budget ih =>
      cases pending with
      | nil => simp [walk, visits]
      | cons first pending =>
          rw [walk, visits]
          split
          · exact ih ids
          · cases hfound : Table.find? catalog first with
            | none =>
                dsimp only
                rw [ih, List.filterMap_cons_none hfound]
            | some descriptor =>
                dsimp only
                rw [ih, find?_nameSubtypes, Option.or_assoc, List.filterMap_cons_some hfound,
                  List.find?_cons]
                congr 1
                cases catalog.holds descriptor key with
                | false => simp
                | true => cases hkey : Table.find? catalog key <;> simp [nameUnder?, hkey]

/-- Name the subtypes of what a walk comes to. -/
def nameAt (catalog : Catalog) (ids : Table DescriptorKey TypeId) (key : DescriptorKey) :
    Table DescriptorKey TypeId :=
  match Table.find? catalog key with
  | some descriptor => catalog.nameSubtypes descriptor ids
  | none => ids

/-- A walk does one step for each key that it comes to, and no other. -/
theorem walk_eq_foldl {budget : Nat} (ids : Table DescriptorKey TypeId) :
    catalog.walk budget pending seen ids =
      (catalog.visits budget pending seen).foldl catalog.nameAt ids := by
  induction budget generalizing pending seen ids with
  | zero => rfl
  | succ budget ih =>
      cases pending with
      | nil => rfl
      | cons first pending =>
          rw [walk, visits]
          split
          · exact ih ids
          · cases hfound : Table.find? catalog first with
            | none => simp only [ih, List.foldl_cons, nameAt, hfound]
            | some descriptor => simp only [ih, List.foldl_cons, nameAt, hfound]

/-- A subtype takes its identifier under the first sealed descriptor that holds it. -/
theorem find?_subtypeIds :
    (catalog.subtypeIds root).find? key =
      (catalog.base? root key).bind (catalog.nameUnder? · key) := by
  rw [subtypeIds, find?_walk]
  rfl

end Catalog

end Schemata
