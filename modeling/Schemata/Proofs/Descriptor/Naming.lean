import Mathlib.Data.List.Basic
import Schemata.Proofs.Descriptor.Walk

/-!
# Identifiers of descriptors

A descriptor that no sealed descriptor holds goes by its serial name.  A subtype goes by two
simple names with a point between them: that of the first sealed descriptor that holds it,
and its own.  A simple name has no point, so the identifier of a subtype tells both names,
but neither the packages that they come from nor whether it is a serial name.

Main results:

- Definition {lit}`Catalog.Clash`: the names of two descriptors that share an identifier.
- Theorem {lit}`Catalog.typeId_eq_iff`: two descriptors share an identifier exactly when
  their names clash.
-/

namespace Schemata

/-- A simple name has no point. -/
theorem Descriptor.not_mem_simpleName (descriptor : Descriptor) :
    '.' ∉ descriptor.simpleName.toList := by
  rw [simpleName, String.toList_ofList, List.mem_reverse]
  intro mem
  have hpoint := List.all_eq_true.mp List.all_takeWhile _ mem
  exact absurd hpoint (by decide)

/-- A qualified name tells the two names that it is made of when these have no points. -/
theorem Session.qualify_inj {base name other last : String} (hbase : '.' ∉ base.toList)
    (hname : '.' ∉ name.toList) :
    qualify base name = qualify other last ↔ base = other ∧ name = last := by
  constructor
  · intro h
    have hlist := congrArg String.toList h
    simp only [qualify, String.toList_append, List.append_assoc] at hlist
    change base.toList ++ '.' :: name.toList = other.toList ++ '.' :: last.toList at hlist
    rcases (List.append_cons_inj_of_notMem hbase hname).mp hlist with ⟨hfirst, -, hsecond⟩
    exact ⟨String.toList_inj.mp hfirst, String.toList_inj.mp hsecond⟩
  · rintro ⟨rfl, rfl⟩
    rfl

namespace Catalog

/-- A descriptor with its key. -/
abbrev Entry := DescriptorKey × Descriptor

/-- The identifier of a descriptor among those that a root leads to. -/
def typeId (catalog : Catalog) (root : DescriptorKey) (entry : Entry) : TypeId :=
  ((catalog.subtypeIds root).find? entry.1).getD entry.2.serialName

/-- The names of two descriptors that share an identifier: two subtypes have the simple names
of their sealed descriptors and their own in common, and another descriptor has a serial
name that is the qualified name of a subtype, or the serial name of the other. -/
def Clash (catalog : Catalog) (root : DescriptorKey) (first second : Entry) : Prop :=
  match catalog.base? root first.1, catalog.base? root second.1 with
  | some base, some other =>
    base.simpleName = other.simpleName ∧ first.2.simpleName = second.2.simpleName
  | some base, none =>
    second.2.serialName = Session.qualify base.simpleName first.2.simpleName
  | none, some base =>
    first.2.serialName = Session.qualify base.simpleName second.2.simpleName
  | none, none => first.2.serialName = second.2.serialName

variable {catalog : Catalog} {root : DescriptorKey} {entry first second : Entry}

/-- A subtype is identified by its simple name under that of its base. -/
theorem typeId_of_base (found : Table.find? catalog entry.1 = some entry.2) {base : Descriptor}
    (held : catalog.base? root entry.1 = some base) :
    catalog.typeId root entry = Session.qualify base.simpleName entry.2.simpleName := by
  rw [typeId, find?_subtypeIds, held, Option.bind_some, nameUnder?, found]
  rfl

/-- A descriptor that no sealed one lists is identified by its serial name. -/
theorem typeId_of_no_base (alone : catalog.base? root entry.1 = none) :
    catalog.typeId root entry = entry.2.serialName := by
  rw [typeId, find?_subtypeIds, alone]
  rfl

/-- Two descriptors share an identifier exactly when their names clash. -/
theorem typeId_eq_iff (found : Table.find? catalog first.1 = some first.2)
    (found' : Table.find? catalog second.1 = some second.2) :
    catalog.typeId root first = catalog.typeId root second ↔ catalog.Clash root first second := by
  rw [Clash]
  split
  · rename_i base other held held'
    rw [typeId_of_base found held, typeId_of_base found' held']
    exact Session.qualify_inj base.not_mem_simpleName first.2.not_mem_simpleName
  · rename_i base held alone
    rw [typeId_of_base found held, typeId_of_no_base alone]
    exact eq_comm
  · rename_i base alone held
    rw [typeId_of_base found' held, typeId_of_no_base alone]
  · rename_i alone alone'
    rw [typeId_of_no_base alone, typeId_of_no_base alone']

end Catalog

end Schemata
