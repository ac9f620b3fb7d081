import Schemata.Proofs.Conversion.Pointers

/-!
# Values that a schema accepts

A fragment accepts a value when the value passes all keywords of the fragment: types,
fixed values, lists of values, items, members with and without a name, required names,
and alternatives of which exactly one, some, or all must accept it.  A pointer accepts what
the fragment accepts that it means, and a pointer without a meaning accepts nothing.

Pointers may lead in a circle, so the validation has a budget of fragments inside one
another and may give no verdict.  A verdict does not depend on the budget.  A value is
accepted when some budget accepts it.

Main results:

- Definition {lit}`Interpretation.judge`: the validation of a value with a budget.
- Definition {lit}`Interpretation.Accepts`: the values that a fragment accepts.
- Theorem {lit}`judge_of_le`: more budget gives the same verdict.
- Theorem {lit}`exists_option_of_layer`: what a choice accepts one of its alternatives
  accepts.
-/

namespace Schemata

namespace Json

/-- Whether a value has the type of a name.  A number without fraction is an integer. -/
def isA (type : String) : Json → Bool
  | .null => type == "null"
  | .bool _ => type == "boolean"
  | .int _ => type == "integer" || type == "number"
  | .float value =>
    type == "number" || type == "integer" && value.truncate?.any value.equalsInt
  | .str _ => type == "string"
  | .arr _ => type == "array"
  | .obj _ => type == "object"

mutual

/-- Equality of values in schemas: numbers by their value, and the order of members does
not matter. -/
def equal : Json → Json → Bool
  | .bool a, .bool b => a == b
  | .bool _, _ => false
  | _, .bool _ => false
  | .arr items, .arr others => equalItems items others
  | .obj members, .obj others => members.length == others.length && equalMembers members others
  | a, b => sameScalar a b
termination_by structural value => value

/-- Equality of two arrays, item by item. -/
def equalItems : List Json → List Json → Bool
  | [], [] => true
  | a :: as, b :: bs => equal a b && equalItems as bs
  | _, _ => false
termination_by structural items => items

/-- Whether each member has an equal member of that name on the other side. -/
def equalMembers : List (String × Json) → List (String × Json) → Bool
  | [], _ => true
  | (name, value) :: rest, others =>
    (match Table.find? others name with
      | some other => equal value other
      | none => false) && equalMembers rest others
termination_by structural members => members

end

/-- Only a text is equal to a text, and only the same one. -/
theorem eq_of_equal_text {text : String} {value : Json} (h : equal (.str text) value = true) :
    value = .str text := by
  cases value <;> simp_all [equal, sameScalar, integer?]

end Json

/-- How the pointers and the marker of a document are read. -/
structure Interpretation where
  /-- The fragment that a pointer means. -/
  resolve : Json → Option Definition
  /-- Whether the nullable marker adds null to the types. -/
  marked : Bool

namespace Interpretation

variable (r : Interpretation)

/-! ## Validation -/

/-- Whether a value has one of the types, and is the fixed value if there is one. -/
def fits (head : TypedHead) (value : Json) : Bool :=
  (head.types.any (fun type => match type with
      | .str name => value.isA name
      | _ => false) ||
    r.marked && head.nullable.isTruthy && value.isNull) &&
    (head.const.isNull || head.const.equal value)

/-- Whether a value is listed, where there is a list. -/
def isListed (enum value : Json) : Bool :=
  match enum with
  | .arr items => items.any (·.equal value)
  | _ => true

/-- Whether all required names are those of members. -/
def hasRequired (required : Json) (members : List (String × Json)) : Bool :=
  match required with
  | .arr names => names.all fun name => members.any fun member => name.isText member.1
  | _ => true

/-- The verdict on a member: by the last fragment of its name, or by what is said about
members without one. -/
def judgeMember (below : Definition → Json → Option Bool) (properties : List (String × Definition))
    (additional : Additional Definition) (member : String × Json) : Option Bool :=
  match Table.find? properties.reverse member.1 with
  | some fragment => below fragment member.2
  | none =>
    match additional with
    | .plain (.bool allowed) => some allowed
    | .plain _ => some true
    | .schema fragment => below fragment member.2

/-- The verdict of a fragment, given the verdicts of the fragments in it. -/
def layer (below : Definition → Json → Option Bool) : Definition → Json → Option Bool
  | .value head enum, value => some (r.fits head value && isListed enum value)
  | .array head (some items), .arr values => do
    let verdicts ← values.mapM (below items)
    return r.fits head (.arr values) && verdicts.all id
  | .array head _, value => some (r.fits head value)
  | .object head properties required additional, .obj members => do
    let verdicts ← members.mapM (judgeMember below (properties.getD []) additional)
    return r.fits head (.obj members) && hasRequired required members && verdicts.all id
  | .object head _ _ _, value => some (r.fits head value)
  | .reference target _, value =>
    match r.resolve target with
    | some fragment => below fragment value
    | none => some false
  | .oneOf _ options _, value => do
    let verdicts ← options.mapM (below · value)
    return verdicts.count true == 1
  | .anyOf _ options, value => do
    let verdicts ← options.mapM (below · value)
    return verdicts.any id
  | .allOf _ options, value => do
    let verdicts ← options.mapM (below · value)
    return verdicts.all id

/-- The verdict of a fragment, with a budget of fragments inside one another. -/
def judge : Nat → Definition → Json → Option Bool
  | 0 => fun _ _ => none
  | budget + 1 => r.layer (judge budget)

/-- The fragment accepts the value. -/
def Accepts (fragment : Definition) (value : Json) : Prop :=
  ∃ budget, r.judge budget fragment value = some true

variable {r}

/-! ## Verdicts on lists -/

/-- The verdicts on a list are those on its items. -/
theorem mapM_some_iff {α : Type} {f : α → Option Bool} {items : List α} {verdicts : List Bool} :
    items.mapM f = some verdicts ↔ items.map f = verdicts.map some := by
  induction items generalizing verdicts with
  | nil => cases verdicts <;> simp
  | cons item items ih => cases verdicts <;> simp [Option.bind_eq_some_iff, ih]

/-- More verdicts change none that were given. -/
theorem mapM_of_imp {α : Type} {f g : α → Option Bool}
    (h : ∀ item verdict, f item = some verdict → g item = some verdict) {items : List α}
    {verdicts : List Bool} (hf : items.mapM f = some verdicts) : items.mapM g = some verdicts := by
  rw [mapM_some_iff] at hf ⊢
  induction items generalizing verdicts with
  | nil => exact hf
  | cons item items ih =>
      cases verdicts with
      | nil => cases hf
      | cons verdict verdicts =>
          rw [List.map_cons, List.map_cons, List.cons.injEq] at hf ⊢
          exact ⟨h _ _ hf.1, ih hf.2⟩

/-- A list of verdicts with a positive one has an item that was judged so. -/
theorem exists_of_mem_verdicts {α : Type} {f : α → Option Bool} {items : List α}
    {verdicts : List Bool} (h : items.mapM f = some verdicts) {verdict : Bool}
    (mem : verdict ∈ verdicts) : ∃ item ∈ items, f item = some verdict := by
  have hmem : some verdict ∈ items.map f := by
    rw [mapM_some_iff.mp h]
    exact List.mem_map_of_mem mem
  exact List.mem_map.mp hmem

/-- When all verdicts are positive, each item was judged so. -/
theorem forall_of_verdicts {α : Type} {f : α → Option Bool} {items : List α}
    {verdicts : List Bool} (h : items.mapM f = some verdicts) (all : verdicts.all id = true) :
    ∀ item ∈ items, f item = some true := by
  intro item mem
  have hmem : f item ∈ verdicts.map some := by
    rw [← mapM_some_iff.mp h]
    exact List.mem_map_of_mem mem
  rcases List.mem_map.mp hmem with ⟨verdict, hverdict, hitem⟩
  rw [← hitem]
  exact congrArg some (List.all_eq_true.mp all verdict hverdict)

/-! ## The budget -/

variable {below above : Definition → Json → Option Bool}

/-- One layer keeps the verdicts that the layers below keep. -/
theorem layer_of_imp
    (h : ∀ fragment value verdict, below fragment value = some verdict →
      above fragment value = some verdict)
    {fragment : Definition} {value : Json} {verdict : Bool}
    (hlayer : r.layer below fragment value = some verdict) :
    r.layer above fragment value = some verdict := by
  have hmap : ∀ {α : Type} {f g : α → Option Bool} {items : List α} {finish : List Bool → Bool},
      (∀ item verdict, f item = some verdict → g item = some verdict) →
      (items.mapM f).bind (fun verdicts => some (finish verdicts)) = some verdict →
      (items.mapM g).bind (fun verdicts => some (finish verdicts)) = some verdict := by
    intro α f g items finish himp hf
    rcases Option.bind_eq_some_iff.mp hf with ⟨verdicts, hverdicts, hfinish⟩
    exact Option.bind_eq_some_iff.mpr ⟨verdicts, mapM_of_imp himp hverdicts, hfinish⟩
  have hmember : ∀ properties additional entry verdict,
      judgeMember below properties additional entry = some verdict →
      judgeMember above properties additional entry = some verdict := by
    intro properties additional entry verdict hentry
    rw [judgeMember.eq_def] at hentry ⊢
    split at hentry
    · exact h _ _ _ hentry
    · split at hentry
      · exact hentry
      · exact hentry
      · exact h _ _ _ hentry
  cases fragment with
  | value head enum => exact hlayer
  | array head items =>
      cases items with
      | none => cases value <;> exact hlayer
      | some items =>
          cases value with
          | arr values => exact hmap (h items) hlayer
          | _ => exact hlayer
  | object head properties required additional =>
      cases value with
      | obj members => exact hmap (hmember (properties.getD []) additional) hlayer
      | _ => exact hlayer
  | reference target description =>
      rw [layer] at hlayer ⊢
      split at hlayer
      · exact h _ _ _ hlayer
      · exact hlayer
  | oneOf | anyOf | allOf => exact hmap (fun option verdict => h option value verdict) hlayer

section Budget

variable {run : Nat → Definition → Json → Option Bool} {budget more : Nat}
variable {fragment : Definition} {value : Json} {verdict other : Bool}
variable (keeps : ∀ budget fragment value verdict, run budget fragment value = some verdict →
  run (budget + 1) fragment value = some verdict)
include keeps

/-- Verdicts that are kept with one more unit of budget are kept with any more. -/
theorem verdict_of_le (le : budget ≤ more) (h : run budget fragment value = some verdict) :
    run more fragment value = some verdict := by
  induction le with
  | refl => exact h
  | step _ ih => exact keeps _ _ _ _ ih

/-- Such verdicts do not depend on the budget. -/
theorem verdict_unique (h : run budget fragment value = some verdict)
    (hother : run more fragment value = some other) : verdict = other := by
  have hboth := verdict_of_le keeps (Nat.le_max_left budget more) h
  rw [verdict_of_le keeps (Nat.le_max_right budget more) hother] at hboth
  exact (Option.some.inj hboth).symm

end Budget

/-- A verdict stays with one more unit of budget. -/
theorem judge_succ {budget : Nat} {fragment : Definition} {value : Json} {verdict : Bool}
    (h : r.judge budget fragment value = some verdict) :
    r.judge (budget + 1) fragment value = some verdict := by
  induction budget generalizing fragment value verdict with
  | zero => cases h
  | succ budget ih => exact layer_of_imp (fun _ _ _ => ih) h

/-- More budget gives the same verdict. -/
theorem judge_of_le {budget more : Nat} (le : budget ≤ more) {fragment : Definition} {value : Json}
    {verdict : Bool} (h : r.judge budget fragment value = some verdict) :
    r.judge more fragment value = some verdict :=
  verdict_of_le (fun _ _ _ _ => judge_succ) le h

/-- A value that is accepted is refused with no budget. -/
theorem Accepts.judge_ne_false {fragment : Definition} {value : Json} (h : r.Accepts fragment value)
    (budget : Nat) : r.judge budget fragment value ≠ some false := by
  intro refused
  rcases h with ⟨other, accepted⟩
  cases verdict_unique (fun _ _ _ _ => judge_succ) accepted refused

/-! ## What a positive verdict says -/

variable {budget : Nat} {value : Json}

/-- A pointer that accepts a value means a fragment that accepts it. -/
theorem exists_meaning_of_layer {target description : Json}
    (h : r.layer below (.reference target description) value = some true) :
    ∃ fragment, r.resolve target = some fragment ∧ below fragment value = some true := by
  rw [layer] at h
  split at h
  · rename_i fragment hfragment
    exact ⟨fragment, hfragment, h⟩
  · cases h

/-- What a choice accepts one of its alternatives accepts. -/
theorem exists_option_of_layer {description : Json} {options : List Definition}
    {discriminator : Option DiscriminatorBlock}
    (h : r.layer below (.oneOf description options discriminator) value = some true) :
    ∃ option ∈ options, below option value = some true := by
  rcases Option.bind_eq_some_iff.mp h with ⟨verdicts, hverdicts, hone⟩
  have hcount : verdicts.count true = 1 := by
    simpa using hone
  have hmem : true ∈ verdicts := by
    rw [← List.count_pos_iff, hcount]
    exact Nat.one_pos
  exact exists_of_mem_verdicts hverdicts hmem

/-- What has to pass several fragments passes each of them. -/
theorem forall_parts_of_layer {description : Json} {parts : List Definition}
    (h : r.layer below (.allOf description parts) value = some true) :
    ∀ part ∈ parts, below part value = some true := by
  rcases Option.bind_eq_some_iff.mp h with ⟨verdicts, hverdicts, hall⟩
  exact forall_of_verdicts hverdicts (by simpa using hall)

/-- A value that a reference accepts is accepted by what it resolves to. -/
theorem exists_meaning {target description : Json}
    (h : r.judge (budget + 1) (.reference target description) value = some true) :
    ∃ fragment, r.resolve target = some fragment ∧ r.judge budget fragment value = some true :=
  exists_meaning_of_layer h

/-- A value that a choice accepts is accepted by one of the options. -/
theorem exists_accepted_option {description : Json} {options : List Definition}
    {discriminator : Option DiscriminatorBlock}
    (h : r.judge (budget + 1) (.oneOf description options discriminator) value = some true) :
    ∃ option ∈ options, r.judge budget option value = some true :=
  exists_option_of_layer h

/-- What an object accepts is an object with the required names, whose members pass. -/
theorem members_of_judge {head : TypedHead} {properties : Option (List (String × Definition))}
    {required : Json} {additional : Additional Definition}
    (objects : head.types = [.str "object"]) (plain : head.nullable = .null)
    (h : r.judge (budget + 1) (.object head properties required additional) value = some true) :
    ∃ members, value = .obj members ∧ hasRequired required members = true ∧
      ∀ entry ∈ members,
        judgeMember (r.judge budget) (properties.getD []) additional entry = some true := by
  rw [judge] at h
  cases value with
  | obj members =>
      rcases Option.bind_eq_some_iff.mp h with ⟨verdicts, hverdicts, hall⟩
      simp only [pure, Option.some.injEq, Bool.and_eq_true] at hall
      exact ⟨members, rfl, hall.1.2, forall_of_verdicts hverdicts hall.2⟩
  | _ => simp [layer, fits, objects, plain, Json.isA, Json.isTruthy] at h

end Interpretation

/-! ## Documents -/

namespace SchemaBody

/-- The whole document as a fragment: an object, which may have to be one of several
alternatives as well. -/
def whole (body : SchemaBody) : Definition :=
  .allOf .null (.object { type := body.type } (some (body.properties.getD [])) body.required
    (.plain body.additional) :: (body.oneOf.map fun options =>
      .oneOf .null options body.discriminator).toList)

/-- How a document is read, with the marker or without. -/
def interpretation (body : SchemaBody) (marked : Bool) : Interpretation where
  resolve
    | .str target =>
      if target = "#" then some body.whole
      else (List.find? (fun entry => defsPointer entry.1 == target) (body.defs.getD [])).map
        fun entry => entry.2
    | _ => none
  marked

/-- The pointer to a shared definition means one of its name. -/
theorem mem_defs_of_resolve {body : SchemaBody} {marked : Bool} {id : TypeId}
    {fragment : Definition}
    (h : (body.interpretation marked).resolve (.str (defsPointer id)) = some fragment) :
    (id, fragment) ∈ body.defs.getD [] := by
  dsimp only [interpretation] at h
  rw [if_neg (Conversion.defsPointer_ne_root id), Option.map_eq_some_iff] at h
  rcases h with ⟨entry, hfind, rfl⟩
  have hkey := List.find?_some hfind
  rw [← Conversion.defsPointer_inj (eq_of_beq hkey)]
  exact List.mem_of_find?_eq_some hfind

end SchemaBody

end Schemata
