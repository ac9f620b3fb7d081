import Schemata.Proofs.Conversion.Tree
import Schemata.Proofs.Schema.Acceptance

/-!
# Values that a schema allows

A pointer in a choice can lead back to the choice, and then no budget is enough for a verdict
on it.  A fragment beside the choice may accept the value all the same: of the alternatives
of which some must accept, one is enough.  The validation here takes such an alternative as
the verdict, where that of {lit}`Interpretation.judge` waits for all alternatives.  It gives
the same verdicts, and some more.

Main results:

- Definition {lit}`Interpretation.Allows`: the values that a fragment accepts, when one
  accepting alternative is enough.
- Theorem {lit}`Interpretation.allow_of_le`: more budget gives the same verdict.
- Theorem {lit}`Interpretation.Accepts.allows`: what is accepted is allowed.
- Theorem {lit}`Interpretation.allow_null_of_head`: which fragments with a type allow null.
-/

namespace Schemata

namespace Interpretation

variable (r : Interpretation)

/-- The fragment is a choice of which some must accept the value, and one of them does. -/
def hasAccepting (below : Definition → Json → Option Bool) : Definition → Json → Bool
  | .anyOf _ options, value => options.any fun option => below option value == some true
  | _, _ => false

/-- The verdict of a fragment, given the verdicts of the fragments in it, where one
accepting alternative is enough. -/
def allowLayer (below : Definition → Json → Option Bool) (fragment : Definition) (value : Json) :
    Option Bool :=
  if hasAccepting below fragment value then some true else r.layer below fragment value

/-- The verdict of a fragment, with a budget of fragments inside one another. -/
def allow : Nat → Definition → Json → Option Bool
  | 0 => fun _ _ => none
  | budget + 1 => r.allowLayer (allow budget)

/-- The fragment allows the value. -/
def Allows (fragment : Definition) (value : Json) : Prop :=
  ∃ budget, r.allow budget fragment value = some true

variable {r} {below above : Definition → Json → Option Bool}
variable {fragment : Definition} {value : Json} {verdict : Bool} {budget more : Nat}

/-! ## The budget -/

/-- Only alternatives have an accepting option. -/
theorem exists_of_hasAccepting (h : hasAccepting below fragment value = true) :
    ∃ description options, fragment = .anyOf description options ∧
      ∃ option ∈ options, below option value = some true := by
  cases fragment with
  | anyOf description options =>
      rcases List.any_eq_true.mp h with ⟨option, mem, accepted⟩
      exact ⟨description, options, rfl, option, mem, eq_of_beq accepted⟩
  | _ => cases h

/-- Alternatives have an accepting option when one of them accepts the value. -/
theorem hasAccepting_of_mem {description : Json} {options : List Definition}
    {option : Definition} (mem : option ∈ options) (accepted : below option value = some true) :
    hasAccepting below (.anyOf description options) value = true :=
  List.any_eq_true.mpr ⟨option, mem, beq_iff_eq.mpr accepted⟩

/-- One accepting alternative does not contradict the verdict on all of them. -/
theorem allowLayer_of_layer (h : r.layer below fragment value = some verdict) :
    r.allowLayer below fragment value = some verdict := by
  rw [allowLayer]
  split
  · rename_i accepting
    rcases exists_of_hasAccepting accepting with ⟨description, options, rfl, option, mem, accepted⟩
    rcases Option.bind_eq_some_iff.mp h with ⟨verdicts, hverdicts, hany⟩
    have htrue : some true ∈ verdicts.map some := by
      rw [← mapM_some_iff.mp hverdicts, ← accepted]
      exact List.mem_map_of_mem mem
    have hmem : true ∈ verdicts := by simpa using htrue
    rw [← hany]
    exact congrArg some (List.any_eq_true.mpr ⟨true, hmem, rfl⟩).symm
  · exact h

/-- One layer keeps the verdicts that the layers below keep. -/
theorem allowLayer_of_imp
    (h : ∀ fragment value verdict, below fragment value = some verdict →
      above fragment value = some verdict)
    (hlayer : r.allowLayer below fragment value = some verdict) :
    r.allowLayer above fragment value = some verdict := by
  rw [allowLayer] at hlayer
  split at hlayer
  · rename_i accepting
    rcases exists_of_hasAccepting accepting with ⟨description, options, rfl, option, mem, accepted⟩
    rw [allowLayer, if_pos (hasAccepting_of_mem mem (h _ _ _ accepted))]
    exact hlayer
  · exact allowLayer_of_layer (layer_of_imp h hlayer)

/-- A verdict stays with one more unit of budget. -/
theorem allow_succ (h : r.allow budget fragment value = some verdict) :
    r.allow (budget + 1) fragment value = some verdict := by
  induction budget generalizing fragment value verdict with
  | zero => cases h
  | succ budget ih => exact allowLayer_of_imp (fun _ _ _ => ih) h

/-- More budget gives the same verdict. -/
theorem allow_of_le (le : budget ≤ more) (h : r.allow budget fragment value = some verdict) :
    r.allow more fragment value = some verdict :=
  verdict_of_le (fun _ _ _ _ => allow_succ) le h

/-- A verdict that waits for all alternatives is given here too. -/
theorem allow_of_judge (h : r.judge budget fragment value = some verdict) :
    r.allow budget fragment value = some verdict := by
  induction budget generalizing fragment value verdict with
  | zero => cases h
  | succ budget ih => exact allowLayer_of_layer (layer_of_imp (fun _ _ _ => ih) h)

/-- What is accepted is allowed. -/
theorem Accepts.allows (h : r.Accepts fragment value) : r.Allows fragment value :=
  h.imp fun _ => allow_of_judge

/-- A value that is allowed is refused with no budget. -/
theorem Allows.allow_ne_false (h : r.Allows fragment value) (budget : Nat) :
    r.allow budget fragment value ≠ some false := by
  intro refused
  rcases h with ⟨other, accepted⟩
  cases verdict_unique (fun _ _ _ _ => allow_succ) accepted refused

/-! ## Verdicts on choices and pointers -/

/-- What one alternative allows is allowed. -/
theorem Allows.anyOf {description : Json} {options : List Definition} {option : Definition}
    (h : r.Allows option value) (mem : option ∈ options) :
    r.Allows (.anyOf description options) value := by
  rcases h with ⟨budget, accepted⟩
  exact ⟨budget + 1, if_pos (hasAccepting_of_mem mem accepted)⟩

/-- A pointer that allows a value means a fragment that allows it. -/
theorem exists_allowing_meaning {target description : Json}
    (h : r.allow (budget + 1) (.reference target description) value = some true) :
    ∃ fragment, r.resolve target = some fragment ∧ r.allow budget fragment value = some true :=
  exists_meaning_of_layer
    (show r.layer (r.allow budget) (.reference target description) value = some true from h)

/-- What a choice allows one of its alternatives allows. -/
theorem exists_allowing_option {description : Json} {options : List Definition}
    {discriminator : Option DiscriminatorBlock}
    (h : r.allow (budget + 1) (.oneOf description options discriminator) value = some true) :
    ∃ option ∈ options, r.allow budget option value = some true :=
  exists_option_of_layer (show r.layer (r.allow budget)
    (.oneOf description options discriminator) value = some true from h)

/-- What has to pass several fragments passes each of them. -/
theorem allow_of_mem_allOf {description : Json} {parts : List Definition}
    (h : r.allow (budget + 1) (.allOf description parts) value = some true)
    {part : Definition} (mem : part ∈ parts) : r.allow budget part value = some true :=
  forall_parts_of_layer
    (show r.layer (r.allow budget) (.allOf description parts) value = some true from h) part mem

/-! ## Null -/

/-- Null is among the listed values, where values are listed. -/
def listsNull : Definition → Bool
  | .value _ enum => isListed enum .null
  | _ => true

/-- A fragment with a type allows null when its types and its fixed value do, and its list of
values too. -/
theorem allow_null_of_head {head : TypedHead} (typed : fragment.head? = some head) :
    r.allow (budget + 1) fragment .null = some (r.fits head .null && listsNull fragment) := by
  cases fragment with
  | value head enum =>
      cases typed
      rfl
  | array head items =>
      cases typed
      cases items <;> exact congrArg some (Bool.and_true _).symm
  | object head =>
      cases typed
      exact congrArg some (Bool.and_true _).symm
  | reference | oneOf | anyOf | allOf => cases typed

/-- The types of a fragment allow null when null is among them, or marked. -/
theorem fits_null (marked : r.marked = true) (head : TypedHead) :
    r.fits head .null = (head.allowsNull && (head.const.isNull || head.const.equal .null)) := by
  have hnull : Json.null.isNull = true := rfl
  rw [fits, TypedHead.allowsNull, marked, Bool.or_comm head.nullable.isTruthy, hnull,
    Bool.true_and, Bool.and_true]
  refine congrArg (fun types => (types || head.nullable.isTruthy) &&
    (head.const.isNull || head.const.equal .null))
    (congrArg head.types.any (funext fun type => ?_))
  cases type <;> rfl

/-- Without a fixed value and a list of values, the types of a fragment decide. -/
theorem allow_null_of_types (marked : r.marked = true) {head : TypedHead}
    (typed : fragment.head? = some head) (loose : head.const.isNull = true) :
    r.allow (budget + 1) fragment .null = some (head.allowsNull && listsNull fragment) := by
  rw [allow_null_of_head typed, fits_null marked, loose, Bool.true_or, Bool.and_true]

/-- A change of keywords that do not matter for null does not change whether a fragment
allows null. -/
theorem allow_null_mapHead (marked : r.marked = true) {change : TypedHead → TypedHead}
    (allows : ∀ head, (change head).allowsNull = head.allowsNull)
    (const : ∀ head, (change head).const = head.const) (fragment : Definition) (budget : Nat) :
    r.allow budget (fragment.mapHead change) .null = r.allow budget fragment .null := by
  have hfits (head : TypedHead) : r.fits (change head) .null = r.fits head .null := by
    rw [fits_null marked, fits_null marked, allows, const]
  have hchange {head : TypedHead} (typed : fragment.head? = some head) :
      (fragment.mapHead change).head? = some (change head) ∧
        listsNull (fragment.mapHead change) = listsNull fragment := by
    cases fragment <;> cases typed <;> exact ⟨rfl, rfl⟩
  cases budget with
  | zero => rfl
  | succ budget =>
      cases typed : fragment.head? with
      | none => cases fragment <;> first | rfl | cases typed
      | some head =>
          rw [allow_null_of_head typed, allow_null_of_head (hchange typed).1, hfits,
            (hchange typed).2]

/-- Where markers count, null is allowed by a union exactly when it is by the marker. -/
theorem allow_null_asUnion (marked : r.marked = true) (fragment : Definition) (budget : Nat) :
    r.allow budget fragment.asUnion .null = r.allow budget fragment .null :=
  allow_null_mapHead marked TypedHead.allowsNull_asUnion TypedHead.const_asUnion fragment budget

/-- A description does not matter to null. -/
theorem allow_null_withDescription (marked : r.marked = true) (description : Json)
    (fragment : Definition) (budget : Nat) :
    r.allow budget (fragment.withDescription description) .null =
      r.allow budget fragment .null := by
  have hallows (head : TypedHead) :
      ({ head with description } : TypedHead).allowsNull = head.allowsNull := rfl
  have hdescribe (fragment : Definition) : r.allow budget
      (fragment.mapHead fun head => { head with description }) .null =
        r.allow budget fragment .null :=
    allow_null_mapHead marked hallows (fun _ => rfl) fragment budget
  cases fragment with
  | value head enum => exact hdescribe (.value head enum)
  | array head items => exact hdescribe (.array head items)
  | object head properties required additional =>
      exact hdescribe (.object head properties required additional)
  | reference | oneOf | anyOf | allOf => cases budget <;> rfl

end Interpretation

/-- A pointer means the whole document or a shared definition. -/
theorem SchemaBody.eq_whole_or_mem_of_resolve {body : SchemaBody} {marked : Bool} {target : Json}
    {fragment : Definition} (h : (body.interpretation marked).resolve target = some fragment) :
    fragment = body.whole ∨ ∃ entry ∈ body.defs.getD [], fragment = entry.2 := by
  cases target with
  | str text =>
      dsimp only [interpretation] at h
      split at h
      · exact Or.inl (Option.some.inj h).symm
      · rw [Option.map_eq_some_iff] at h
        rcases h with ⟨entry, hfind, rfl⟩
        exact Or.inr ⟨entry, List.mem_of_find?_eq_some hfind, rfl⟩
  | _ => cases h

end Schemata
