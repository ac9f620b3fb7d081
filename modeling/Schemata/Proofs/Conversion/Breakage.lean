import Schemata.Proofs.Conversion.Nesting

/-!
# Where a conversion breaks off

A conversion that fails is not undone as a whole: what it shared and promised before stays.  Only
the identifiers that it began are ended again.  So it leaves the state of the place where it
failed, with what was under way before it, and that place is a part like any other that the
conversion reaches.

Main results:

- Definition {lit}`Breaks`: what a failed part leaves, and what was begun around the place where
  it failed.
- Theorem {lit}`spreads_breaksOff`: a part breaks off where one inside does.
- Theorem {lit}`breaks_reference`: a conversion of a reference that fails breaks off at a place
  inside.
-/

namespace Schemata

/-- Ending what was begun leaves what was under way before. -/
theorem ConversionState.stop_restored {state last : ConversionState} {id : TypeId}
    (outside : id ∉ state.inProgress) :
    { last with inProgress := (state.start (some id)).inProgress }.stop (some id) =
      { last with inProgress := state.inProgress } :=
  congrArg (ConversionState.mk last.defs · last.pending)
    (stop_start_inProgress _ _ outside rfl)

namespace Conversion

variable (c : Conversion)

/-! ## What a failed part leaves -/

/-- A part that fails leaves the state of a part inside that is stuck, except that what is under
way is as before.  The identifiers are those that were begun in between. -/
def Breaks (task : Task) (state : ConversionState) (error : Error) (after : ConversionState)
    (around : List TypeId) : Prop :=
  ∃ inner last, c.Nests task state around inner last ∧ c.Stuck inner last error ∧
    after = { last with inProgress := state.inProgress }

/-- A part breaks off somewhere inside. -/
def BreaksOff (task : Task) (state : ConversionState) (error : Error) (after : ConversionState) :
    Prop :=
  ∃ around, c.Breaks task state error after around

variable {c} {task inner : Task} {state inside after : ConversionState} {error : Error}

/-- A part that is stuck breaks off at once. -/
theorem Stuck.breaksOff (h : c.Stuck task state error) : c.BreaksOff task state error state :=
  ⟨[], task, state, .here, h, rfl⟩

/-- A part breaks off where one that it opens does, when nothing is begun in between. -/
theorem Opens.breaksOff (opens : c.Opens task state [] inner inside)
    (h : c.BreaksOff inner inside error after) : c.BreaksOff task state error after := by
  rcases h with ⟨around, place, last, hnests, hstuck, rfl⟩
  have hinside : inside.inProgress = state.inProgress := by
    cases opens with
    | nextProperty head => exact head.inProgress_eq
    | nextVariant head => exact head.inProgress_eq
    | element | value | object | property | variantObject | variantOther => rfl
  refine ⟨around ++ [], place, last, opens.nests.trans hnests, hstuck, ?_⟩
  rw [hinside]

/-- Breaking off spreads outwards: what is begun for a part is ended when it breaks off, so what
is left under way is what was under way before. -/
theorem spreads_breaksOff : c.Spreads c.BreaksOff where
  stuck h _ := h.breaksOff
  outwards := Opens.breaksOff
  ended := by
    rintro task state id inner error after outside opens ⟨around, place, last, hnests, hstuck, rfl⟩
    refine ⟨around ++ [id], place, last, opens.nests.trans hnests, hstuck, ?_⟩
    exact ConversionState.stop_restored outside

/-- With any budget, a conversion of a reference that fails breaks off at a place inside.  What
it calls for does, and it makes no other calls. -/
theorem breaks_reference (budget : Nat) {ref : TypeRef} {owner : Option TypeId} :
    (c.reference budget ref owner).FailsIn state (c.BreaksOff (.fragment ref) state) := by
  induction budget generalizing ref owner state with
  | zero => exact Attempt.meets_fail.mpr (Stuck.breaksOff .spent)
  | succ budget ih =>
      have hanswers : c.AnswerAlike c.BreaksOff (c.reference budget) (c.reference budget)
          (.fragment ref) state := fun _ _ _ _ => .of_fails ih
      exact (runsAs_layer (runs_of_reference budget) spreads_breaksOff hanswers owner).fails

end Conversion

end Schemata
