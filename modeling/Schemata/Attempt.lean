import Schemata.Error

/-!
# Attempts

An attempt is a computation that may fail and keeps its state when it does.  What a
failed step did to the state stays done, and a step that has to be undone either way
is undone by {lit}`andThen`.

Main results:

- Theorem {lit}`run_bind_ok`, {lit}`run_bind_error`: a later step runs in the state
  that an earlier one leaves, and only when that one succeeds.
- Theorem {lit}`run_bind_eq_ok_iff`: a sequence of two steps succeeds exactly when
  both do.
- Theorem {lit}`run_andThen`: the final change applies whether the attempt succeeds or
  fails.
-/

namespace Schemata

/-- A computation that may fail and keeps its state when it does. -/
def Attempt (σ α : Type) : Type :=
  σ → Except Error α × σ

namespace Attempt

variable {σ α β : Type}

/-- The outcome of an attempt and the state that it leaves. -/
def run (attempt : Attempt σ α) (state : σ) : Except Error α × σ :=
  attempt state

/-- Continue with a second step when the first succeeds. -/
def bind (first : Attempt σ α) (next : α → Attempt σ β) : Attempt σ β := fun state =>
  match first state with
  | (.ok value, state) => next value state
  | (.error error, state) => (.error error, state)

instance : Monad (Attempt σ) where
  pure value := fun state => (.ok value, state)
  bind := bind

/-- Fail and leave the state as it is. -/
def fail (error : Error) : Attempt σ α := fun state =>
  (.error error, state)

/-- The current state. -/
def get : Attempt σ σ := fun state =>
  (.ok state, state)

/-- Change the state. -/
def modify (change : σ → σ) : Attempt σ Unit := fun state =>
  (.ok (), change state)

/-- An outcome that does not depend on the state. -/
def ofExcept (outcome : Except Error α) : Attempt σ α := fun state =>
  (outcome, state)

/-- Change the state after an attempt, whether it succeeds or fails. -/
def andThen (attempt : Attempt σ α) (change : σ → σ) : Attempt σ α := fun state =>
  ((attempt state).1, change (attempt state).2)

/-- Change the state after an attempt that fails. -/
def onFailure (attempt : Attempt σ α) (change : σ → σ) : Attempt σ α := fun state =>
  match attempt state with
  | (.ok value, state) => (.ok value, state)
  | (.error error, state) => (.error error, change state)

/-- Carry out a step for each item in order, up to the first failure. -/
def forEach (items : List α) (step : α → Attempt σ Unit) : Attempt σ Unit :=
  match items with
  | [] => pure ()
  | item :: items => bind (step item) fun _ => forEach items step

/-- The results of a step for each item in order. -/
def mapEach (items : List α) (step : α → Attempt σ β) : Attempt σ (List β) :=
  match items with
  | [] => pure []
  | item :: items => bind (step item) fun result =>
      bind (mapEach items step) fun results => pure (result :: results)

/-! ## How steps follow one another -/

@[simp] theorem run_pure (value : α) (state : σ) :
    (pure value : Attempt σ α).run state = (.ok value, state) := rfl

/-- After a first step that succeeds, the second one runs on its result and in its state. -/
theorem run_bind_ok {first : Attempt σ α} {state after : σ} {value : α}
    (h : first.run state = (.ok value, after)) (next : α → Attempt σ β) :
    (first >>= next).run state = (next value).run after := by
  change bind first next state = _
  unfold bind
  rw [show first state = _ from h]
  rfl

/-- After a first step that fails, the second one does not run. -/
theorem run_bind_error {first : Attempt σ α} {state after : σ} {error : Error}
    (h : first.run state = (.error error, after)) (next : α → Attempt σ β) :
    (first >>= next).run state = (.error error, after) := by
  change bind first next state = _
  unfold bind
  rw [show first state = _ from h]

@[simp] theorem run_get (state : σ) : (get : Attempt σ σ).run state = (.ok state, state) := rfl

@[simp] theorem run_modify (change : σ → σ) (state : σ) :
    (modify change).run state = (.ok (), change state) := rfl

@[simp] theorem run_fail (error : Error) (state : σ) :
    (fail error : Attempt σ α).run state = (.error error, state) := rfl

@[simp] theorem run_ofExcept (outcome : Except Error α) (state : σ) :
    (ofExcept outcome).run state = (outcome, state) := rfl

/-- A sequence of two steps succeeds exactly when both do. -/
theorem run_bind_eq_ok_iff {first : Attempt σ α} {next : α → Attempt σ β} {state after : σ}
    {result : β} :
    (first >>= next).run state = (.ok result, after) ↔
      ∃ value middle, first.run state = (.ok value, middle) ∧
        (next value).run middle = (.ok result, after) := by
  constructor
  · intro h
    rcases hfirst : first.run state with ⟨outcome, middle⟩
    cases outcome with
    | ok value =>
        rw [run_bind_ok hfirst] at h
        exact ⟨value, middle, rfl, h⟩
    | error error =>
        rw [run_bind_error hfirst] at h
        cases h
  · intro h
    rcases h with ⟨value, middle, hfirst, hnext⟩
    rw [run_bind_ok hfirst]
    exact hnext

/-- A result that is there already comes out and leaves the state. -/
theorem run_pure_eq_ok_iff {value result : α} {state after : σ} :
    (pure value : Attempt σ α).run state = (.ok result, after) ↔
      value = result ∧ state = after := by
  rw [run_pure, Prod.mk.injEq, Except.ok.injEq]

@[simp] theorem run_get_bind (next : σ → Attempt σ β) (state : σ) :
    (get >>= next).run state = (next state).run state := rfl

@[simp] theorem run_modify_bind (change : σ → σ) (next : Unit → Attempt σ β) (state : σ) :
    (modify change >>= next).run state = (next ()).run (change state) := rfl

/-- The explicit sequence of two steps is the sequence of the monad. -/
theorem bind_eq (first : Attempt σ α) (next : α → Attempt σ β) :
    Attempt.bind first next = first >>= next := rfl

@[simp] theorem run_andThen (attempt : Attempt σ α) (change : σ → σ) (state : σ) :
    (attempt.andThen change).run state = ((attempt.run state).1, change (attempt.run state).2) :=
  rfl

end Attempt

end Schemata
