import Mathlib.Data.List.Forall2
import Schemata.Attempt

/-!
# What attempts come to

An attempt meets a pair of conditions in a state when it either succeeds with a result and a
state that meet the first, or fails with a cause and in a state that meet the second.  A
sequence of steps is taken apart by {lit}`meets_bind`, so a claim on a computation becomes one
claim on each of its steps.  All other accounts of one attempt are cases of this one: how it
ends, whatever the cause, and how it fails, whatever it succeeds with.

Accounts of two attempts say that one runs as the other does, in a state or in a view of every
state.

Main results:

- Theorem {lit}`meets_bind`: a sequence meets what the second step meets after the first.
- Theorem {lit}`Meets.forEach`: what every step keeps, the steps for all items keep.
- Theorem {lit}`Meets.onFailure`: what is undone after a failure.
- Theorem {lit}`RunsAs.bind`: a sequence runs as another one when its steps do.
- Theorem {lit}`CarriedBy.bind`: a sequence is carried out when its steps are.
-/

namespace Schemata.Attempt

variable {σ α β : Type}

/-- An attempt succeeds as the first condition says, or fails as the second says. -/
def Meets (attempt : Attempt σ α) (state : σ) (success : α → σ → Prop)
    (failure : Error → σ → Prop) : Prop :=
  match attempt.run state with
  | (.ok result, after) => success result after
  | (.error error, after) => failure error after

variable {state : σ} {success : α → σ → Prop} {failure : Error → σ → Prop}

/-- What an attempt meets is what its outcomes meet. -/
theorem meets_iff {attempt : Attempt σ α} :
    attempt.Meets state success failure ↔
      (∀ result after, attempt.run state = (.ok result, after) → success result after) ∧
        ∀ error after, attempt.run state = (.error error, after) → failure error after := by
  rw [Meets]
  rcases attempt.run state with ⟨outcome, after⟩
  cases outcome with
  | ok result =>
      constructor
      · intro h
        refine ⟨?_, ?_⟩
        · rintro _ _ ⟨⟩
          exact h
        · rintro _ _ ⟨⟩
      · intro h
        exact h.1 _ _ rfl
  | error error =>
      constructor
      · intro h
        refine ⟨?_, ?_⟩
        · rintro _ _ ⟨⟩
        · rintro _ _ ⟨⟩
          exact h
      · intro h
        exact h.2 _ _ rfl

/-- Weaker conditions are met as well. -/
theorem Meets.mono {attempt : Attempt σ α} {success' : α → σ → Prop}
    {failure' : Error → σ → Prop} (h : attempt.Meets state success failure)
    (hsuccess : ∀ result after, success result after → success' result after)
    (hfailure : ∀ error after, failure error after → failure' error after) :
    attempt.Meets state success' failure' := by
  rw [meets_iff] at h ⊢
  exact ⟨fun result after hrun => hsuccess _ _ (h.1 result after hrun),
    fun error after hrun => hfailure _ _ (h.2 error after hrun)⟩

/-- A weaker condition on success is met as well. -/
theorem Meets.imp {attempt : Attempt σ α} {success' : α → σ → Prop}
    (h : attempt.Meets state success failure)
    (hsuccess : ∀ result after, success result after → success' result after) :
    attempt.Meets state success' failure :=
  h.mono hsuccess fun _ _ hfailure => hfailure

/-- Two accounts of what an attempt meets hold together. -/
theorem Meets.and {attempt : Attempt σ α} {success' : α → σ → Prop}
    {failure' : Error → σ → Prop} (h : attempt.Meets state success failure)
    (h' : attempt.Meets state success' failure') :
    attempt.Meets state (fun result after => success result after ∧ success' result after)
      fun error after => failure error after ∧ failure' error after := by
  rw [meets_iff] at h h' ⊢
  exact ⟨fun result after hrun => ⟨h.1 result after hrun, h'.1 result after hrun⟩,
    fun error after hrun => ⟨h.2 error after hrun, h'.2 error after hrun⟩⟩

/-- What the run of an attempt shows may be used for its result. -/
theorem Meets.with_run {attempt : Attempt σ α} {success' : α → σ → Prop}
    (h : attempt.Meets state success failure)
    (hsuccess : ∀ result after, success result after →
      attempt.run state = (.ok result, after) → success' result after) :
    attempt.Meets state success' failure := by
  rw [meets_iff] at h ⊢
  exact ⟨fun result after hrun => hsuccess _ _ (h.1 result after hrun) hrun, h.2⟩

/-- An attempt that succeeds does so as its account says. -/
theorem Meets.of_ok {attempt : Attempt σ α} (h : attempt.Meets state success failure)
    {result : α} {after : σ} (hrun : attempt.run state = (.ok result, after)) :
    success result after :=
  (meets_iff.mp h).1 result after hrun

/-- An attempt that fails does so as its account says. -/
theorem Meets.of_error {attempt : Attempt σ α} (h : attempt.Meets state success failure)
    {error : Error} {after : σ} (hrun : attempt.run state = (.error error, after)) :
    failure error after :=
  (meets_iff.mp h).2 error after hrun

/-- What holds in the state that an attempt leaves holds there however the attempt ends. -/
theorem meets_of_after {attempt : Attempt σ α} {keeps : σ → Prop}
    (h : keeps (attempt.run state).2) :
    attempt.Meets state (fun _ after => keeps after) fun _ after => keeps after := by
  rw [meets_iff]
  constructor
  · intro _ after hrun
    rw [hrun] at h
    exact h
  · intro _ after hrun
    rw [hrun] at h
    exact h

/-! ## Single steps -/

@[simp] theorem meets_pure {result : α} :
    (pure result : Attempt σ α).Meets state success failure ↔ success result state :=
  Iff.rfl

@[simp] theorem meets_fail {error : Error} :
    (fail error : Attempt σ α).Meets state success failure ↔ failure error state :=
  Iff.rfl

@[simp] theorem meets_get {success : σ → σ → Prop} :
    (get : Attempt σ σ).Meets state success failure ↔ success state state :=
  Iff.rfl

@[simp] theorem meets_modify {change : σ → σ} {success : Unit → σ → Prop} :
    (modify change).Meets state success failure ↔ success () (change state) :=
  Iff.rfl

/-- The state after an attempt is changed whether it succeeds or fails. -/
@[simp] theorem meets_andThen {attempt : Attempt σ α} {change : σ → σ} :
    (attempt.andThen change).Meets state success failure ↔
      attempt.Meets state (fun result after => success result (change after))
        fun error after => failure error (change after) := by
  rw [Meets, Meets, run_andThen]
  rcases attempt.run state with ⟨outcome, after⟩
  cases outcome <;> rfl

@[simp] theorem ofExcept_ok_bind (result : α) (next : α → Attempt σ β) :
    (ofExcept (.ok result) >>= next) = next result :=
  rfl

/-- An outcome that does not depend on the state leaves it as it is. -/
theorem meets_ofExcept {outcome : Except Error α} :
    (ofExcept outcome : Attempt σ α).Meets state success failure ↔
      (∀ result, outcome = .ok result → success result state) ∧
        ∀ error, outcome = .error error → failure error state := by
  rw [Meets, run_ofExcept]
  cases outcome <;> simp

/-- A sequence meets what the second step meets after the first. -/
@[simp] theorem meets_bind {first : Attempt σ α} {next : α → Attempt σ β}
    {success : β → σ → Prop} :
    (first >>= next).Meets state success failure ↔
      first.Meets state (fun result after => (next result).Meets after success failure)
        failure := by
  rw [Meets, Meets]
  rcases hfirst : first.run state with ⟨outcome, after⟩
  cases outcome with
  | ok result =>
      rw [run_bind_ok hfirst]
      rfl
  | error error => rw [run_bind_error hfirst]

/-- What is done with the state is done with the state at hand. -/
theorem meets_get_bind {next : σ → Attempt σ α} :
    (get >>= next).Meets state success failure ↔ (next state).Meets state success failure :=
  meets_bind.trans meets_get

/-- What the second step meets after whatever the first one meets, the sequence meets. -/
theorem Meets.bind {first : Attempt σ α} {next : α → Attempt σ β} {between : α → σ → Prop}
    {success : β → σ → Prop} (hfirst : first.Meets state between failure)
    (hnext : ∀ result after, between result after → (next result).Meets after success failure) :
    (first >>= next).Meets state success failure :=
  meets_bind.mpr (hfirst.imp hnext)

/-- A sequence meets what the second step meets after any run of the first that succeeds. -/
theorem Meets.bind_of_run {first : Attempt σ α} {next : α → Attempt σ β}
    {between : α → σ → Prop} {success : β → σ → Prop}
    (hfirst : first.Meets state between failure)
    (hnext : ∀ result after, first.run state = (.ok result, after) →
      (next result).Meets after success failure) :
    (first >>= next).Meets state success failure :=
  meets_bind.mpr (hfirst.with_run fun result after _ hrun => hnext result after hrun)

/-- What is undone after a failure is undone in the state in which the attempt fails. -/
theorem Meets.onFailure {attempt : Attempt σ α} {change : σ → σ}
    (h : attempt.Meets state success fun error after => failure error (change after)) :
    (attempt.onFailure change).Meets state success failure := by
  rw [Meets, run] at h ⊢
  unfold Attempt.onFailure
  rcases hrun : attempt state with ⟨outcome, after⟩
  rw [hrun] at h
  cases outcome <;> exact h

/-! ## Steps for all items of a list -/

/-- What the step for every item keeps, the steps for all items keep. -/
theorem Meets.forEach {items : List α} {step : α → Attempt σ Unit} {keeps : σ → Prop}
    (hstep : ∀ item ∈ items, ∀ state, keeps state →
      (step item).Meets state (fun _ after => keeps after) failure)
    (hstate : keeps state) :
    (Attempt.forEach items step).Meets state (fun _ after => keeps after) failure := by
  induction items generalizing state with
  | nil => exact hstate
  | cons item items ih =>
      rw [List.forall_mem_cons] at hstep
      rw [Attempt.forEach, bind_eq]
      exact (hstep.1 state hstate).bind fun _ _ hafter => ih hstep.2 hafter

/-- What the step for every item keeps, the steps for all items keep, and the results
correspond to the items one by one. -/
theorem Meets.mapEach {items : List α} {step : α → Attempt σ β} {keeps : σ → Prop}
    {related : α → β → Prop}
    (hstep : ∀ item ∈ items, ∀ state, keeps state →
      (step item).Meets state (fun result after => keeps after ∧ related item result) failure)
    (hstate : keeps state) :
    (Attempt.mapEach items step).Meets state
      (fun results after => keeps after ∧ List.Forall₂ related items results) failure := by
  induction items generalizing state with
  | nil => exact ⟨hstate, .nil⟩
  | cons item items ih =>
      rw [List.forall_mem_cons] at hstep
      rw [Attempt.mapEach, bind_eq]
      refine (hstep.1 state hstate).bind fun result middle hmiddle => ?_
      rw [bind_eq]
      refine (ih hstep.2 hmiddle.1).bind fun results after hafter => ?_
      exact ⟨hafter.1, .cons hmiddle.2 hafter.2⟩

/-- What is listed on the right of two lists that correspond has a partner on the left. -/
theorem exists_of_mem_right {related : α → β → Prop} {lefts : List α} {rights : List β}
    (h : List.Forall₂ related lefts rights) {right : β} (mem : right ∈ rights) :
    ∃ left ∈ lefts, related left right := by
  induction h with
  | nil => cases mem
  | @cons left _ _ _ hfirst _ ih =>
      rcases List.mem_cons.mp mem with rfl | mem
      · exact ⟨left, List.mem_cons_self .., hfirst⟩
      · rcases ih mem with ⟨partner, hpartner, hrelated⟩
        exact ⟨partner, List.mem_cons_of_mem _ hpartner, hrelated⟩

/-! ## How attempts end and how they fail -/

/-- An attempt that succeeds ends with a result and in a state that meet one condition, and
an attempt that fails ends in a state that meets another one. -/
def Ends (attempt : Attempt σ α) (state : σ) (success : α → σ → Prop) (failure : σ → Prop) :
    Prop :=
  attempt.Meets state success fun _ => failure

/-- Whenever an attempt fails in a state, its cause and what it leaves meet a condition. -/
def FailsIn (attempt : Attempt σ α) (state : σ) (failure : Error → σ → Prop) : Prop :=
  attempt.Meets state (fun _ _ => True) failure

/-- In whatever state it begins, an attempt fails only as a condition says. -/
def FailsOnly (failure : Error → Prop) (attempt : Attempt σ α) : Prop :=
  ∀ state, attempt.FailsIn state fun error _ => failure error

section FailsOnly

variable {failure : Error → Prop}

theorem failsOnly_pure (result : α) : (pure result : Attempt σ α).FailsOnly failure :=
  fun _ => trivial

theorem failsOnly_get : (get : Attempt σ σ).FailsOnly failure :=
  fun _ => trivial

theorem failsOnly_modify (change : σ → σ) : (modify change).FailsOnly failure :=
  fun _ => trivial

/-- A step that fails at once fails only with its own cause. -/
theorem failsOnly_fail {error : Error} (h : failure error) :
    (fail error : Attempt σ α).FailsOnly failure :=
  fun _ => h

/-- A sequence fails as its steps do. -/
theorem FailsOnly.bind {first : Attempt σ α} {next : α → Attempt σ β}
    (hfirst : first.FailsOnly failure) (hnext : ∀ result, (next result).FailsOnly failure) :
    (first >>= next).FailsOnly failure := by
  intro state
  exact (hfirst state).bind fun result after _ => hnext result after

/-- Changing the state afterwards does not change how an attempt fails. -/
theorem FailsOnly.andThen {attempt : Attempt σ α} (h : attempt.FailsOnly failure)
    (change : σ → σ) : (attempt.andThen change).FailsOnly failure := by
  intro state
  exact meets_andThen.mpr (h state)

/-- A fold fails as the steps for its items do. -/
theorem FailsOnly.foldlM {items : List α} {step : β → α → Attempt σ β} {start : β}
    (h : ∀ item ∈ items, ∀ result, (step result item).FailsOnly failure) :
    (items.foldlM step start).FailsOnly failure := by
  induction items generalizing start with
  | nil => exact failsOnly_pure start
  | cons item items ih =>
      rw [List.forall_mem_cons] at h
      rw [List.foldlM_cons]
      exact (h.1 start).bind fun _ => ih h.2

/-- The steps for all items fail as the step for one of them does. -/
theorem FailsOnly.forEach {items : List α} {step : α → Attempt σ Unit}
    (h : ∀ item ∈ items, (step item).FailsOnly failure) :
    (Attempt.forEach items step).FailsOnly failure :=
  fun _ => Meets.forEach (fun item hitem state _ => h item hitem state) trivial

end FailsOnly

/-! ## Attempts that run alike -/

/-- Two sequences run alike in a state when their first steps do, and their second steps
do in the state that the first ones leave. -/
theorem run_bind_congr {first first' : Attempt σ α} {next next' : α → Attempt σ β}
    (hfirst : first.run state = first'.run state)
    (hnext : ∀ result after, first.run state = (.ok result, after) →
      (next result).run after = (next' result).run after) :
    (first >>= next).run state = (first' >>= next').run state := by
  rcases hrun : first.run state with ⟨outcome, after⟩
  have hrun' : first'.run state = (outcome, after) := hfirst ▸ hrun
  cases outcome with
  | ok result => rw [run_bind_ok hrun, run_bind_ok hrun', hnext result after hrun]
  | error error => rw [run_bind_error hrun, run_bind_error hrun']

/-- In a state an attempt runs as another one does, and it fails only as a condition says. -/
structure RunsAs (first second : Attempt σ α) (state : σ) (failure : Error → σ → Prop) : Prop where
  run_eq : first.run state = second.run state
  fails : first.FailsIn state failure

section RunsAs

variable {first second : Attempt σ α}

/-- An attempt runs as it does itself. -/
theorem RunsAs.of_fails (h : first.FailsIn state failure) : first.RunsAs first state failure :=
  ⟨rfl, h⟩

/-- Attempts that run as two that run alike run alike. -/
theorem RunsAs.of_run_eq {first' second' : Attempt σ α} (h : first.RunsAs second state failure)
    (same : first'.run state = first.run state) (same' : second'.run state = second.run state) :
    first'.RunsAs second' state failure where
  run_eq := by rw [same, same', h.run_eq]
  fails := by
    rw [FailsIn, Meets, same]
    exact h.fails

/-- Attempts that run alike fail in some way or other. -/
theorem runsAs_of_run_eq (h : first.run state = second.run state) :
    first.RunsAs second state fun _ _ => True where
  run_eq := h
  fails := by
    rw [FailsIn, meets_iff]
    exact ⟨fun _ _ _ => trivial, fun _ _ _ => trivial⟩

/-- A result that is there already is found without failing. -/
theorem runsAs_pure (result : α) : (pure result : Attempt σ α).RunsAs (pure result) state failure :=
  .of_fails trivial

/-- A change of the state does not fail. -/
theorem runsAs_modify (change : σ → σ) : (modify change).RunsAs (modify change) state failure :=
  .of_fails trivial

/-- An attempt that fails at once runs as it does itself. -/
theorem runsAs_fail {error : Error} (h : failure error state) :
    (fail error : Attempt σ α).RunsAs (fail error) state failure :=
  .of_fails h

/-- A weaker condition on failures is met as well. -/
theorem RunsAs.mono {failure' : Error → σ → Prop} (h : first.RunsAs second state failure)
    (hfailure : ∀ error after, failure error after → failure' error after) :
    first.RunsAs second state failure' :=
  ⟨h.run_eq, Meets.mono h.fails (fun _ _ done => done) hfailure⟩

/-- A sequence runs as another one when their first steps do, and their second steps do in the
state that the first ones leave. -/
theorem RunsAs.bind {next next' : α → Attempt σ β} (hfirst : first.RunsAs second state failure)
    (hnext : ∀ result after, first.run state = (.ok result, after) →
      (next result).RunsAs (next' result) after failure) :
    (first >>= next).RunsAs (second >>= next') state failure where
  run_eq := run_bind_congr hfirst.run_eq fun result after hrun => (hnext result after hrun).run_eq
  fails := Meets.bind_of_run hfirst.fails fun result after hrun => (hnext result after hrun).fails

/-- What is done with the state is done with the state at hand. -/
theorem RunsAs.get_bind {next next' : σ → Attempt σ β}
    (h : (next state).RunsAs (next' state) state failure) :
    (get >>= next).RunsAs (get >>= next') state failure :=
  h.of_run_eq rfl rfl

/-- The state after two attempts that run alike is changed alike. -/
theorem RunsAs.andThen {change : σ → σ}
    (h : first.RunsAs second state fun error after => failure error (change after)) :
    (first.andThen change).RunsAs (second.andThen change) state failure where
  run_eq := by rw [run_andThen, run_andThen, h.run_eq]
  fails := meets_andThen.mpr h.fails

end RunsAs

/-! ## Attempts that carry one another out -/

section Carries

variable {σ' α' β' : Type} {view : σ → σ'} {image : α → α'} {cause : Error → Error}

/-- In the view of a state, a second attempt does what the first does in the state: it fails
with the image of the cause, or succeeds with the image of the result, and leaves the view of
what the first leaves. -/
def CarriedBy (view : σ → σ') (image : α → α') (cause : Error → Error) (first : Attempt σ α)
    (second : Attempt σ' α') : Prop :=
  ∀ state, second.run (view state) =
    (((first.run state).1.map image).mapError cause, view (first.run state).2)

@[simp] theorem mapError_id (outcome : Except Error α) : outcome.mapError id = outcome := by
  cases outcome <;> rfl

/-- An attempt carries itself out. -/
theorem carriedBy_self (attempt : Attempt σ α) : CarriedBy id id id attempt attempt := by
  intro state
  rw [mapError_id, Except.map_id]
  rfl

/-- A result that is there already is carried out by its image. -/
theorem carriedBy_pure {result : α} {result' : α'} (h : result' = image result) :
    CarriedBy view image cause (pure result) (pure result') := by
  intro state
  rw [h]
  rfl

/-- A failure is carried out by the failure with the image of its cause. -/
theorem carriedBy_fail {error error' : Error} (h : error' = cause error) :
    CarriedBy view image cause (fail error) (fail error') := by
  intro state
  rw [h]
  rfl

/-- Reading the state is carried out by reading its view. -/
theorem carriedBy_get : CarriedBy view view cause get get :=
  fun _ => rfl

/-- A change of the state is carried out by one that the view sees alike. -/
theorem carriedBy_modify {change : σ → σ} {change' : σ' → σ'}
    (h : ∀ state, change' (view state) = view (change state)) :
    CarriedBy view (fun _ => ()) cause (modify change) (modify change') := by
  intro state
  rw [run_modify, run_modify, h]
  rfl

/-- An outcome that does not depend on the state is carried out by its image. -/
theorem carriedBy_ofExcept {outcome : Except Error α} {outcome' : Except Error α'}
    (h : outcome' = (outcome.map image).mapError cause) :
    CarriedBy view image cause (ofExcept outcome) (ofExcept outcome') := by
  intro state
  rw [run_ofExcept, run_ofExcept, h]

/-- Two images that agree on the results of an attempt are as good as one another. -/
theorem CarriedBy.congr_image {first : Attempt σ α} {second : Attempt σ' α'} {image' : α → α'}
    (h : CarriedBy view image cause first second)
    (same : ∀ state result after, first.run state = (.ok result, after) →
      image result = image' result) : CarriedBy view image' cause first second := by
  intro state
  rw [h state]
  rcases hrun : first.run state with ⟨outcome, after⟩
  cases outcome with
  | ok result => rw [Except.map, Except.map, same state result after hrun]
  | error error => rfl

/-- A choice is carried out when either way is and both attempts take the same one. -/
theorem CarriedBy.ite {p p' : Prop} [Decidable p] [Decidable p'] (alike : p' ↔ p)
    {first other : Attempt σ α} {first' other' : Attempt σ' α'}
    (h : p → CarriedBy view image cause first first')
    (hother : ¬ p → CarriedBy view image cause other other') :
    CarriedBy view image cause (if p then first else other) (if p' then first' else other') := by
  by_cases hp : p
  · rw [if_pos hp, if_pos (alike.mpr hp)]
    exact h hp
  · rw [if_neg hp, if_neg (mt alike.mp hp)]
    exact hother hp

/-- Changing the states afterwards is carried out as the change is. -/
theorem CarriedBy.andThen {first : Attempt σ α} {second : Attempt σ' α'}
    (h : CarriedBy view image cause first second) {change : σ → σ} {change' : σ' → σ'}
    (hchange : ∀ state, change' (view state) = view (change state)) :
    CarriedBy view image cause (first.andThen change) (second.andThen change') := by
  intro state
  rw [run_andThen, run_andThen, h state, hchange]

/-- A sequence is carried out when its first step is, and its second step is after every
result that the first can have. -/
theorem CarriedBy.bind {first : Attempt σ α} {second : Attempt σ' α'} {next : α → Attempt σ β}
    {next' : α' → Attempt σ' β'} {image' : β → β'} (h : CarriedBy view image cause first second)
    (hnext : ∀ result, (∃ state after, first.run state = (.ok result, after)) →
      CarriedBy view image' cause (next result) (next' (image result))) :
    CarriedBy view image' cause (first >>= next) (second >>= next') := by
  intro state
  have hfirst := h state
  rcases hrun : first.run state with ⟨outcome, after⟩
  rw [hrun] at hfirst
  cases outcome with
  | ok result =>
      rw [run_bind_ok hrun, run_bind_ok hfirst]
      exact hnext result ⟨state, after, hrun⟩ after
  | error error =>
      rw [run_bind_error hrun, run_bind_error hfirst]
      rfl

/-- The steps for all items are carried out when the step for each of them is. -/
theorem CarriedBy.forEach {items : List α} {items' : List α'} {step : α → Attempt σ Unit}
    {step' : α' → Attempt σ' Unit}
    (h : List.Forall₂ (fun item item' =>
      CarriedBy view (fun _ => ()) cause (step item) (step' item')) items items') :
    CarriedBy view (fun _ => ()) cause (Attempt.forEach items step)
      (Attempt.forEach items' step') := by
  induction h with
  | nil => exact fun _ => rfl
  | cons hfirst _ ih => exact hfirst.bind fun _ _ => ih

end Carries

end Schemata.Attempt
