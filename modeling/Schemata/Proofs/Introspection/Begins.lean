import Mathlib.Data.List.Nodup
import Schemata.Proofs.Introspection.Steps

/-!
# Builders that a session begins

A session begins the builder of an identifier when it is asked to register one without a slot.
Along the parts that a step is made of, the identifiers whose builders are begun can be listed
in order, also when the step fails in the end.  Since a slot is reserved before its builder
runs, and given up only by a failure, which no step goes on after, no identifier is listed
twice.

Main results:

- Definition {lit}`Begins`: the identifiers whose builders a step begins.
- Theorem {lit}`Begins.nodup`: a step begins one builder for an identifier at most.
- Theorem {lit}`Begins.keys_eq`: a step that succeeds has added just these slots.
-/

namespace Schemata

namespace Session

variable {δ μ α β : Type}

/-- The identifiers whose builders a step begins in a session, in order. -/
inductive Begins : {α : Type} → Step δ μ α → Session δ μ → List TypeId → Prop
  | pure {α : Type} {value : α} {session : Session δ μ} :
      Begins (Pure.pure value : Step δ μ α) session []
  | fail {α : Type} {error : Error} {session : Session δ μ} :
      Begins (Attempt.fail error : Step δ μ α) session []
  | get {session : Session δ μ} : Begins Attempt.get session []
  | ofExcept {α : Type} {outcome : Except Error α} {session : Session δ μ} :
      Begins (Attempt.ofExcept outcome : Step δ μ α) session []
  | modify {change : Session δ μ → Session δ μ} {session : Session δ μ}
      (slots : (change session).slots = session.slots)
      (visiting : (change session).visiting = session.visiting) :
      Begins (Attempt.modify change) session []
  /-- The second step is carried out after the first. -/
  | next {α β : Type} {first : Step δ μ α} {second : α → Step δ μ β}
      {session middle : Session δ μ} {value : α} {ids more : List TypeId}
      (before : Begins first session ids) (run : first.run session = (.ok value, middle))
      (rest : Begins (second value) middle more) : Begins (first >>= second) session (ids ++ more)
  /-- The first step fails. -/
  | stop {α β : Type} {first : Step δ μ α} {second : α → Step δ μ β}
      {session middle : Session δ μ} {error : Error} {ids : List TypeId}
      (before : Begins first session ids) (run : first.run session = (.error error, middle)) :
      Begins (first >>= second) session ids
  /-- The identifier has a slot. -/
  | known {id : TypeId} {builder : Step δ μ (Option Node)} {session : Session δ μ}
      (known : session.knows id = true) : Begins (register id builder) session []
  /-- The builder of the identifier is begun. -/
  | build {id : TypeId} {builder : Step δ μ (Option Node)} {session : Session δ μ}
      {ids : List TypeId} (unknown : session.knows id = false)
      (inside : Begins builder (session.reserve id) ids) :
      Begins (register id builder) session (id :: ids)

variable {step : Step δ μ α} {session after : Session δ μ} {ids : List TypeId} {result : α}

/-! ## What is begun -/

/-- What is begun has no slot before, is begun once, and has a slot after a success, in the
order of the beginnings; what is being built keeps its slots. -/
structure Begins.Accounts (session : Session δ μ) (ids : List TypeId)
    (outcome : Except Error α × Session δ μ) : Prop where
  nodup : ids.Nodup
  new : ∀ id ∈ ids, id ∉ session.slots.keys
  keys : ∀ result after, outcome = (.ok result, after) →
    after.slots.keys = session.slots.keys ++ ids
  visiting : ∀ result after, outcome = (.ok result, after) →
    ∀ id ∈ after.visiting, id ∈ after.slots.keys

/-- A step that leaves the slots alone begins nothing. -/
theorem Begins.Accounts.of_slots_eq {outcome : Except Error α × Session δ μ}
    (hvisiting : ∀ id ∈ session.visiting, id ∈ session.slots.keys)
    (slots : outcome.2.slots = session.slots) (visiting : outcome.2.visiting = session.visiting) :
    Begins.Accounts session [] outcome := by
  refine ⟨List.nodup_nil, nofun, ?_, ?_⟩
  · rintro result after rfl
    rw [slots, List.append_nil]
  · rintro result after rfl
    rw [slots, visiting]
    exact hvisiting

/-- A reserved identifier comes after all others. -/
theorem keys_reserve {id : TypeId} (outside : id ∉ session.slots.keys) :
    (session.reserve id).slots.keys = session.slots.keys ++ [id] := by
  rw [reserve, Table.keys_put, if_neg outside]

/-- What a second step begins has no slot after the first one, so it is something else than what
the first one began. -/
theorem Begins.Accounts.next {middle : Session δ μ} {more : List TypeId} {value : β}
    {outcome : Except Error α × Session δ μ} {first : Except Error β × Session δ μ}
    (hfirst : Begins.Accounts session ids first) (run : first = (.ok value, middle))
    (hrest : Begins.Accounts middle more outcome) :
    Begins.Accounts session (ids ++ more) outcome := by
  have hkeys := hfirst.keys _ _ run
  refine ⟨?_, ?_, ?_, hrest.visiting⟩
  · refine List.nodup_append.mpr ⟨hfirst.nodup, hrest.nodup, ?_⟩
    rintro id hid other hother rfl
    exact hrest.new id hother (hkeys ▸ List.mem_append_right _ hid)
  · intro id hid
    rcases List.mem_append.mp hid with hid | hid
    · exact hfirst.new id hid
    · exact fun old => hrest.new id hid (hkeys ▸ List.mem_append_left _ old)
  · intro result after hrun
    rw [hrest.keys result after hrun, hkeys, List.append_assoc]

/-- What is begun inside a builder has no slot when the identifier of the builder has one. -/
theorem Begins.Accounts.build {id : TypeId} {last : Session δ μ} {result : Except Error α}
    (outside : id ∉ session.slots.keys)
    (hinside : Begins.Accounts (session.reserve id) ids (result, last)) :
    (id :: ids).Nodup ∧ (∀ other ∈ id :: ids, other ∉ session.slots.keys) ∧
      ∀ value, result = .ok value → last.slots.keys = session.slots.keys ++ id :: ids := by
  have hreserve := keys_reserve outside
  refine ⟨?_, ?_, ?_⟩
  · refine List.nodup_cons.mpr ⟨fun mem => hinside.new id mem ?_, hinside.nodup⟩
    rw [hreserve]
    exact List.mem_append_right _ (List.mem_singleton.mpr rfl)
  · refine List.forall_mem_cons.mpr ⟨outside, fun other mem old => ?_⟩
    exact hinside.new other mem (hreserve ▸ List.mem_append_left _ old)
  · rintro value rfl
    rw [hinside.keys _ _ rfl, hreserve, List.append_assoc, List.singleton_append]

/-- A reservation keeps the slots of what is being built. -/
theorem visiting_reserve {id : TypeId} (outside : id ∉ session.slots.keys)
    (hvisiting : ∀ other ∈ session.visiting, other ∈ session.slots.keys) :
    ∀ other ∈ (session.reserve id).visiting, other ∈ (session.reserve id).slots.keys := by
  intro other mem
  rw [keys_reserve outside, List.mem_append, List.mem_singleton]
  rcases List.mem_cons.mp mem with rfl | mem
  · exact Or.inr rfl
  · exact Or.inl (hvisiting other mem)

/-- The induction follows the parts of the step. -/
theorem Begins.accounts (h : Begins step session ids)
    (hvisiting : ∀ id ∈ session.visiting, id ∈ session.slots.keys) :
    Begins.Accounts session ids (step.run session) := by
  induction h with
  | pure | fail | get | ofExcept => exact .of_slots_eq hvisiting rfl rfl
  | modify slots visiting => exact .of_slots_eq hvisiting slots visiting
  | next _ run _ ihfirst ihrest =>
      have hfirst := ihfirst hvisiting
      rw [Attempt.run_bind_ok run]
      exact hfirst.next run (ihrest (hfirst.visiting _ _ run))
  | stop _ run ih =>
      have hfirst := ih hvisiting
      rw [Attempt.run_bind_error run]
      exact ⟨hfirst.nodup, hfirst.new, nofun, nofun⟩
  | known known =>
      rw [register_known known]
      exact .of_slots_eq hvisiting rfl rfl
  | @build id builder session ids unknown _ ih =>
      have houtside : id ∉ session.slots.keys := by
        rw [← knows_iff hvisiting, unknown]
        exact Bool.false_ne_true
      have hinside := ih (visiting_reserve houtside hvisiting)
      rw [run_register unknown]
      rcases hrun : builder.run (session.reserve id) with ⟨outcome, last⟩
      rw [hrun] at hinside
      rcases hinside.build houtside with ⟨hnodup, hnew, hlast⟩
      cases outcome with
      | error error => exact ⟨hnodup, hnew, nofun, nofun⟩
      | ok node =>
          have hkey : id ∈ last.slots.keys := by
            rw [hlast node rfl]
            exact List.mem_append_right _ (List.mem_cons_self ..)
          have hfill : ((last.leave id).fill id node).slots.keys = last.slots.keys := by
            rw [fill, leave, Table.keys_put, if_pos hkey]
          refine ⟨hnodup, hnew, ?_, ?_⟩
          · rintro _ _ ⟨⟩
            exact hfill.trans (hlast node rfl)
          · rintro _ _ ⟨⟩ other mem
            rw [hfill]
            exact hinside.visiting _ _ rfl other (List.mem_filter.mp mem).1

/-- From its start on a session begins one builder for an identifier at most. -/
theorem Begins.nodup {memory : μ} (h : Begins step { memory } ids) : ids.Nodup :=
  (h.accounts nofun).nodup

/-- From its start on the slots of a session are those whose builders it has begun. -/
theorem Begins.keys_eq {memory : μ} (h : Begins step { memory } ids)
    (run : step.run { memory } = (.ok result, after)) : after.slots.keys = ids :=
  (h.accounts nofun).keys _ _ run

/-! ## Steps that are made of parts -/

/-- Whatever session a step runs in, it can be told which builders it begins. -/
def IsTraced (step : Step δ μ α) : Prop :=
  ∀ session, ∃ ids, Begins step session ids

theorem isTraced_pure (value : α) : IsTraced (pure value : Step δ μ α) :=
  fun _ => ⟨_, .pure⟩

theorem isTraced_fail (error : Error) : IsTraced (Attempt.fail error : Step δ μ α) :=
  fun _ => ⟨_, .fail⟩

theorem isTraced_get : IsTraced (Attempt.get : Step δ μ (Session δ μ)) :=
  fun _ => ⟨_, .get⟩

theorem isTraced_ofExcept (outcome : Except Error α) :
    IsTraced (Attempt.ofExcept outcome : Step δ μ α) :=
  fun _ => ⟨_, .ofExcept⟩

theorem isTraced_report (line : String) : IsTraced (report line : Step δ μ Unit) :=
  fun _ => ⟨_, .modify rfl rfl⟩

/-- What a sequence begins can be told when it can of both steps. -/
theorem IsTraced.bind {first : Step δ μ α} {second : α → Step δ μ β} (hfirst : IsTraced first)
    (hsecond : ∀ value, IsTraced (second value)) : IsTraced (first >>= second) := by
  intro session
  rcases hfirst session with ⟨ids, hids⟩
  rcases hrun : first.run session with ⟨outcome, middle⟩
  cases outcome with
  | error error => exact ⟨ids, hids.stop hrun⟩
  | ok value =>
      rcases hsecond value middle with ⟨more, hmore⟩
      exact ⟨ids ++ more, hids.next hrun hmore⟩

/-- What steps over a list begin can be told when it can of each of them. -/
theorem IsTraced.mapEach {items : List α} {step : α → Step δ μ β}
    (h : ∀ item ∈ items, IsTraced (step item)) : IsTraced (Attempt.mapEach items step) := by
  induction items with
  | nil => exact isTraced_pure _
  | cons item items ih =>
      rw [List.forall_mem_cons] at h
      rw [Attempt.mapEach, Attempt.bind_eq]
      refine h.1.bind fun result => ?_
      rw [Attempt.bind_eq]
      exact (ih h.2).bind fun results => isTraced_pure _

/-- What a registration begins can be told when it can of its builder. -/
theorem IsTraced.register {id : TypeId} {builder : Step δ μ (Option Node)}
    (h : IsTraced builder) : IsTraced (register id builder) := by
  intro session
  cases hknows : session.knows id with
  | true => exact ⟨_, .known hknows⟩
  | false =>
      rcases h (session.reserve id) with ⟨ids, hids⟩
      exact ⟨_, hids.build hknows⟩

variable [BEq δ]

theorem isTraced_remembering (declaration : δ) (ref : TypeRef) :
    IsTraced (remembering declaration ref : Step δ μ TypeRef) := by
  rw [remembering, Attempt.bind_eq]
  exact IsTraced.bind (fun _ => ⟨_, .modify rfl rfl⟩) fun _ => isTraced_pure _

/-- What a named reference begins can be told when it can of its builder. -/
theorem IsTraced.refer {id : TypeId} {builder : Step δ μ (Option Node)} (h : IsTraced builder)
    (declaration : δ) (nullable : Bool) : IsTraced (refer declaration id nullable builder) := by
  rw [Session.refer, Attempt.bind_eq]
  exact h.register.bind fun _ => isTraced_remembering _ _

end Session

end Schemata
