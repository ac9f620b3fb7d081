import Schemata.Proofs.Introspection.Session

/-!
# Steps of a session

Each step that the sources of declarations share is taken from one sound session to the
next: a report, the ownership of an identifier, the memory of a reference, and the building
of a node.

Main results:

- Definition {lit}`ReadsFrom`: a step reads the references of its result, from any sound
  session that extends a given one.
- Theorem {lit}`ReadsFrom.mapEach`: the steps for the items of a list read what each of them
  reads.
- Theorem {lit}`Reads.refer`: building a node reads a reference to it when its builder reads
  what the node refers to.
- Theorem {lit}`isSound_introspect`: an introspection whose step reads a reference ends, and
  its graph is complete.
-/

namespace Schemata

namespace Session

variable {δ μ α β γ : Type} {thorough : Prop} {failure : Error → Prop}
variable {base session before middle after : Session δ μ}

/-! ## Outcomes -/

/-- A graph that comes out is that of the root that the step gives. -/
theorem introspect_graph_eq_ok_iff {memory : μ} {step : Step δ μ TypeRef} {graph : TypeGraph} :
    (introspect memory step).1.graph = .ok graph ↔
      ∃ root after, step.run { memory } = (.ok root, after) ∧ after.graph root = graph := by
  rw [introspect]
  rcases step.run { memory } with ⟨outcome, after⟩
  cases outcome with
  | error error => simp
  | ok root =>
      constructor
      · rintro ⟨⟩
        exact ⟨root, after, rfl, rfl⟩
      · rintro ⟨_, _, ⟨⟩, rfl⟩
        rfl

/-- An introspection fails as its step does. -/
theorem introspect_graph_eq_error_iff {memory : μ} {step : Step δ μ TypeRef} {error : Error} :
    (introspect memory step).1.graph = .error error ↔
      ∃ after, step.run { memory } = (.error error, after) := by
  rw [introspect]
  rcases step.run { memory } with ⟨outcome, after⟩
  cases outcome <;> simp

/-! ## Building a slot -/

/-- An identifier is known exactly when it has a slot, where what is being built has slots. -/
theorem knows_iff (visiting : ∀ id ∈ session.visiting, id ∈ session.slots.keys) {id : TypeId} :
    session.knows id = true ↔ id ∈ session.slots.keys := by
  rw [knows, Bool.or_eq_true_iff, Table.has_iff_mem_keys, List.contains_iff_mem]
  exact or_iff_left_of_imp (visiting id)

/-- An identifier without a slot is built with its slot reserved. -/
theorem run_register {id : TypeId} (unknown : session.knows id = false)
    (builder : Step δ μ (Option Node)) :
    (register id builder).run session =
      match builder.run (session.reserve id) with
      | (.ok node, after) => (.ok true, (after.leave id).fill id node)
      | (.error error, after) => (.error error, (after.release id).leave id) := by
  rw [Attempt.run, register, unknown]
  rfl

/-- An identifier that is known is not built again; another is built with its slot reserved,
and the slot is filled, or released when the builder fails. -/
theorem meets_register {id : TypeId} {builder : Step δ μ (Option Node)}
    {success : Bool → Session δ μ → Prop} {failure : Error → Session δ μ → Prop}
    (hknown : session.knows id = true → success false session)
    (hnew : session.knows id = false → builder.Meets (session.reserve id)
      (fun node after => success true ((after.leave id).fill id node))
      fun error after => failure error ((after.release id).leave id)) :
    (register id builder).Meets session success failure := by
  rw [Attempt.Meets]
  cases known : session.knows id with
  | true =>
      rw [register_known known]
      exact hknown known
  | false =>
      have hbuild := hnew known
      rw [Attempt.Meets] at hbuild
      rw [run_register known]
      rcases hbuilder : builder.run (session.reserve id) with ⟨outcome, after⟩
      rw [hbuilder] at hbuild
      cases outcome <;> exact hbuild

/-- Where what is being built has slots, an identifier with a slot is not built again, and
another is built with its slot reserved. -/
theorem meets_register_of_visiting {id : TypeId} {builder : Step δ μ (Option Node)}
    {success : Bool → Session δ μ → Prop} {failure : Error → Session δ μ → Prop}
    (visiting : ∀ id ∈ session.visiting, id ∈ session.slots.keys)
    (hknown : id ∈ session.slots.keys → success false session)
    (hnew : id ∉ session.slots.keys → builder.Meets (session.reserve id)
      (fun node after => success true ((after.leave id).fill id node))
      fun error after => failure error ((after.release id).leave id)) :
    (register id builder).Meets session success failure := by
  refine meets_register (fun known => hknown ((knows_iff visiting).mp known)) fun unknown => ?_
  refine hnew fun known => ?_
  rw [(knows_iff visiting).mpr known] at unknown
  cases unknown

/-- The discriminator made of the entries of the subtypes leads to subtypes only. -/
theorem isConsistent_of_entries (settings : IntrospectionSettings) (base : String)
    (entries : List (String × TypeId)) (description : Option String) :
    PolymorphicType.IsConsistent {
      base
      variants := entries.map fun entry => ⟨entry.2, .named entry.2 false⟩
      discriminator := some (settings.discriminator (Table.ofEntries entries))
      description } where
  refs variant mem := by
    rcases List.mem_map.mp mem with ⟨entry, -, rfl⟩
    rfl
  targets := by
    rintro discriminator ⟨⟩ mapping ⟨⟩ entry mem
    rcases Table.value_of_mem_ofEntries mem with ⟨written, hwritten, hvalue⟩
    rw [List.map_map, List.mem_map]
    exact ⟨written, hwritten, hvalue⟩

/-! ## Steps that read references -/

variable [BEq δ]

/-- From any sound session that extends a given one, a step reads the references of its
result, or fails as a condition says. -/
def ReadsFrom (thorough : Prop) (failure : Error → Prop) (base : Session δ μ)
    (refs : α → List TypeRef) (step : Step δ μ α) : Prop :=
  ∀ session, base.Extends session → session.IsSound →
    step.Meets session (fun result after => session.Reads thorough (refs result) after)
      fun error _ => failure error

namespace ReadsFrom

/-- The steps for the items of a list read what each of them reads. -/
theorem mapEach {items : List α} {step : α → Step δ μ β} {refs : β → List TypeRef}
    (h : ∀ item ∈ items, ReadsFrom thorough failure base refs (step item)) :
    ReadsFrom thorough failure base (List.flatMap refs) (Attempt.mapEach items step) := by
  induction items with
  | nil => exact fun session _ sound => .refl sound
  | cons item items ih =>
      rw [List.forall_mem_cons] at h
      intro session later sound
      rw [Attempt.mapEach, Attempt.bind_eq]
      refine (h.1 session later sound).bind fun result middle hfirst => ?_
      rw [Attempt.bind_eq]
      refine (ih h.2 middle (later.trans hfirst.grows) hfirst.sound).bind fun results after hrest => ?_
      exact hfirst.append hrest

/-- A step that reads nothing may come first. -/
theorem prepend {first : Step δ μ α} {next : α → Step δ μ β} {refs : β → List TypeRef}
    (hfirst : ReadsFrom thorough failure base (fun _ => []) first)
    (hnext : ∀ result, ReadsFrom thorough failure base refs (next result)) :
    ReadsFrom thorough failure base refs (first >>= next) := by
  intro session later sound
  refine (hfirst session later sound).bind fun result middle hquiet => ?_
  exact (hnext result middle (later.trans hquiet.grows) hquiet.sound).imp
    fun _ last h => hquiet.append h

/-- A step that reads nothing may come last. -/
theorem followed {first : Step δ μ α} {last : Step δ μ β} {finish : α → β → γ}
    {refs : α → List TypeRef} {refs' : γ → List TypeRef}
    (hfirst : ReadsFrom thorough failure base refs first)
    (hlast : ReadsFrom thorough failure base (fun _ => []) last)
    (same : ∀ result extra, refs' (finish result extra) = refs result) :
    ReadsFrom thorough failure base refs' (do
      let result ← first
      let extra ← last
      return finish result extra) := by
  intro session later sound
  refine (hfirst session later sound).bind fun result middle h => ?_
  refine (hlast middle (later.trans h.grows) h.sound).bind fun extra after hquiet => ?_
  rw [Attempt.meets_pure, same]
  have hread := h.append hquiet
  rw [List.append_nil] at hread
  exact hread

end ReadsFrom

/-! ## Steps that leave the slots alone -/

theorem readsFrom_report (line : String) :
    ReadsFrom thorough failure base (fun _ => []) (report line) :=
  fun _ _ sound => .of_slots_eq sound rfl rfl sound.refs fun _ _ h => h

theorem readsFrom_ofExcept {outcome : Except Error α}
    (h : ∀ error, outcome = .error error → failure error) :
    ReadsFrom thorough failure base (fun _ => []) (Attempt.ofExcept outcome) :=
  fun _ _ sound => Attempt.meets_ofExcept.mpr ⟨fun _ _ => .refl sound, h⟩

/-- A step on the memory leaves the slots alone. -/
theorem Reads.onMemory (sound : session.IsSound) {step : Attempt μ α}
    (h : step.FailsOnly failure) :
    (onMemory step).Meets session (fun _ after => session.Reads thorough [] after)
      fun error _ => failure error := by
  have hstep := h session.memory
  have hrun : (Session.onMemory step).run session =
      ((step.run session.memory).1, { session with memory := (step.run session.memory).2 }) := rfl
  rw [Attempt.FailsIn, Attempt.Meets] at hstep
  rw [Attempt.Meets, hrun]
  rcases hmemory : step.run session.memory with ⟨outcome, memory⟩
  rw [hmemory] at hstep
  cases outcome with
  | ok result => exact .of_slots_eq sound rfl rfl sound.refs fun _ _ h => h
  | error error => exact hstep

/-- A reference that was read can be remembered. -/
theorem Reads.remember {ref : TypeRef} (h : before.Reads thorough [ref] after) (declaration : δ) :
    before.Reads thorough [ref] (after.remember declaration ref) := by
  have haccepts : after.Accepts ref := h.accepts ref (List.mem_singleton.mpr rfl)
  have hremember : after.Reads thorough [] (after.remember declaration ref) := by
    refine .of_slots_eq h.sound rfl rfl ?_ fun _ _ h => h
    intro entry mem
    rcases Table.value_of_mem_put mem with hvalue | hold
    · rw [hvalue]
      exact haccepts.withNullable false
    · exact h.sound.refs entry hold
  exact h.append hremember

/-- A step that hands a reference on when it was read. -/
def HandsOn (thorough : Prop) (failure : Error → Prop) (finish : TypeRef → Step δ μ TypeRef) : Prop :=
  ∀ (before middle : Session δ μ) (ref : TypeRef), before.Reads thorough [ref] middle →
    (finish ref).Meets middle (fun result after => before.Reads thorough [result] after)
      fun error _ => failure error

theorem handsOn_pure : HandsOn (δ := δ) (μ := μ) thorough failure pure :=
  fun _ _ _ h => h

/-- Remembering a reference hands it on. -/
theorem handsOn_remembering (declaration : δ) :
    HandsOn (μ := μ) thorough failure (remembering declaration) :=
  fun _ _ _ h => h.remember declaration

/-- A reference that was remembered is read without a change. -/
theorem Reads.cached (sound : session.IsSound) {declaration : δ} {nullable : Bool} {ref : TypeRef}
    (h : session.cached? declaration nullable = some ref) : session.Reads thorough [ref] session := by
  rw [cached?, Option.map_eq_some_iff] at h
  rcases h with ⟨kept, hfind, rfl⟩
  rcases Table.exists_mem_of_find? hfind with ⟨key, mem⟩
  exact .known sound ((sound.refs _ mem).withNullable nullable)

/-- The identifier that a claim settles on. -/
def claimedId (session : Session δ μ) (id : TypeId) : Option String → TypeId
  | some module => if session.owners.has id then module ++ "." ++ id else id
  | none => id

/-- A claim fails when the identifier it settles on is owned, and gives it to the declaration
otherwise. -/
theorem run_claim (display : δ → String) (declaration : δ) (id : TypeId) (module : Option String) :
    (claim display declaration id module).run session =
      match session.owners.find? (session.claimedId id module) with
      | some owner =>
        (.error (.invalidGraph (.identifierTaken (display owner))
          (some (session.claimedId id module))), session)
      | none =>
        (.ok (session.claimedId id module), { session with
          ids := session.ids.put declaration (session.claimedId id module)
          owners := session.owners.put (session.claimedId id module) declaration }) := by
  cases module <;> rfl

/-- A declaration that owns no identifier owns the claimed one afterwards. -/
theorem Reads.claim (thorough : Prop) (sound : session.IsSound) {declaration : δ}
    (new : session.ids.find? declaration = none) (refused : ∀ fault id, failure (.invalidGraph fault id))
    (display : δ → String) (id : TypeId) (module : Option String) :
    (claim display declaration id module).Meets session
      (fun owned after => session.Reads thorough [] after ∧
        after.ids = session.ids ++ [(declaration, owned)]) fun error _ => failure error := by
  have hids : ∀ owned, session.ids.put declaration owned = session.ids ++ [(declaration, owned)] :=
    Table.put_of_new (Table.find?_eq_none_iff.mp new)
  rw [Attempt.Meets, run_claim]
  generalize session.claimedId id module = owned
  cases session.owners.find? owned with
  | some owner => exact refused _ _
  | none =>
      refine ⟨.of_slots_eq sound rfl rfl sound.refs ?_, hids owned⟩
      intro other found hfound
      simp only [hids, Table.find?_append, hfound, Option.some_or]

/-! ## Building a node -/

/-- A builder reads what its node refers to. -/
def Builds (thorough : Prop) (failure : Error → Prop) (session : Session δ μ)
    (builder : Step δ μ (Option Node)) : Prop :=
  builder.Meets session (fun built after => ∃ node, built = some node ∧ node.FitsTable ∧
    session.Reads thorough node.children after) fun error _ => failure error

/-- Registering an identifier reads it, whether its slot is there or its builder fills one. -/
theorem Reads.register {id : TypeId} {builder : Step δ μ (Option Node)} (sound : session.IsSound)
    (hbuild : id ∉ session.slots.keys → Builds thorough failure (session.reserve id) builder)
    (nullable : Bool) :
    (register id builder).Meets session
      (fun _ after => session.Reads thorough [.named id nullable] after)
      fun error _ => failure error := by
  refine meets_register_of_visiting sound.visiting
    (fun known => .known sound (accepts_named.mpr known)) fun outside => ?_
  refine (hbuild outside).imp ?_
  rintro built after ⟨node, rfl, fits, hreads⟩
  exact hreads.close outside sound fits nullable

/-- Building a node reads a reference to it. -/
theorem Reads.refer {id : TypeId} {builder : Step δ μ (Option Node)} (sound : session.IsSound)
    (hbuild : id ∉ session.slots.keys → Builds thorough failure (session.reserve id) builder)
    (declaration : δ) (nullable : Bool) :
    (refer declaration id nullable builder).Meets session
      (fun ref after => session.Reads thorough [ref] after) fun error _ => failure error := by
  rw [Session.refer, Attempt.bind_eq]
  exact (Reads.register sound hbuild nullable).bind fun _ after h =>
    handsOn_remembering declaration _ _ _ h

/-! ## Lists and maps -/

section Containers

variable {elements keys values : Step δ μ TypeRef} {finish : TypeRef → Step δ μ TypeRef}

/-- A list is read when its elements are. -/
theorem ReadsFrom.list (helements : ReadsFrom thorough failure base (fun ref => [ref]) elements)
    (hfinish : HandsOn thorough failure finish) (nullable : Bool) :
    ReadsFrom thorough failure base (fun ref => [ref]) (do
      let element ← elements
      finish (.inline (.list element none) nullable)) := by
  intro session later sound
  exact (helements session later sound).bind fun element middle h =>
    hfinish _ _ _ (Reads.inline h rfl)

/-- A map is read when its keys and then its values are. -/
theorem ReadsFrom.map (hkeys : ReadsFrom thorough failure base (fun ref => [ref]) keys)
    (hvalues : ReadsFrom thorough failure base (fun ref => [ref]) values)
    (hfinish : HandsOn thorough failure finish) (nullable : Bool) :
    ReadsFrom thorough failure base (fun ref => [ref]) (do
      let key ← keys
      let value ← values
      finish (.inline (.map key value none) nullable)) := by
  intro session later sound
  refine (hkeys session later sound).bind fun key middle hkey => ?_
  refine (hvalues middle (later.trans hkey.grows) hkey.sound).bind fun value after hvalue => ?_
  exact hfinish _ _ _ (Reads.inline (hkey.append hvalue) rfl)

end Containers

/-! ## Sound outcomes -/

/-- An introspection is sound when its step reads a reference or fails for another reason
than its budget. -/
theorem isSound_introspect {memory : μ} {step : Step δ μ TypeRef}
    (h : step.Meets { memory } (fun ref after =>
      ({ memory } : Session δ μ).Reads thorough [ref] after) fun error _ => error ≠ .endless) :
    (introspect memory step).1.IsSound := by
  constructor
  · intro hendless
    rcases introspect_graph_eq_error_iff.mp hendless with ⟨after, hrun⟩
    exact h.of_error hrun rfl
  · intro graph hgraph
    rcases introspect_graph_eq_ok_iff.mp hgraph with ⟨root, after, hrun, rfl⟩
    have hreads := h.of_ok hrun
    exact hreads.isComplete

end Session

end Schemata
