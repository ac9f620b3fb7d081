import Schemata.Proofs.Introspection.Scripts

/-!
# References that are remembered

A request for a named node remembers the reference to the node, and later requests are
answered from what is remembered.  A builder can ask for its own node, or for a node around
it, and the reference is then remembered although the slot behind it is still empty.  When
such a build fails its slot is dropped, but what was remembered inside it stays.

The argument follows the moments of a script.  A reference is remembered when its node has
a slot, and the only way to lose a slot is a build that fails, so a reference without a slot
was there at some moment of a build of its own node.

Main results:

- Theorem {lit}`Script.AlwaysRefers.tracesBack`: every remembered reference has a slot, or
  was remembered before while its node was being built.
- Theorem {lit}`Script.cached_resolve_iff`: outside of all builders every remembered
  reference names a node of the session exactly when what was referred to while it was being
  built, and still is, has been built.
-/

namespace Schemata

/-- At a moment a declaration has the reference to a node that is being built. -/
structure Moment.Anticipates {δ μ : Type} [BEq δ] (moment : Moment δ μ) (declaration : δ)
    (id : TypeId) : Prop where
  building : id ∈ moment.building
  remembered : moment.session.refs.find? declaration = some (.named id false)

namespace Script

variable {δ μ : Type} [BEq δ]

/-- A script that asks for nodes only to refer to them, and remembers no other references. -/
inductive AlwaysRefers : Script δ μ → Prop
  | give (node : Node) : AlwaysRefers (.give node)
  | fail (error : Error) : AlwaysRefers (.fail error)
  | refer {declaration : δ} {id : TypeId} {nullable : Bool} {builder : Script δ μ}
      {next : Except Error TypeRef → Script δ μ} (inner : AlwaysRefers builder)
      (rest : ∀ outcome, AlwaysRefers (next outcome)) :
      AlwaysRefers (.refer declaration id nullable builder next)
  | apart {change : Session δ μ → Session δ μ}
      {slots : ∀ session, (change session).slots = session.slots}
      {visiting : ∀ session, (change session).visiting = session.visiting}
      {next : Session δ μ → Script δ μ}
      (refs : ∀ session, (change session).refs = session.refs)
      (rest : ∀ session, AlwaysRefers (next session)) :
      AlwaysRefers (.apart change slots visiting next)

end Script

namespace Session

variable {δ μ : Type} [BEq δ] {session before after : Session δ μ} {declaration : δ}
variable {id : TypeId} {ref : TypeRef}

/-- The reference leads to a slot of the session, or one of the given moments had it while
its node was being built. -/
def Traced (session : Session δ μ) (moments : List (Moment δ μ)) (declaration : δ)
    (ref : TypeRef) : Prop :=
  ∃ id, ref = .named id false ∧
    (id ∈ session.slots.keys ∨ ∃ earlier ∈ moments, earlier.Anticipates declaration id)

/-- A trace is kept when slots are added and moments pass. -/
theorem Traced.mono {moments more : List (Moment δ μ)}
    (h : before.Traced moments declaration ref) (slots : before.slots <+: after.slots)
    (subset : moments ⊆ more) : after.Traced more declaration ref := by
  obtain ⟨id, rfl, h⟩ := h
  refine ⟨id, rfl, ?_⟩
  cases h with
  | inl mem =>
      left
      exact (slots.map Prod.fst).subset mem
  | inr earlier =>
      right
      obtain ⟨moment, mem, anticipates⟩ := earlier
      exact ⟨moment, subset mem, anticipates⟩

omit [BEq δ] in
/-- A request changes no reference but through its builder. -/
theorem refs_register (id : TypeId) (builder : Step δ μ (Option Node)) (session : Session δ μ) :
    ((register id builder).run session).2.refs =
      if session.knows id then session.refs else (builder.run (session.reserve id)).2.refs := by
  cases known : session.knows id with
  | true =>
      rw [register_known known]
      simp
  | false =>
      rw [run_register known]
      rcases builder.run (session.reserve id) with ⟨outcome, inner⟩
      cases outcome <;> simp [fill, leave, release]

omit [BEq δ] in
/-- Whatever becomes of a builder, the other slots that it left stay. -/
theorem mem_keys_register {builder : Step δ μ (Option Node)} {other : TypeId}
    (unknown : session.knows id = false) (different : other ≠ id)
    (mem : other ∈ (builder.run (session.reserve id)).2.slots.keys) :
    other ∈ ((register id builder).run session).2.slots.keys := by
  rw [run_register unknown]
  rcases hbuilder : builder.run (session.reserve id) with ⟨outcome, inner⟩
  rw [hbuilder] at mem
  cases outcome with
  | ok node =>
      apply (Table.mem_keys_put ..).mpr
      exact Or.inr mem
  | error error =>
      obtain ⟨entry, hentry, rfl⟩ := List.mem_map.mp mem
      apply List.mem_map_of_mem
      apply List.mem_filter.mpr
      simp [hentry, different]

omit [BEq δ] in
/-- After a request that succeeds the identifier has a slot. -/
theorem mem_keys_of_register {builder : Step δ μ (Option Node)} {building : List TypeId}
    {built : Bool} (hsession : session.IsBuilding building)
    (h : (register id builder).run session = (.ok built, after)) : id ∈ after.slots.keys := by
  cases known : session.knows id with
  | true =>
      rw [register_known known] at h
      cases h
      exact hsession.knows_iff.mp known
  | false =>
      rw [run_register known] at h
      rcases hbuilder : builder.run (session.reserve id) with ⟨outcome, inner⟩
      rw [hbuilder] at h
      cases outcome with
      | error error => cases h
      | ok node =>
          cases h
          apply (Table.mem_keys_put ..).mpr
          exact Or.inl rfl

omit [BEq δ] in
/-- Outside of all builders every slot is that of a node. -/
theorem mem_keys_nodes (h : session.IsBuilding []) :
    id ∈ session.nodes.keys ↔ id ∈ session.slots.keys := by
  constructor
  · intro mem
    obtain ⟨⟨_, node⟩, hnode, rfl⟩ := List.mem_map.mp mem
    exact List.mem_map_of_mem (mem_nodes.mp hnode)
  · intro mem
    obtain ⟨⟨key, slot⟩, hslot, rfl⟩ := List.mem_map.mp mem
    cases slot with
    | none => cases (h.empty key).mp hslot
    | some node => exact List.mem_map_of_mem (mem_nodes.mpr hslot)

/-- What is answered from memory is the remembered reference with the nullability asked for. -/
theorem cached?_eq_some_iff {nullable : Bool} :
    session.cached? declaration nullable = some ref ↔
      ∃ known, session.refs.find? declaration = some known ∧ known.withNullable nullable = ref := by
  rw [cached?, Option.map_eq_some_iff]

/-- Of a remembered reference and those from before, one is found. -/
theorem find?_refs_remember {other : δ} {found : TypeRef}
    (h : (session.remember declaration ref).refs.find? other = some found) :
    found = ref.withNullable false ∨ session.refs.find? other = some found :=
  Table.value_of_find?_put h

end Session

namespace Script

variable {δ μ : Type} [BEq δ] {script builder : Script δ μ} {session after : Session δ μ}
variable {building : List TypeId} {declaration : δ} {id : TypeId} {ref : TypeRef}

/-! ## One script after another -/

/-- Every reference that is remembered at a moment was there at the beginning or is traced
back through the moments before. -/
def TracesBack (script : Script δ μ) (building : List TypeId) (session : Session δ μ) : Prop :=
  ∀ front moment rest, script.moments building session = front ++ moment :: rest →
    ∀ declaration ref, moment.session.refs.find? declaration = some ref →
      session.refs.find? declaration = some ref ∨
        moment.session.Traced front declaration ref

omit [BEq δ] in
/-- The place of a moment in two lists of moments, one after the other. -/
theorem split_append {first second front rest : List (Moment δ μ)} {moment : Moment δ μ}
    (h : first ++ second = front ++ moment :: rest) :
    (∃ others, first = front ++ moment :: others) ∨
      ∃ others, front = first ++ others ∧ second = others ++ moment :: rest := by
  rw [List.append_eq_append_iff] at h
  rcases h with ⟨others, hfront, hsecond⟩ | ⟨others, hfirst, hrest⟩
  · exact Or.inr ⟨others, hfront, hsecond⟩
  · cases others with
    | nil =>
        refine Or.inr ⟨[], ?_, hrest.symm⟩
        simpa using hfirst.symm
    | cons next others =>
        rw [List.cons_append, List.cons.injEq] at hrest
        obtain ⟨rfl, -⟩ := hrest
        exact Or.inl ⟨others, hfirst⟩

/-- A script that ends at once traces its references back. -/
theorem TracesBack.single (h : script.moments building session = [{ building, session }]) :
    script.TracesBack building session := by
  intro front moment rest split declaration ref found
  rw [h] at split
  have hmoment : moment ∈ [({ building, session } : Moment δ μ)] := by
    rw [split]
    simp
  rw [List.mem_singleton.mp hmoment] at found
  exact Or.inl found

/-- Moments before a script that traces its references back may be put in front of it, when
the references that it begins with are traced back to them. -/
theorem TracesBack.onward (begins : Option TypeId) (inside : List (Moment δ μ))
    (next : Script δ μ) (after : Session δ μ)
    (hmoments : script.moments building session =
      { building, session, begins } :: (inside ++ next.moments building after))
    (hinside : ∀ front moment rest, inside = front ++ moment :: rest → ∀ declaration ref,
      moment.session.refs.find? declaration = some ref →
        session.refs.find? declaration = some ref ∨
          moment.session.Traced front declaration ref)
    (hafter : ∀ declaration ref, after.refs.find? declaration = some ref →
      session.refs.find? declaration = some ref ∨ after.Traced inside declaration ref)
    (hkeeps : next.Keeps building after) (hnext : next.TracesBack building after) :
    script.TracesBack building session := by
  intro front moment rest split declaration ref found
  rw [hmoments] at split
  cases front with
  | nil =>
      rw [List.nil_append, List.cons.injEq] at split
      rw [← split.1] at found
      exact Or.inl found
  | cons first front =>
      rw [List.cons_append, List.cons.injEq] at split
      rcases split_append split.2 with ⟨others, hin⟩ | ⟨others, hfront, hout⟩
      · apply (hinside front moment others hin declaration ref found).imp_right
        intro traced
        exact traced.mono (List.prefix_refl _) (List.subset_cons_self ..)
      · have hslots : after.slots <+: moment.session.slots := by
          apply hkeeps.grows
          rw [hout]
          simp
        rcases hnext others moment rest hout declaration ref found with hfound | traced
        · apply (hafter declaration ref hfound).imp_right
          intro traced
          apply traced.mono hslots
          intro earlier mem
          simp [hfront, mem]
        · right
          apply traced.mono (List.prefix_refl _)
          intro earlier mem
          simp [hfront, mem]

/-! ## Requests -/

/-- A failed build drops the slot of its own node, so a reference that its builder left has
a slot still or names that node, and then the last moment of the builder had it already. -/
theorem traced_register (hsession : session.IsBuilding building) (new : id ∉ session.slots.keys)
    (hbuilder : builder.TracesBack (id :: building) (session.reserve id))
    (found : ((Session.register id builder.run).run session).2.refs.find? declaration = some ref) :
    session.refs.find? declaration = some ref ∨
      ((Session.register id builder.run).run session).2.Traced
        (builder.moments (id :: building) (session.reserve id)) declaration ref := by
  have hknows : session.knows id = false := by
    rw [← Bool.not_eq_true, hsession.knows_iff]
    exact new
  have hkeeps := builder.keeps (hsession.reserve new)
  rw [Session.refs_register, hknows, if_neg Bool.false_ne_true] at found
  obtain ⟨front, hlast⟩ := List.getLast?_eq_some_iff.mp hkeeps.ends
  -- What the builder left is what was remembered at its last moment.
  rcases hbuilder front _ [] hlast declaration ref found with hfound | ⟨other, rfl, traced⟩
  · left
    exact hfound
  · right
    refine ⟨other, rfl, ?_⟩
    rcases traced with mem | ⟨earlier, mem, anticipates⟩
    · by_cases same : other = id
      · right
        refine ⟨_, hkeeps.mem_last, ?_, found⟩
        rw [same]
        exact List.mem_cons_self ..
      · left
        exact Session.mem_keys_register hknows same mem
    · right
      refine ⟨earlier, ?_, anticipates⟩
      rw [hlast]
      exact List.mem_append_left _ mem

/-- A request traces its references back when its builder and what follows it do. -/
theorem tracesBack_register {following : Except Error Bool → Script δ μ}
    (hsession : session.IsBuilding building)
    (hbuilder : id ∉ session.slots.keys →
      builder.TracesBack (id :: building) (session.reserve id))
    (hfollowing : ∀ outcome after,
      (Session.register id builder.run).run session = (outcome, after) →
        after.IsBuilding building → (following outcome).TracesBack building after) :
    (register id builder following).TracesBack building session := by
  rcases hrequest : (Session.register id builder.run).run session with ⟨outcome, after⟩
  by_cases known : id ∈ session.slots.keys
  · have hknows := hsession.knows_iff.mpr known
    have hsame := Session.register_known hknows builder.run
    rw [hrequest] at hsame
    cases hsame
    apply TracesBack.onward none [] (following (.ok false)) session
    · rw [moments, hrequest, if_pos hknows, if_pos hknows]
    · simp
    · intro declaration ref found
      exact Or.inl found
    · exact (following _).keeps hsession
    · exact hfollowing _ _ hrequest hsession
  · have hknows : session.knows id ≠ true := hsession.knows_iff.not.mpr known
    have hkeeps := builder.keeps (hsession.reserve known)
    have hafter : after.IsBuilding building := by
      have hbuilding := (after_register hsession known (hkeeps.consistent _ hkeeps.mem_last)
        (hkeeps.grows _ hkeeps.mem_last)).1
      rwa [hrequest] at hbuilding
    apply TracesBack.onward (some id) (builder.moments (id :: building) (session.reserve id))
      (following outcome) after
    · rw [moments, hrequest, if_neg hknows, if_neg hknows]
    · exact hbuilder known
    · intro declaration ref found
      have hleft : after = ((Session.register id builder.run).run session).2 := by rw [hrequest]
      rw [hleft] at found ⊢
      exact traced_register hsession known (hbuilder known) found
    · exact (following outcome).keeps hafter
    · exact hfollowing outcome after hrequest hafter

/-- To remember a reference to a node that has a slot keeps references traced back. -/
theorem tracesBack_remember {nullable : Bool} {next : Session δ μ → Script δ μ}
    (hsession : session.IsBuilding building) (slot : id ∈ session.slots.keys)
    (hnext : (next session).TracesBack building
      (session.remember declaration (.named id nullable))) :
    (apart (·.remember declaration (.named id nullable)) (fun _ => rfl) (fun _ => rfl)
      next).TracesBack building session := by
  apply TracesBack.onward none [] (next session) (session.remember declaration (.named id nullable))
  · rfl
  · simp
  · intro other ref found
    cases Session.find?_refs_remember found with
    | inl same =>
        right
        exact ⟨id, same, Or.inl slot⟩
    | inr found =>
        left
        exact found
  · apply (next session).keeps
    exact hsession.of_slots_eq rfl rfl
  · exact hnext

/-- A script that asks for nodes only to refer to them traces its references back. -/
theorem AlwaysRefers.tracesBack (h : script.AlwaysRefers) (hsession : session.IsBuilding building) :
    script.TracesBack building session := by
  induction h generalizing building session with
  | give | fail => exact .single rfl
  | refer inner rest hinner hrest =>
      apply tracesBack_register hsession
      · intro new
        exact hinner (hsession.reserve new)
      · intro outcome after hrequest hafter
        cases outcome with
        | error error => exact hrest _ hafter
        | ok built =>
            apply tracesBack_remember hafter (Session.mem_keys_of_register hsession hrequest)
            apply hrest
            exact hafter.of_slots_eq rfl rfl
  | @apart change slots visiting next refs rest ih =>
      have hafter := hsession.of_slots_eq (slots session) (visiting session)
      apply TracesBack.onward none [] (next session) (change session)
      · rfl
      · simp
      · intro declaration ref found
        rw [refs] at found
        exact Or.inl found
      · exact (next session).keeps hafter
      · exact ih session hafter

/-! ## Outside of all builders -/

/-- Outside of all builders every remembered reference names a node of the session exactly
when each node that a declaration was referred to while it was being built, and to which the
declaration still has the reference, has been built: by that build or by a later one. -/
theorem cached_resolve_iff (h : script.AlwaysRefers) {memory : μ}
    {front rest : List (Moment δ μ)} {moment : Moment δ μ}
    (split : script.moments [] { memory } = front ++ moment :: rest)
    (outside : moment.building = []) :
    (∀ declaration nullable ref, moment.session.cached? declaration nullable = some ref →
      ∃ id, ref = .named id nullable ∧ id ∈ moment.session.nodes.keys) ↔
    ∀ earlier ∈ front, ∀ declaration id, earlier.Anticipates declaration id →
      moment.session.refs.find? declaration = some (.named id false) →
        id ∈ moment.session.nodes.keys := by
  have hstart := Session.isBuilding_start (δ := δ) memory
  have hmoment : moment ∈ script.moments [] { memory } := by
    rw [split]
    simp
  have hbuilding : moment.session.IsBuilding [] := by
    rw [← outside]
    exact (script.keeps hstart).consistent moment hmoment
  constructor
  · intro hall earlier _ declaration id _ found
    obtain ⟨other, hsame, mem⟩ := hall declaration false (.named id false)
      (Session.cached?_eq_some_iff.mpr ⟨_, found, rfl⟩)
    cases hsame
    exact mem
  · intro hbuilt declaration nullable ref hcached
    obtain ⟨known, found, rfl⟩ := Session.cached?_eq_some_iff.mp hcached
    rcases h.tracesBack hstart front moment rest split declaration known found with
      hfound | ⟨id, rfl, traced⟩
    · cases hfound
    · refine ⟨id, rfl, ?_⟩
      cases traced with
      | inl slot => exact (Session.mem_keys_nodes hbuilding).mpr slot
      | inr anticipated =>
          obtain ⟨earlier, mem, anticipates⟩ := anticipated
          exact hbuilt earlier mem declaration id anticipates found

/-- A node that refers to itself, and whose first build fails after that. -/
def brokenRing (next : Script String Unit) : Script String Unit :=
  refer "Ring" "Ring" false
    (refer "Ring" "Ring" true (.give (.object { name := "Ring", properties := [] }))
      fun _ => .fail (.invalidGraph (.reported "boom") (some "Ring")))
    fun _ => next

/-- The broken ring makes its nodes by named references only. -/
theorem brokenRing_alwaysRefers {next : Script String Unit} (h : next.AlwaysRefers) :
    (brokenRing next).AlwaysRefers := by
  apply AlwaysRefers.refer
  · apply AlwaysRefers.refer
    · exact .give _
    · exact fun _ => .fail _
  · exact fun _ => h

/-- The reference to the node that failed is remembered, and there is no such node. -/
theorem brokenRing_dangles : ¬ ∀ script : Script String Unit, script.AlwaysRefers →
    ∀ moment ∈ script.moments [] { memory := () }, moment.building = [] →
      ∀ declaration nullable ref, moment.session.cached? declaration nullable = some ref →
        ∃ id, ref = .named id nullable ∧ id ∈ moment.session.nodes.keys := by
  intro hall
  let last : Session String Unit := { memory := (), refs := [("Ring", .named "Ring" false)] }
  have hmem : { building := [], session := last } ∈
      (brokenRing (.fail .emptyText)).moments [] { memory := () } :=
    List.mem_of_getLast? rfl
  obtain ⟨id, -, mem⟩ := hall _ (brokenRing_alwaysRefers (.fail _)) _ hmem rfl "Ring" false
    (.named "Ring" false) rfl
  cases mem

/-- The node is asked for again, and this time its build succeeds. -/
def mendedRing : Script String Unit :=
  brokenRing (refer "Ring" "Ring" false (.give (.object { name := "Ring", properties := [] }))
    fun _ => .fail .emptyText)

/-- What was remembered in the first build names the node of the second one in the end. -/
theorem mendedRing_resolves :
    ∃ front moment, mendedRing.moments [] { memory := () } = front ++ [moment] ∧
      moment.building = [] ∧ (∃ earlier ∈ front, earlier.Anticipates "Ring" "Ring") ∧
      ∀ declaration nullable ref, moment.session.cached? declaration nullable = some ref →
        ∃ id, ref = .named id nullable ∧ id ∈ moment.session.nodes.keys := by
  let ring : Node := .object { name := "Ring", properties := [] }
  let inner : Session String Unit := {
    memory := (), slots := [("Ring", none)], visiting := ["Ring"]
    refs := [("Ring", .named "Ring" false)] }
  let last : Session String Unit := {
    memory := (), slots := [("Ring", some ring)], refs := [("Ring", .named "Ring" false)] }
  have hrefers : mendedRing.AlwaysRefers :=
    brokenRing_alwaysRefers (.refer (.give _) fun _ => .fail _)
  have hmoments : mendedRing.moments [] { memory := () } =
      (mendedRing.moments [] { memory := () }).dropLast ++ [{ building := [], session := last }] :=
    rfl
  have hinner : { building := ["Ring"], session := inner } ∈
      (mendedRing.moments [] { memory := () }).dropLast := by
    apply List.mem_iff_getElem?.mpr
    exact ⟨3, rfl⟩
  refine ⟨_, _, hmoments, rfl, ⟨_, hinner, by decide, rfl⟩, ?_⟩
  apply (cached_resolve_iff hrefers hmoments rfl).mpr
  intro earlier _ declaration id _ found
  have hentry := Table.mem_of_find? found
  simp only [last, List.mem_singleton, Prod.mk.injEq, TypeRef.named.injEq] at hentry
  rw [hentry.2.1]
  decide

end Script

end Schemata
