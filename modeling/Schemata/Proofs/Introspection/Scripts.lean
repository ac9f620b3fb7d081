import Mathlib.Data.List.Nodup
import Schemata.Proofs.Introspection.Steps

/-!
# Sessions while nodes are built

A builder can ask for further nodes, for its own node again and for nodes that are being
built around it, to any depth.  Each request can fail, and whoever made it may go on.  A
script is such a program, and its moments are the sessions at all of its steps and at those
of the builders inside it.

At every moment the empty slots are those of the nodes that are being built, for a slot is
reserved just before its builder begins, and it is filled or given up just after the builder
ends.  What lies between the two is a session to which the builder only added slots, so
whether the node is filled in or its slot is dropped, the slots that were there before come
first and are as they were.

Main results:

- Definition {lit}`Script.moments`: all moments of a script, in order.
- Theorem {lit}`Script.keeps_register`: a request keeps the slots in order when its builder
  and what follows it do.
- Theorem {lit}`Script.run_isOrderly`: no moment of a script has an empty slot beside the
  nodes that are being built, what is filled stays filled and is not built again, and a
  request that fails drops its own slot only.
-/

namespace Schemata

/-- A program on a session that gives a node or fails in the end.  What follows a request
depends on its outcome, so the program can go on after a request that failed.  Its other
steps may depend on the session and change all of it but the slots. -/
inductive Script (δ μ : Type) where
  | give (node : Node)
  | fail (error : Error)
  | register (id : TypeId) (builder : Script δ μ) (next : Except Error Bool → Script δ μ)
  | apart (change : Session δ μ → Session δ μ)
      (slots : ∀ session, (change session).slots = session.slots)
      (visiting : ∀ session, (change session).visiting = session.visiting)
      (next : Session δ μ → Script δ μ)

/-- A step of a script or of a builder inside it. -/
structure Moment (δ μ : Type) where
  /-- The identifiers of the nodes that are being built, the innermost first. -/
  building : List TypeId
  session : Session δ μ
  /-- The identifier of the node whose builder begins in that session. -/
  begins : Option TypeId := none

namespace Script

variable {δ μ : Type}

/-- Carry a script out as a builder. -/
def run : Script δ μ → Session.Step δ μ (Option Node)
  | give node => pure (some node)
  | fail error => Attempt.fail error
  | register id builder next => fun session =>
    let request := (Session.register id builder.run).run session
    (next request.1).run request.2
  | apart change _ _ next => fun session => (next session).run (change session)

/-- The moments of a script in order, those of its builders included, when it begins in a
session in which certain nodes are being built. -/
def moments : Script δ μ → List TypeId → Session δ μ → List (Moment δ μ)
  | give _, building, session => [{ building, session }]
  | fail _, building, session => [{ building, session }]
  | register id builder next, building, session =>
    let request := (Session.register id builder.run).run session
    { building, session, begins := if session.knows id then none else some id } ::
      ((if session.knows id then [] else builder.moments (id :: building) (session.reserve id)) ++
        (next request.1).moments building request.2)
  | apart change _ _ next, building, session =>
    { building, session } :: (next session).moments building (change session)

/-- Ask for a node and remember the reference to it. -/
def refer [BEq δ] (declaration : δ) (id : TypeId) (nullable : Bool) (builder : Script δ μ)
    (next : Except Error TypeRef → Script δ μ) : Script δ μ :=
  let ref := TypeRef.named id nullable
  .register id builder fun
    | .ok _ => .apart (·.remember declaration ref) (fun _ => rfl) (fun _ => rfl) fun _ => next (.ok ref)
    | .error error => next (.error error)

end Script

namespace Session

variable {δ μ : Type} {session inner : Session δ μ} {building : List TypeId} {id : TypeId}

/-- The nodes that are being built are those with empty slots. -/
structure IsBuilding (session : Session δ μ) (building : List TypeId) : Prop where
  visiting : session.visiting = building
  distinct : session.slots.keys.Nodup
  empty : ∀ id, (id, none) ∈ session.slots ↔ id ∈ building

/-- A request for a node failed: from the session that its builder left, the slot of the node
was dropped and no other, and the slots from before the request come first. -/
structure Drops (id : TypeId) (builder : Step δ μ (Option Node)) (before after : Session δ μ) :
    Prop where
  own : id ∉ after.slots.keys
  others : after.slots = (builder.run (before.reserve id)).2.slots.erase id
  visiting : after.visiting = before.visiting
  earlier : before.slots <+: after.slots

/-! ## Slots in order -/

/-- A new session has no slots. -/
theorem isBuilding_start (memory : μ) : ({ memory } : Session δ μ).IsBuilding [] where
  visiting := rfl
  distinct := List.nodup_nil
  empty := by simp

/-- The filled slots of an extended list of slots come after those of the list. -/
theorem nodes_prefix {before after : Session δ μ} (h : before.slots <+: after.slots) :
    before.nodes <+: after.nodes :=
  h.filterMap _

namespace IsBuilding

/-- What is being built has a slot. -/
theorem mem_keys (h : session.IsBuilding building) (mem : id ∈ building) :
    id ∈ session.slots.keys :=
  List.mem_map_of_mem ((h.empty id).mpr mem)

/-- An identifier is known exactly when it has a slot. -/
theorem knows_iff (h : session.IsBuilding building) :
    session.knows id = true ↔ id ∈ session.slots.keys :=
  Session.knows_iff fun _ mem => h.mem_keys (h.visiting ▸ mem)

/-- A filled slot is not one of a node that is being built. -/
theorem not_mem_of_filled (h : session.IsBuilding building) {node : Node}
    (filled : (id, some node) ∈ session.slots) : id ∉ building := by
  intro mem
  have hfilled := Table.find?_of_mem h.distinct filled
  have hempty := Table.find?_of_mem h.distinct ((h.empty id).mpr mem)
  cases hfilled.symm.trans hempty

/-- A change that leaves the slots alone leaves alone what is being built. -/
theorem of_slots_eq (h : session.IsBuilding building) {after : Session δ μ}
    (slots : after.slots = session.slots) (visiting : after.visiting = session.visiting) :
    after.IsBuilding building where
  visiting := visiting.trans h.visiting
  distinct := slots ▸ h.distinct
  empty := slots ▸ h.empty

/-- A reserved slot goes to the end. -/
theorem slots_reserve (new : id ∉ session.slots.keys) :
    (session.reserve id).slots = session.slots ++ [(id, none)] := by
  refine Table.put_of_new (fun entry mem => ?_) none
  rw [beq_eq_false_iff_ne]
  rintro rfl
  exact new (List.mem_map_of_mem mem)

/-- With its slot reserved, a node is being built. -/
theorem reserve (h : session.IsBuilding building) (new : id ∉ session.slots.keys) :
    (session.reserve id).IsBuilding (id :: building) where
  visiting := by rw [Session.reserve, h.visiting]
  distinct := Table.nodup_keys_put h.distinct ..
  empty other := by
    rw [slots_reserve new, List.mem_append, h.empty other, List.mem_singleton, Prod.mk.injEq,
      List.mem_cons, or_comm]
    simp

/-- What is being built is new when its slot is reserved. -/
theorem not_mem (h : session.IsBuilding building) (new : id ∉ session.slots.keys) :
    id ∉ building :=
  fun mem => new (h.mem_keys mem)

/-! ## The end of a builder -/

section Ends

variable {front rest : Table TypeId (Option Node)} {node : Node}

/-- The slot of a node that is being built is the only one of its identifier. -/
theorem alone (h : inner.IsBuilding building) (slots : inner.slots = front ++ (id, none) :: rest) :
    (front ++ rest).keys.Nodup ∧ id ∉ front.keys ∧ id ∉ rest.keys := by
  have hdistinct := h.distinct
  rw [slots, Table.keys, List.map_append, List.map_cons, List.nodup_middle, List.nodup_cons,
    List.mem_append, not_or, ← List.map_append] at hdistinct
  exact ⟨hdistinct.2, hdistinct.1⟩

/-- The other empty slots are those of the nodes around it. -/
theorem around (h : inner.IsBuilding (id :: building))
    (slots : inner.slots = front ++ (id, none) :: rest) (outside : id ∉ building)
    (other : TypeId) : (other, none) ∈ front ++ rest ↔ other ∈ building := by
  rcases h.alone slots with ⟨-, hfront, hrest⟩
  have hother : (other, none) ∈ front ++ rest → other ≠ id := by
    rintro mem rfl
    rcases List.mem_append.mp mem with mem | mem
    · exact hfront (List.mem_map_of_mem mem)
    · exact hrest (List.mem_map_of_mem mem)
  have hempty := h.empty other
  rw [slots, List.mem_append, List.mem_cons, Prod.mk.injEq, List.mem_cons] at hempty
  rw [List.mem_append] at hother ⊢
  by_cases same : other = id
  · subst same
    exact iff_of_false (fun mem => hother mem rfl) outside
  · simpa [same] using hempty

/-- Leaving the innermost node goes back to those around it. -/
theorem visiting_leave (h : inner.IsBuilding (id :: building)) (outside : id ∉ building) :
    (inner.leave id).visiting = building := by
  rw [leave, h.visiting, List.filter_cons_of_neg (by simp), List.filter_eq_self]
  intro other mem
  rw [bne_iff_ne]
  rintro rfl
  exact outside mem

/-- Closing the innermost node fills its slot and no other. -/
theorem slots_close (h : inner.IsBuilding building) (slots : inner.slots = front ++ (id, none) :: rest)
    (node : Option Node) : ((inner.leave id).fill id node).slots = front ++ (id, node) :: rest := by
  rw [fill, leave, slots]
  exact Table.put_append_cons (h.alone slots).2.1 none node rest

/-- Dropping the innermost node takes its slot away and no other. -/
theorem slots_drop (h : inner.IsBuilding building) (slots : inner.slots = front ++ (id, none) :: rest) :
    ((inner.release id).leave id).slots = front ++ rest := by
  rw [leave, release, slots]
  exact Table.erase_append_cons (h.alone slots).2.1 (h.alone slots).2.2 none

/-- When the slot of a node is filled, the nodes around it are still being built. -/
theorem close (h : inner.IsBuilding (id :: building))
    (slots : inner.slots = front ++ (id, none) :: rest) (outside : id ∉ building) (node : Node) :
    ((inner.leave id).fill id (some node)).IsBuilding building where
  visiting := h.visiting_leave outside
  distinct := by
    have hdistinct := h.distinct
    rw [slots] at hdistinct
    rw [h.slots_close slots]
    simpa [Table.keys] using hdistinct
  empty other := by
    rw [h.slots_close slots, ← h.around slots outside, List.mem_append, List.mem_append,
      List.mem_cons]
    simp

/-- When the slot of a node is dropped, the nodes around it are still being built. -/
theorem drop (h : inner.IsBuilding (id :: building))
    (slots : inner.slots = front ++ (id, none) :: rest) (outside : id ∉ building) :
    ((inner.release id).leave id).IsBuilding building where
  visiting := h.visiting_leave outside
  distinct := by
    rw [h.slots_drop slots]
    exact (h.alone slots).1
  empty other := by
    rw [h.slots_drop slots, h.around slots outside]

end Ends

end IsBuilding

end Session

namespace Script

variable {δ μ : Type} {script : Script δ μ} {session after : Session δ μ}
variable {building : List TypeId} {id : TypeId}

/-! ## Requests -/

/-- A builder that succeeds gives a node. -/
theorem exists_of_run {built : Option Node} (h : script.run.run session = (.ok built, after)) :
    ∃ node, built = some node := by
  induction script generalizing session with
  | give node =>
      cases h
      exact ⟨node, rfl⟩
  | fail error => cases h
  | register id builder following _ ih => exact ih _ h
  | apart change slots visiting following ih => exact ih _ h

/-- Asking for a node to remember it is asking for it and going on with what comes out. -/
theorem run_refer [BEq δ] (declaration : δ) (id : TypeId) (nullable : Bool) (builder : Script δ μ)
    (next : Except Error TypeRef → Script δ μ) (session : Session δ μ) :
    (refer declaration id nullable builder next).run.run session =
      let request := (Session.refer declaration id nullable builder.run).run session
      (next request.1).run.run request.2 := by
  rw [Session.refer, Attempt.bind_eq]
  rcases hregister : (Session.register id builder.run).run session with ⟨outcome, after⟩
  cases outcome with
  | ok built =>
      rw [Attempt.run_bind_ok hregister]
      simp only [refer, run, Attempt.run] at hregister ⊢
      rw [hregister]
      rfl
  | error error =>
      rw [Attempt.run_bind_error hregister]
      simp only [refer, run, Attempt.run] at hregister ⊢
      rw [hregister]

/-- The session that a request leaves when its builder keeps the slots in order: the nodes
around are still being built, the slots from before come first, and no filled slot is lost. -/
theorem after_register {builder : Script δ μ} (hsession : session.IsBuilding building)
    (new : id ∉ session.slots.keys)
    (hinner : (builder.run.run (session.reserve id)).2.IsBuilding (id :: building))
    (hslots : (session.reserve id).slots <+: (builder.run.run (session.reserve id)).2.slots) :
    ((Session.register id builder.run).run session).2.IsBuilding building ∧
      session.slots <+: ((Session.register id builder.run).run session).2.slots ∧
      (builder.run.run (session.reserve id)).2.nodes.Sublist
        ((Session.register id builder.run).run session).2.nodes := by
  have hknows : session.knows id = false := by
    rw [← Bool.not_eq_true, hsession.knows_iff]
    exact new
  have houtside := hsession.not_mem new
  rw [Session.run_register hknows]
  rcases hbuilder : builder.run.run (session.reserve id) with ⟨outcome, inner⟩
  rw [hbuilder] at hinner hslots
  rcases hslots with ⟨rest, hrest⟩
  rw [Session.IsBuilding.slots_reserve new, List.append_assoc, List.singleton_append] at hrest
  cases outcome with
  | ok built =>
      rcases exists_of_run hbuilder with ⟨node, rfl⟩
      refine ⟨hinner.close hrest.symm houtside node, ?_, ?_⟩
      · rw [hinner.slots_close hrest.symm]
        exact List.prefix_append _ _
      · rw [Session.nodes, Session.nodes, hinner.slots_close hrest.symm, ← hrest,
          List.filterMap_append, List.filterMap_append]
        exact (List.Sublist.refl _).append (List.sublist_cons_self _ _)
  | error error =>
      refine ⟨hinner.drop hrest.symm houtside, ?_, ?_⟩
      · rw [hinner.slots_drop hrest.symm]
        exact List.prefix_append _ _
      · rw [Session.nodes, Session.nodes, hinner.slots_drop hrest.symm, ← hrest,
          List.filterMap_append, List.filterMap_append]
        exact List.Sublist.refl _

/-- A request for a node that is to be remembered fails as the request for the node does. -/
theorem register_of_refer [BEq δ] {declaration : δ} {nullable : Bool} {error : Error}
    {builder : Session.Step δ μ (Option Node)}
    (h : (Session.refer declaration id nullable builder).run session = (.error error, after)) :
    (Session.register id builder).run session = (.error error, after) := by
  rw [Session.refer, Attempt.bind_eq] at h
  rcases hregister : (Session.register id builder).run session with ⟨outcome, built⟩
  cases outcome with
  | ok answer =>
      rw [Attempt.run_bind_ok hregister] at h
      cases h
  | error =>
      rw [Attempt.run_bind_error hregister] at h
      cases h
      rfl

/-! ## Moments -/

/-- What a script does that begins in a session in which certain nodes are being built: at
each of its moments the empty slots are those of the nodes that are being built, a builder
begins for a node without a slot only, the slots from before come first, and what is filled
stays so up to the end. -/
structure Keeps (script : Script δ μ) (building : List TypeId) (session : Session δ μ) : Prop where
  consistent : ∀ moment ∈ script.moments building session,
    moment.session.IsBuilding moment.building
  begins : ∀ moment ∈ script.moments building session, ∀ id ∈ moment.begins,
    id ∉ moment.session.slots.keys
  grows : ∀ moment ∈ script.moments building session, session.slots <+: moment.session.slots
  lasts : ∀ moment ∈ script.moments building session,
    moment.session.nodes.Sublist (script.run.run session).2.nodes
  ordered : (script.moments building session).Pairwise fun earlier later =>
    earlier.session.nodes.Sublist later.session.nodes
  ends : (script.moments building session).getLast? =
    some { building, session := (script.run.run session).2 }

namespace Keeps

/-- The last moment of a script is among its moments. -/
theorem mem_last (h : script.Keeps building session) :
    { building, session := (script.run.run session).2 } ∈ script.moments building session :=
  List.mem_of_getLast? h.ends

/-- A script that ends at once. -/
theorem single (hsession : session.IsBuilding building)
    (hmoments : script.moments building session = [{ building, session }])
    (hrun : (script.run.run session).2 = session) : script.Keeps building session := by
  constructor
  · simpa [hmoments] using hsession
  · simp [hmoments]
  · simp [hmoments]
  · simp [hmoments, hrun]
  · simp [hmoments]
  · simp [hmoments, hrun]

/-- A script that goes on after moments in which slots were only added at the end or filled. -/
theorem onward (begins : Option TypeId) (inside : List (Moment δ μ)) (next : Script δ μ)
    (after : Session δ μ)
    (hmoments : script.moments building session =
      { building, session, begins } :: (inside ++ next.moments building after))
    (hrun : (script.run.run session).2 = (next.run.run after).2)
    (hsession : session.IsBuilding building) (hbegins : ∀ id ∈ begins, id ∉ session.slots.keys)
    (hinside : ∀ moment ∈ inside, moment.session.IsBuilding moment.building ∧
      (∀ id ∈ moment.begins, id ∉ moment.session.slots.keys) ∧
      session.slots <+: moment.session.slots ∧ moment.session.nodes.Sublist after.nodes)
    (hordered : inside.Pairwise fun earlier later =>
      earlier.session.nodes.Sublist later.session.nodes)
    (hslots : session.slots <+: after.slots) (hnext : next.Keeps building after) :
    script.Keeps building session := by
  have hlast : after.nodes.Sublist (next.run.run after).2.nodes :=
    (Session.nodes_prefix (hnext.grows _ hnext.mem_last)).sublist
  have hlater : ∀ moment ∈ next.moments building after, session.slots <+: moment.session.slots :=
    fun moment mem => hslots.trans (hnext.grows moment mem)
  constructor
  · rw [hmoments, List.forall_mem_cons, List.forall_mem_append]
    exact ⟨hsession, fun moment mem => (hinside moment mem).1, hnext.consistent⟩
  · rw [hmoments, List.forall_mem_cons, List.forall_mem_append]
    exact ⟨hbegins, fun moment mem => (hinside moment mem).2.1, hnext.begins⟩
  · rw [hmoments, List.forall_mem_cons, List.forall_mem_append]
    exact ⟨List.prefix_refl _, fun moment mem => (hinside moment mem).2.2.1, hlater⟩
  · rw [hmoments, hrun, List.forall_mem_cons, List.forall_mem_append]
    refine ⟨?_, fun moment mem => (hinside moment mem).2.2.2.trans hlast, hnext.lasts⟩
    exact (Session.nodes_prefix hslots).sublist.trans hlast
  · rw [hmoments, List.pairwise_cons, List.pairwise_append]
    refine ⟨?_, hordered, hnext.ordered, ?_⟩
    · rw [List.forall_mem_append]
      exact ⟨fun moment mem => (Session.nodes_prefix (hinside moment mem).2.2.1).sublist,
        fun moment mem => (Session.nodes_prefix (hlater moment mem)).sublist⟩
    · intro earlier mem later hmem
      exact (hinside earlier mem).2.2.2.trans
        (Session.nodes_prefix (hnext.grows later hmem)).sublist
  · rw [hmoments, hrun, ← List.cons_append, List.getLast?_append, hnext.ends, Option.some_or]

end Keeps

/-- A request keeps the slots in order when its builder and what follows it do. -/
theorem keeps_register {builder : Script δ μ} {following : Except Error Bool → Script δ μ}
    (hsession : session.IsBuilding building)
    (hbuilder : id ∉ session.slots.keys → builder.Keeps (id :: building) (session.reserve id))
    (hfollowing : ∀ outcome after, after.IsBuilding building →
      (following outcome).Keeps building after) :
    (register id builder following).Keeps building session := by
  by_cases known : id ∈ session.slots.keys
  · have hknows := hsession.knows_iff.mpr known
    have hrequest := Session.register_known hknows builder.run
    refine .onward none [] (following (.ok false)) session ?_ ?_ hsession (by simp) (by simp) .nil
      (List.prefix_refl _) (hfollowing _ _ hsession)
    · rw [moments, hrequest, if_pos hknows, if_pos hknows]
    · change ((following _).run _).2 = _
      rw [hrequest]
      rfl
  · have hknows : session.knows id ≠ true := hsession.knows_iff.not.mpr known
    have hkeeps := hbuilder known
    have hreserve : session.slots <+: (session.reserve id).slots :=
      ⟨_, (Session.IsBuilding.slots_reserve known).symm⟩
    rcases after_register hsession known (hkeeps.consistent _ hkeeps.mem_last)
      (hkeeps.grows _ hkeeps.mem_last) with ⟨hafter, hslots, hnodes⟩
    refine .onward (some id) (builder.moments (id :: building) (session.reserve id))
      (following ((Session.register id builder.run).run session).1) _ ?_ rfl hsession ?_ ?_
      hkeeps.ordered hslots (hfollowing _ _ hafter)
    · rw [moments, if_neg hknows, if_neg hknows]
    · rintro _ ⟨⟩
      exact known
    · exact fun moment mem => ⟨hkeeps.consistent moment mem, hkeeps.begins moment mem,
        hreserve.trans (hkeeps.grows moment mem), (hkeeps.lasts moment mem).trans hnodes⟩

/-- Every script keeps the slots in order. -/
theorem keeps (script : Script δ μ) (hsession : session.IsBuilding building) :
    script.Keeps building session := by
  induction script generalizing building session with
  | give | fail => exact .single hsession rfl rfl
  | register id builder following hbuilder hfollowing =>
      exact keeps_register hsession (fun new => hbuilder (hsession.reserve new))
        fun outcome _ hafter => hfollowing outcome hafter
  | apart change slots visiting following ih =>
      have hafter := hsession.of_slots_eq (slots session) (visiting session)
      exact .onward none [] (following session) (change session) rfl rfl hsession (by simp)
        (by simp) .nil (slots session ▸ List.prefix_refl _) (ih session hafter)

/-- A request that fails drops its own slot only. -/
theorem drops_of_register {builder : Script δ μ} {error : Error}
    (hsession : session.IsBuilding building)
    (h : (Session.register id builder.run).run session = (.error error, after)) :
    session.Drops id builder.run after := by
  have new : id ∉ session.slots.keys := by
    intro known
    rw [Session.register_known (hsession.knows_iff.mpr known)] at h
    cases h
  have hkeeps := builder.keeps (hsession.reserve new)
  have hinner := hkeeps.consistent _ hkeeps.mem_last
  have hslots := hkeeps.grows _ hkeeps.mem_last
  rcases after_register hsession new hinner hslots with ⟨hafter, hbefore, -⟩
  rw [h] at hafter hbefore
  have hothers : after.slots = (builder.run.run (session.reserve id)).2.slots.erase id := by
    rw [Session.run_register (by simpa using hsession.knows_iff.not.mpr new)] at h
    rcases hbuilder : builder.run.run (session.reserve id) with ⟨_ | _, inner⟩
    · rw [hbuilder] at h
      cases h
      rfl
    · rw [hbuilder] at h
      cases h
  refine ⟨?_, hothers, hafter.visiting.trans hsession.visiting.symm, hbefore⟩
  rw [hothers]
  intro mem
  rcases List.mem_map.mp mem with ⟨entry, hentry, rfl⟩
  simpa using (List.mem_filter.mp hentry).2

/-- What holds of a script that begins in a new session. -/
structure IsOrderly [BEq δ] (script : Script δ μ) (memory : μ) : Prop where
  /-- The last of its moments is what carrying it out leaves. -/
  ends : (script.moments [] { memory }).getLast? =
    some { building := [], session := (script.run.run { memory }).2 }
  /-- The empty slots are those of the nodes that are being built. -/
  empty : ∀ moment ∈ script.moments [] { memory }, ∀ id,
    (id, none) ∈ moment.session.slots ↔ id ∈ moment.session.visiting
  /-- What is being built is what has begun around the moment. -/
  visiting : ∀ moment ∈ script.moments [] { memory }, moment.session.visiting = moment.building
  /-- Outside of all builders every slot is filled. -/
  filled : ∀ moment ∈ script.moments [] { memory }, moment.building = [] →
    ∀ entry ∈ moment.session.slots, entry.2.isSome
  /-- A builder begins for an identifier without a slot. -/
  begins : ∀ moment ∈ script.moments [] { memory }, ∀ id ∈ moment.begins,
    id ∉ moment.session.slots.keys
  /-- Where an identifier has a slot, a request for it does not run its builder. -/
  known : ∀ moment ∈ script.moments [] { memory }, ∀ id ∈ moment.session.slots.keys,
    ∀ builder, (Session.register id builder).run moment.session = (.ok false, moment.session)
  /-- What was filled stays filled, in the same order, and is not built again. -/
  once : (script.moments [] { memory }).Pairwise fun earlier later =>
    earlier.session.nodes.Sublist later.session.nodes ∧
      ∀ id ∈ earlier.session.nodes.keys, id ∉ later.building ∧ later.begins ≠ some id
  /-- A request that fails drops its own slot only. -/
  drops : ∀ moment ∈ script.moments [] { memory }, ∀ id (builder : Script δ μ) error after,
    (Session.register id builder.run).run moment.session = (.error error, after) →
      moment.session.Drops id builder.run after
  /-- So does one for a node that is to be remembered. -/
  drops_refer : ∀ moment ∈ script.moments [] { memory }, ∀ declaration id nullable
    (builder : Script δ μ) error after,
    (Session.refer declaration id nullable builder.run).run moment.session = (.error error, after) →
      moment.session.Drops id builder.run after

/-- At every moment of a script the empty slots are those of the nodes that are being built,
what is filled stays filled and is not built again, and a request that fails drops its own
slot only. -/
theorem run_isOrderly [BEq δ] (script : Script δ μ) (memory : μ) : script.IsOrderly memory := by
  have hkeeps := script.keeps (Session.isBuilding_start memory)
  constructor
  case ends => exact hkeeps.ends
  case empty =>
    intro moment mem id
    rw [(hkeeps.consistent moment mem).visiting]
    exact (hkeeps.consistent moment mem).empty id
  case visiting => exact fun moment mem => (hkeeps.consistent moment mem).visiting
  case filled =>
    rintro moment mem outside ⟨id, node⟩ hentry
    cases node with
    | none =>
        have hbuilding := ((hkeeps.consistent moment mem).empty id).mp hentry
        rw [outside] at hbuilding
        cases hbuilding
    | some node => rfl
  case begins => exact hkeeps.begins
  case known =>
    exact fun moment mem id known builder =>
      Session.register_known ((hkeeps.consistent moment mem).knows_iff.mpr known) builder
  case once =>
    refine hkeeps.ordered.imp_of_mem fun {earlier later} _ mem hnodes => ⟨hnodes, fun id hid => ?_⟩
    rcases List.mem_map.mp hid with ⟨⟨_, node⟩, hnode, rfl⟩
    have hfilled := Session.mem_nodes.mp (hnodes.subset hnode)
    refine ⟨(hkeeps.consistent later mem).not_mem_of_filled hfilled, fun hbegins => ?_⟩
    exact hkeeps.begins later mem _ hbegins (List.mem_map_of_mem hfilled)
  case drops =>
    exact fun moment mem id builder error after h =>
      drops_of_register (hkeeps.consistent moment mem) h
  case drops_refer =>
    exact fun moment mem declaration id nullable builder error after h =>
      drops_of_register (hkeeps.consistent moment mem) (register_of_refer h)

end Script

end Schemata
