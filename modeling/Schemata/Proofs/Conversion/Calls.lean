import Schemata.Proofs.Conversion.Breakage
import Schemata.Proofs.Conversion.Promises
import Schemata.Proofs.Conversion.Termination
import Schemata.Proofs.Conversion.Usage

/-!
# What a call leaves

A conversion calls itself for references and for properties, and a call returns or fails.  When
it fails it leaves the state of a place inside, and that place is reached as the call itself is.
What holds of all states that are reached then tells what a call leaves in either case: nothing
that was shared is replaced, promises stay, and promised objects are shared or under way.  Only an
object around the place where a call fails is no longer under way afterwards, so a promise of it
can be left open.

Main results:

- Theorem {lit}`Nests.grows`: on the way to a part, promises and shared definitions stay.
- Theorem {lit}`Nests.outstanding`: wherever a conversion is, a promised object is shared or
  under way.
- Theorem {lit}`Shares.new`: a definition is never shared under an identifier that has one, and
  {lit}`Runs.sharesNew`: every definition that a run adds is shared so.
- Theorem {lit}`TypeGraph.run_schemaRoot_congr`, {lit}`TypeGraph.run_toolRoot_congr`: a
  conversion makes no other calls than those that {lit}`TypeGraph.Calls` tells.
- Theorem {lit}`TypeGraph.call_keeps`: what every call keeps, whether it returns or fails.
-/

namespace Schemata

namespace ConversionState

/-! ## What grows and what stays -/

/-- Shared definitions stay as they are, new ones go to the end, and promises stay. -/
structure Grows (state after : ConversionState) : Prop where
  defs : state.defs <+: after.defs
  pending : state.pending ⊆ after.pending

/-- A state grows, and what is under way is the same. -/
structure Keeps (state after : ConversionState) : Prop extends state.Grows after where
  inProgress : after.inProgress = state.inProgress

theorem Grows.refl (state : ConversionState) : state.Grows state :=
  ⟨List.prefix_rfl, List.Subset.refl _⟩

/-- Growth adds up. -/
theorem Grows.trans {state between after : ConversionState} (first : state.Grows between)
    (second : between.Grows after) : state.Grows after :=
  ⟨first.defs.trans second.defs, List.Subset.trans first.pending second.pending⟩

/-- Beginning an identifier shares and promises nothing. -/
theorem Grows.start (state : ConversionState) (id : TypeId) :
    state.Grows (state.start (some id)) where
  defs := by simp
  pending := by simp

end ConversionState

namespace Conversion

/-- What a part of a conversion is about, without what it yields. -/
def Job.task : Job → Task
  | .fragment ref _ => .fragment ref
  | .body id type _ => .body id type
  | .properties listed _ => .properties listed
  | .variants listed => .variants listed

variable {c : Conversion} {task middle inner : Task} {state between inside after : ConversionState}
  {begun around : List TypeId}

/-! ## What grows on the way to a part -/

/-- A part that succeeds keeps the shared definitions and the promises that were there. -/
theorem Runs.grows {job : Job} (h : c.Runs job state after) (named : c.graph.HoldsNamedNodes) :
    state.Grows after :=
  ⟨h.defs_prefix named, h.pending_subset⟩

/-- So does what comes before a part that is opened. -/
theorem Opens.grows (h : c.Opens task state begun inner inside)
    (named : c.graph.HoldsNamedNodes) : state.Grows inside := by
  cases h with
  | choice | body => exact .start ..
  | nextProperty head => exact head.grows named
  | nextVariant head => exact head.grows named
  | element | value | object | property | variantObject | variantOther => exact .refl _

/-- On the way to a part, however deep inside, shared definitions and promises stay. -/
theorem Nests.grows (h : c.Nests task state around inner inside)
    (named : c.graph.HoldsNamedNodes) : state.Grows inside := by
  induction h with
  | here => exact .refl _
  | deeper _ opens ih => exact ih.trans (opens.grows named)

/-! ## Promised objects on the way to a part -/

/-- What comes before a part shares the objects that it promises, or leaves them to what is
under way. -/
theorem Opens.outstanding (h : c.Opens task state begun inner inside)
    (before : c.Outstanding state) : c.Outstanding inside := by
  cases h with
  | choice | body => exact before.start _
  | nextProperty head | nextVariant head =>
      exact fun id hid hobject => (head.outstanding before id hid hobject).resolve_right not_false
  | element | value | object | property | variantObject | variantOther => exact before

/-- Wherever a conversion is, a promised object is shared or under way. -/
theorem Nests.outstanding (h : c.Nests task state around inner inside)
    (before : c.Outstanding state) : c.Outstanding inside := by
  induction h with
  | here => exact before
  | deeper _ opens ih => exact opens.outstanding ih

/-! ## Where definitions are shared -/

variable (c) in
/-- Inside a part a definition is shared under an identifier, in the state in which that happens:
a promised object when its body has ended, a subtype when its body or fragment has. -/
inductive Shares (task : Task) (state : ConversionState) : TypeId → ConversionState → Prop
  | object {around : List TypeId} {id : TypeId} {nullable : Bool} {type : ObjectType TypeRef}
      {fragments : List Definition} {place last : ConversionState}
      (reached : c.Nests task state around (.fragment (.named id nullable)) place)
      (opens : c.Opens (.fragment (.named id nullable)) place [] (.body id type) place)
      (run : c.Runs (.body id type fragments) place last) (promised : id ∈ last.pending) :
      Shares task state id last
  | variantObject {around : List TypeId} {first : Variant TypeRef}
      {rest : List (Variant TypeRef)} {type : ObjectType TypeRef} {fragments : List Definition}
      {place last : ConversionState}
      (reached : c.Nests task state around (.variants (first :: rest)) place)
      (opens : c.Opens (.variants (first :: rest)) place [] (.body first.id type) place)
      (run : c.Runs (.body first.id type fragments) place last) :
      Shares task state first.id last
  | variantOther {around : List TypeId} {first : Variant TypeRef}
      {rest : List (Variant TypeRef)} {fragment : Definition} {place last : ConversionState}
      (reached : c.Nests task state around (.variants (first :: rest)) place)
      (opens : c.Opens (.variants (first :: rest)) place []
        (.fragment (.named first.id false)) place)
      (run : c.Runs (.fragment (.named first.id false) fragment) place last) :
      Shares task state first.id last

/-- A definition is never shared under an identifier that has one. -/
theorem Shares.new {id : TypeId} {last : ConversionState} (h : c.Shares task state id last)
    (named : c.graph.HoldsNamedNodes) : id ∉ last.defs.keys := by
  cases h with
  | object reached opens run promised =>
      cases opens with
      | object node outside new => exact run.not_mem_keys_body new
  | variantObject reached opens run =>
      cases opens with
      | variantObject new outside node => exact run.not_mem_keys_body new
  | variantOther reached opens run =>
      cases opens with
      | variantOther new outside found other =>
          exact run.not_mem_keys_other named found other new

/-- What is shared inside a nested part is shared inside. -/
theorem Nests.shares {id : TypeId} {last : ConversionState}
    (outer : c.Nests task state around middle between) (h : c.Shares middle between id last) :
    c.Shares task state id last := by
  cases h with
  | object reached opens run promised => exact .object (outer.trans reached) opens run promised
  | variantObject reached opens run => exact .variantObject (outer.trans reached) opens run
  | variantOther reached opens run => exact .variantOther (outer.trans reached) opens run

variable (c) in
/-- A definition that one state has and another has not was shared inside a part. -/
def SharesNew (task : Task) (state after : ConversionState) : Prop :=
  ∀ id ∈ after.defs.keys, id ∈ state.defs.keys ∨ ∃ last, c.Shares task state id last

/-- Where no definition is added there is none to account for. -/
theorem SharesNew.of_eq (same : after.defs = state.defs) : c.SharesNew task state after :=
  fun _ hid => Or.inl (same ▸ hid)

theorem SharesNew.refl : c.SharesNew task state state :=
  .of_eq rfl

/-- What is shared up to a nested part and inside it is shared inside. -/
theorem Nests.sharesNew (outer : c.Nests task state around middle between)
    (before : c.SharesNew task state between) (h : c.SharesNew middle between after) :
    c.SharesNew task state after := by
  intro id hid
  rcases h id hid with hbetween | ⟨last, hshares⟩
  · exact before id hbetween
  · exact Or.inr ⟨last, outer.shares hshares⟩

/-- The same for a part that is opened with the shared definitions as they are. -/
theorem Opens.sharesNew (opens : c.Opens task state begun inner inside)
    (same : inside.defs = state.defs) (h : c.SharesNew inner inside after) :
    c.SharesNew task state after :=
  opens.nests.sharesNew (.of_eq same) h

/-- A definition that is shared inside in its last state may be added to that state. -/
theorem SharesNew.share {id : TypeId} {definition : Definition} {last : ConversionState}
    (h : c.SharesNew task state last) (shares : c.Shares task state id last) :
    c.SharesNew task state (last.share id definition) := by
  intro other hother
  rcases (ConversionState.mem_share_keys ..).mp hother with rfl | hold
  · exact Or.inr ⟨last, shares⟩
  · exact h other hold

/-- The definition of a promised object is shared at the end of its body. -/
theorem SharesNew.object {id : TypeId} {nullable : Bool} {type : ObjectType TypeRef}
    {fragments : List Definition} (node : c.graph.nodes.find? id = some (.object type))
    (new : id ∉ state.defs.keys) (run : c.Runs (.body id type fragments) state after)
    (promised : id ∈ after.pending) (h : c.SharesNew (.body id type) state after)
    (definition : Definition) :
    c.SharesNew (.fragment (.named id nullable)) state (after.share id definition) := by
  have opens : c.Opens (.fragment (.named id nullable)) state [] (.body id type) state :=
    .object node run.outside new
  exact (opens.sharesNew rfl h).share (.object .here opens run promised)

section Variants

variable {first : Variant TypeRef} {rest : List (Variant TypeRef)}

/-- The definition of a subtype that is an object is shared at the end of its body. -/
theorem SharesNew.variantObject {type : ObjectType TypeRef} {fragments : List Definition}
    (new : first.id ∉ state.defs.keys)
    (node : c.graph.nodes.find? first.id = some (.object type))
    (run : c.Runs (.body first.id type fragments) state after)
    (h : c.SharesNew (.body first.id type) state after) (definition : Definition) :
    c.SharesNew (.variants (first :: rest)) state (after.share first.id definition) := by
  have opens : c.Opens (.variants (first :: rest)) state [] (.body first.id type) state :=
    .variantObject new run.outside node
  exact (opens.sharesNew rfl h).share (.variantObject .here opens run)

/-- The definition of any other subtype is shared at the end of its fragment. -/
theorem SharesNew.variantOther {node : Node} {fragment : Definition}
    (new : first.id ∉ state.defs.keys) (outside : first.id ∉ state.inProgress)
    (found : c.graph.nodes.find? first.id = some node) (other : ∀ type, node ≠ .object type)
    (run : c.Runs (.fragment (.named first.id false) fragment) state after)
    (h : c.SharesNew (.fragment (.named first.id false)) state after) :
    c.SharesNew (.variants (first :: rest)) state (after.share first.id fragment) := by
  have opens : c.Opens (.variants (first :: rest)) state []
      (.fragment (.named first.id false)) state := .variantOther new outside found other
  exact (opens.sharesNew rfl h).share (.variantOther .here opens run)

end Variants

/-- Every definition that a run adds is shared inside. -/
theorem Runs.sharesNew {job : Job} (h : c.Runs job state after) :
    c.SharesNew job.task state after := by
  induction h with
  | primitive | enumeration | rootInside | objectShared | choiceInside | noProperties
  | noVariants => exact .refl
  | list node _ element => exact Opens.sharesNew (.element node) rfl element
  | map node _ value => exact Opens.sharesNew (.value node) rfl value
  | objectInside => exact .of_eq (ConversionState.promise_defs ..)
  | objectInPlace node new run _ body =>
      exact Opens.sharesNew (.object node run.outside new) rfl body
  | objectPromised node new run promised _ body | rootPromised node new run promised _ body =>
      exact body.object node new run promised _
  | choice node outside _ variants =>
      exact Opens.sharesNew (.choice node outside) (ConversionState.start_defs ..) variants
  | body _ _ _ properties =>
      exact Opens.sharesNew .body (ConversionState.start_defs ..) properties
  | property run _ head tail =>
      exact (Opens.nextProperty run).nests.sharesNew (Opens.sharesNew .property rfl head) tail
  | variantShared shared _ tail =>
      exact Opens.sharesNew (.nextVariant (.variantShared shared .noVariants)) rfl tail
  | variantInside inside _ tail =>
      exact Opens.sharesNew (.nextVariant (.variantInside inside .noVariants))
        (ConversionState.promise_defs ..) tail
  | variantObject new node run _ body tail =>
      have hhead := Runs.variantObject new node run .noVariants
      exact (Opens.nextVariant hhead).nests.sharesNew (body.variantObject new node run _) tail
  | variantOther new outside found other run _ written tail =>
      have hhead := Runs.variantOther new outside found other run .noVariants
      exact (Opens.nextVariant hhead).nests.sharesNew
        (written.variantOther new outside found other run) tail

/-- Every definition that is added before a part is met is shared inside the part that opens
it. -/
theorem Opens.sharesNew_self (h : c.Opens task state begun inner inside) :
    c.SharesNew task state inside := by
  cases h with
  | choice | body => exact .of_eq (ConversionState.start_defs ..)
  | element | value | object | property | variantObject | variantOther => exact .refl
  | nextProperty head => exact Opens.sharesNew .property rfl head.sharesNew
  | nextVariant head =>
      -- What the first subtype shares is shared inside the whole list, not inside a list of one.
      cases head with
      | variantShared _ done =>
          cases done
          exact .refl
      | variantInside _ done =>
          cases done
          exact .of_eq (ConversionState.promise_defs ..)
      | variantObject new node run done =>
          cases done
          exact run.sharesNew.variantObject new node run _
      | variantOther new outside found other run done =>
          cases done
          exact run.sharesNew.variantOther new outside found other run

/-- Every definition that is added on the way to a part is shared on the way to it. -/
theorem Nests.sharesNew_self (h : c.Nests task state around inner inside) :
    c.SharesNew task state inside := by
  induction h with
  | here => exact .refl
  | deeper outer opens ih => exact outer.sharesNew ih opens.sharesNew_self

/-! ## Calls -/

/-- A call of a conversion, with the node that holds the reference or property. -/
inductive Call
  /-- The conversion of a reference. -/
  | reference (ref : TypeRef) (owner : Option TypeId)
  /-- The conversion of a property that is required or not. -/
  | property (property : Property TypeRef) (required : Bool) (owner : Option TypeId)

/-- The reference that a call converts. -/
def Call.ref : Call → TypeRef
  | .reference ref _ => ref
  | .property p _ _ => p.type

/-- A call with a budget of nested references. -/
def Call.attempt (c : Conversion) (budget : Nat) : Call → Convert Definition
  | .reference ref owner => c.reference budget ref owner
  | .property p required owner => c.property (c.reference budget) p required owner

variable {call : Call} {budget : Nat}

/-- A call that returns is a run on its reference. -/
theorem Call.runs {result : Definition}
    (h : (call.attempt c budget).run state = (.ok result, after)) :
    ∃ fragment, c.Runs (.fragment call.ref fragment) state after := by
  cases call with
  | reference ref owner => exact ⟨result, runs_of_reference budget h⟩
  | property p required owner =>
      rw [attempt, Conversion.property, Attempt.run_bind_eq_ok_iff] at h
      rcases h with ⟨fragment, middle, hfragment, hdressed⟩
      rw [Attempt.run_pure_eq_ok_iff] at hdressed
      rcases hdressed with ⟨-, rfl⟩
      exact ⟨fragment, runs_of_reference budget hfragment⟩

/-- A call that fails breaks off inside its reference. -/
theorem Call.breaksOff :
    (call.attempt c budget).FailsIn state (c.BreaksOff (.fragment call.ref) state) := by
  cases call with
  | reference ref owner => exact breaks_reference budget
  | property p required owner =>
      have href : (c.reference budget p.type owner).FailsIn state
          (c.BreaksOff (.fragment p.type) state) := breaks_reference budget
      exact Attempt.Meets.bind href fun _ _ _ => trivial

/-- A conversion begins with nothing promised. -/
theorem outstanding_empty : c.Outstanding {} :=
  fun _ hid => absurd hid List.not_mem_nil

end Conversion

/-! ## What a call leaves -/

namespace TypeGraph

open Conversion (Task Call Nests Shares Breaks)

variable {graph : TypeGraph} {flags : Flags} {dialect : Dialect} {call : Call}
  {state after : ConversionState}

/-- The conversion of a graph to a dialect comes to a state in which it makes a call, for a
reference that it meets or for the first of the properties that are left. -/
inductive Calls (graph : TypeGraph) (flags : Flags) (dialect : Dialect) :
    Call → ConversionState → Prop
  | reference {task : Task} {around : List TypeId} {ref : TypeRef} {owner : Option TypeId}
      {state : ConversionState} (begins : graph.Begins dialect task)
      (reached : Nests ⟨graph, flags, dialect⟩ task {} around (.fragment ref) state) :
      Calls graph flags dialect (.reference ref owner) state
  | property {task : Task} {around : List TypeId} {first : Property TypeRef}
      {rest : List (Property TypeRef)} {required : Bool} {owner : Option TypeId}
      {state : ConversionState} (begins : graph.Begins dialect task)
      (reached : Nests ⟨graph, flags, dialect⟩ task {} around (.properties (first :: rest)) state) :
      Calls graph flags dialect (.property first required owner) state

/-- The conversion to a JSON Schema document makes no other calls for references: two ways to
convert references that run alike wherever it makes one are as good as one another, however deep
below the root. -/
theorem run_schemaRoot_congr {below below' : ConvertRef}
    (hsound : Conversion.Sound ⟨graph, flags, .jsonSchema⟩ below)
    (alike : ∀ ref owner state, graph.Calls flags .jsonSchema (.reference ref owner) state →
      (below ref owner).run state = (below' ref owner).run state)
    (depth : Nat) (owner : Option TypeId) :
    ((Conversion.layer ⟨graph, flags, .jsonSchema⟩)^[depth] below graph.root owner).run {} =
      ((Conversion.layer ⟨graph, flags, .jsonSchema⟩)^[depth] below' graph.root owner).run {} :=
  Conversion.calls_nest hsound
    (fun _ _ _ reached owner => alike _ owner _ (.reference .schema reached)) depth owner

/-- Nor does the conversion to a tool schema, below the body of the object that the root names. -/
theorem run_toolRoot_congr {below below' : ConvertRef} {id : TypeId} {type : ObjectType TypeRef}
    (root : graph.toolRoot = .ok (id, type))
    (hsound : Conversion.Sound ⟨graph, flags, .tool⟩ below)
    (alike : ∀ ref owner state, graph.Calls flags .tool (.reference ref owner) state →
      (below ref owner).run state = (below' ref owner).run state) (depth : Nat) :
    (Conversion.objectBody ⟨graph, flags, .tool⟩
      ((Conversion.layer ⟨graph, flags, .tool⟩)^[depth] below) type (some id)).run {} =
    (Conversion.objectBody ⟨graph, flags, .tool⟩
      ((Conversion.layer ⟨graph, flags, .tool⟩)^[depth] below') type (some id)).run {} := by
  refine Conversion.objectBody_congr (Conversion.sound_layers hsound depth) List.not_mem_nil
    fun ref place asks owner => ?_
  rcases asks.nests with ⟨around, outer⟩
  refine Conversion.calls_nest hsound (fun _ _ _ reached other => ?_) depth owner
  exact alike _ other _ (.reference (.tool root) (outer.trans reached))

/-- In a state in which a call is made every promised object is shared or under way. -/
theorem Calls.outstanding (h : graph.Calls flags dialect call state) :
    Conversion.Outstanding ⟨graph, flags, dialect⟩ state := by
  cases h with
  | reference _ reached | property _ reached =>
      exact reached.outstanding Conversion.outstanding_empty

/-- Where the nodes of the table are objects, enumerations and polymorphic types, every call that
a conversion makes, whether it returns or fails, leaves under way what was under way and keeps
all promises and shared definitions as they are.  The definitions that it adds are shared inside
it, each under an identifier that has none at that moment, so none is ever replaced.  A promised
object is then under way or shared, unless the call fails at a place inside that object. -/
theorem call_keeps (named : graph.HoldsNamedNodes) (made : graph.Calls flags dialect call state)
    {budget : Nat} {outcome : Except Error Definition}
    (run : (call.attempt ⟨graph, flags, dialect⟩ budget).run state = (outcome, after)) :
    state.Keeps after ∧
    (∀ id ∈ after.defs.keys, id ∈ state.defs.keys ∨
      ∃ last, Shares ⟨graph, flags, dialect⟩ (.fragment call.ref) state id last) ∧
    (∀ id last, Shares ⟨graph, flags, dialect⟩ (.fragment call.ref) state id last →
      id ∉ last.defs.keys) ∧
    ∀ id ∈ after.pending, graph.IsObject id → id ∈ after.inProgress ∨ id ∈ after.defs.keys ∨
      ∃ error around, outcome = .error error ∧
        Breaks ⟨graph, flags, dialect⟩ (.fragment call.ref) state error after around ∧
        id ∈ around := by
  cases outcome with
  | ok result =>
      rcases Call.runs run with ⟨fragment, hruns⟩
      refine ⟨⟨hruns.grows named, hruns.inProgress_eq⟩, hruns.sharesNew,
        fun _ _ hshares => hshares.new named, fun id hid hobject => ?_⟩
      have hsettled := (hruns.outstanding made.outstanding id hid hobject).resolve_right not_false
      exact hsettled.symm.imp_right Or.inl
  | error error =>
      -- All that is left comes from the place where the call breaks off, which is reached too.
      rcases Attempt.Meets.of_error Call.breaksOff run with ⟨around, inner, last, hnests, hstuck, rfl⟩
      have hgrows := hnests.grows named
      refine ⟨⟨⟨hgrows.defs, hgrows.pending⟩, rfl⟩, hnests.sharesNew_self,
        fun _ _ hshares => hshares.new named, fun id hid hobject => ?_⟩
      rcases hnests.outstanding made.outstanding id hid hobject with hshared | hinside
      · exact Or.inr (Or.inl hshared)
      · rw [hnests.inProgress_eq trivial, List.mem_append] at hinside
        rcases hinside with hbegun | houter
        · exact Or.inr (Or.inr ⟨error, around, rfl, ⟨inner, last, hnests, hstuck, rfl⟩, hbegun⟩)
        · exact Or.inl houter

/-- A herd with a leader, whose mother is such an animal again and whose owner is missing. -/
def herd : TypeGraph where
  root := .named "Herd" false
  nodes := [
    ("Herd", .object {
      name := "Herd", properties := [{ name := "leader", type := .named "Animal" false }] }),
    ("Animal", .object {
      name := "Animal", properties := [
        { name := "mother", type := .named "Animal" true },
        { name := "owner", type := .named "Owner" false }] })]

theorem herd_holdsNamedNodes : herd.HoldsNamedNodes := by
  intro id node found
  have hentries : ∀ entry ∈ herd.nodes, entry.2.needsName = true := by
    simp [herd, NodeOf.needsName]
  exact hentries _ (Table.mem_of_find? found)

/-- The call for the leader, whose conversion fails at the owner after its mother is met. -/
def leaderCall : Call :=
  .property { name := "leader", type := .named "Animal" false } true (some "Herd")

/-- It is made while the herd is under way. -/
theorem herd_calls_leader :
    herd.Calls (.initial .jsonSchema) .jsonSchema leaderCall (.start (some "Herd") {}) :=
  have hbody := Nests.here.deeper (.object rfl List.not_mem_nil List.not_mem_nil)
  .property .schema (hbody.deeper .body)

/-- The call leaves the herd under way and nothing shared.  The animal stays promised, and the
owner is missing inside it. -/
theorem leader_keeps : herd.HoldsNamedNodes ∧
    herd.Calls (.initial .jsonSchema) .jsonSchema leaderCall (.start (some "Herd") {}) ∧
    ∃ after, (leaderCall.attempt ⟨herd, .initial .jsonSchema, .jsonSchema⟩ 3).run
        (.start (some "Herd") {}) = (.error (.dangling "Owner" (some "Animal")), after) ∧
      ConversionState.Keeps (.start (some "Herd") {}) after ∧
      ∃ around, Breaks ⟨herd, .initial .jsonSchema, .jsonSchema⟩ (.fragment leaderCall.ref)
        (.start (some "Herd") {}) (.dangling "Owner" (some "Animal")) after around ∧
        "Animal" ∈ around := by
  have h := call_keeps herd_holdsNamedNodes herd_calls_leader
    (show (leaderCall.attempt ⟨herd, .initial .jsonSchema, .jsonSchema⟩ 3).run _ = _ from rfl)
  refine ⟨herd_holdsNamedNodes, herd_calls_leader, _, rfl, h.1, ?_⟩
  rcases h.2.2.2 "Animal" (by decide) ⟨_, rfl⟩ with
    hinside | hshared | ⟨error, around, herror, hbreaks⟩
  · exact absurd hinside (by decide)
  · exact absurd hshared (by decide)
  · cases herror
    exact ⟨around, hbreaks⟩

/-- A failed call can leave an object promised that is neither under way nor shared, and that is
not the root. -/
theorem leader_leaves_promise :
    herd.HoldsNamedNodes ∧
    herd.toSchemaDocument (.initial .jsonSchema) "Herd" =
      .error (.dangling "Owner" (some "Animal")) ∧
    ∃ state outcome after, herd.Calls (.initial .jsonSchema) .jsonSchema leaderCall state ∧
      (leaderCall.attempt ⟨herd, .initial .jsonSchema, .jsonSchema⟩
        (Conversion.budget ⟨herd, .initial .jsonSchema, .jsonSchema⟩)).run state =
          (outcome, after) ∧
      herd.IsObject "Animal" ∧ "Animal" ∉ state.pending ∧ "Animal" ∈ after.pending ∧
      "Animal" ∉ after.inProgress ∧ "Animal" ∉ after.defs.keys ∧
      herd.root.id? ≠ some "Animal" :=
  ⟨herd_holdsNamedNodes, rfl, _, _, _, herd_calls_leader, rfl, ⟨_, rfl⟩, by decide, by decide,
    by decide, by decide, by decide⟩

end TypeGraph

end Schemata
