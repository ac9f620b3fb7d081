import Schemata.Attempt
import Schemata.Graph.Basic

/-!
# Introspection sessions

A session builds the node table of one type graph.  A node's slot is reserved before
its body is built, so a type that contains itself meets its own slot and becomes a
reference.  Next to the slots the session keeps the references that declarations
already have, the identifiers that declarations own, what was reported, and a memory
that belongs to the source of the declarations.

Declarations are compared with {lit}`==`.

Main results:

- Theorem {lit}`register_known`: an identifier with a slot is never built again.
-/

namespace Schemata

/-- The state of one introspection. -/
structure Session (δ μ : Type) where
  /-- The node of each identifier in the order of reservation, or nothing yet. -/
  slots : Table TypeId (Option Node) := []
  /-- The identifiers whose node is being built. -/
  visiting : List TypeId := []
  /-- The reference of each declaration met before, which is not nullable. -/
  refs : Table δ TypeRef := []
  /-- The identifier that each declaration owns. -/
  ids : Table δ TypeId := []
  /-- The declaration that owns each identifier. -/
  owners : Table TypeId δ := []
  /-- What was reported, in order. -/
  log : List String := []
  /-- What the source of the declarations keeps from one step to the next. -/
  memory : μ

namespace Session

variable {δ μ : Type}

/-- A step of an introspection. -/
abbrev Step (δ μ α : Type) := Attempt (Session δ μ) α

/-- Whether an identifier has a slot. -/
def knows (session : Session δ μ) (id : TypeId) : Bool :=
  session.slots.has id || session.visiting.contains id

/-- Reserve a slot and begin to build its node. -/
def reserve (id : TypeId) (session : Session δ μ) : Session δ μ :=
  { session with
    slots := session.slots.put id none
    visiting := id :: session.visiting }

/-- End the building of a node. -/
def leave (id : TypeId) (session : Session δ μ) : Session δ μ :=
  { session with visiting := session.visiting.filter (· != id) }

/-- Fill a slot. -/
def fill (id : TypeId) (node : Option Node) (session : Session δ μ) : Session δ μ :=
  { session with slots := session.slots.put id node }

/-- Give a slot up. -/
def release (id : TypeId) (session : Session δ μ) : Session δ μ :=
  { session with slots := session.slots.erase id }

/-- The filled slots in the order of reservation. -/
def nodes (session : Session δ μ) : Table TypeId Node :=
  session.slots.filterMap fun entry => entry.2.map fun node => (entry.1, node)

/-- The graph of a root whose types the session has met. -/
def graph (session : Session δ μ) (root : TypeRef) : TypeGraph :=
  { root, nodes := session.nodes }

/-- Report a line. -/
def report (line : String) : Step δ μ Unit :=
  Attempt.modify fun session => { session with log := session.log ++ [line] }

/-- Carry out a step on the memory. -/
def onMemory {α : Type} (step : Attempt μ α) : Step δ μ α := fun session =>
  let (outcome, memory) := step.run session.memory
  (outcome, { session with memory })

/-- Build the node of an identifier unless it has a slot; the answer says whether it
was built.  A failed build gives its own slot up and no other. -/
def register (id : TypeId) (builder : Step δ μ (Option Node)) : Step δ μ Bool := fun session =>
  if session.knows id then (.ok false, session)
  else
    match builder (session.reserve id) with
    | (.ok node, after) => (.ok true, (after.leave id).fill id node)
    | (.error error, after) => (.error error, (after.release id).leave id)

section References

variable [BEq δ]

/-- The reference of a declaration met before, with the nullability of this use. -/
def cached? (session : Session δ μ) (declaration : δ) (nullable : Bool) : Option TypeRef :=
  (session.refs.find? declaration).map (·.withNullable nullable)

/-- Remember the reference of a declaration without its nullability. -/
def remember (declaration : δ) (ref : TypeRef) (session : Session δ μ) : Session δ μ :=
  { session with refs := session.refs.put declaration (ref.withNullable false) }

/-- Remember a reference and give it back. -/
def remembering (declaration : δ) (ref : TypeRef) : Step δ μ TypeRef :=
  Attempt.bind (Attempt.modify (·.remember declaration ref)) fun _ => pure ref

/-- Build a node that is always referenced by name, and refer to it. -/
def refer (declaration : δ) (id : TypeId) (nullable : Bool) (builder : Step δ μ (Option Node)) :
    Step δ μ TypeRef :=
  Attempt.bind (register id builder) fun _ => remembering declaration (.named id nullable)

/-- Own an identifier.  One that is taken is tried once more after the name of the
module, and then refused. -/
def claim (display : δ → String) (declaration : δ) (id : TypeId) (module : Option String) :
    Step δ μ TypeId := fun session =>
  let id :=
    match module with
    | some module => if session.owners.has id then module ++ "." ++ id else id
    | none => id
  match session.owners.find? id with
  | some owner => (.error (.invalidGraph (.identifierTaken (display owner)) (some id)), session)
  | none =>
    (.ok id, { session with
      ids := session.ids.put declaration id
      owners := session.owners.put id declaration })

end References

/-- The identifier of a subtype under a polymorphic base. -/
def qualify (base name : String) : TypeId :=
  base ++ "." ++ name

/-! ## Slots -/

/-- An identifier that has a slot or is being built is not built again. -/
theorem register_known {session : Session δ μ} {id : TypeId} (h : session.knows id)
    (builder : Step δ μ (Option Node)) :
    (register id builder).run session = (.ok false, session) := by
  simp [Attempt.run, register, h]

end Session

end Schemata
