import Mathlib.Data.List.Forall2
import Schemata.Proofs.Declaration.Introspection

/-!
# Who owns an identifier

A declaration takes an identifier the first time that it becomes a named node, and no step
takes one back.  A failed build gives up its slot but not the identifier, so what is said
here holds after every step, whether it succeeds or fails.

A slot is filled by one builder only, that of the declaration which owns the identifier.
The reservation of a slot does not show in which identifiers are owned, so the session in
which a builder runs is as good as the one that asked for it.

Main results:

- Definition {lit}`DeclarationIntrospection.Grows`: how declarations come to own
  identifiers.
- Definition {lit}`DeclarationIntrospection.BuiltFrom`: a node is what the builder of its
  owner gives.
- Theorem {lit}`keeps_refer`: a slot that is filled holds a node of the declaration that
  owns its identifier.
-/

namespace Schemata

namespace Hint

/-- Whether a hint is a class, declared or not. -/
def isClass : Hint → Bool
  | .declared _ | .foreign _ _ => true
  | _ => false

/-- A class counts as no other hint. -/
theorem eq_of_isClass {hint other : Hint} (h : hint.isClass = true) (same : (hint == other) = true) :
    hint = other := by
  change Hint.same hint other = true at same
  cases hint <;> cases other <;> simp_all [isClass, Hint.same]

/-- No other hint counts as a class. -/
theorem eq_of_isClass_right {hint other : Hint} (h : other.isClass = true)
    (same : (hint == other) = true) : hint = other := by
  change Hint.same hint other = true at same
  cases hint <;> cases other <;> simp_all [isClass, Hint.same]

/-- A class is equal to itself, which a hint that holds a NaN is not. -/
theorem beq_self_of_isClass {hint : Hint} (h : hint.isClass = true) : (hint == hint) = true := by
  change Hint.same hint hint = true
  cases hint <;> simp_all [isClass, Hint.same]

end Hint

namespace DeclarationIntrospection

variable (c : DeclarationIntrospection)

/-! ## Owners -/

/-- The declared class of a hint when it becomes a node with properties, entries or
subtypes. -/
def namedClass? : Hint → Option ClassDecl
  | .declared key => (c.declarations.class? key).filter fun cls =>
      cls.kind = .enumeration || Declarations.isOwn cls
  | _ => none

/-- The identifier of a declaration that comes first. -/
def shortId (hint : Hint) : TypeId :=
  match c.namedClass? hint with
  | some cls =>
    match c.declarations.hierarchyParent? cls with
    | some parent => Session.qualify parent.name cls.name
    | none => cls.qualname
  | none => c.declarations.hintName hint

/-- The identifier of a declaration beside those that are owned: the short one, or the
one with the name of the module in front when the short one is owned. -/
def NamedBeside (ids : Table Hint TypeId) (hint : Hint) (id : TypeId) : Prop :=
  if c.shortId hint ∈ ids.map Prod.snd then
    ∃ module, c.declarations.hintModule? hint = some module ∧ id = module ++ "." ++ c.shortId hint
  else id = c.shortId hint

/-- How declarations come to own identifiers: one after the other, each of them an
identifier that is free. -/
inductive Grows (ids : Table Hint TypeId) : Table Hint TypeId → Prop
  | refl : Grows ids ids
  | claim {later : Table Hint TypeId} {hint : Hint} {id : TypeId} (before : Grows ids later)
      (new : later.find? hint = none) (free : id ∉ later.map Prod.snd)
      (named : c.NamedBeside later hint id) : Grows ids (later ++ [(hint, id)])

/-- The owners are the identifiers the other way around, and the reference that is kept
for a class carries the identifier of the class. -/
structure IsOrdered (session : Session Hint Forms) : Prop where
  inverse : session.owners = session.ids.map Prod.swap
  refs : ∀ entry ∈ session.refs, entry.1.isClass = true →
    ∃ id, entry.2 = .named id false ∧ session.ids.find? entry.1 = some id

/-- The builder of the node of a declaration that owns an identifier. -/
def nodeOf (below : Below) (hint : Hint) (id : TypeId) : Step (Option Node) :=
  match c.namedClass? hint with
  | some cls =>
    if cls.kind = .enumeration then c.enumNode cls
    else if c.declarations.isHierarchyRoot cls then c.polymorphicNode below cls
    else c.objectNode below cls id
  | none => pure (some (.object { name := id }))

/-- The builder of a declaration gave the node, in a session in which no more identifiers
were owned than are now. -/
def BuiltFrom (ids : Table Hint TypeId) (hint : Hint) (id : TypeId) (node : Node) : Prop :=
  ∃ budget start finish, IsOrdered start ∧
    (c.nodeOf (c.reference budget) hint id).run start = (.ok (some node), finish) ∧
    finish.ids <+: ids

/-- What a step does to a session, whether it succeeds or fails: declarations keep what
they own, and the slots that it fills hold nodes built from the owners. -/
structure Follows (before after : Session Hint Forms) : Prop where
  ordered : IsOrdered after
  grows : c.Grows before.ids after.ids
  built : ∀ id node, (id, some node) ∈ after.slots → (id, some node) ∈ before.slots ∨
    ∃ owner, (owner, id) ∈ after.ids ∧ c.BuiltFrom after.ids owner id node

variable {c} {ids later last : Table Hint TypeId}

/-- Identifiers that were owned stay in front. -/
theorem Grows.isPrefix (h : c.Grows ids later) : ids <+: later := by
  induction h with
  | refl => exact List.prefix_refl _
  | claim _ _ _ _ ih => exact ih.trans (List.prefix_append ..)

theorem Grows.trans (first : c.Grows ids later) (second : c.Grows later last) :
    c.Grows ids last := by
  induction second with
  | refl => exact first
  | claim _ new free named ih => exact ih.claim new free named

/-- What a declaration owns stays its own. -/
theorem find?_of_isPrefix {hint : Hint} {id : TypeId} (h : ids <+: later)
    (found : ids.find? hint = some id) : later.find? hint = some id := by
  rcases h with ⟨more, rfl⟩
  rw [Table.find?_append, found, Option.some_or]

theorem BuiltFrom.mono {hint : Hint} {id : TypeId} {node : Node} (h : c.BuiltFrom ids hint id node)
    (more : ids <+: later) : c.BuiltFrom later hint id node := by
  rcases h with ⟨budget, start, finish, ordered, hrun, hids⟩
  exact ⟨budget, start, finish, ordered, hrun, hids.trans more⟩

/-! ## Sessions that follow one another -/

variable {session before middle after : Session Hint Forms}

theorem Follows.refl (ordered : IsOrdered session) : c.Follows session session where
  ordered := ordered
  grows := .refl
  built _ _ mem := Or.inl mem

theorem Follows.trans (first : c.Follows before middle) (second : c.Follows middle after) :
    c.Follows before after where
  ordered := second.ordered
  grows := first.grows.trans second.grows
  built id node mem := by
    rcases second.built id node mem with mem | hbuilt
    · rcases first.built id node mem with mem | ⟨owner, howner, hbuilt⟩
      · exact Or.inl mem
      · have hids := second.grows.isPrefix
        exact Or.inr ⟨owner, hids.subset howner, hbuilt.mono hids⟩
    · exact Or.inr hbuilt

/-- A session in which the same is owned and kept, and no slot was filled. -/
theorem Follows.of_eq (ordered : IsOrdered session) (ids : after.ids = session.ids)
    (owners : after.owners = session.owners) (refs : after.refs = session.refs)
    (slots : ∀ id node, (id, some node) ∈ after.slots → (id, some node) ∈ session.slots) :
    c.Follows session after where
  ordered := by
    constructor
    · rw [owners, ids]
      exact ordered.inverse
    · rw [refs, ids]
      exact ordered.refs
  grows := by
    rw [ids]
    exact .refl
  built id node mem := Or.inl (slots id node mem)

/-- From a session, a step leaves one that follows it, whether it succeeds or fails, and
on success its result meets a condition. -/
def Keeps {α : Type} (c : DeclarationIntrospection) (session : Session Hint Forms) (step : Step α)
    (success : α → Session Hint Forms → Prop) : Prop :=
  step.Meets session (fun result after => c.Follows session after ∧ success result after)
    fun _ after => c.Follows session after

section Rules

variable {α β : Type} {success : α → Session Hint Forms → Prop}

theorem keeps_pure (ordered : IsOrdered session) {result : α} (h : success result session) :
    c.Keeps session (pure result) success :=
  Attempt.meets_pure.mpr ⟨.refl ordered, h⟩

theorem keeps_fail (ordered : IsOrdered session) (error : Error) :
    c.Keeps session (Attempt.fail error : Step α) success :=
  Attempt.meets_fail.mpr (.refl ordered)

/-- A step keeps any condition that follows from one that it keeps. -/
theorem Keeps.imp {step : Step α} {success' : α → Session Hint Forms → Prop}
    (h : c.Keeps session step success)
    (hsuccess : ∀ result after, c.Follows session after → success result after →
      success' result after) : c.Keeps session step success' :=
  Attempt.Meets.imp h fun result after hafter => ⟨hafter.1, hsuccess result after hafter.1 hafter.2⟩

/-- Whatever the outcome of a step, the session that it leaves follows. -/
theorem Keeps.of_run {step : Step α} (h : c.Keeps session step success)
    {outcome : Except Error α} (hrun : step.run session = (outcome, after)) :
    c.Follows session after := by
  cases outcome with
  | ok result => exact (Attempt.Meets.of_ok h hrun).1
  | error error => exact Attempt.Meets.of_error h hrun

/-- The result of a step that succeeds is as the step says. -/
theorem Keeps.of_ok {step : Step α} (h : c.Keeps session step success) {result : α}
    (hrun : step.run session = (.ok result, after)) : success result after :=
  (Attempt.Meets.of_ok h hrun).2

/-- A sequence of steps is taken one step at a time. -/
theorem Keeps.bind {first : Step α} {next : α → Step β} {success : β → Session Hint Forms → Prop}
    {between : α → Session Hint Forms → Prop} (hfirst : c.Keeps session first between)
    (hnext : ∀ result middle, c.Follows session middle → between result middle →
      c.Keeps middle (next result) success) : c.Keeps session (first >>= next) success := by
  refine Attempt.Meets.bind hfirst fun result middle ⟨hmiddle, hbetween⟩ => ?_
  exact Attempt.Meets.mono (hnext result middle hmiddle hbetween)
    (fun _ _ h => ⟨hmiddle.trans h.1, h.2⟩) fun _ _ h => hmiddle.trans h

/-- What holds of the result for each item, and stays so, holds of the results one by one. -/
theorem Keeps.mapEach {items : List α} {step : α → Step β}
    (holds : α → β → Session Hint Forms → Prop)
    (stable : ∀ item result before after, c.Follows before after → holds item result before →
      holds item result after)
    (h : ∀ item ∈ items, ∀ session, IsOrdered session → c.Keeps session (step item) (holds item))
    (ordered : IsOrdered session) :
    c.Keeps session (Attempt.mapEach items step)
      (fun results after => List.Forall₂ (fun item result => holds item result after) items results) := by
  induction items generalizing session with
  | nil => exact keeps_pure ordered .nil
  | cons item items ih =>
      rw [List.forall_mem_cons] at h
      rw [Attempt.mapEach, Attempt.bind_eq]
      refine (h.1 session ordered).bind fun result middle hmiddle hresult => ?_
      rw [Attempt.bind_eq]
      refine (ih h.2 hmiddle.ordered).bind fun results after hafter hresults => ?_
      exact keeps_pure hafter.ordered (.cons (stable _ _ _ _ hafter hresult) hresults)

theorem keeps_pure_bind {result : α} {next : α → Step β} {success : β → Session Hint Forms → Prop}
    (h : c.Keeps session (next result) success) : c.Keeps session (pure result >>= next) success :=
  h

theorem keeps_fail_bind (ordered : IsOrdered session) (error : Error) {next : α → Step β}
    {success : β → Session Hint Forms → Prop} :
    c.Keeps session ((Attempt.fail error : Step α) >>= next) success :=
  keeps_fail ordered error

/-- Reading the session first passes on the session that a step starts in. -/
theorem keeps_get_bind {next : Session Hint Forms → Step α}
    (h : c.Keeps session (next session) success) : c.Keeps session (Attempt.get >>= next) success :=
  h

theorem keeps_ofExcept (ordered : IsOrdered session) {outcome : Except Error α}
    (h : ∀ result, outcome = .ok result → success result session) :
    c.Keeps session (Attempt.ofExcept outcome) success :=
  Attempt.meets_ofExcept.mpr
    ⟨fun result houtcome => ⟨.refl ordered, h result houtcome⟩, fun _ _ => .refl ordered⟩

theorem keeps_describe (ordered : IsOrdered session) (annotations : List Annotation) :
    c.Keeps session (c.describe annotations) (fun _ _ => True) :=
  keeps_ofExcept ordered fun _ _ => trivial

/-- A step on the memory leaves identifiers and slots alone. -/
theorem keeps_onMemory (ordered : IsOrdered session) (step : Attempt Forms α) :
    c.Keeps session (Session.onMemory step) (fun _ _ => True) := by
  refine Attempt.Meets.imp (Attempt.meets_of_after ?_) fun _ _ hafter => ⟨hafter, trivial⟩
  exact .of_eq ordered rfl rfl rfl fun _ _ mem => mem

theorem keeps_report (ordered : IsOrdered session) (line : String) :
    c.Keeps session (Session.report line) (fun _ _ => True) :=
  Attempt.meets_modify.mpr ⟨.of_eq ordered rfl rfl rfl fun _ _ mem => mem, trivial⟩

end Rules

/-! ## Taking an identifier -/

/-- The step in which a declaration comes to own an identifier, or is found to own one. -/
def ownId (c : DeclarationIntrospection) (hint : Hint) : Step TypeId := do
  let session ← Attempt.get
  match session.ids.find? hint with
  | some id => return id
  | none =>
    Session.claim c.declarations.display hint (c.shortId hint) (c.declarations.hintModule? hint)

/-- A declared class is named when it is an enumeration or declared outside the language. -/
theorem namedClass?_declared {cls : ClassDecl} (found : c.declarations.class? cls.key = some cls)
    (named : (decide (cls.kind = .enumeration) || Declarations.isOwn cls) = true) :
    c.namedClass? (.declared cls.key) = some cls := by
  rw [namedClass?, found, Option.filter_some, if_pos named]

/-- The identifier of a named class is the one that its hint comes to own. -/
theorem typeId_eq_ownId {cls : ClassDecl} (found : c.declarations.class? cls.key = some cls)
    (named : (decide (cls.kind = .enumeration) || Declarations.isOwn cls) = true) :
    c.typeId cls = c.ownId (.declared cls.key) := by
  have hmodule : c.declarations.hintModule? (.declared cls.key) = some cls.module := by
    rw [Declarations.hintModule?, found]
    rfl
  rw [ownId, shortId, namedClass?_declared found named, hmodule]
  rfl

/-- The identifier of any other hint is the one that it comes to own. -/
theorem hintId_eq_ownId {hint : Hint} (unnamed : c.namedClass? hint = none) :
    c.hintId hint = c.ownId hint := by
  rw [ownId, shortId, unnamed]
  rfl

/-- An identifier is owned when it is among those that declarations were given. -/
theorem IsOrdered.has_owners (ordered : IsOrdered session) (id : TypeId) :
    session.owners.has id = true ↔ id ∈ session.ids.map Prod.snd := by
  rw [Table.has_iff_mem_keys, ordered.inverse, Table.keys, List.map_map]
  rfl

/-- An identifier has no owner when it is not among those that were given. -/
theorem IsOrdered.find?_owners_eq_none (ordered : IsOrdered session) {id : TypeId} :
    session.owners.find? id = none ↔ id ∉ session.ids.map Prod.snd := by
  rw [← ordered.has_owners, Table.has, Option.not_isSome_iff_eq_none]

/-- The identifier of a declaration that is not owned yet. -/
theorem namedBeside_claimedId (ordered : IsOrdered session) {hint : Hint}
    (free : session.claimedId (c.shortId hint) (c.declarations.hintModule? hint) ∉
      session.ids.map Prod.snd) :
    c.NamedBeside session.ids hint
      (session.claimedId (c.shortId hint) (c.declarations.hintModule? hint)) := by
  rw [NamedBeside]
  cases hmodule : c.declarations.hintModule? hint with
  | none =>
      rw [hmodule, Session.claimedId] at free
      rw [if_neg free, Session.claimedId]
  | some module =>
      rw [Session.claimedId]
      by_cases taken : c.shortId hint ∈ session.ids.map Prod.snd
      · rw [if_pos taken, if_pos ((ordered.has_owners _).mpr taken)]
        exact ⟨module, rfl, rfl⟩
      · rw [if_neg taken, if_neg (mt (ordered.has_owners _).mp taken)]

/-- What a declaration is found to own: a class is the owner itself, any other declaration
counts as the owner. -/
structure Owns (ids : Table Hint TypeId) (hint : Hint) (id : TypeId) : Prop where
  owner : ∃ owner, (owner, id) ∈ ids ∧ (owner = hint ∨ (hint == owner) = true)
  class_ : hint.isClass = true → ids.find? hint = some id

theorem Owns.mono {hint : Hint} {id : TypeId} (h : Owns ids hint id) (more : ids <+: later) :
    Owns later hint id where
  owner := by
    rcases h.owner with ⟨owner, howner, same⟩
    exact ⟨owner, more.subset howner, same⟩
  class_ isClass := find?_of_isPrefix more (h.class_ isClass)

/-- A declaration that owned nothing owns a free identifier from then on. -/
theorem keeps_claim (ordered : IsOrdered session) {hint : Hint}
    (new : session.ids.find? hint = none) :
    c.Keeps session (Session.claim c.declarations.display hint (c.shortId hint)
      (c.declarations.hintModule? hint)) (fun id after => Owns after.ids hint id) := by
  have hnamed : _ → c.NamedBeside session.ids hint
      (session.claimedId (c.shortId hint) (c.declarations.hintModule? hint)) :=
    namedBeside_claimedId ordered
  rw [Keeps, Attempt.Meets, Session.run_claim]
  generalize session.claimedId (c.shortId hint) (c.declarations.hintModule? hint) = id at hnamed
  rcases howner : session.owners.find? id with _ | owner
  · have free := ordered.find?_owners_eq_none.mp howner
    have hids : session.ids.put hint id = session.ids ++ [(hint, id)] :=
      Table.put_of_new (Table.find?_eq_none_iff.mp new) id
    have howners : session.owners.put id hint = session.owners ++ [(id, hint)] :=
      Table.put_of_new (Table.find?_eq_none_iff.mp howner) hint
    constructor
    · constructor
      · constructor
        · simp only [hids, howners, List.map_append, List.map_cons, List.map_nil, Prod.swap_prod_mk]
          rw [ordered.inverse]
        · intro entry mem isClass
          rcases ordered.refs entry mem isClass with ⟨kept, href, hfind⟩
          refine ⟨kept, href, ?_⟩
          simp only [hids, Table.find?_append, hfind, Option.some_or]
      · simp only [hids]
        exact Grows.refl.claim new free (hnamed free)
      · exact fun _ _ mem => Or.inl mem
    · simp only [hids]
      constructor
      · exact ⟨hint, by simp, Or.inl rfl⟩
      · intro isClass
        rw [Table.find?_append, new, Option.none_or, Table.find?_cons,
          if_pos (Hint.beq_self_of_isClass isClass)]
  · exact .refl ordered

/-- After the step the declaration owns the identifier that it hands out. -/
theorem keeps_ownId (ordered : IsOrdered session) (hint : Hint) :
    c.Keeps session (c.ownId hint) (fun id after => Owns after.ids hint id) := by
  rw [ownId]
  refine keeps_get_bind ?_
  split
  · rename_i id hfind
    refine keeps_pure ordered ?_
    constructor
    · rcases Table.exists_key_of_find? hfind with ⟨owner, same, mem⟩
      exact ⟨owner, mem, Or.inr same⟩
    · exact fun _ => hfind
  · rename_i hfind
    exact keeps_claim ordered hfind

/-! ## Filling slots -/

/-- A declaration that counts as another one has the same builder. -/
theorem nodeOf_congr {hint owner : Hint} (same : owner = hint ∨ (hint == owner) = true)
    (below : Below) (id : TypeId) : c.nodeOf below owner id = c.nodeOf below hint id := by
  rcases same with rfl | same
  · rfl
  · by_cases isClass : hint.isClass = true
    · rw [Hint.eq_of_isClass isClass same]
    · have hother : ¬ owner.isClass = true := fun h => by
        rw [Hint.eq_of_isClass_right h same] at isClass
        exact isClass h
      have hunnamed : ∀ other : Hint, ¬ other.isClass = true → c.namedClass? other = none := by
        intro other h
        cases other <;> simp_all [namedClass?, Hint.isClass]
      rw [nodeOf, nodeOf, hunnamed hint isClass, hunnamed owner hother]

/-- A slot is filled with the node that the builder of the owner gives. -/
theorem keeps_register {owner : Hint} {id : TypeId} {builder : Step (Option Node)}
    (ordered : IsOrdered session) (owned : (owner, id) ∈ session.ids)
    (hbuild : c.Keeps (session.reserve id) builder
      (fun built after => ∀ node, built = some node → c.BuiltFrom after.ids owner id node)) :
    c.Keeps session (Session.register id builder) (fun _ _ => True) := by
  have hold : ∀ other node, (other, some node) ∈ (session.reserve id).slots →
      (other, some node) ∈ session.slots := by
    intro other node mem
    rcases Table.mem_put mem with hempty | mem
    · cases hempty
    · exact mem
  have hall : ∀ after, c.Follows (session.reserve id) after → c.Follows session after :=
    fun after hafter => ⟨hafter.ordered, hafter.grows, fun other node mem =>
      (hafter.built other node mem).imp_left (hold other node)⟩
  refine Session.meets_register (fun _ => ⟨.refl ordered, trivial⟩) fun _ => ?_
  refine Attempt.Meets.mono hbuild ?_ ?_
  · rintro built after ⟨hafter, hnode⟩
    have hgrown := hall after hafter
    refine ⟨⟨⟨hgrown.ordered.inverse, hgrown.ordered.refs⟩, hgrown.grows, ?_⟩, trivial⟩
    intro other node mem
    rcases Table.mem_put mem with hnew | mem
    · obtain ⟨rfl, hsame⟩ := Prod.mk.inj hnew
      exact Or.inr ⟨owner, hgrown.grows.isPrefix.subset owned, hnode node hsame.symm⟩
    · exact hgrown.built other node mem
  · intro _ after hafter
    have hgrown := hall after hafter
    exact hgrown.trans (.of_eq hgrown.ordered rfl rfl rfl fun _ _ mem => (List.mem_filter.mp mem).1)

/-- A named reference to a class carries the identifier that the class owns. -/
def NamesOwn (hint : Hint) (ref : TypeRef) (ids : Table Hint TypeId) : Prop :=
  hint.isClass = true → ∀ id nullable, ref = .named id nullable → ids.find? hint = some id

/-- A class that owns an identifier keeps a reference to it. -/
theorem keeps_remembering (ordered : IsOrdered session) {hint : Hint} {id : TypeId}
    (owns : Owns session.ids hint id) (nullable : Bool) :
    c.Keeps session (Session.remembering hint (.named id nullable))
      (fun ref after => NamesOwn hint ref after.ids) := by
  rw [Session.remembering, Attempt.bind_eq]
  have hkeep : c.Follows session (session.remember hint (.named id nullable)) := by
    refine ⟨⟨ordered.inverse, ?_⟩, .refl, fun _ _ mem => Or.inl mem⟩
    intro entry mem isClass
    rcases Table.key_of_mem_put mem with mem | ⟨href, hkey⟩
    · exact ordered.refs entry mem isClass
    · have hsame : hint = entry.1 := by
        rcases hkey with hkey | hkey
        · exact hkey.symm
        · exact Hint.eq_of_isClass_right isClass hkey
      subst hsame
      exact ⟨id, href, owns.class_ isClass⟩
  have hmodify : c.Keeps session (Attempt.modify (·.remember hint (.named id nullable)))
      (fun _ after => Owns after.ids hint id) :=
    Attempt.meets_modify.mpr ⟨hkeep, owns⟩
  refine hmodify.bind fun _ after hafter howns => keeps_pure hafter.ordered ?_
  rintro isClass _ _ ⟨⟩
  exact howns.class_ isClass

/-- A slot that is filled holds a node of the declaration that owns its identifier, and
the reference to it carries the identifier. -/
theorem keeps_refer {budget : Nat} {hint : Hint} {id : TypeId} (ordered : IsOrdered session)
    (owns : Owns session.ids hint id)
    (hbuild : ∀ session, IsOrdered session →
      c.Keeps session (c.nodeOf (c.reference budget) hint id) (fun _ _ => True))
    (nullable : Bool) :
    c.Keeps session (Session.refer hint id nullable (c.nodeOf (c.reference budget) hint id))
      (fun ref after => NamesOwn hint ref after.ids) := by
  rcases owns.owner with ⟨owner, howner, same⟩
  have hreserved : IsOrdered (session.reserve id) := ⟨ordered.inverse, ordered.refs⟩
  have hbuilt : c.Keeps (session.reserve id) (c.nodeOf (c.reference budget) hint id)
      (fun built after => ∀ node, built = some node → c.BuiltFrom after.ids owner id node) := by
    refine Attempt.Meets.with_run (hbuild _ hreserved) ?_
    rintro built after ⟨hafter, -⟩ hrun
    refine ⟨hafter, ?_⟩
    rintro node rfl
    exact ⟨budget, _, after, hreserved, by rw [nodeOf_congr same, hrun], List.prefix_refl _⟩
  rw [Session.refer, Attempt.bind_eq]
  refine (keeps_register ordered howner hbuilt).bind fun _ middle hmiddle _ => ?_
  exact keeps_remembering hmiddle.ordered (owns.mono hmiddle.grows.isPrefix) nullable

end DeclarationIntrospection

end Schemata
