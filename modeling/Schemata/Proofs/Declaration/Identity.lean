import Schemata.Proofs.Declaration.Depiction

/-!
# Readings one after the other

One session may read any hints in any order, and some of the readings may fail.  Since each
of them leaves a session that follows the one before, what holds of one reading holds of
all: an identifier has one owner, an owner keeps its identifier, and the node in a slot was
built from the owner.

A declaration gets its short identifier, or the one with its module in front when the short
one is owned.  When both are owned the reading fails and changes nothing.

Main results:

- Theorem {lit}`follows_readings`: any readings leave a session that follows.
- Theorem {lit}`Grows.named`: every identifier was free and was made by the rule.
- Theorem {lit}`below_of_taken`: a class whose identifiers are both owned is refused.
- Theorem {lit}`sessionAfter_keepsIdentities`: identity of declarations over any readings.
-/

namespace Schemata

namespace DeclarationIntrospection

variable {c : DeclarationIntrospection} {session after : Session Hint Forms}
variable {ids later : Table Hint TypeId}

/-! ## Identifiers that are owned -/

/-- An identifier is given once. -/
theorem Grows.nodup (h : c.Grows ids later) (distinct : (ids.map Prod.snd).Nodup) :
    (later.map Prod.snd).Nodup := by
  induction h with
  | refl => exact distinct
  | claim _ _ free _ ih =>
      rw [List.map_append, List.nodup_append]
      refine ⟨ih, by simp, ?_⟩
      rintro id hid _ hnew rfl
      rw [List.map_singleton, List.mem_singleton] at hnew
      subst hnew
      exact free hid

/-- A declaration that is given an identifier counts as none of those before it. -/
theorem Grows.pairwise (h : c.Grows ids later)
    (distinct : ids.Pairwise fun first second => (second.1 == first.1) = false) :
    later.Pairwise fun first second => (second.1 == first.1) = false := by
  induction h with
  | refl => exact distinct
  | claim _ new _ _ ih =>
      rw [List.pairwise_append]
      refine ⟨ih, List.pairwise_singleton .., ?_⟩
      intro first mem second hsecond
      rw [List.mem_singleton.mp hsecond]
      exact Table.find?_eq_none_iff.mp new first mem

/-- Every identifier was free when it was given, and was made by the rule. -/
theorem Grows.named (h : c.Grows [] later) {earlier rest : Table Hint TypeId} {hint : Hint}
    {id : TypeId} (split : later = earlier ++ (hint, id) :: rest) :
    id ∉ earlier.map Prod.snd ∧ c.NamedBeside earlier hint id := by
  induction h generalizing rest with
  | refl => simp at split
  | @claim known newHint newId _ new free named ih =>
      rcases List.eq_nil_or_concat rest with rfl | ⟨front, final, rfl⟩
      · obtain ⟨rfl, hlast⟩ := List.append_inj' split rfl
        cases hlast
        exact ⟨free, named⟩
      · rw [List.concat_eq_append, ← List.cons_append, ← List.append_assoc] at split
        exact ih (List.append_inj' split rfl).1

/-- A declaration that counts as itself is found under itself. -/
theorem find?_of_pairwise
    (distinct : ids.Pairwise fun first second => (second.1 == first.1) = false) {hint : Hint}
    {id : TypeId} (mem : (hint, id) ∈ ids) (self : (hint == hint) = true) :
    ids.find? hint = some id := by
  induction ids with
  | nil => cases mem
  | cons first rest ih =>
      obtain ⟨known, owned⟩ := first
      rw [List.pairwise_cons] at distinct
      rw [Table.find?_cons]
      rcases List.mem_cons.mp mem with hfirst | mem
      · cases hfirst
        rw [if_pos self]
      · rw [if_neg (by simp [distinct.1 _ mem])]
        exact ih distinct.2 mem

/-- The owners of identifiers that are given once are found under them. -/
theorem IsOrdered.find?_owners_eq_some (ordered : IsOrdered session)
    (distinct : (session.ids.map Prod.snd).Nodup) {id : TypeId} {owner : Hint} :
    session.owners.find? id = some owner ↔ (owner, id) ∈ session.ids := by
  have hkeys : session.owners.keys.Nodup := by
    rw [ordered.inverse, Table.keys, List.map_map]
    exact distinct
  constructor
  · intro found
    have hmem := Table.mem_of_find? found
    rw [ordered.inverse, List.mem_map] at hmem
    rcases hmem with ⟨entry, hentry, hswap⟩
    rw [← Prod.swap_swap entry, hswap] at hentry
    exact hentry
  · intro mem
    have hmem : (id, owner) ∈ session.owners := by
      rw [ordered.inverse]
      exact List.mem_map_of_mem mem
    exact Table.find?_of_mem hkeys hmem

/-- No two declarations own one identifier. -/
theorem IsOrdered.single (ordered : IsOrdered session) (distinct : (session.ids.map Prod.snd).Nodup)
    {first second : Hint} {id : TypeId} (hfirst : (first, id) ∈ session.ids)
    (hsecond : (second, id) ∈ session.ids) : first = second := by
  rw [← ordered.find?_owners_eq_some distinct] at hfirst hsecond
  rw [hfirst] at hsecond
  exact Option.some.inj hsecond

/-! ## Readings one after the other -/

/-- The session after readings of hints, each with its nullability, whether they succeed
or fail. -/
def sessionAfter (c : DeclarationIntrospection) (memory : Forms) (readings : List (Hint × Bool)) :
    Session Hint Forms :=
  readings.foldl (fun session reading => ((c.below reading.1 reading.2).run session).2) { memory }

/-- A new session is ordered, whatever it remembers. -/
theorem isOrdered_start (memory : Forms) : IsOrdered ({ memory } : Session Hint Forms) where
  inverse := rfl
  refs := by simp

/-- Any readings leave a session that follows. -/
theorem follows_readings (ordered : IsOrdered session) (readings : List (Hint × Bool)) :
    c.Follows session
      (readings.foldl (fun session reading => ((c.below reading.1 reading.2).run session).2) session) := by
  induction readings generalizing session with
  | nil => exact .refl ordered
  | cons reading readings ih =>
      have hfirst : c.Follows session ((c.below reading.1 reading.2).run session).2 :=
        (keepsAll_below reading.1 reading.2 session ordered).of_run rfl
      exact hfirst.trans (ih hfirst.ordered)

/-- The session after any readings follows a new one. -/
theorem follows_sessionAfter (memory : Forms) (readings : List (Hint × Bool)) :
    c.Follows { memory } (c.sessionAfter memory readings) :=
  follows_readings (isOrdered_start memory) readings

/-- Declarations and identifiers belong together: an identifier has one owner, both tables
say the same, identifiers are free when they are given and made by the rule, and the nodes
in the slots were built from the owners and show them. -/
structure KeepsIdentities (c : DeclarationIntrospection) (session : Session Hint Forms) : Prop where
  single : ∀ first second id, (first, id) ∈ session.ids → (second, id) ∈ session.ids →
    first = second
  inverse : session.owners = session.ids.map Prod.swap
  owner : ∀ hint id, session.ids.find? hint = some id →
    ∃ owner, session.owners.find? id = some owner ∧ (hint == owner) = true
  owned : ∀ id owner, session.owners.find? id = some owner → (owner == owner) = true →
    session.ids.find? owner = some id
  named : ∀ earlier hint id rest, session.ids = earlier ++ (hint, id) :: rest →
    id ∉ earlier.map Prod.snd ∧ c.NamedBeside earlier hint id
  built : ∀ id node, (id, some node) ∈ session.slots → ∃ owner,
    session.owners.find? id = some owner ∧ c.BuiltFrom session.ids owner id node ∧
      c.Depicts session.ids owner id node

/-- A session that follows a new one keeps declarations and identifiers together. -/
theorem Follows.keepsIdentities {memory : Forms} (h : c.Follows { memory } session) :
    c.KeepsIdentities session := by
  have hdistinct : (session.ids.map Prod.snd).Nodup := h.grows.nodup List.nodup_nil
  have hfind : ∀ {id : TypeId} {owner : Hint},
      session.owners.find? id = some owner ↔ (owner, id) ∈ session.ids :=
    h.ordered.find?_owners_eq_some hdistinct
  constructor
  · exact fun first second id => h.ordered.single hdistinct
  · exact h.ordered.inverse
  · intro hint id found
    rcases Table.exists_key_of_find? found with ⟨owner, same, mem⟩
    exact ⟨owner, hfind.mpr mem, same⟩
  · intro id owner found self
    exact find?_of_pairwise (h.grows.pairwise .nil) (hfind.mp found) self
  · intro earlier hint id rest split
    exact h.grows.named split
  · intro id node mem
    rcases h.built id node mem with hold | ⟨owner, howner, hbuilt⟩
    · cases hold
    · exact ⟨owner, hfind.mpr howner, hbuilt, hbuilt.depicts⟩

/-! ## Clashes -/

/-- A class that owns no identifier is refused one that is owned. -/
theorem ownId_of_taken (ordered : IsOrdered session) (distinct : (session.ids.map Prod.snd).Nodup)
    {hint : Hint} {module : String} (hmodule : c.declarations.hintModule? hint = some module)
    (new : session.ids.find? hint = none) (short : c.shortId hint ∈ session.ids.map Prod.snd)
    {owner : Hint} (long : (owner, module ++ "." ++ c.shortId hint) ∈ session.ids) :
    (c.ownId hint).run session =
      (.error (.invalidGraph (.identifierTaken (c.declarations.display owner))
        (some (module ++ "." ++ c.shortId hint))), session) := by
  have hid : session.claimedId (c.shortId hint) (c.declarations.hintModule? hint) =
      module ++ "." ++ c.shortId hint := by
    rw [hmodule, Session.claimedId, if_pos ((ordered.has_owners _).mpr short)]
  have hclaim : Attempt.run (Session.claim c.declarations.display hint (c.shortId hint)
      (c.declarations.hintModule? hint)) session = _ := Session.run_claim ..
  rw [hid, (ordered.find?_owners_eq_some distinct).mpr long] at hclaim
  rw [ownId, Attempt.run_get_bind, new]
  exact hclaim

/-- Reading a class that has no reference yet. -/
theorem below_declared {key : String} {cls : ClassDecl} {nullable : Bool}
    (found : c.declarations.class? key = some cls)
    (new : session.refs.find? (.declared key) = none) :
    (c.below (.declared key) nullable).run session =
      (c.classRef (c.reference c.declarations.classes.length) cls nullable).run session := by
  have hrefs : session.cached? (.declared key) nullable = none := by
    rw [Session.cached?, new, Option.map_none]
  rw [below, budget, reference]
  change (c.layer (c.within _ 1) _ (.declared key) nullable).run session = _
  rw [layer]
  simp only [Hint.unwrap, Hint.primitive?, Hint.isKey, Hint.comesFrom, Hint.origin?, Option.any_none,
    Bool.not_true, Bool.false_eq_true, if_false]
  rw [namedRef, Attempt.run_get_bind, hrefs]
  simp only [found]

/-- A class whose identifiers are both owned by others is refused, and nothing changes. -/
theorem below_of_taken (ordered : IsOrdered session) (distinct : (session.ids.map Prod.snd).Nodup)
    {cls : ClassDecl} (named : c.namedClass? (.declared cls.key) = some cls)
    (new : session.ids.find? (.declared cls.key) = none)
    (short : c.shortId (.declared cls.key) ∈ session.ids.map Prod.snd) {owner : Hint}
    (long : (owner, cls.module ++ "." ++ c.shortId (.declared cls.key)) ∈ session.ids)
    (nullable : Bool) :
    (c.below (.declared cls.key) nullable).run session =
      (.error (.invalidGraph (.identifierTaken (c.declarations.display owner))
        (some (cls.module ++ "." ++ c.shortId (.declared cls.key)))), session) := by
  rw [namedClass?, Option.filter_eq_some_iff] at named
  rcases named with ⟨found, own⟩
  have hmodule : c.declarations.hintModule? (.declared cls.key) = some cls.module := by
    rw [Declarations.hintModule?, found]
    rfl
  have hrefs : session.refs.find? (.declared cls.key) = none := by
    rw [Option.eq_none_iff_forall_ne_some]
    intro ref hfind
    rcases Table.exists_key_of_find? hfind with ⟨known, same, mem⟩
    obtain rfl := Hint.eq_of_isClass rfl same
    rcases ordered.refs _ mem rfl with ⟨id, -, hid⟩
    rw [new] at hid
    cases hid
  have howned := ownId_of_taken ordered distinct hmodule new short long
  rw [below_declared found hrefs, classRef, typeId_eq_ownId found own]
  split
  · exact Attempt.run_bind_error howned _
  · rename_i kind
    split
    · exact Attempt.run_bind_error howned _
    · rw [decide_eq_false kind, Bool.false_or] at own
      rw [if_pos own]
      exact Attempt.run_bind_error howned _

/-! ## Identity over any readings -/

/-- After any readings, in any order and with any failures among them, declarations and
identifiers belong together; what a declaration owns it owns after any further readings; a
named reference to a class carries the identifier that the class owns; and a class whose
identifiers are both owned by others is refused. -/
theorem sessionAfter_keepsIdentities (c : DeclarationIntrospection) (memory : Forms)
    (readings : List (Hint × Bool)) :
    c.KeepsIdentities (c.sessionAfter memory readings) ∧
    (∀ more hint id, (c.sessionAfter memory readings).ids.find? hint = some id →
      (c.sessionAfter memory (readings ++ more)).ids.find? hint = some id) ∧
    (∀ hint nullable ref after,
      (c.below hint nullable).run (c.sessionAfter memory readings) = (.ok ref, after) →
      ∀ target, hint.StandsFor target → target.isClass = true → ∀ id nullable,
        ref = .named id nullable →
        after.ids.find? target = some id ∧ after.owners.find? id = some target) ∧
    (∀ cls nullable owner, c.namedClass? (.declared cls.key) = some cls →
      (c.sessionAfter memory readings).ids.find? (.declared cls.key) = none →
      c.shortId (.declared cls.key) ∈ (c.sessionAfter memory readings).ids.map Prod.snd →
      (c.sessionAfter memory readings).owners.find?
        (cls.module ++ "." ++ c.shortId (.declared cls.key)) = some owner →
      (c.below (.declared cls.key) nullable).run (c.sessionAfter memory readings) =
        (.error (.invalidGraph (.identifierTaken (c.declarations.display owner))
          (some (cls.module ++ "." ++ c.shortId (.declared cls.key)))),
          c.sessionAfter memory readings)) := by
  have hfollows : c.Follows { memory } (c.sessionAfter memory readings) :=
    follows_sessionAfter memory readings
  have hdistinct : ((c.sessionAfter memory readings).ids.map Prod.snd).Nodup :=
    hfollows.grows.nodup List.nodup_nil
  refine ⟨hfollows.keepsIdentities, ?_, ?_, ?_⟩
  · intro more hint id found
    rw [sessionAfter, List.foldl_append]
    exact find?_of_isPrefix (follows_readings hfollows.ordered more).grows.isPrefix found
  · intro hint nullable ref after hrun target hstands isClass id other href
    have hkeeps : c.Keeps (c.sessionAfter memory readings) (c.below hint nullable)
        (fun ref after => ∀ target, hint.StandsFor target → NamesOwn target ref after.ids) :=
      keepsAll_below hint nullable _ hfollows.ordered
    have hafter : c.Follows { memory } after := hfollows.trans (hkeeps.of_run hrun)
    have hown := hkeeps.of_ok hrun target hstands isClass id other href
    refine ⟨hown, ?_⟩
    rcases hafter.keepsIdentities.owner _ _ hown with ⟨owner, howner, same⟩
    rw [howner, Hint.eq_of_isClass isClass same]
  · intro cls nullable owner named new short long
    have hlong := (hfollows.ordered.find?_owners_eq_some hdistinct).mp long
    exact below_of_taken hfollows.ordered hdistinct named new short hlong nullable

/-- Three classes of one name, two of them in one module. -/
def crowdedItems : DeclarationIntrospection where
  declarations := {
    classes := [
      { key := "a", name := "Item", module := "goods", qualname := "Item", kind := .record },
      { key := "b", name := "Item", module := "parts", qualname := "Item", kind := .record },
      { key := "c", name := "Item", module := "parts", qualname := "Item", kind := .record }] }
  settings := {}

/-- The second class takes the name of its module in front, and the third one is refused. -/
example : (crowdedItems.sessionAfter {} [(.declared "a", false), (.declared "b", true),
    (.declared "c", false), (.declared "a", true)]).ids.map Prod.snd = ["Item", "parts.Item"] := by
  decide

end DeclarationIntrospection

end Schemata
