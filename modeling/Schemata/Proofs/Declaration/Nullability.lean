import Schemata.Proofs.Declaration.Identity

/-!
# The nullability of references

Whether a reference may be null is a matter of its use: of the flag that a reading is given,
and of the unions that the hint is wrapped in.  A session keeps references without it and puts
it back for each use, so no reading before can show in it, and a node that is being built, an
identifier that is owned or a line that is reported does not depend on it either.

So a reading with the flag does what the one without it does, and the reference that comes out
differs in its nullability alone.  One layer passes the flag on to the hint in a union or puts
it on the reference that it makes.

Main results:

- Definition {lit}`Hint.AllowsNull`: None belongs to a union that is met from the outside.
- Theorem {lit}`isMarked_reference`: when a reference is nullable.
- Theorem {lit}`run_reference`: a reading with the flag does what the one without it does.
- Theorem {lit}`reference_of_wraps`: a wrapped hint is read as the hint inside.
- Theorem {lit}`nullable_belongs_to_use`: all of this for any session and any readings before.
-/

namespace Schemata

namespace TypeRef

/-- The reference for a use that may be null as well. -/
def orNullable (flag : Bool) (ref : TypeRef) : TypeRef :=
  ref.withNullable (ref.nullable || flag)

@[simp] theorem nullable_orNullable (flag : Bool) (ref : TypeRef) :
    (ref.orNullable flag).nullable = (ref.nullable || flag) :=
  nullable_withNullable ..

@[simp] theorem orNullable_false (ref : TypeRef) : ref.orNullable false = ref := by
  cases ref <;> simp [orNullable, withNullable, nullable]

/-- Two uses of a reference make it nullable when one of them does. -/
theorem orNullable_orNullable (first second : Bool) (ref : TypeRef) :
    (ref.orNullable first).orNullable second = ref.orNullable (first || second) := by
  cases ref <;> simp [orNullable, withNullable, nullable, Bool.or_assoc]

/-- Setting the flag of a reference forgets what uses made of it. -/
theorem withNullable_orNullable (nullable flag : Bool) (ref : TypeRef) :
    (ref.orNullable flag).withNullable nullable = ref.withNullable nullable := by
  cases ref <;> rfl

end TypeRef

namespace Hint

/-- None belongs to a union that is met while a hint is freed of its annotations and of unions
of one other member. -/
inductive AllowsNull : Hint → Prop
  | annotated {base : Hint} {annotations : List Annotation} (inside : AllowsNull base) :
      AllowsNull (.annotated base annotations)
  | member {style : UnionStyle} {members : List Hint} {none : Hint} (mem : none ∈ members)
      (isNone : none.isNoneType = true) : AllowsNull (.union style members)
  | only {style : UnionStyle} {members : List Hint} {inner : Hint}
      (single : members.filter (!·.isNoneType) = [inner]) (inside : AllowsNull inner) :
      AllowsNull (.union style members)

/-- A hint wraps another one in annotations and in unions of one other member, with None in one
of these unions or not. -/
inductive Wraps : Hint → Bool → Hint → Prop
  | self {hint : Hint} : Wraps hint false hint
  | annotated {base inner : Hint} {annotations : List Annotation} {allows : Bool}
      (inside : Wraps base allows inner) : Wraps (.annotated base annotations) allows inner
  | only {style : UnionStyle} {members : List Hint} {hint inner : Hint} {allows : Bool}
      (single : members.filter (!·.isNoneType) = [hint]) (inside : Wraps hint allows inner) :
      Wraps (.union style members) (members.any isNoneType || allows) inner

/-- Whether None belongs to a union shows when it is left out. -/
theorem any_isNoneType_eq (members : List Hint) :
    members.any isNoneType = decide ((members.filter (!·.isNoneType)).length < members.length) := by
  rw [Bool.eq_iff_iff, decide_eq_true_iff, List.length_filter_lt_length_iff_exists, List.any_eq_true]
  simp

/-- Annotations do not show in whether null is allowed. -/
theorem allowsNull_unwrap (hint : Hint) : hint.unwrap.1.AllowsNull ↔ hint.AllowsNull := by
  fun_induction Hint.unwrap hint with
  | case1 base annotations inner more hinner ih =>
      rw [hinner] at ih
      rw [ih]
      constructor
      · exact .annotated
      · rintro ⟨inside⟩
        exact inside
  | case2 hint other => rfl

/-- A union allows null when None is a member, or the only other member allows it. -/
theorem allowsNull_union {style : UnionStyle} {members : List Hint} :
    (Hint.union style members).AllowsNull ↔ members.any isNoneType = true ∨
      ∃ inner, members.filter (!·.isNoneType) = [inner] ∧ inner.AllowsNull := by
  rw [List.any_eq_true]
  constructor
  · rintro (_ | ⟨mem, isNone⟩ | ⟨single, inside⟩)
    · exact Or.inl ⟨_, mem, isNone⟩
    · exact Or.inr ⟨_, single, inside⟩
  · rintro (⟨none, mem, isNone⟩ | ⟨inner, single, inside⟩)
    · exact .member mem isNone
    · exact .only single inside

/-- Without its annotations a hint allows null only as a union. -/
theorem not_allowsNull_unwrap {hint : Hint}
    (other : ∀ style members, hint.unwrap.1 ≠ .union style members) : ¬ hint.unwrap.1.AllowsNull := by
  fun_induction Hint.unwrap hint with
  | case1 base annotations inner more hinner ih =>
      rw [hinner] at ih
      exact ih other
  | case2 hint bare =>
      intro h
      cases h with
      | annotated inside => exact bare _ _ rfl
      | member mem isNone => exact other _ _ rfl
      | only single inside => exact other _ _ rfl

end Hint

namespace DeclarationIntrospection

variable {c : DeclarationIntrospection} {inside below : Below} {flag : Bool}
variable {session after : Session Hint Forms} {hint : Hint} {ref : TypeRef}

/-! ## When a reference is nullable -/

/-- The references that a step hands out are nullable or not as a flag says. -/
def Marks (flag : Bool) (step : Step TypeRef) : Prop :=
  ∀ session ref after, step.run session = (.ok ref, after) → ref.nullable = flag

theorem marks_pure (h : ref.nullable = flag) : Marks flag (pure ref) := by
  rintro _ _ _ ⟨⟩
  exact h

theorem marks_fail (error : Error) : Marks flag (Attempt.fail error) :=
  nofun

/-- A sequence marks what it hands out when every continuation does. -/
theorem marks_bind {α : Type} {first : Step α} {next : α → Step TypeRef}
    (h : ∀ result, Marks flag (next result)) : Marks flag (first >>= next) := by
  intro session ref after hrun
  rcases Attempt.run_bind_eq_ok_iff.mp hrun with ⟨result, middle, -, hnext⟩
  exact h result middle ref after hnext

/-- A named reference is handed out with the flag that was asked for. -/
theorem marks_refer (id : TypeId) (builder : Step (Option Node)) :
    Marks flag (Session.refer hint id flag builder) := by
  rw [Session.refer, Attempt.bind_eq]
  refine marks_bind fun _ => ?_
  rw [Session.remembering, Attempt.bind_eq]
  exact marks_bind fun _ => marks_pure rfl

theorem marks_unsupported (hint : Hint) : Marks flag (c.unsupported hint flag) := by
  rw [unsupported]
  split
  · exact marks_bind fun _ => marks_bind fun _ => marks_bind fun _ => marks_refer _ _
  · exact marks_bind fun _ => marks_bind fun _ => marks_refer _ _

theorem marks_classRef (cls : ClassDecl) : Marks flag (c.classRef below cls flag) := by
  rw [classRef]
  split
  · exact marks_bind fun _ => marks_refer _ _
  · split
    · exact marks_bind fun _ => marks_refer _ _
    · split
      · exact marks_bind fun _ => marks_refer _ _
      · exact marks_unsupported _

/-- What a session keeps is marked anew. -/
theorem marks_namedRef (hint : Hint) : Marks flag (c.namedRef below hint flag) := by
  intro session ref after hrun
  rw [namedRef.eq_def, Attempt.run_get_bind] at hrun
  split at hrun
  · rename_i kept cached
    rcases Option.map_eq_some_iff.mp cached with ⟨bare, -, rfl⟩
    cases hrun
    exact TypeRef.nullable_withNullable ..
  · split at hrun
    · split at hrun
      · exact marks_classRef _ _ _ _ hrun
      · exact marks_unsupported _ _ _ _ hrun
    · exact marks_unsupported _ _ _ _ hrun

/-- A reading hands out nullable references exactly for the flag and for hints that allow null. -/
def IsMarked (below : Below) : Prop :=
  ∀ hint flag session ref after, (below hint flag).run session = (.ok ref, after) →
    (ref.nullable = true ↔ flag = true ∨ hint.AllowsNull)

/-- A union of one other member is read as that member, and any other one is not supported.
Either way the flag is set when None belongs to it. -/
theorem layer_union {declaration : Hint} {style : UnionStyle} {members : List Hint}
    (union : declaration.unwrap.1 = .union style members) (flag : Bool) :
    c.layer inside below declaration flag =
      match members.filter (!·.isNoneType) with
      | [only] => inside only (flag || members.any Hint.isNoneType)
      | _ => c.unsupported (.union style members) (flag || members.any Hint.isNoneType) := by
  have hlayer := layer.eq_def c inside below declaration flag
  rw [union] at hlayer
  rw [Hint.any_isNoneType_eq]
  exact hlayer

/-- Without a union the flag is put on the reference that is made. -/
theorem marks_layer {declaration : Hint}
    (other : ∀ style members, declaration.unwrap.1 ≠ .union style members) :
    Marks flag (c.layer inside below declaration flag) := by
  rw [layer.eq_def]
  dsimp only
  split
  · exact absurd ‹_› (other _ _)
  · split
    · exact marks_pure rfl
    · split
      · exact marks_fail _
      · split
        · exact marks_bind fun _ => marks_pure rfl
        · split
          · exact marks_bind fun _ => marks_bind fun _ => marks_pure rfl
          · exact marks_namedRef _

/-- One layer marks its references when the reading inside hints does. -/
theorem isMarked_layer (hinside : IsMarked inside) : IsMarked (c.layer inside below) := by
  intro declaration flag session ref after hrun
  rw [← Hint.allowsNull_unwrap]
  by_cases hunion : ∃ style members, declaration.unwrap.1 = .union style members
  · rcases hunion with ⟨style, members, union⟩
    rw [layer_union union] at hrun
    rw [union, Hint.allowsNull_union]
    split at hrun
    · rename_i only single
      rw [hinside only _ session ref after hrun, Bool.or_eq_true, or_assoc, single]
      simp
    · rename_i several
      rw [marks_unsupported _ _ _ _ hrun, Bool.or_eq_true]
      refine or_congr_right (or_iff_left ?_).symm
      rintro ⟨inner, single, -⟩
      exact several inner single
  · have hother : ∀ style members, declaration.unwrap.1 ≠ .union style members :=
      fun style members union => hunion ⟨style, members, union⟩
    rw [marks_layer hother _ _ _ hrun, or_iff_left (Hint.not_allowsNull_unwrap hother)]

/-- At any depth of hints inside one another references are marked. -/
theorem isMarked_within (depth : Nat) : IsMarked (c.within below depth) := by
  induction depth with
  | zero => exact nofun
  | succ depth ih => exact isMarked_layer ih

/-- With any budget, references are nullable exactly for the flag and for hints that allow
null. -/
theorem isMarked_reference (budget : Nat) : IsMarked (c.reference budget) := by
  cases budget with
  | zero => exact nofun
  | succ budget => exact fun hint => isMarked_within (hint.depth + 1) hint

/-! ## What the flag changes -/

section Flags

open Attempt (CarriedBy carriedBy_self)

/-- A reading with a flag does what the one without it does, and hands out the reference for a
use that may be null as well. -/
def IsFlagged (below : Below) : Prop :=
  ∀ hint flag, CarriedBy id (TypeRef.orNullable flag) id (below hint false) (below hint flag)

/-- The flag may come on top of another one. -/
theorem IsFlagged.or (h : IsFlagged below) (hint : Hint) (nullable flag : Bool) :
    CarriedBy id (TypeRef.orNullable flag) id (below hint nullable)
      (below hint (nullable || flag)) := by
  intro session
  have hfirst := h hint nullable session
  have hboth := h hint (nullable || flag) session
  rw [id, Attempt.mapError_id] at hfirst hboth ⊢
  rw [hboth, hfirst]
  rcases (below hint false).run session with ⟨_ | ref, after⟩
  · rfl
  · simp only [Except.map, id, TypeRef.orNullable_orNullable]

/-- The same step before two others does not tell them apart. -/
theorem carriedBy_bind {α : Type} {first : Step α} {next next' : α → Step TypeRef}
    (h : ∀ result, CarriedBy id (TypeRef.orNullable flag) id (next result) (next' result)) :
    CarriedBy id (TypeRef.orNullable flag) id (first >>= next) (first >>= next') :=
  (carriedBy_self first).bind fun result _ => h result

/-- A reference is remembered without its nullability. -/
theorem carriedBy_remembering (hint : Hint) (ref : TypeRef) :
    CarriedBy id (TypeRef.orNullable flag) id (Session.remembering hint ref)
      (Session.remembering hint (ref.orNullable flag) : Step TypeRef) := by
  intro session
  have hremember : session.remember hint (ref.orNullable flag) = session.remember hint ref := by
    rw [Session.remember, Session.remember, TypeRef.withNullable_orNullable]
  change (Except.ok (ref.orNullable flag), session.remember hint (ref.orNullable flag)) = _
  rw [hremember]
  rfl

/-- A named reference for a nullable use differs from the one without in its flag only. -/
theorem carriedBy_refer (nullable : Bool) (name : TypeId) (builder : Step (Option Node)) :
    CarriedBy id (TypeRef.orNullable flag) id (Session.refer hint name nullable builder)
      (Session.refer hint name (nullable || flag) builder) :=
  carriedBy_bind fun _ => carriedBy_remembering hint (.named name nullable)

/-- What is not supported is handed out alike for both uses, up to the flag. -/
theorem carriedBy_unsupported (hint : Hint) (nullable : Bool) :
    CarriedBy id (TypeRef.orNullable flag) id (c.unsupported hint nullable)
      (c.unsupported hint (nullable || flag)) := by
  rw [unsupported, unsupported]
  split
  · exact carriedBy_bind fun _ => carriedBy_bind fun _ => carriedBy_bind fun _ =>
      carriedBy_refer _ _ _
  · exact carriedBy_bind fun _ => carriedBy_bind fun _ => carriedBy_refer _ _ _

/-- A class is handed out alike for both uses, up to the flag. -/
theorem carriedBy_classRef (cls : ClassDecl) :
    CarriedBy id (TypeRef.orNullable flag) id (c.classRef below cls false)
      (c.classRef below cls flag) := by
  rw [classRef, classRef]
  split
  · exact carriedBy_bind fun _ => carriedBy_refer false _ _
  · split
    · exact carriedBy_bind fun _ => carriedBy_refer false _ _
    · split
      · exact carriedBy_bind fun _ => carriedBy_refer false _ _
      · exact carriedBy_unsupported _ false

/-- What a session keeps is handed out with the flag of the use. -/
theorem carriedBy_namedRef (hint : Hint) :
    CarriedBy id (TypeRef.orNullable flag) id (c.namedRef below hint false)
      (c.namedRef below hint flag) := by
  rw [namedRef.eq_def, namedRef.eq_def]
  refine carriedBy_bind fun session => ?_
  rw [Session.cached?, Session.cached?]
  cases session.refs.find? hint with
  | some kept =>
      refine Attempt.carriedBy_pure ?_
      cases kept <;> simp [TypeRef.orNullable, TypeRef.withNullable, TypeRef.nullable]
  | none =>
      rw [Option.map_none, Option.map_none]
      dsimp only
      split
      · split
        · exact carriedBy_classRef _
        · exact carriedBy_unsupported _ false
      · exact carriedBy_unsupported _ false

/-- One layer does the same for both uses when the reading inside hints does. -/
theorem isFlagged_layer (hinside : IsFlagged inside) : IsFlagged (c.layer inside below) := by
  intro declaration flag
  by_cases hunion : ∃ style members, declaration.unwrap.1 = .union style members
  · rcases hunion with ⟨style, members, union⟩
    rw [layer_union union, layer_union union, Bool.false_or, Bool.or_comm]
    split
    · exact hinside.or _ _ _
    · exact carriedBy_unsupported _ _
  · have hother : ∀ style members, declaration.unwrap.1 ≠ .union style members :=
      fun style members union => hunion ⟨style, members, union⟩
    rw [layer.eq_def, layer.eq_def]
    dsimp only
    split
    · exact absurd ‹_› (hother _ _)
    · split
      · exact Attempt.carriedBy_pure rfl
      · split
        · exact Attempt.carriedBy_fail rfl
        · split
          · exact carriedBy_bind fun _ => Attempt.carriedBy_pure rfl
          · split
            · exact carriedBy_bind fun _ => carriedBy_bind fun _ => Attempt.carriedBy_pure rfl
            · exact carriedBy_namedRef _

/-- At any depth of hints inside one another both uses do the same. -/
theorem isFlagged_within (depth : Nat) : IsFlagged (c.within below depth) := by
  induction depth with
  | zero => exact fun _ _ => Attempt.carriedBy_fail rfl
  | succ depth ih => exact isFlagged_layer ih

/-- With any budget, a reading with a flag does what the one without it does. -/
theorem isFlagged_reference (budget : Nat) : IsFlagged (c.reference budget) := by
  cases budget with
  | zero => exact fun _ _ => Attempt.carriedBy_fail rfl
  | succ budget => exact fun hint => isFlagged_within (hint.depth + 1) hint

end Flags

/-- A reading with a flag hands out the reference of the one without it, for a use that may be
null as well, and leaves the same session. -/
theorem run_reference (budget : Nat) (hint : Hint) (flag : Bool) (session : Session Hint Forms) :
    (c.reference budget hint flag).run session =
      (((c.reference budget hint false).run session).1.map (TypeRef.orNullable flag),
        ((c.reference budget hint false).run session).2) := by
  have hflagged := isFlagged_reference (c := c) budget hint flag session
  rw [Attempt.mapError_id] at hflagged
  exact hflagged

/-- Flags do not show in what a reading leaves. -/
theorem snd_run_below (hint : Hint) (flag : Bool) (session : Session Hint Forms) :
    ((c.below hint flag).run session).2 = ((c.below hint false).run session).2 := by
  rw [below, run_reference]

/-- Nor do they show in what readings leave one after the other. -/
theorem sessionAfter_eq_of_hints (memory : Forms) {readings others : List (Hint × Bool)}
    (same : readings.map Prod.fst = others.map Prod.fst) :
    c.sessionAfter memory readings = c.sessionAfter memory others := by
  rw [sessionAfter, sessionAfter]
  generalize ({ memory } : Session Hint Forms) = session
  induction readings generalizing others session with
  | nil => rw [List.map_eq_nil_iff.mp same.symm]
  | cons reading readings ih =>
      rcases List.map_eq_cons_iff.mp same.symm with ⟨other, rest, rfl, hhint, hrest⟩
      rw [List.foldl_cons, List.foldl_cons, snd_run_below, hhint, ← snd_run_below _ other.2]
      exact ih hrest.symm _

/-! ## Wrapped hints -/

/-- A layer asks only for the hints inside, and for the text that stands for arguments that are
not given. -/
theorem layer_congr {inside' : Below} {declaration : Hint}
    (smaller : ∀ inner, inner.depth < declaration.depth → inside inner = inside' inner)
    (str : inside .str = inside' .str) :
    c.layer inside below declaration = c.layer inside' below declaration := by
  have hdepth := depth_unwrap_le declaration
  funext flag
  by_cases hunion : ∃ style members, declaration.unwrap.1 = .union style members
  · rcases hunion with ⟨style, members, union⟩
    rw [layer_union union, layer_union union]
    split
    · rename_i only single
      have hmem : only ∈ members := (List.mem_filter.mp (single ▸ List.mem_singleton.mpr rfl)).1
      have honly := depth_le_depths hmem
      rw [union, Hint.depth] at hdepth
      rw [smaller only (by omega)]
    · rfl
  · have hother : ∀ style members, declaration.unwrap.1 ≠ .union style members :=
      fun style members union => hunion ⟨style, members, union⟩
    have hargs : ∀ argument ∈ declaration.unwrap.1.arguments, inside argument = inside' argument :=
      fun argument mem => smaller argument
        (Nat.lt_of_lt_of_le (depth_lt_of_mem_arguments mem) hdepth)
    rw [layer.eq_def, layer.eq_def]
    generalize declaration.unwrap.1 = hint at hother hargs
    have hfirst : inside (hint.arguments.headD .str) = inside' (hint.arguments.headD .str) := by
      rcases harguments : hint.arguments with _ | ⟨first, rest⟩
      · exact str
      · exact hargs first (by simp [harguments])
    dsimp only
    split
    · exact absurd rfl (hother _ _)
    · rw [hfirst]
      split
      · rfl
      · split
        · rfl
        · split
          · rfl
          · split
            · split
              · rename_i key value harguments
                rw [hargs key (by simp [harguments]), hargs value (by simp [harguments])]
              · rw [str]
            · rfl

/-- A text is read without a look inside. -/
theorem within_str (depth : Nat) :
    c.within below (depth + 1) .str = fun flag => pure (.inline (.primitive .string none) flag) :=
  rfl

/-- How deep a hint may be read does not show when it can be read down to its classes. -/
theorem within_eq {depth deeper : Nat} (fits : hint.depth < depth) (fits' : hint.depth < deeper) :
    c.within below depth hint = c.within below deeper hint := by
  induction depth generalizing deeper hint with
  | zero => omega
  | succ depth ih =>
      cases deeper with
      | zero => omega
      | succ deeper =>
          have hpos := depth_pos hint
          rw [within, within]
          refine layer_congr (fun inner less => ih (by omega) (by omega)) ?_
          obtain ⟨depth, rfl⟩ := Nat.exists_eq_succ_of_ne_zero (n := depth) (by omega)
          obtain ⟨deeper, rfl⟩ := Nat.exists_eq_succ_of_ne_zero (n := deeper) (by omega)
          rw [within_str, within_str]

/-- Annotations do not show in what is read. -/
theorem reference_annotated (budget : Nat) (base : Hint) (annotations : List Annotation) :
    c.reference budget (.annotated base annotations) = c.reference budget base := by
  cases budget with
  | zero => rfl
  | succ budget =>
      have hlayer (inside : Below) : c.layer inside (c.reference budget) (.annotated base annotations) =
          c.layer inside (c.reference budget) base := by
        funext flag
        rw [layer.eq_def, layer.eq_def, Hint.unwrap]
      calc c.within (c.reference budget) (base.depth + 1 + 1) (.annotated base annotations)
        _ = c.within (c.reference budget) (base.depth + 1 + 1) base := hlayer _
        _ = c.within (c.reference budget) (base.depth + 1) base :=
          within_eq (by omega) (by omega)

/-- A union of one other member is read as that member. -/
theorem reference_union {style : UnionStyle} {members : List Hint}
    (single : members.filter (!·.isNoneType) = [hint]) (budget : Nat) (flag : Bool) :
    c.reference budget (.union style members) flag =
      c.reference budget hint (flag || members.any Hint.isNoneType) := by
  cases budget with
  | zero => rfl
  | succ budget =>
      have hmem : hint ∈ members := (List.mem_filter.mp (single ▸ List.mem_singleton.mpr rfl)).1
      have hdepth := depth_le_depths hmem
      change c.layer (c.within (c.reference budget) (Hint.depths members + 1)) (c.reference budget)
        (.union style members) flag = _
      rw [layer_union rfl, single]
      dsimp only
      rw [within_eq (Nat.lt_succ_of_le hdepth) (Nat.lt_succ_self hint.depth)]
      rfl

/-- A wrapped hint is read as the hint inside, for a use that may be null when it is wrapped in
a union that None belongs to. -/
theorem reference_of_wraps {inner : Hint} {allows : Bool} (h : hint.Wraps allows inner)
    (budget : Nat) (flag : Bool) :
    c.reference budget hint flag = c.reference budget inner (flag || allows) := by
  induction h generalizing flag with
  | self => rw [Bool.or_false]
  | annotated _ ih => rw [reference_annotated, ih]
  | only single _ ih => rw [reference_union single, ih, Bool.or_assoc]

/-! ## Any session -/

/-- In whatever session a hint is read, the reference that comes out is nullable exactly when
the flag is set or the hint allows null.  With another flag the session is left the same and
the reference differs in its nullability alone, and a wrapped hint is read as the hint inside.
So the flags of the readings before do not show at all. -/
theorem nullable_belongs_to_use (c : DeclarationIntrospection) (budget : Nat) (hint : Hint)
    (flag : Bool) (session : Session Hint Forms) :
    (∀ ref after, (c.reference budget hint flag).run session = (.ok ref, after) →
      (ref.nullable = true ↔ flag = true ∨ hint.AllowsNull)) ∧
    (c.reference budget hint flag).run session =
      (((c.reference budget hint false).run session).1.map (TypeRef.orNullable flag),
        ((c.reference budget hint false).run session).2) ∧
    (∀ inner allows, hint.Wraps allows inner →
      c.reference budget hint flag = c.reference budget inner (flag || allows)) ∧
    ∀ memory readings others, readings.map Prod.fst = others.map Prod.fst →
      c.sessionAfter memory readings = c.sessionAfter memory others :=
  ⟨isMarked_reference budget hint flag session, run_reference budget hint flag session,
    fun _ _ h => reference_of_wraps h budget flag,
    fun memory _ _ same => sessionAfter_eq_of_hints memory same⟩

/-- A class that was read without the flag before is nullable inside a union with None. -/
theorem optionalItem_nullable :
    let hint := Hint.annotated (.union .bars [.declared "a", Hint.noneType]) [.marker "An item"]
    let session := crowdedItems.sessionAfter {} [(.declared "a", false)]
    ∃ after, (crowdedItems.below hint false).run session = (.ok (.named "Item" true), after) ∧
      (crowdedItems.below (.declared "a") false).run session = (.ok (.named "Item" false), after) ∧
      hint.AllowsNull ∧ ¬ (Hint.declared "a").AllowsNull := by
  intro hint session
  have hread := nullable_belongs_to_use crowdedItems crowdedItems.budget hint false session
  have hbare := nullable_belongs_to_use crowdedItems crowdedItems.budget (.declared "a") false session
  have hrun : (crowdedItems.below hint false).run session = (.ok (.named "Item" true), _) := rfl
  have hother : (crowdedItems.below (.declared "a") false).run session =
      (.ok (.named "Item" false), _) := rfl
  refine ⟨_, hrun, hother, ?_, fun h => ?_⟩
  · exact ((hread.1 _ _ hrun).mp rfl).resolve_left Bool.false_ne_true
  · exact absurd ((hbare.1 _ _ hother).mpr (Or.inr h)) Bool.false_ne_true

end DeclarationIntrospection

end Schemata
