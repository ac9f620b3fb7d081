import Schemata.Declaration.Introspection
import Schemata.Proofs.Introspection.Steps

/-!
# The graphs of declarations

Classes refer to one another in any way, but a class has its slot before its body is read,
so every class that is read inside others leaves one class less to read.  A hint is read
down to its classes in as many steps as it holds hints inside one another.  So the budgets
of an introspection are never what it fails for.

Main results:

- Theorem {lit}`unread_reserve_lt`: a class with a slot is not read again.
- Theorem {lit}`endsBelow_reference`: with a budget of more classes than are left to read,
  a reading ends.
- Theorem {lit}`introspections_isSound`: the introspection of a class, of a function and of
  a constructor ends, and any graph that comes out is complete.
-/

namespace Schemata

/-- Reading the annotations of the declared classes and functions comes to an end. -/
structure Declarations.AnnotationsEnd (ds : Declarations) : Prop where
  fields : ∀ cls ∈ ds.classes, ∀ field ∈ cls.fields,
    (ds.typeOf { module := cls.module, owner := some cls } field.hint).FailsOnly (· ≠ .endless)
  parameters : ∀ function ∈ ds.functions, ∀ parameter ∈ function.parameters,
    ∀ hint ∈ parameter.hint, (ds.typeOf { module := function.module } hint).FailsOnly (· ≠ .endless)

namespace DeclarationIntrospection

open Session (ReadsFrom Builds)

variable {c : DeclarationIntrospection} {inside below : Below}
variable {base session after : Session Hint Forms}

/-! ## Hints of declarations -/

/-- A class that is found is declared, under the key that it was looked up by. -/
theorem class?_mem {key : String} {cls : ClassDecl} (found : c.declarations.class? key = some cls) :
    cls ∈ c.declarations.classes ∧ cls.key = key := by
  rw [Declarations.class?] at found
  have hkey := List.find?_some found
  exact ⟨List.mem_of_find?_eq_some found, by simpa using hkey⟩

/-- Reading the hints of a class fails only in ways that come to an end. -/
theorem failsOnly_hints (ends : c.declarations.AnnotationsEnd) (key : String) :
    (c.declarations.hints key).FailsOnly (· ≠ .endless) := by
  rw [Declarations.hints]
  refine .foldlM fun cls mem table => ?_
  have hclass : cls ∈ c.declarations.classes := by
    rw [List.mem_reverse, Declarations.lineage, List.mem_filterMap] at mem
    rcases mem with ⟨ancestor, -, found⟩
    cases ancestor with
    | declared name => exact (class?_mem found).1
    | foreign name => cases found
  rw [Declarations.ownHints]
  refine .foldlM fun entry mem table => ?_
  rcases Table.value_of_mem_ofEntries mem with ⟨written, hwritten, hvalue⟩
  rcases List.mem_map.mp hwritten with ⟨field, hfield, rfl⟩
  rw [← hvalue]
  exact (ends.fields cls hclass field hfield).bind fun _ => Attempt.failsOnly_pure _

/-- Reading the hints of a function fails only in ways that come to an end. -/
theorem failsOnly_functionHints (ends : c.declarations.AnnotationsEnd) {function : FunctionDecl}
    (mem : function ∈ c.declarations.functions) :
    (c.functionHints function).FailsOnly (· ≠ .endless) := by
  rw [functionHints]
  refine .foldlM fun parameter hparameter table => ?_
  split
  · rename_i hint hhint
    exact (ends.parameters function mem parameter hparameter hint hhint).bind fun _ =>
      Attempt.failsOnly_pure _
  · exact Attempt.failsOnly_pure _

/-! ## Classes that are left to read -/

/-- Whether a class has a slot. -/
def hasSlot (session : Session Hint Forms) (cls : ClassDecl) : Bool :=
  (session.ids.find? (.declared cls.key)).any session.slots.has

/-- How many declared classes have no slot. -/
def unread (c : DeclarationIntrospection) (session : Session Hint Forms) : Nat :=
  (c.declarations.classes.filter fun cls => !hasSlot session cls).length

/-- A class has a slot when the identifier that it owns has one. -/
theorem hasSlot_iff {cls : ClassDecl} :
    hasSlot session cls = true ↔
      ∃ id, session.ids.find? (.declared cls.key) = some id ∧ id ∈ session.slots.keys := by
  simp [hasSlot, Option.any_eq_true, Table.has_iff_mem_keys]

/-- A class that has a slot keeps it. -/
theorem hasSlot_of_extends {cls : ClassDecl} (grows : session.Extends after)
    (h : hasSlot session cls = true) : hasSlot after cls = true := by
  rcases hasSlot_iff.mp h with ⟨id, hid, hslot⟩
  exact hasSlot_iff.mpr ⟨id, grows.ids _ id hid, grows.keys hslot⟩

/-- A later session leaves no more classes to read. -/
theorem unread_le (grows : session.Extends after) : c.unread after ≤ c.unread session := by
  rw [unread, unread, ← List.countP_eq_length_filter, ← List.countP_eq_length_filter]
  refine List.countP_mono_left fun cls _ hnew => ?_
  rw [Bool.not_eq_true', ← Bool.not_eq_true] at hnew ⊢
  exact fun hold => hnew (hasSlot_of_extends grows hold)

/-- A class whose slot is reserved is not left to read. -/
theorem unread_reserve_lt {cls : ClassDecl} {id : TypeId} (mem : cls ∈ c.declarations.classes)
    (owns : session.ids.find? (.declared cls.key) = some id) (outside : id ∉ session.slots.keys) :
    c.unread (session.reserve id) < c.unread session := by
  have hkeep : ∀ other, hasSlot session other = true → hasSlot (session.reserve id) other = true := by
    intro other h
    rcases hasSlot_iff.mp h with ⟨name, hname, hslot⟩
    exact hasSlot_iff.mpr ⟨name, hname, Session.mem_keys_reserve.mpr (Or.inr hslot)⟩
  have hold : hasSlot session cls = false := by
    rw [← Bool.not_eq_true, hasSlot_iff]
    rintro ⟨name, hname, hslot⟩
    rw [owns] at hname
    cases hname
    exact outside hslot
  have hnew : hasSlot (session.reserve id) cls = true :=
    hasSlot_iff.mpr ⟨id, owns, Session.mem_keys_reserve.mpr (Or.inl rfl)⟩
  have hsplit : (c.declarations.classes.filter fun cls => !hasSlot (session.reserve id) cls) =
      (c.declarations.classes.filter fun cls => !hasSlot session cls).filter
        fun cls => !hasSlot (session.reserve id) cls := by
    rw [List.filter_filter]
    refine List.filter_congr fun other _ => ?_
    by_cases h : hasSlot session other = true
    · simp [h, hkeep other h]
    · simp [h]
  rw [unread, unread, hsplit, List.length_filter_lt_length_iff_exists]
  exact ⟨cls, List.mem_filter.mpr ⟨mem, by simp [hold]⟩, by simp [hnew]⟩

/-! ## Readings that end -/

/-- From any session that extends a given one, a reading hands out a reference, or fails
for another reason than its budget. -/
def Ends (base : Session Hint Forms) (below : Below) : Prop :=
  ∀ hint nullable, ReadsFrom False (· ≠ .endless) base (fun ref => [ref]) (below hint nullable)

/-- A reading ends while less than a number of classes is left to read. -/
def EndsBelow (c : DeclarationIntrospection) (count : Nat) (below : Below) : Prop :=
  ∀ base, c.unread base < count → Ends base below

theorem readsFrom_describe (annotations : List Annotation) :
    ReadsFrom False (· ≠ .endless) base (fun _ => []) (c.describe annotations) := by
  refine Session.readsFrom_ofExcept fun error herror => ?_
  cases c.settings.describe_eq_error herror <;> simp

/-- The hints of a declaration are read beside the session and name no reference. -/
theorem readsFrom_hints {step : Attempt Forms (Table String Hint)}
    (ends : step.FailsOnly (· ≠ .endless)) :
    ReadsFrom False (· ≠ .endless) base (fun _ => []) (Session.onMemory step) :=
  fun _ _ sound => Session.Reads.onMemory sound ends

/-- A class owns its identifier from then on. -/
theorem meets_typeId (sound : session.IsSound) (cls : ClassDecl) :
    (c.typeId cls).Meets session (fun id after => session.Reads False [] after ∧
      after.ids.find? (.declared cls.key) = some id) fun error _ => error ≠ .endless := by
  rw [typeId, Attempt.meets_bind, Attempt.meets_get]
  split
  · rename_i id owned
    exact ⟨.refl sound, owned⟩
  · rename_i new
    refine (Session.Reads.claim False sound new (by simp) ..).imp ?_
    rintro id after ⟨hreads, hids⟩
    refine ⟨hreads, ?_⟩
    have hself : (Hint.declared cls.key == Hint.declared cls.key) = true := by
      change Hint.same _ _ = true
      simp [Hint.same]
    simp [hids, Table.find?_append, new, Table.find?_cons, hself]

/-- An identifier is given without a reference. -/
theorem readsFrom_hintId (hint : Hint) :
    ReadsFrom False (· ≠ .endless) base (fun _ => []) (c.hintId hint) := by
  intro session later sound
  rw [hintId, Attempt.meets_bind, Attempt.meets_get]
  split
  · exact .refl sound
  · rename_i new
    exact (Session.Reads.claim False sound new (by simp) ..).imp fun _ _ h => h.1

/-- What is not supported is read into the reference that is handed out for it. -/
theorem readsFrom_unsupported (hint : Hint) (nullable : Bool) :
    ReadsFrom False (· ≠ .endless) base (fun ref => [ref]) (c.unsupported hint nullable) := by
  rw [unsupported]
  split
  · intro session later sound
    simp
  · refine .prepend (readsFrom_hintId hint) fun id => .prepend (Session.readsFrom_report _) fun _ => ?_
    intro session later sound
    refine Session.Reads.refer sound (fun outside => ?_) hint nullable
    exact ⟨_, rfl, trivial, .refl (sound.reserve outside)⟩

/-! ## Nodes of classes -/

/-- The property of a field reads the reference in it. -/
theorem readsFrom_fieldProperty (hbelow : Ends base below) (cls : ClassDecl)
    (hints : Table String Hint) (field : Field) :
    ReadsFrom False (· ≠ .endless) base (fun property => [property.type])
      (c.fieldProperty below cls hints field) := by
  refine .prepend (readsFrom_describe _) fun description => ?_
  intro session later sound
  exact (hbelow _ _ session later sound).bind fun _ _ h => h

/-- The property of an annotated attribute reads the reference in it. -/
theorem readsFrom_attributeProperty (hbelow : Ends base below) (cls : ClassDecl)
    (entry : String × Hint) :
    ReadsFrom False (· ≠ .endless) base (fun property => [property.type])
      (c.attributeProperty below cls entry) :=
  .followed (hbelow entry.2 false) (readsFrom_describe _) fun _ _ => rfl

/-- The property of a parameter reads the reference in it. -/
theorem readsFrom_parameterProperty (hbelow : Ends base below) (hints : Table String Hint)
    (parameter : Parameter) :
    ReadsFrom False (· ≠ .endless) base (fun property => [property.type])
      (c.parameterProperty below hints parameter) :=
  .followed (hbelow _ false) (readsFrom_describe _) fun _ _ => rfl

/-- The properties of a class read the references in them. -/
theorem readsFrom_classProperties (ends : c.declarations.AnnotationsEnd) (hbelow : Ends base below)
    (cls : ClassDecl) :
    ReadsFrom False (· ≠ .endless) base (List.flatMap fun property => [property.type])
      (c.classProperties below cls) := by
  refine .prepend (readsFrom_hints (failsOnly_hints ends cls.key)) fun hints => ?_
  split
  · exact .mapEach fun field _ => readsFrom_fieldProperty hbelow cls hints field
  · exact .mapEach fun entry _ => readsFrom_attributeProperty hbelow cls entry

/-- The tag of a subclass, if it has one, reads the reference in it. -/
theorem readsFrom_tag (cls : ClassDecl) (id : TypeId) :
    ReadsFrom False (· ≠ .endless) base
      (fun tag => tag.toList.map (·.type)) (c.tag? cls id) := by
  intro session later sound
  rw [tag?]
  split
  · exact .refl sound
  · split
    · simp
    · exact .known sound (session.accepts_primitive _ _ _)

/-- Some properties of the class may give way to the tag. -/
theorem builds_object (ends : c.declarations.AnnotationsEnd) (hbelow : Ends session below)
    (cls : ClassDecl) (id : TypeId) (sound : session.IsSound) :
    Builds False (· ≠ .endless) session (c.objectNode below cls id) := by
  rw [Builds, objectNode]
  refine (readsFrom_tag cls id session (.refl session) sound).bind fun tag first htag => ?_
  refine (readsFrom_classProperties ends hbelow cls first htag.grows htag.sound).bind
    fun properties second hproperties => ?_
  have hread := htag.append hproperties
  refine (readsFrom_describe _ second hread.grows hread.sound).bind fun description last hlast => ?_
  refine ⟨_, rfl, trivial, (hread.append hlast).compose ?_ (fun h => h.elim)⟩
  intro ref mem
  refine (hread.append hlast).accepts ref ?_
  rw [List.append_nil, ← List.map_eq_flatMap]
  rcases List.mem_map.mp mem with ⟨property, hproperty, rfl⟩
  cases tag with
  | none => exact List.mem_append_right _ (List.mem_map_of_mem hproperty)
  | some tag =>
      rcases List.mem_cons.mp hproperty with rfl | hkept
      · exact List.mem_append_left _ (List.mem_singleton.mpr rfl)
      · exact List.mem_append_right _ (List.mem_map_of_mem (List.mem_filter.mp hkept).1)

/-- An enumeration is built without a reference. -/
theorem builds_enumeration (cls : ClassDecl) (sound : session.IsSound) :
    Builds False (· ≠ .endless) session (c.enumNode cls) := by
  rw [Builds, enumNode]
  exact (readsFrom_describe _ session (.refl session) sound).bind fun description after h =>
    ⟨_, rfl, trivial, h⟩

/-- A subtype is read into the reference to its identifier. -/
theorem readsFrom_subtype (hbelow : Ends base below) (key : String) :
    ReadsFrom False (· ≠ .endless) base (fun id => [.named id false]) (subtype below key) := by
  intro session later sound
  rw [subtype]
  refine (hbelow _ false session later sound).bind fun ref after h => ?_
  split
  · rename_i id named
    exact h.renull named
  · simp

/-- The node of a hierarchy reads the references to its subtypes. -/
theorem builds_polymorphic (hbelow : Ends session below) (cls : ClassDecl)
    (sound : session.IsSound) :
    Builds False (· ≠ .endless) session (c.polymorphicNode below cls) := by
  have hsubtypes : ReadsFrom False (· ≠ .endless) session (List.flatMap fun id => [.named id false])
      (Attempt.mapEach (c.declarations.subclasses cls.key) (subtype below)) :=
    .mapEach fun key _ => readsFrom_subtype hbelow key
  rw [Builds, polymorphicNode]
  refine (hsubtypes session (.refl session) sound).bind fun ids middle hids => ?_
  refine (readsFrom_describe _ middle hids.grows hids.sound).bind fun description after h => ?_
  refine ⟨_, rfl, ?_, ?_⟩
  · have hconsistent := Session.isConsistent_of_entries c.settings cls.name
      (ids.map fun id => (id, id)) description
    rw [List.map_map] at hconsistent
    exact hconsistent
  · rw [NodeOf.children, List.map_map, List.map_eq_flatMap]
    simpa using hids.append h

/-! ## References -/

variable {count : Nat}

/-- What reads one class less may be used for the body of a class. -/
theorem readsFrom_refer (hbelow : c.EndsBelow count below) (hcount : c.unread base ≤ count)
    {cls : ClassDecl} (mem : cls ∈ c.declarations.classes) (nullable : Bool)
    {builder : TypeId → Step (Option Node)}
    (hbuild : ∀ id session, Ends session below → session.IsSound →
      Builds False (· ≠ .endless) session (builder id)) :
    ReadsFrom False (· ≠ .endless) base (fun ref => [ref]) (do
      let id ← c.typeId cls
      Session.refer (.declared cls.key) id nullable (builder id)) := by
  intro session later sound
  refine (meets_typeId sound cls).bind ?_
  rintro id middle ⟨hquiet, owns⟩
  have hroom : c.unread middle ≤ c.unread base := unread_le (later.trans hquiet.grows)
  refine (Session.Reads.refer hquiet.sound (fun outside => ?_) _ nullable).imp
    fun ref after h => hquiet.append h
  have hless : c.unread (middle.reserve id) < c.unread middle := unread_reserve_lt mem owns outside
  exact hbuild id _ (hbelow _ (by omega)) (hquiet.sound.reserve outside)

/-- A class is read into its reference while the budget covers the classes that are left. -/
theorem readsFrom_classRef (ends : c.declarations.AnnotationsEnd)
    (hbelow : c.EndsBelow count below) (hcount : c.unread base ≤ count) {cls : ClassDecl}
    (mem : cls ∈ c.declarations.classes) (nullable : Bool) :
    ReadsFrom False (· ≠ .endless) base (fun ref => [ref]) (c.classRef below cls nullable) := by
  rw [classRef]
  split
  · exact readsFrom_refer hbelow hcount mem nullable fun _ _ _ sound => builds_enumeration cls sound
  · split
    · exact readsFrom_refer hbelow hcount mem nullable fun _ _ hends sound =>
        builds_polymorphic hends cls sound
    · split
      · exact readsFrom_refer hbelow hcount mem nullable fun id _ hends sound =>
          builds_object ends hends cls id sound
      · exact readsFrom_unsupported _ nullable

/-- A hint that becomes a node is read into its reference in the same way. -/
theorem readsFrom_namedRef (ends : c.declarations.AnnotationsEnd)
    (hbelow : c.EndsBelow count below) (hcount : c.unread base ≤ count) (hint : Hint)
    (nullable : Bool) :
    ReadsFrom False (· ≠ .endless) base (fun ref => [ref]) (c.namedRef below hint nullable) := by
  intro session later sound
  rw [namedRef.eq_def, Attempt.meets_bind, Attempt.meets_get]
  split
  · rename_i ref cached
    exact .cached sound cached
  · split
    · split
      · rename_i cls found
        exact readsFrom_classRef ends hbelow hcount (class?_mem found).1 nullable session later sound
      · exact readsFrom_unsupported _ nullable session later sound
    · exact readsFrom_unsupported _ nullable session later sound

/-! ## Hints inside one another -/

theorem depth_le_depths {hint : Hint} {hints : List Hint} (mem : hint ∈ hints) :
    hint.depth ≤ Hint.depths hints := by
  induction hints with
  | nil => cases mem
  | cons first rest ih =>
      rw [Hint.depths]
      rcases List.mem_cons.mp mem with rfl | mem
      · omega
      · have hrest := ih mem
        omega

theorem depth_pos (hint : Hint) : 0 < hint.depth := by
  cases hint <;> simp [Hint.depth]

/-- Taking annotations off makes no hint deeper. -/
theorem depth_unwrap_le (hint : Hint) : hint.unwrap.1.depth ≤ hint.depth := by
  fun_induction Hint.unwrap hint with
  | case1 base annotations hint inner hinner ih =>
      rw [hinner] at ih
      rw [Hint.depth]
      dsimp only at ih ⊢
      omega
  | case2 => exact Nat.le_refl _

/-- An argument is less deep than the hint it belongs to. -/
theorem depth_lt_of_mem_arguments {hint argument : Hint} (mem : argument ∈ hint.arguments) :
    argument.depth < hint.depth := by
  have hdepth := depth_le_depths mem
  cases hint with
  | foreignOf | aliasOf | declaredOf =>
      rw [Hint.depth]
      exact Nat.lt_succ_of_le hdepth
  | _ => cases mem

/-- One layer ends when the reading of the hints inside ends, and that of the text that
stands for arguments that are not given. -/
theorem readsFrom_layer (ends : c.declarations.AnnotationsEnd)
    (hbelow : c.EndsBelow count below) (hcount : c.unread base ≤ count) {declaration : Hint}
    (hinside : ∀ hint, hint.depth < declaration.depth ∨ hint = .str → ∀ nullable,
      ReadsFrom False (· ≠ .endless) base (fun ref => [ref]) (inside hint nullable))
    (nullable : Bool) :
    ReadsFrom False (· ≠ .endless) base (fun ref => [ref])
      (c.layer inside below declaration nullable) := by
  have hunwrap := depth_unwrap_le declaration
  rw [layer.eq_def]
  generalize declaration.unwrap.1 = hint at hunwrap
  have hargs : ∀ argument ∈ hint.arguments, argument.depth < declaration.depth := fun _ mem =>
    Nat.lt_of_lt_of_le (depth_lt_of_mem_arguments mem) hunwrap
  dsimp only
  split
  · rename_i style members
    split
    · rename_i only honly
      refine hinside only (Or.inl ?_) _
      have hmem : only ∈ members := (List.mem_filter.mp (honly ▸ List.mem_singleton.mpr rfl)).1
      have hdepth := depth_le_depths hmem
      rw [Hint.depth] at hunwrap
      omega
    · exact readsFrom_unsupported _ _
  · split
    · intro session later sound
      exact .known sound (session.accepts_primitive _ _ _)
    · split
      · intro session later sound
        simp
      · split
        · have hargument : (hint.arguments.headD .str).depth < declaration.depth ∨
              hint.arguments.headD .str = .str := by
            rcases harguments : hint.arguments with _ | ⟨first, rest⟩
            · exact Or.inr rfl
            · exact Or.inl (hargs first (by simp [harguments]))
          exact .list (hinside _ hargument false) Session.handsOn_pure nullable
        · split
          · refine .map (hinside _ ?_ false) (hinside _ ?_ false) Session.handsOn_pure nullable
            · split
              · rename_i key value harguments
                exact Or.inl (hargs key (by simp [harguments]))
              · exact Or.inr rfl
            · split
              · rename_i key value harguments
                exact Or.inl (hargs value (by simp [harguments]))
              · exact Or.inr rfl
          · exact readsFrom_namedRef ends hbelow hcount hint nullable

/-- A hint is read down to its classes in as many steps as it holds hints inside one
another. -/
theorem readsFrom_within (ends : c.declarations.AnnotationsEnd)
    (hbelow : c.EndsBelow count below) (hcount : c.unread base ≤ count) (depth : Nat) (hint : Hint)
    (hdepth : hint.depth < depth ∨ hint = .str ∧ 0 < depth) (nullable : Bool) :
    ReadsFrom False (· ≠ .endless) base (fun ref => [ref]) (c.within below depth hint nullable) := by
  induction depth generalizing hint nullable with
  | zero => omega
  | succ depth ih =>
      rw [within]
      rcases hdepth with hdepth | ⟨rfl, -⟩
      · refine readsFrom_layer ends hbelow hcount (fun inner hinner other => ih inner ?_ other) nullable
        rcases hinner with hless | rfl
        · exact Or.inl (by omega)
        · refine Or.inr ⟨rfl, ?_⟩
          have hpositive := depth_pos hint
          omega
      · intro session later sound
        exact .known sound (session.accepts_primitive _ _ _)

/-- With a budget of more classes than are left to read, a reading ends. -/
theorem endsBelow_reference (ends : c.declarations.AnnotationsEnd) (budget : Nat) :
    c.EndsBelow budget (c.reference budget) := by
  induction budget with
  | zero => exact fun base hless => absurd hless (Nat.not_lt_zero _)
  | succ budget ih =>
      intro base hless hint nullable
      exact readsFrom_within ends ih (Nat.le_of_lt_succ hless) _ hint
        (Or.inl (Nat.lt_succ_self _)) nullable

/-- The budget of an introspection is enough for any hint. -/
theorem ends_below (ends : c.declarations.AnnotationsEnd) (base : Session Hint Forms) :
    Ends base c.below := by
  have hunread : c.unread base ≤ c.declarations.classes.length := List.length_filter_le ..
  exact endsBelow_reference ends c.budget base (Nat.lt_succ_of_le hunread)

/-! ## Functions -/

/-- The node of something called reads the references in the properties of its parameters. -/
theorem builds_callable (ends : c.declarations.AnnotationsEnd) (name : String)
    {hints : Attempt Forms (Table String Hint)} (hhints : hints.FailsOnly (· ≠ .endless))
    (parameters : List Parameter) (annotations : List Annotation) (doc : Option String)
    (sound : session.IsSound) :
    Builds False (· ≠ .endless) session
      (c.callableNode c.below name hints parameters annotations doc) := by
  have hproperties (table : Table String Hint) : ReadsFrom False (· ≠ .endless) session
      (List.flatMap fun property => [property.type])
      (Attempt.mapEach (parameters.filter isGiven) (c.parameterProperty c.below table)) :=
    .mapEach fun parameter _ => readsFrom_parameterProperty (ends_below ends session) table parameter
  rw [Builds, callableNode]
  refine (readsFrom_hints hhints session (.refl session) sound).bind fun table first hfirst => ?_
  refine (hproperties table first hfirst.grows hfirst.sound).bind
    fun properties second hsecond => ?_
  have hread := hfirst.append hsecond
  refine (readsFrom_describe annotations second hread.grows hread.sound).bind
    fun marked last hlast => ?_
  refine ⟨_, rfl, trivial, ?_⟩
  rw [NodeOf.children, List.map_eq_flatMap]
  have hall := hread.append hlast
  rw [List.nil_append, List.append_nil] at hall
  exact hall

/-- What is called owns its name before its parameters are read, so they may refer back to
it. -/
theorem meets_callableRef {memory : Forms} (hint : Hint) (name module : String)
    {node : Step (Option Node)}
    (hbuild : ∀ session : Session Hint Forms, session.IsSound →
      Builds False (· ≠ .endless) session node) :
    (c.callableRef hint name module node).Meets { memory }
      (fun ref after => ({ memory } : Session Hint Forms).Reads False [ref] after)
      fun error _ => error ≠ .endless := by
  rw [callableRef]
  refine (Session.Reads.claim False (Session.isSound_start memory) rfl (by simp) ..).bind ?_
  rintro id middle ⟨hquiet, -⟩
  refine (Session.Reads.register hquiet.sound (fun outside => ?_) false).bind
    fun _ after h => hquiet.append h
  exact hbuild _ (hquiet.sound.reserve outside)

end DeclarationIntrospection

/-- The introspection of a class or any other hint, of a function and of a constructor ends,
and any graph that comes out is complete. -/
theorem Declarations.introspections_isSound {ds : Declarations} (ends : ds.AnnotationsEnd)
    (settings : IntrospectionSettings) :
    (∀ hint, (ds.introspect settings hint).1.IsSound) ∧
    (∀ function ∈ ds.functions, (ds.introspectFunction settings function).1.IsSound) ∧
    ∀ cls, (ds.introspectConstructor settings cls).1.IsSound := by
  let c : DeclarationIntrospection := ⟨ds, settings⟩
  have hends : c.declarations.AnnotationsEnd := ends
  refine ⟨fun hint => ?_, fun function mem => ?_, fun cls => ?_⟩
  · exact Session.isSound_introspect (DeclarationIntrospection.ends_below hends _ hint false _
      (.refl _) (Session.isSound_start ds.forms))
  · rw [introspectFunction]
    split
    · exact ⟨by simp, by simp⟩
    · refine Session.isSound_introspect (DeclarationIntrospection.meets_callableRef _ _ _ ?_)
      exact fun session sound => DeclarationIntrospection.builds_callable hends _
        (DeclarationIntrospection.failsOnly_functionHints hends mem) _ _ _ sound
  · refine Session.isSound_introspect (DeclarationIntrospection.meets_callableRef _ _ _ ?_)
    exact fun session sound => DeclarationIntrospection.builds_callable hends _
      (DeclarationIntrospection.failsOnly_hints hends cls.key) _ _ _ sound

/-- A hierarchy whose subclass holds a list of the root and itself, and a function that
takes the subclass. -/
def linkedShapes : Declarations where
  classes := [
    { key := "Shape", name := "Shape", qualname := "Shape", kind := .plain },
    { key := "Group", name := "Group", qualname := "Group", kind := .record, bases := ["Shape"]
      fields := [
        { name := "parts", hint := .foreignOf "builtins" "list" [.declared "Shape"] },
        { name := "next", hint := .aliasOf "Set" [.declared "Group"] }] }]
  functions := [
    { key := "draw", name := "draw", qualname := "draw"
      parameters := [{ name := "group", hint := some (.declared "Group") }] }]

/-- Reading the annotations of the linked shapes comes to an end. -/
theorem linkedShapes_annotationsEnd : linkedShapes.AnnotationsEnd := by
  constructor
  · intro cls hcls field hfield
    simp only [linkedShapes, List.mem_cons, List.not_mem_nil, or_false] at hcls
    rcases hcls with rfl | rfl
    · cases hfield
    · simp only [List.mem_cons, List.not_mem_nil, or_false] at hfield
      rcases hfield with rfl | rfl
      · exact fun _ => trivial
      · exact fun _ => trivial
  · intro function hfunction parameter hparameter hint hhint
    simp only [linkedShapes, List.mem_singleton] at hfunction
    subst hfunction
    rw [List.mem_singleton.mp hparameter] at hhint
    cases hhint
    exact fun _ => trivial

/-- Its introspections are sound, and the one of the root gives a graph of the hierarchy. -/
theorem linkedShapes_isSound :
    linkedShapes.AnnotationsEnd ∧
    (linkedShapes.introspect {} (.declared "Shape")).1.graph.toOption.map (·.nodes.keys) =
      some ["Shape", "Shape.Group"] ∧
    (∀ hint, (linkedShapes.introspect {} hint).1.IsSound) ∧
    (∀ function ∈ linkedShapes.functions, (linkedShapes.introspectFunction {} function).1.IsSound) ∧
    ∀ cls, (linkedShapes.introspectConstructor {} cls).1.IsSound := by
  refine ⟨linkedShapes_annotationsEnd, ?_, ?_⟩
  · decide +kernel
  · exact Declarations.introspections_isSound linkedShapes_annotationsEnd {}

end Schemata
