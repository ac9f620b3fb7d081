import Schemata.Proofs.Declaration.Ownership

/-!
# What the nodes of declarations show

The node of a class shows the class: an enumeration its members, the root of a hierarchy
the identifiers that its direct subclasses own, any other class its properties, and a
subtype of a hierarchy begins with its own identifier as a tag.  A declaration of any
other kind becomes an empty object.

The reading of a hint keeps all sessions in order, so every slot is filled with a node that
shows the owner of its identifier.  As in the reading itself there are two loops: that of
hints inside one another and that of classes inside one another.

Main results:

- Definition {lit}`DeclarationIntrospection.Depicts`: the node of a declaration.
- Theorem {lit}`keepsAll_reference`: what the reading of any hint does to a session,
  whether it succeeds or fails.
- Theorem {lit}`BuiltFrom.depicts`: what was built from a declaration shows it.
-/

namespace Schemata

namespace Hint

/-- What is left of a hint when annotations are taken off, and the union with an absent
value around a single member. -/
inductive StandsFor : Hint → Hint → Prop
  | plain {hint : Hint} (several : ∀ style members, hint.unwrap.1 = .union style members →
      ∀ only, members.filter (!·.isNoneType) ≠ [only]) : StandsFor hint hint.unwrap.1
  | optional {hint only target : Hint} {style : UnionStyle} {members : List Hint}
      (union : hint.unwrap.1 = .union style members)
      (single : members.filter (!·.isNoneType) = [only]) (rest : StandsFor only target) :
      StandsFor hint target

/-- A class stands for itself. -/
theorem standsFor_declared (key : String) : StandsFor (.declared key) (.declared key) :=
  have several : ∀ style members, (Hint.declared key).unwrap.1 = .union style members →
      ∀ only, members.filter (!·.isNoneType) ≠ [only] := by
    simp [unwrap]
  .plain several

end Hint

/-- The name of a property is a text. -/
def Property.HasText (property : Property TypeRef) : Prop :=
  ∃ text, property.name = .str text

/-- Properties that are named by texts keep that, and lose the name that is taken out. -/
theorem Property.name_of_mem_filter {own : List (Property TypeRef)} {property : Property TypeRef}
    {name : PropertyName} (texts : ∀ property ∈ own, property.HasText)
    (mem : property ∈ own.filter (·.name != name)) : property.HasText ∧ property.name ≠ name := by
  rcases List.mem_filter.mp mem with ⟨hown, hother⟩
  have htext := texts property hown
  refine ⟨htext, fun same => ?_⟩
  rcases htext with ⟨text, htext⟩
  rw [← same, htext, bne, Json.beq_text, beq_self_eq_true] at hother
  cases hother

namespace DeclarationIntrospection

/-- The properties of an object type and the names that it requires. -/
def objectType (name : String) (properties : List (Property TypeRef))
    (description : Option String) : ObjectType TypeRef :=
  { name, properties, required := (properties.filter (!·.hasDefault)).map (·.name), description }

variable (c : DeclarationIntrospection)

/-- The node of a declaration that owns an identifier, beside what others own. -/
inductive Depicts (ids : Table Hint TypeId) : Hint → TypeId → Node → Prop
  | enumeration {hint : Hint} {id : TypeId} {cls : ClassDecl} {description : Option String}
      (named : c.namedClass? hint = some cls) (kind : cls.kind = .enumeration) :
      Depicts ids hint id (.enumeration {
        name := cls.name, entries := (c.declarations.canonicalMembers cls).map (·.1), description })
  | hierarchy {hint : Hint} {id : TypeId} {cls : ClassDecl} {description : Option String}
      {subtypes : List TypeId} (named : c.namedClass? hint = some cls)
      (root : c.declarations.isHierarchyRoot cls = true)
      (owned : List.Forall₂ (fun key id => ids.find? (.declared key) = some id)
        (c.declarations.subclasses cls.key) subtypes) :
      Depicts ids hint id (.polymorphic {
        base := cls.name
        variants := subtypes.map fun id => ⟨id, .named id false⟩
        discriminator := some (c.settings.discriminator
          (Table.ofEntries (subtypes.map fun id => (id, id))))
        description })
  | subtype {hint : Hint} {id : TypeId} {cls : ClassDecl} {description : Option String}
      {own : List (Property TypeRef)} (named : c.namedClass? hint = some cls)
      (leaf : cls.kind ≠ .enumeration ∧ c.declarations.isHierarchyRoot cls = false)
      (below : (c.declarations.hierarchyParent? cls).isSome = true)
      (texts : ∀ property ∈ own, property.HasText) :
      Depicts ids hint id (.object (objectType cls.name
        (c.tagProperty id :: own.filter (·.name != c.settings.discriminatorProperty)) description))
  | alone {hint : Hint} {id : TypeId} {cls : ClassDecl} {description : Option String}
      {own : List (Property TypeRef)} (named : c.namedClass? hint = some cls)
      (leaf : cls.kind ≠ .enumeration ∧ c.declarations.isHierarchyRoot cls = false)
      (top : c.declarations.hierarchyParent? cls = none)
      (texts : ∀ property ∈ own, property.HasText) :
      Depicts ids hint id (.object (objectType cls.name own description))
  | unsupported {hint : Hint} {id : TypeId} (unnamed : c.namedClass? hint = none) :
      Depicts ids hint id (.object { name := id })

/-- What is left of a session's order after the reading of a hint: a named reference to a
class carries the identifier of the class. -/
def KeepsAll (below : Below) : Prop :=
  ∀ hint nullable session, IsOrdered session → c.Keeps session (below hint nullable)
    (fun ref after => ∀ target, hint.StandsFor target → NamesOwn target ref after.ids)

variable {c} {below inside : Below} {session : Session Hint Forms} {ids later : Table Hint TypeId}

theorem Depicts.mono {hint : Hint} {id : TypeId} {node : Node} (h : c.Depicts ids hint id node)
    (more : ids <+: later) : c.Depicts later hint id node := by
  cases h with
  | enumeration named kind => exact .enumeration named kind
  | hierarchy named root owned =>
      exact .hierarchy named root (owned.imp fun _ _ found => find?_of_isPrefix more found)
  | subtype named leaf below texts => exact .subtype named leaf below texts
  | alone named leaf top texts => exact .alone named leaf top texts
  | unsupported unnamed => exact .unsupported unnamed

/-! ## Nodes -/

/-- The identifier of a direct subclass is the one that it owns. -/
theorem keeps_subtype (hbelow : c.KeepsAll below) (ordered : IsOrdered session) (key : String) :
    c.Keeps session (subtype below key)
      (fun id after => after.ids.find? (.declared key) = some id) := by
  rw [subtype]
  refine (hbelow (.declared key) false session ordered).bind fun ref after hafter hown => ?_
  split
  · rename_i id named
    refine keeps_pure hafter.ordered ?_
    cases ref with
    | inline node nullable => cases named
    | named other nullable =>
        cases named
        exact hown _ (Hint.standsFor_declared key) rfl _ _ rfl
  · exact keeps_fail hafter.ordered _

/-- The builder for the root of a hierarchy gives a node that shows it. -/
theorem keeps_polymorphicNode (hbelow : c.KeepsAll below) (ordered : IsOrdered session)
    {hint : Hint} {id : TypeId} {cls : ClassDecl} (named : c.namedClass? hint = some cls)
    (root : c.declarations.isHierarchyRoot cls = true) :
    c.Keeps session (c.polymorphicNode below cls)
      (fun built after => ∀ node, built = some node → c.Depicts after.ids hint id node) := by
  rw [polymorphicNode]
  have hsubtypes : c.Keeps session
      (Attempt.mapEach (c.declarations.subclasses cls.key) (subtype below))
      (fun subtypes after => List.Forall₂ (fun key id => after.ids.find? (.declared key) = some id)
        (c.declarations.subclasses cls.key) subtypes) :=
    .mapEach (fun key id after => after.ids.find? (.declared key) = some id)
      (fun _ _ _ _ hfollows found => find?_of_isPrefix hfollows.grows.isPrefix found)
      (fun key _ session ordered => keeps_subtype hbelow ordered key) ordered
  refine hsubtypes.bind fun subtypes middle hmiddle howned => ?_
  refine (keeps_describe hmiddle.ordered _).bind fun description after hafter _ => ?_
  refine keeps_pure hafter.ordered ?_
  rintro _ ⟨⟩
  exact .hierarchy named root
    (howned.imp fun _ _ found => find?_of_isPrefix hafter.grows.isPrefix found)

/-- The builder for an enumeration gives a node that shows it. -/
theorem keeps_enumNode (ordered : IsOrdered session) {hint : Hint} {id : TypeId} {cls : ClassDecl}
    (named : c.namedClass? hint = some cls) (kind : cls.kind = .enumeration) :
    c.Keeps session (c.enumNode cls)
      (fun built after => ∀ node, built = some node → c.Depicts after.ids hint id node) := by
  rw [enumNode]
  refine (keeps_describe ordered _).bind fun description after hafter _ => ?_
  refine keeps_pure hafter.ordered ?_
  rintro _ ⟨⟩
  exact .enumeration named kind

/-- The property of a field has a text as its name. -/
theorem keeps_fieldProperty (hbelow : c.KeepsAll below) (ordered : IsOrdered session)
    (cls : ClassDecl) (hints : Table String Hint) (field : Field) :
    c.Keeps session (c.fieldProperty below cls hints field)
      (fun property _ => property.HasText) := by
  rw [fieldProperty]
  refine (keeps_describe ordered _).bind fun description middle hmiddle _ => ?_
  refine (hbelow _ false middle hmiddle.ordered).bind fun type after hafter _ => ?_
  exact keeps_pure hafter.ordered ⟨field.name, rfl⟩

/-- The property of an annotated attribute has a text as its name. -/
theorem keeps_attributeProperty (hbelow : c.KeepsAll below) (ordered : IsOrdered session)
    (cls : ClassDecl) (entry : String × Hint) :
    c.Keeps session (c.attributeProperty below cls entry)
      (fun property _ => property.HasText) := by
  rw [attributeProperty]
  refine (hbelow _ false session ordered).bind fun type middle hmiddle _ => ?_
  refine (keeps_describe hmiddle.ordered _).bind fun description after hafter _ => ?_
  exact keeps_pure hafter.ordered ⟨entry.1, rfl⟩

/-- Properties are named by texts when each of them is. -/
theorem keeps_properties {α : Type} {items : List α} {step : α → Step (Property TypeRef)}
    (h : ∀ item session, IsOrdered session →
      c.Keeps session (step item) (fun property _ => property.HasText))
    (ordered : IsOrdered session) :
    c.Keeps session (Attempt.mapEach items step)
      (fun properties _ => ∀ property ∈ properties, property.HasText) := by
  have heach : c.Keeps session (Attempt.mapEach items step)
      (fun properties _ => List.Forall₂ (fun _ property => property.HasText) items properties) :=
    .mapEach (fun _ (property : Property TypeRef) _ => property.HasText) (fun _ _ _ _ _ h => h)
      (fun item _ session ordered => h item session ordered) ordered
  refine heach.imp fun properties _ _ hall => ?_
  clear heach h
  induction hall with
  | nil => simp
  | cons hfirst _ ih => exact List.forall_mem_cons.mpr ⟨hfirst, ih⟩

/-- The properties that a class declares are named by texts. -/
theorem keeps_classProperties (hbelow : c.KeepsAll below) (ordered : IsOrdered session)
    (cls : ClassDecl) :
    c.Keeps session (c.classProperties below cls)
      (fun properties _ => ∀ property ∈ properties, property.HasText) := by
  rw [classProperties]
  refine (keeps_onMemory ordered _).bind fun hints middle hmiddle _ => ?_
  split
  · exact keeps_properties (fun field _ ordered => keeps_fieldProperty hbelow ordered cls hints field)
      hmiddle.ordered
  · exact keeps_properties (fun entry _ ordered => keeps_attributeProperty hbelow ordered cls entry)
      hmiddle.ordered

/-- The builder for a class that is neither an enumeration nor a root gives a node that shows it.
-/
theorem keeps_objectNode (hbelow : c.KeepsAll below) (ordered : IsOrdered session) {hint : Hint}
    {id : TypeId} {cls : ClassDecl} (named : c.namedClass? hint = some cls)
    (leaf : cls.kind ≠ .enumeration ∧ c.declarations.isHierarchyRoot cls = false) :
    c.Keeps session (c.objectNode below cls id)
      (fun built after => ∀ node, built = some node → c.Depicts after.ids hint id node) := by
  rw [objectNode, tag?]
  cases hparent : c.declarations.hierarchyParent? cls with
  | none =>
      refine keeps_pure_bind ?_
      refine (keeps_classProperties hbelow ordered cls).bind fun own middle hmiddle htexts => ?_
      refine (keeps_describe hmiddle.ordered _).bind fun description after hafter _ => ?_
      refine keeps_pure hafter.ordered ?_
      rintro _ ⟨⟩
      exact .alone named leaf hparent htexts
  | some parent =>
      rw [Option.isNone_some, if_neg Bool.false_ne_true]
      split
      · exact keeps_fail_bind ordered _
      · refine keeps_pure_bind ?_
        refine (keeps_classProperties hbelow ordered cls).bind fun own middle hmiddle htexts => ?_
        refine (keeps_describe hmiddle.ordered _).bind fun description after hafter _ => ?_
        refine keeps_pure hafter.ordered ?_
        rintro _ ⟨⟩
        exact .subtype named leaf (by rw [hparent]; rfl) htexts

/-- The builder of a declaration gives a node that shows it. -/
theorem keeps_nodeOf (hbelow : c.KeepsAll below) (ordered : IsOrdered session) (hint : Hint)
    (id : TypeId) :
    c.Keeps session (c.nodeOf below hint id)
      (fun built after => ∀ node, built = some node → c.Depicts after.ids hint id node) := by
  rw [nodeOf]
  cases named : c.namedClass? hint with
  | none =>
      refine keeps_pure ordered ?_
      rintro _ ⟨⟩
      exact .unsupported named
  | some cls =>
      dsimp only
      split
      · exact keeps_enumNode ordered named ‹_›
      · rename_i plain
        split
        · exact keeps_polymorphicNode hbelow ordered named ‹_›
        · exact keeps_objectNode hbelow ordered named ⟨plain, Bool.eq_false_iff.mpr ‹_›⟩

/-! ## References -/

variable {budget : Nat}

/-- A declaration that owns its identifier is built and referred to. -/
theorem keeps_ownedRef (hbelow : c.KeepsAll (c.reference budget)) (ordered : IsOrdered session)
    (hint : Hint) (nullable : Bool) :
    c.Keeps session (do
      let id ← c.ownId hint
      Session.refer hint id nullable (c.nodeOf (c.reference budget) hint id))
      (fun ref after => NamesOwn hint ref after.ids) := by
  refine (keeps_ownId ordered hint).bind fun id middle hmiddle howns => ?_
  refine keeps_refer hmiddle.ordered howns (fun session ordered => ?_) nullable
  exact (keeps_nodeOf hbelow ordered hint id).imp fun _ _ _ _ => trivial

/-- The reference to what is not supported names the hint itself. -/
theorem keeps_unsupported (hbelow : c.KeepsAll (c.reference budget)) (ordered : IsOrdered session)
    {hint : Hint} (unnamed : c.namedClass? hint = none) (nullable : Bool) :
    c.Keeps session (c.unsupported hint nullable) (fun ref after => NamesOwn hint ref after.ids) := by
  have hnode : ∀ id, c.nodeOf (c.reference budget) hint id = pure (some (.object { name := id })) := by
    intro id
    rw [nodeOf, unnamed]
  rw [unsupported, hintId_eq_ownId unnamed]
  split
  · exact keeps_fail_bind ordered _
  · refine (keeps_ownId ordered hint).bind fun id first hfirst howns => ?_
    refine (keeps_report hfirst.ordered _).bind fun _ middle hmiddle _ => ?_
    rw [← hnode]
    refine keeps_refer hmiddle.ordered (howns.mono hmiddle.grows.isPrefix) (fun session ordered => ?_)
      nullable
    exact (keeps_nodeOf hbelow ordered hint id).imp fun _ _ _ _ => trivial

/-- The reference to a class carries the identifier that the class owns. -/
theorem keeps_classRef (hbelow : c.KeepsAll (c.reference budget)) (ordered : IsOrdered session)
    {cls : ClassDecl} (found : c.declarations.class? cls.key = some cls) (nullable : Bool) :
    c.Keeps session (c.classRef (c.reference budget) cls nullable)
      (fun ref after => NamesOwn (.declared cls.key) ref after.ids) := by
  have hown := keeps_ownedRef hbelow ordered (.declared cls.key) nullable
  rw [classRef]
  by_cases kind : cls.kind = .enumeration
  · have named : (decide (cls.kind = .enumeration) || Declarations.isOwn cls) = true := by
      rw [decide_eq_true kind, Bool.true_or]
    rw [if_pos kind, typeId_eq_ownId found named]
    simp only [nodeOf, namedClass?_declared found named, if_pos kind] at hown
    exact hown
  · rw [if_neg kind]
    by_cases own : Declarations.isOwn cls = true
    · have named : (decide (cls.kind = .enumeration) || Declarations.isOwn cls) = true := by
        rw [own, Bool.or_true]
      rw [typeId_eq_ownId found named, if_pos own]
      simp only [nodeOf, namedClass?_declared found named, if_neg kind] at hown
      by_cases root : c.declarations.isHierarchyRoot cls = true
      · simp only [if_pos root] at hown
        rw [if_pos root]
        exact hown
      · simp only [if_neg root] at hown
        rw [if_neg root]
        exact hown
    · have root : ¬ c.declarations.isHierarchyRoot cls = true := by
        simp [Declarations.isHierarchyRoot, own]
      have unnamed : c.namedClass? (.declared cls.key) = none := by
        simp [namedClass?, found, kind, own]
      rw [if_neg root, if_neg own]
      exact keeps_unsupported hbelow ordered unnamed nullable

/-- The reference to a hint that becomes a node carries the identifier that the hint owns. -/
theorem keeps_namedRef (hbelow : c.KeepsAll (c.reference budget)) (ordered : IsOrdered session)
    (hint : Hint) (nullable : Bool) :
    c.Keeps session (c.namedRef (c.reference budget) hint nullable)
      (fun ref after => NamesOwn hint ref after.ids) := by
  rw [namedRef.eq_def]
  refine keeps_get_bind ?_
  split
  · rename_i ref cached
    refine keeps_pure ordered ?_
    rintro isClass id _ rfl
    rw [Session.cached?, Option.map_eq_some_iff] at cached
    rcases cached with ⟨kept, hfind, hkept⟩
    rcases Table.exists_key_of_find? hfind with ⟨known, same, mem⟩
    obtain rfl := Hint.eq_of_isClass isClass same
    rcases ordered.refs _ mem isClass with ⟨owned, href, hids⟩
    dsimp only at href hids
    subst href
    cases hkept
    exact hids
  · split
    · rename_i key
      split
      · rename_i cls found
        obtain rfl := (class?_mem found).2
        exact keeps_classRef hbelow ordered found nullable
      · rename_i unknown
        exact keeps_unsupported hbelow ordered (by rw [namedClass?, unknown]; rfl) nullable
    · rename_i undeclared
      refine keeps_unsupported hbelow ordered ?_ nullable
      cases hint with
      | declared key => exact absurd rfl (undeclared key)
      | _ => rfl

/-! ## Hints inside one another -/

/-- One layer keeps a session in order when the readings that it takes do. -/
theorem keeps_layer (hinside : c.KeepsAll inside) (hbelow : c.KeepsAll (c.reference budget)) :
    c.KeepsAll (c.layer inside (c.reference budget)) := by
  intro declaration nullable session ordered
  have hinline : ∀ (node : Node) (nullable : Bool) (after : Session Hint Forms) (target : Hint),
      NamesOwn target (.inline node nullable) after.ids := by
    rintro node nullable after target - _ _ ⟨⟩
  have htarget : ∀ {ref : TypeRef} {after : Session Hint Forms},
      (∀ style members, declaration.unwrap.1 = .union style members →
        ∀ only, members.filter (!·.isNoneType) ≠ [only]) →
      NamesOwn declaration.unwrap.1 ref after.ids →
      ∀ target, declaration.StandsFor target → NamesOwn target ref after.ids := by
    intro ref after several hown target hstands
    cases hstands with
    | plain _ => exact hown
    | optional union single rest => exact absurd single (several _ _ union _)
  rw [layer.eq_def]
  dsimp only
  split
  · rename_i style members hunion
    split
    · rename_i only honly
      refine (hinside only _ session ordered).imp fun ref after _ hown target hstands => ?_
      cases hstands with
      | plain several => exact absurd honly (several _ _ hunion only)
      | optional union single rest =>
          rw [hunion] at union
          cases union
          rw [honly] at single
          cases single
          exact hown _ rest
    · rename_i several
      have hunnamed : c.namedClass? (.union style members) = none := rfl
      rw [hunion]
      refine (keeps_unsupported hbelow ordered hunnamed _).imp fun ref after _ hown => ?_
      refine htarget ?_ (hunion ▸ hown)
      intro other members' hunion' only honly
      rw [hunion] at hunion'
      cases hunion'
      exact several only honly
  · rename_i plain
    have hplain : ∀ style members, declaration.unwrap.1 = .union style members →
        ∀ only, members.filter (!·.isNoneType) ≠ [only] :=
      fun style members hunion => absurd hunion (plain style members)
    split
    · exact keeps_pure ordered fun target _ => hinline _ _ _ target
    · split
      · exact keeps_fail ordered _
      · split
        · refine (hinside _ false session ordered).bind fun element after hafter _ => ?_
          exact keeps_pure hafter.ordered fun target _ => hinline _ _ _ target
        · split
          · refine (hinside _ false session ordered).bind fun key middle hmiddle _ => ?_
            refine (hinside _ false middle hmiddle.ordered).bind fun value after hafter _ => ?_
            exact keeps_pure hafter.ordered fun target _ => hinline _ _ _ target
          · exact (keeps_namedRef hbelow ordered _ nullable).imp fun ref after _ hown =>
              htarget hplain hown

/-- Hints inside one another are read in order when what is below them is. -/
theorem keeps_within (hbelow : c.KeepsAll (c.reference budget)) (depth : Nat) :
    c.KeepsAll (c.within (c.reference budget) depth) := by
  induction depth with
  | zero => exact fun _ _ _ ordered => keeps_fail ordered _
  | succ depth ih => exact keeps_layer ih hbelow

/-- The reading of any hint keeps a session in order, whatever its budget. -/
theorem keepsAll_reference (budget : Nat) : c.KeepsAll (c.reference budget) := by
  induction budget with
  | zero => exact fun _ _ _ ordered => keeps_fail ordered _
  | succ budget ih => exact fun hint => keeps_within ih (hint.depth + 1) hint

/-- The reading of an introspection is in order, whatever its budget. -/
theorem keepsAll_below : c.KeepsAll c.below :=
  keepsAll_reference c.budget

/-- What was built from a declaration shows it. -/
theorem BuiltFrom.depicts {hint : Hint} {id : TypeId} {node : Node}
    (h : c.BuiltFrom ids hint id node) : c.Depicts ids hint id node := by
  rcases h with ⟨budget, start, finish, ordered, hrun, more⟩
  exact ((keeps_nodeOf (keepsAll_reference budget) ordered hint id).of_ok hrun node rfl).mono more

end DeclarationIntrospection

end Schemata
