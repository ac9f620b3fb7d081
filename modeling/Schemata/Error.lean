import Schemata.Json.Parser
import Schemata.Text.Quoted

/-!
# Failures

Everything that can go wrong between a description of types and the text of its
schema, named by its cause.  The wording of a failure is a function of its cause.
-/

namespace Schemata

/-- The identifier of a named node in a type graph. -/
abbrev TypeId := String

/-- What makes the shape of a type graph illegal, or of the descriptors and
declarations that it is built from. -/
inductive GraphFault where
  /-- A node that needs an identifier stands where it is used. -/
  | inlinedNode (nodeType : String)
  /-- A conversion met a node that needs an identifier where it is used. -/
  | unsupportedInline (nodeType : String)
  /-- A conversion met a node of a type that it does not know. -/
  | unknownNode (nodeType : String)
  /-- The root of a tool schema has no identifier. -/
  | inlineToolRoot
  /-- The root of a tool schema is not an object. -/
  | toolRootNotObject (nodeType : String)
  /-- A list or map descriptor lacks elements. -/
  | missingElements (kind : String) (needed : Nat)
  /-- A sealed descriptor does not list its subtypes where they belong. -/
  | sealedLayout (found : Option String)
  /-- Another declaration holds the identifier. -/
  | identifierTaken (owner : String)
  /-- The source of a node reports a fault of its own. -/
  | reported (text : String)
deriving DecidableEq

/-- The wording of a fault without its place. -/
def GraphFault.message : GraphFault → String
  | .inlinedNode nodeType => s!"{nodeType} cannot be inlined; it must be referenced by id"
  | .unsupportedInline nodeType =>
    s!"Unsupported inline node {nodeType}; only primitive, list and map nodes can be inlined"
  | .unknownNode nodeType => s!"Unknown node type {nodeType}"
  | .inlineToolRoot =>
    "Function-calling root cannot be inline; expected a reference to an object node"
  | .toolRootNotObject nodeType =>
    s!"Function-calling root must be an object node, got {nodeType}"
  | .missingElements kind needed =>
    s!"{kind} descriptor needs at least {needed} element(s)"
  | .sealedLayout found =>
    let name := match found with
      | some name => quote name
      | none => "None"
    s!"Unexpected sealed descriptor structure: expected 'value' element at index 1, found {name}"
  | .identifierTaken owner => s!"Type id already used by {owner}"
  | .reported text => text

/-- Why a text or a JSON value is not a schema document. -/
inductive DecodeFault where
  | notJson (error : SyntaxError)
  | notObject (part typeName : String)
  | unnamedDocument
  | notToolDocument
deriving DecidableEq

/-- The wording of a decoding fault. -/
def DecodeFault.message : DecodeFault → String
  | .notJson error => s!"Invalid JSON: {error.message}"
  | .notObject part typeName => s!"Expected a JSON object for {part}, got {typeName}"
  | .unnamedDocument => "JSON schema document is missing 'name'"
  | .notToolDocument => "Function-calling document must have type 'function' and a name"

/-- The two kinds of documents that a type graph is turned into. -/
inductive Dialect where
  | jsonSchema
  | tool
deriving DecidableEq

/-- How messages name a dialect. -/
def Dialect.label : Dialect → String
  | .jsonSchema => "JSON schema"
  | .tool => "function-calling"

/-- A failure, by cause. -/
inductive Error where
  /-- A reference names an identifier that the graph does not hold. -/
  | dangling (id : TypeId) (referencedFrom : Option TypeId)
  /-- A graph, or what it is built from, has an illegal shape. -/
  | invalidGraph (fault : GraphFault) (typeId : Option TypeId)
  /-- A document cannot be decoded. -/
  | undecodable (fault : DecodeFault)
  /-- The text to be written is not JSON. -/
  | invalidOutput (error : SyntaxError)
  /-- No preset has the given name. -/
  | unknownPreset (dialect : Dialect) (name : String)
  /-- A function whose result is awaited has no tool schema. -/
  | awaitedFunction (name : String)
  /-- A value of the wrong type stands where items or members are looked for. -/
  | wrongType
  /-- A value lacks an attribute that it is asked for. -/
  | missingAttribute
  /-- A name in an annotation stands for nothing. -/
  | unresolvedName (name : String)
  /-- An enumeration has no member of a name. -/
  | unknownMember
  /-- An enumeration of a name has no member of a value. -/
  | invalidMember (value enumeration : String)
  /-- There is no value at a position. -/
  | missingItem
  /-- The text of an annotation is empty. -/
  | emptyText
  /-- The text of an annotation is no expression. -/
  | malformedText
  /-- Lists and maps of a graph contain one another without end. -/
  | endless
  /-- A settings file is not JSON. -/
  | unreadableSettings (error : SyntaxError)
  /-- The file to be written exists and may not be replaced. -/
  | outputExists (path : String)
  /-- A file stands where a folder is to be created. -/
  | placeTaken
  /-- A name on the way to a file leads to no folder. -/
  | noFolder
  /-- A folder stands where a file is to be read or written. -/
  | placeIsFolder
  /-- The system refuses a step. -/
  | refusedBySystem
  /-- A path has a zero character. -/
  | zeroInPath
  /-- A number of characters does not fit into a machine word. -/
  | uncountable
  /-- A text is larger than any memory. -/
  | outOfMemory
deriving DecidableEq

namespace Error

/-- The wording of a failure. -/
def message : Error → String
  | .dangling id referencedFrom =>
    let place := match referencedFrom with
      | some owner => if owner.isEmpty then "" else s!" (referenced from '{owner}')"
      | none => ""
    s!"Type graph references unknown type id '{id}'{place}"
  | .invalidGraph fault typeId =>
    match typeId with
    | some id => s!"{fault.message} (type id '{id}')"
    | none => fault.message
  | .undecodable fault => fault.message
  | .invalidOutput error => s!"Generated schema is not valid JSON: {error.message}"
  | .unknownPreset dialect name =>
    s!"Unknown {dialect.label} preset '{name}', expected one of ['default', 'simple', 'strict']"
  | .awaitedFunction name => s!"Coroutine functions are not supported: {name}"
  | .wrongType => "a value has the wrong type"
  | .missingAttribute => "a value lacks an attribute"
  | .unresolvedName name => s!"the name '{name}' is not defined"
  | .unknownMember => "an enumeration has no such member"
  | .invalidMember value enumeration => s!"{value} is not a valid {enumeration}"
  | .missingItem => "there is no value at a position"
  | .emptyText => "an annotation is empty"
  | .malformedText => "an annotation is no expression"
  | .endless => "lists and maps contain one another without end"
  | .unreadableSettings error => error.message
  | .outputExists path => s!"Output file already exists: {path}"
  | .placeTaken => "a file stands where a folder is to be created"
  | .noFolder => "a name on the way leads to no folder"
  | .placeIsFolder => "a folder stands where a file is expected"
  | .refusedBySystem => "the system refuses a step"
  | .zeroInPath => "embedded null byte"
  | .uncountable => "a number of characters does not fit into a machine word"
  | .outOfMemory => "a text is larger than any memory"

end Error

/-! ## Outcomes -/

section Outcomes

variable {ε α β : Type}

@[simp] theorem ok_bind (value : α) (next : α → Except ε β) :
    (Except.ok value >>= next) = next value := rfl

@[simp] theorem error_bind (error : ε) (next : α → Except ε β) :
    (Except.error error >>= next) = Except.error error := rfl

@[simp] theorem map_ok (f : α → β) (value : α) :
    (f <$> Except.ok value : Except ε β) = Except.ok (f value) := rfl

/-- A sequence of two computations succeeds exactly when both do. -/
theorem bind_eq_ok_iff {first : Except ε α} {next : α → Except ε β} {result : β} :
    first >>= next = .ok result ↔ ∃ value, first = .ok value ∧ next value = .ok result := by
  cases first with
  | error error => simp
  | ok value => simp

/-- A computation that has a value succeeds with it. -/
theorem eq_ok_of_toOption {outcome : Except ε α} {value : α} (h : outcome.toOption = some value) :
    outcome = .ok value := by
  cases outcome with
  | error error => cases h
  | ok found => exact congrArg Except.ok (Option.some.inj h)

/-- A computation with a changed result succeeds exactly when it does. -/
theorem map_eq_ok_iff {f : α → β} {outcome : Except ε α} {result : β} :
    f <$> outcome = .ok result ↔ ∃ value, outcome = .ok value ∧ f value = result := by
  cases outcome with
  | error error => exact iff_of_false nofun nofun
  | ok value => simp

/-- A check of several items succeeds exactly when it does for each. -/
theorem forM_eq_ok_iff {items : List α} {check : α → Except ε Unit} :
    items.forM check = .ok () ↔ ∀ item ∈ items, check item = .ok () := by
  induction items with
  | nil => simp [pure, Except.pure]
  | cons item items ih =>
      rw [show (item :: items).forM check = check item >>= fun _ => items.forM check from rfl,
        bind_eq_ok_iff, List.forall_mem_cons]
      constructor
      · rintro ⟨_, hitem, hitems⟩
        exact ⟨hitem, ih.mp hitems⟩
      · rintro ⟨hitem, hitems⟩
        exact ⟨(), hitem, ih.mpr hitems⟩

/-- A sequence of two computations fails exactly when one of them does. -/
theorem bind_eq_error_iff {first : Except ε α} {next : α → Except ε β} {error : ε} :
    first >>= next = .error error ↔
      first = .error error ∨ ∃ value, first = .ok value ∧ next value = .error error := by
  cases first with
  | error other => simp
  | ok value => simp

/-- A check of several items fails as the check of one of them. -/
theorem exists_error_of_forM {items : List α} {check : α → Except ε Unit} {error : ε}
    (h : items.forM check = .error error) : ∃ item ∈ items, check item = .error error := by
  induction items with
  | nil => cases h
  | cons item items ih =>
      rcases bind_eq_error_iff.mp h with hitem | ⟨_, _, hitems⟩
      · exact ⟨item, List.mem_cons_self .., hitem⟩
      · obtain ⟨other, mem, hother⟩ := ih hitems
        exact ⟨other, List.mem_cons_of_mem _ mem, hother⟩

/-- A computation for several items fails as that for one of them. -/
theorem exists_error_of_mapM {items : List α} {step : α → Except ε β} {error : ε}
    (h : items.mapM step = .error error) : ∃ item ∈ items, step item = .error error := by
  induction items with
  | nil => cases h
  | cons item items ih =>
      rw [List.mapM_cons] at h
      rcases bind_eq_error_iff.mp h with hitem | ⟨_, _, hrest⟩
      · exact ⟨item, List.mem_cons_self .., hitem⟩
      · rcases bind_eq_error_iff.mp hrest with hitems | ⟨_, _, hlast⟩
        · obtain ⟨other, mem, hother⟩ := ih hitems
          exact ⟨other, List.mem_cons_of_mem _ mem, hother⟩
        · cases hlast

/-- The results of a computation for several items satisfy what its result for each of them
does. -/
theorem forall_of_mapM {P : β → Prop} {items : List α} {step : α → Except ε β} {results : List β}
    (each : ∀ item ∈ items, ∀ result, step item = .ok result → P result)
    (h : items.mapM step = .ok results) : ∀ result ∈ results, P result := by
  induction items generalizing results with
  | nil => cases h; exact nofun
  | cons item items ih =>
      rw [List.forall_mem_cons] at each
      rw [List.mapM_cons] at h
      obtain ⟨first, hfirst, h⟩ := bind_eq_ok_iff.mp h
      obtain ⟨rest, hrest, h⟩ := bind_eq_ok_iff.mp h
      cases h
      exact List.forall_mem_cons.mpr ⟨each.1 first hfirst, ih each.2 hrest⟩

/-- What every step keeps of its item is kept of all of them. -/
theorem map_eq_of_mapM {γ : Type} {of : α → γ} {left : β → γ} {items : List α}
    {step : α → Except ε β} {results : List β}
    (keeps : ∀ item result, step item = .ok result → left result = of item)
    (h : items.mapM step = .ok results) : results.map left = items.map of := by
  induction items generalizing results with
  | nil => cases h; rfl
  | cons item items ih =>
      rw [List.mapM_cons] at h
      obtain ⟨first, hfirst, h⟩ := bind_eq_ok_iff.mp h
      obtain ⟨rest, hrest, h⟩ := bind_eq_ok_iff.mp h
      cases h
      rw [List.map_cons, List.map_cons, keeps item first hfirst, ih hrest]

end Outcomes

end Schemata
