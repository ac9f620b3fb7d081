import Schemata.Settings.Introspection
import Schemata.Text.LowerCase

/-!
# Annotations and descriptions

An annotation is a description when the name of its class is one of the configured
names, whatever the case, and one of the configured attributes holds a text.  The
first attribute in configured order counts, and the first description of several
annotations.

Main results:

- Theorem {lit}`describe_eq_error`: looking for a description fails only for settings that
  are no names.
-/

namespace Schemata

/-- An annotation of a type, a property or a function. -/
inductive Annotation where
  /-- The marker of this library, which holds a text. -/
  | marker (text : String)
  /-- An object of another class. -/
  | object (className : String) (attributes : Table String Json)
  /-- A class rather than an object of it. -/
  | classObject (className : String)
  /-- A text. -/
  | text (content : String)
  /-- A sequence of bytes. -/
  | bytes (content : String)

namespace Annotation

/-- Whether two annotations are equal: they are of one class and hold the same. -/
def same : Annotation → Annotation → Bool
  | .marker a, .marker b => a == b
  | .object a attributes, .object b others => a == b && Json.same (.obj attributes) (.obj others)
  | .classObject a, .classObject b => a == b
  | .text a, .text b => a == b
  | .bytes a, .bytes b => a == b
  | _, _ => false

/-- The class and the attributes of an annotation that is an object. -/
def object? : Annotation → Option (String × Table String Json)
  | .marker content => some ("Description", [("value", .str content)])
  | .object className attributes => some (className, attributes)
  | _ => none

end Annotation

namespace IntrospectionSettings

variable (settings : IntrospectionSettings)

/-- The configured class names in lower case. -/
def normalizedNames : Except Error (List String) :=
  settings.annotationNames.mapM fun
    | .str name => .ok (lowerCase name)
    | _ => .error .missingAttribute

/-- The first text among the values of the configured attributes. -/
def firstText (arguments : Table String Json) : List Json → Except Error (Option String)
  | [] => .ok none
  | .str name :: rest =>
    match arguments.find? name with
    | some (.str text) => .ok (some text)
    | _ => firstText arguments rest
  | .arr _ :: _ | .obj _ :: _ => .error .wrongType
  | _ :: rest => firstText arguments rest

/-- The description that an annotation of a class with the given attributes is. -/
def descriptionFrom (className : String) (arguments : Table String Json) :
    Except Error (Option String) := do
  if (← settings.normalizedNames).contains (lowerCase className) then
    firstText arguments settings.valueAttributes
  else return none

/-- Refuse attributes that are not names. -/
def checkAttributes : Except Error Unit :=
  settings.valueAttributes.forM fun
    | .str _ => .ok ()
    | _ => .error .wrongType

/-- The description that an annotation is. -/
def description? (item : Annotation) : Except Error (Option String) :=
  match item.object? with
  | some (className, attributes) => do
    settings.checkAttributes
    settings.descriptionFrom className attributes
  | none => .ok none

/-- The first description among annotations. -/
def describe : List Annotation → Except Error (Option String)
  | [] => .ok none
  | annotation :: rest => do
    match ← settings.description? annotation with
    | some text => return some text
    | none => describe rest

/-- A setting that is no name, and how looking for a description fails for it. -/
inductive Misnamed : Error → Prop
  | name {value : Json} (mem : value ∈ settings.annotationNames)
      (other : ∀ text, value ≠ .str text) : Misnamed .missingAttribute
  | attribute {value : Json} (mem : value ∈ settings.valueAttributes)
      (other : ∀ text, value ≠ .str text) : Misnamed .wrongType

/-- Looking for a text fails only for an attribute that is an array or an object. -/
theorem firstText_eq_error {arguments : Table String Json} {attributes : List Json} {error : Error}
    (h : firstText arguments attributes = .error error) :
    error = .wrongType ∧ ∃ value ∈ attributes, ∀ text, value ≠ .str text := by
  have hrest {name : Json} {rest : List Json}
      (h : error = .wrongType ∧ ∃ value ∈ rest, ∀ text, value ≠ .str text) :
      error = .wrongType ∧ ∃ value ∈ name :: rest, ∀ text, value ≠ .str text := by
    rcases h with ⟨herror, value, mem, other⟩
    exact ⟨herror, value, List.mem_cons_of_mem _ mem, other⟩
  induction attributes with
  | nil => cases h
  | cons name rest ih =>
    cases name with
    | str content =>
      rw [firstText] at h
      split at h
      · cases h
      · exact hrest (ih h)
    | arr items => cases h; exact ⟨rfl, _, List.mem_cons_self .., nofun⟩
    | obj members => cases h; exact ⟨rfl, _, List.mem_cons_self .., nofun⟩
    | _ => exact hrest (ih h)

/-- Looking for a description fails only for settings that are no names. -/
theorem describe_eq_error {annotations : List Annotation} {error : Error}
    (h : settings.describe annotations = .error error) : settings.Misnamed error := by
  induction annotations with
  | nil => cases h
  | cons annotation rest ih =>
    rw [describe] at h
    rcases bind_eq_error_iff.mp h with hfirst | ⟨found, -, hrest⟩
    · rw [description?] at hfirst
      split at hfirst
      · rcases bind_eq_error_iff.mp hfirst with hcheck | ⟨_, -, hfrom⟩
        · rcases exists_error_of_forM hcheck with ⟨value, mem, hvalue⟩
          split at hvalue
          · cases hvalue
          · rename_i other
            cases hvalue
            exact .attribute mem other
        · rcases bind_eq_error_iff.mp hfrom with hnames | ⟨names, -, htext⟩
          · rcases exists_error_of_mapM hnames with ⟨value, mem, hvalue⟩
            split at hvalue
            · cases hvalue
            · rename_i other
              cases hvalue
              exact .name mem other
          · split at htext
            · rcases firstText_eq_error htext with ⟨rfl, value, mem, other⟩
              exact .attribute mem other
            · cases htext
      · cases hfirst
    · cases found with
      | none => exact ih hrest
      | some text => cases hrest

end IntrospectionSettings

end Schemata
