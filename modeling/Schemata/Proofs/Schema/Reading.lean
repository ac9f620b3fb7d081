import Schemata.Schema.Decoding
import Schemata.Schema.Rendering

/-!
# Keywords read back

A rendering is a list of keywords, and a reader looks keywords up by name.  A keyword is
found where it was written, unless its value is null and it was left out; then the reader
takes it for null.
-/

namespace Schemata

/-! ## Keywords that are written -/

@[simp] theorem find?_keyword_self (name : String) (value : Json) :
    Table.find? (keyword name value) name = if value.isNull then none else some value := by
  unfold keyword
  split
  · rfl
  · rw [Table.find?_cons, if_pos (beq_self_eq_true name)]

@[simp] theorem find?_keyword_of_ne {name other : String} (different : other ≠ name)
    (value : Json) :
    Table.find? (keyword name value) other = none := by
  unfold keyword
  split
  · rfl
  · rw [Table.find?_cons, if_neg (by simpa using different)]
    rfl

/-- A keyword that was left out is null. -/
@[simp] theorem getD_ifNull (value : Json) :
    (if value.isNull then none else some value : Option Json).getD .null = value := by
  cases value <;> rfl

@[simp] theorem isNull_obj (members : List (String × Json)) :
    (Json.obj members).isNull = false := rfl

@[simp] theorem isNull_arr (items : List Json) : (Json.arr items).isNull = false := rfl

namespace Reading

/-! ## Keywords that are read -/

@[simp] theorem raw_ofJson (value : Json) : (ofJson value).raw = value := by
  cases value <;> rfl

theorem ofItems_eq_map (items : List Json) : ofItems items = items.map ofJson := by
  induction items with
  | nil => rfl
  | cons item items ih => rw [ofItems, List.map_cons, ih]

theorem ofMembers_eq_map (members : List (String × Json)) :
    ofMembers members = members.map fun member => (member.1, ofJson member.2) := by
  induction members with
  | nil => rfl
  | cons member members ih => rw [ofMembers, List.map_cons, ih]

@[simp] theorem find?_ofMembers (members : List (String × Json)) (name : String) :
    Table.find? (ofMembers members) name = (Table.find? members name).map ofJson := by
  induction members with
  | nil => rfl
  | cons member members ih =>
      rcases member with ⟨key, value⟩
      rw [ofMembers, Table.find?_cons, Table.find?_cons, ih]
      cases name == key <;> rfl

@[simp] theorem rawOf_ofMembers (members : List (String × Json)) (name : String) :
    rawOf (ofMembers members) name = (Table.find? members name).getD .null := by
  rw [rawOf, find?_ofMembers]
  cases Table.find? members name with
  | none => rfl
  | some value => simp

@[simp] theorem typeOf_ofMembers (members : List (String × Json)) (default : String) :
    typeOf (ofMembers members) default = (Table.find? members "type").getD (.str default) := by
  rw [typeOf, find?_ofMembers]
  cases Table.find? members "type" with
  | none => rfl
  | some type => simp

@[simp] theorem has_ofMembers (members : List (String × Json)) (name : String) :
    Table.has (ofMembers members) name = (Table.find? members name).isSome := by
  rw [Table.has, find?_ofMembers, Option.isSome_map]

@[simp] theorem table?_ofMembers (members : List (String × Json)) (name : String) :
    table? (ofMembers members) name =
      match Table.find? members name with
      | none => .ok none
      | some value => if value.isNull then .ok none else some <$> (ofJson value).table := by
  rw [table?, find?_ofMembers]
  cases Table.find? members name with
  | none => rfl
  | some value => simp

/-- What a reader takes an object to say about members that it does not name. -/
def additionalOf (parts : Table String Reading) : Except Error (Additional Definition) :=
  match parts.find? "additionalProperties" with
  | none => .ok (.plain .null)
  | some part =>
    match part.raw with
    | .obj _ => Additional.schema <$> part.fragment
    | value => .ok (.plain value)

/-- What a reader takes the alternatives of a body to be. -/
def choices? (parts : Table String Reading) : Except Error (Option (List Definition)) :=
  match parts.find? "oneOf" with
  | none => .ok none
  | some part => if part.raw.isNull then .ok none else some <$> part.options

/-! ## Kinds of fragments -/

/-- The kinds of fragments, with the value of the keyword that tells them. -/
inductive Kind where
  | oneOf (choices : Json)
  | anyOf (choices : Json)
  | allOf (choices : Json)
  | reference (target : Json)
  | array (items : Option Json)
  | object
  | value

/-- The value of the keyword that tells a kind. -/
def Kind.content? : Kind → Option Json
  | .oneOf content | .anyOf content | .allOf content | .reference content => some content
  | .array items => items
  | .object | .value => none

/-- The kind that the keywords of an object tell. -/
def kindOf (members : List (String × Json)) : Kind :=
  match Table.find? members "oneOf", Table.find? members "anyOf", Table.find? members "allOf",
      Table.find? members "$ref", Table.find? members "items" with
  | some choices, _, _, _, _ => .oneOf choices
  | none, some choices, _, _, _ => .anyOf choices
  | none, none, some choices, _, _ => .allOf choices
  | none, none, none, some target, _ => .reference target
  | none, none, none, none, some items => .array (some items)
  | none, none, none, none, none =>
    let primary := primaryType ((Table.find? members "type").getD .null)
    if (Table.find? members "properties").isSome || primary.isText "object" then .object
    else if primary.isText "array" then .array none
    else .value

/-- A kind is told by the value of a keyword. -/
theorem exists_find?_of_kindOf {members : List (String × Json)} {content : Json}
    (h : (kindOf members).content? = some content) :
    ∃ name, Table.find? members name = some content := by
  unfold kindOf at h
  split at h
  · next found => exact ⟨"oneOf", found.trans h⟩
  · next found => exact ⟨"anyOf", found.trans h⟩
  · next found => exact ⟨"allOf", found.trans h⟩
  · next found => exact ⟨"$ref", found.trans h⟩
  · next found => exact ⟨"items", found.trans h⟩
  · dsimp only at h
    split at h
    · cases h
    · split at h <;> cases h

/-- Without items, the type tells an array. -/
theorem primaryType_of_kindOf_array {members : List (String × Json)}
    (h : kindOf members = .array none) :
    primaryType (typeOf (ofMembers members) "array") = .str "array" := by
  unfold kindOf at h
  split at h
  case h_6 =>
    dsimp only at h
    split at h
    · cases h
    · split at h
      · next harray =>
          rw [typeOf_ofMembers]
          cases found : Table.find? members "type" with
          | none => rfl
          | some type =>
              rw [found] at harray
              exact Json.isText_iff.mp harray
      · cases h
  all_goals cases h

/-- The type of a value tells neither an object nor an array. -/
theorem primaryType_of_kindOf_value {members : List (String × Json)} (h : kindOf members = .value)
    {type : String} (container : type = "object" ∨ type = "array") :
    primaryType (typeOf (ofMembers members) "string") ≠ .str type := by
  unfold kindOf at h
  split at h
  case h_6 =>
    dsimp only at h
    split at h
    · cases h
    · next hobject =>
        split at h
        · cases h
        · next harray =>
            rw [typeOf_ofMembers]
            cases found : Table.find? members "type" with
            | none => rcases container with rfl | rfl <;> simp [primaryType]
            | some value =>
                intro eq
                rw [found] at hobject harray
                rcases container with rfl | rfl
                · exact hobject (Bool.or_eq_true_iff.mpr (Or.inr (Json.isText_iff.mpr eq)))
                · exact harray (Json.isText_iff.mpr eq)
  all_goals cases h

/-- The fragment of a kind with the given keywords. -/
def fragmentAs (parts : Table String Reading) : Kind → Except Error Definition
  | .oneOf choices => do
    let options ← (ofJson choices).options
    let discriminator ← DiscriminatorBlock.ofJson? (rawOf parts "discriminator")
    return .oneOf (rawOf parts "description") options discriminator
  | .anyOf choices => .anyOf (rawOf parts "description") <$> (ofJson choices).options
  | .allOf choices => .allOf (rawOf parts "description") <$> (ofJson choices).options
  | .reference target => .ok (.reference target (rawOf parts "description"))
  | .array none => .ok (.array (headOf parts (typeOf parts "array")) none)
  | .array (some items) =>
    (fun fragment => .array (headOf parts (typeOf parts "array")) (some fragment)) <$>
      (ofJson items).fragment
  | .object => do
    let properties ← table? parts "properties"
    let additional ← additionalOf parts
    return .object (headOf parts (typeOf parts "object")) properties (rawOf parts "required")
      additional
  | .value => .ok (.value (headOf parts (typeOf parts "string")) (rawOf parts "enum"))

/-- An object is read as a fragment of the kind that its keywords tell. -/
theorem fragment_ofJson_obj (members : List (String × Json)) :
    (ofJson (.obj members)).fragment = fragmentAs (ofMembers members) (kindOf members) := by
  change fragmentOf (ofMembers members) = _
  unfold kindOf
  split
  · next choices hone => simp [fragmentOf, fragmentAs, hone]
  · next choices hone hany => simp [fragmentOf, fragmentAs, hone, hany]
  · next choices hone hany hall => simp [fragmentOf, fragmentAs, hone, hany, hall]
  · next target hone hany hall href => simp [fragmentOf, fragmentAs, hone, hany, hall, href]
  · next items hone hany hall href hitems =>
      simp [fragmentOf, fragmentAs, hone, hany, hall, href, hitems]
  · next hone hany hall href hitems =>
      dsimp only
      by_cases hobject : ((Table.find? members "properties").isSome ||
          (primaryType ((Table.find? members "type").getD .null)).isText "object") = true
      · rw [if_pos hobject]
        simp only [fragmentOf, fragmentAs, find?_ofMembers, has_ofMembers, rawOf_ofMembers, hone,
          hany, hall, href, hitems, Option.map_none, if_pos hobject, additionalOf]
        refine bind_congr fun properties => ?_
        cases Table.find? members "additionalProperties" with
        | none => rfl
        | some value =>
            rw [Option.map_some]
            dsimp only
            rw [raw_ofJson]
            cases value with
            | obj fields => cases (ofJson (.obj fields)).fragment <;> rfl
            | null | bool | int | float | str | arr => rfl
      · rw [if_neg hobject]
        simp only [fragmentOf, fragmentAs, find?_ofMembers, has_ofMembers, rawOf_ofMembers, hone,
          hany, hall, href, hitems, Option.map_none, if_neg hobject]
        split <;> rfl

end Reading

open Reading in
/-- How the body of a document is read, keyword by keyword. -/
theorem SchemaBody.decode_obj (members : List (String × Json)) :
    SchemaBody.decode (.obj members) = do
      let parts := ofMembers members
      let properties ← table? parts "properties"
      let oneOf ← choices? parts
      let discriminator ← DiscriminatorBlock.ofJson? (rawOf parts "discriminator")
      let defs ← table? parts "$defs"
      return {
        schemaUri := rawOf parts "$schema"
        id := rawOf parts "$id"
        type := typeOf parts "object"
        description := rawOf parts "description"
        properties
        required := rawOf parts "required"
        additional := rawOf parts "additionalProperties"
        oneOf, discriminator, defs } := by
  simp only [SchemaBody.decode, choices?]
  refine bind_congr fun properties => ?_
  cases Table.find? (ofMembers members) "oneOf" with
  | none => rfl
  | some part =>
      dsimp only
      split
      · rfl
      · cases part.options <;> rfl

@[simp] theorem DiscriminatorBlock.find?_entry_of_ne {name : String}
    (different : name ≠ "discriminator") (discriminator : Option DiscriminatorBlock) :
    Table.find? (entry discriminator) name = none := by
  cases discriminator with
  | none => rfl
  | some block => simp [entry, Table.find?_cons, different]

/-- A discriminator block is read back. -/
@[simp] theorem DiscriminatorBlock.ofJson?_entry (discriminator : Option DiscriminatorBlock) :
    ofJson? ((Table.find? (entry discriminator) "discriminator").getD .null) =
      .ok discriminator := by
  cases discriminator with
  | none => rfl
  | some block =>
      have hread : ofJson block.toJson = .ok block := by simp [ofJson, toJson, Table.find?_cons]
      have hnull : block.toJson.isNull = false := rfl
      simp [entry, ofJson?, hnull, hread, Table.find?_cons]

end Schemata
