import Schemata.Proofs.Schema.Reading

/-!
# What is wrong with a document

The reader goes through a document from the outside in and stops at the first value that
it cannot read.  What it demands of a value depends on its role: a fragment, a table of
fragments, a discriminator and a body have to be objects, and alternatives have to be a
value that can be run through.  A fault is therefore that of the value itself, or the first
one among the parts that the value has in its role.

A value of another type is refused where an object is demanded, and the refusal says so.
Nothing checks alternatives before they are run through: a number, a truth value or, in a
fragment, null is not refused there, and the reader itself fails.

Main results:

- Theorems {lit}`Role.fault?_eq_none_iff` and {lit}`Role.fault?_eq_some_iff`: reading
  succeeds exactly on values that fit at every depth, and fails exactly with the first
  fault.
- Theorem {lit}`decode_isExpected_iff`: reading a text gives a document or a refusal, unless
  the first fault is alternatives that cannot be run through; then it fails.
-/

namespace Schemata

/-! ## Faults of computations -/

/-- The failure of a computation, if it fails. -/
def faultOf {α : Type} : Except Error α → Option Error
  | .ok _ => none
  | .error error => some error

section FaultOf

variable {α β : Type}

theorem faultOf_eq_some_iff {outcome : Except Error α} {error : Error} :
    faultOf outcome = some error ↔ outcome = .error error := by
  cases outcome <;> simp [faultOf]

@[simp] theorem faultOf_ok (value : α) : faultOf (.ok value) = none := rfl

@[simp] theorem faultOf_error (error : Error) :
    faultOf (.error error : Except Error α) = some error := rfl

@[simp] theorem faultOf_pure (value : α) : faultOf (pure value) = none := rfl

@[simp] theorem faultOf_map (f : α → β) (outcome : Except Error α) :
    faultOf (f <$> outcome) = faultOf outcome := by
  cases outcome <;> rfl

/-- A sequence fails as its first computation, or else as what follows does after any
value. -/
theorem faultOf_bind {first : Except Error α} {next : α → Except Error β} {rest : Option Error}
    (h : ∀ value, faultOf (next value) = rest) :
    faultOf (first >>= next) = (faultOf first).or rest := by
  cases first with
  | ok value => exact h value
  | error error => rfl

/-- A computation for several items fails as that for the first of them that fails. -/
theorem faultOf_mapM (items : List α) (step : α → Except Error β) :
    faultOf (items.mapM step) = items.findSome? fun item => faultOf (step item) := by
  induction items with
  | nil => rfl
  | cons item items ih =>
      rw [List.mapM_cons, List.findSome?_cons]
      cases hitem : step item with
      | error error => rfl
      | ok value =>
          rw [ok_bind, faultOf_ok, faultOf_bind fun _ => faultOf_pure _, Option.or_none]
          exact ih

end FaultOf

/-! ## Roles -/

/-- The roles that a value can play inside a schema. -/
inductive Role where
  | fragment
  | options
  | table
  | discriminator
  | body
deriving DecidableEq

namespace Role

/-- How refusals name what plays a role. -/
def label : Role → String
  | .fragment | .options => "definition"
  | .table => "properties"
  | .discriminator => "discriminator"
  | .body => "schema"

/-- The failure of reading a value in a role, if reading fails. -/
def fault? : Role → Json → Option Error
  | .fragment, value => faultOf (Reading.ofJson value).fragment
  | .options, value => faultOf (Reading.ofJson value).options
  | .table, value => faultOf (Reading.ofJson value).table
  | .discriminator, value => faultOf (DiscriminatorBlock.ofJson value)
  | .body, value => faultOf (SchemaBody.decode value)

/-- What is wrong with a value in a role whatever its parts are.  Alternatives are not
checked but run through, so a text there is refused for its first character and an object
for its first name. -/
def ownFault (role : Role) (value : Json) : Option Error :=
  match role, value with
  | .options, .arr _ => none
  | .options, value =>
    match value.elements? with
    | none => some .wrongType
    | some elements =>
      elements.head?.map fun element => .undecodable (.notObject role.label element.typeName)
  | _, .obj _ => none
  | _, value => some (.undecodable (.notObject role.label value.typeName))

/-- The value of a keyword in its role, unless it is absent or null. -/
def optional (role : Role) (members : List (String × Json)) (name : String) :
    List (Role × Json) :=
  let value := (Table.find? members name).getD .null
  if value.isNull then [] else [(role, value)]

/-- The parts of a fragment of a kind, in the order in which they are read. -/
def fragmentParts (members : List (String × Json)) : Reading.Kind → List (Role × Json)
  | .oneOf choices => (.options, choices) :: optional .discriminator members "discriminator"
  | .anyOf choices | .allOf choices => [(.options, choices)]
  | .array (some items) => [(.fragment, items)]
  | .object =>
    optional .table members "properties" ++
      match Table.find? members "additionalProperties" with
      | some (.obj fields) => [(.fragment, .obj fields)]
      | _ => []
  | .reference _ | .array none | .value => []

/-- The parts of a body in the order in which they are read. -/
def bodyParts (members : List (String × Json)) : List (Role × Json) :=
  optional .table members "properties" ++ optional .options members "oneOf" ++
    optional .discriminator members "discriminator" ++ optional .table members "$defs"

/-- The parts that a value has in a role, in the order in which they are read. -/
def parts : Role → Json → List (Role × Json)
  | .fragment, .obj members => fragmentParts members (Reading.kindOf members)
  | .options, .arr items => items.map fun item => (.fragment, item)
  | .table, .obj members => members.map fun member => (.fragment, member.2)
  | .body, .obj members => bodyParts members
  | _, _ => []

/-- The first fault among several parts. -/
def firstFault? (parts : List (Role × Json)) : Option Error :=
  parts.findSome? fun part => part.1.fault? part.2

@[simp] theorem firstFault?_nil : firstFault? [] = none := rfl

@[simp] theorem firstFault?_cons (part : Role × Json) (parts : List (Role × Json)) :
    firstFault? (part :: parts) = (part.1.fault? part.2).or (firstFault? parts) := by
  rw [firstFault?, List.findSome?_cons, firstFault?]
  cases part.1.fault? part.2 <;> rfl

@[simp] theorem firstFault?_append (front back : List (Role × Json)) :
    firstFault? (front ++ back) = (firstFault? front).or (firstFault? back) := by
  simp only [firstFault?, List.findSome?_append]

/-! ## Reading in each role -/

/-- An absent keyword is not read, and another one is read in its role. -/
theorem firstFault?_optional (role : Role) (members : List (String × Json)) (name : String) :
    firstFault? (optional role members name) =
      if ((Table.find? members name).getD .null).isNull then none
      else role.fault? ((Table.find? members name).getD .null) := by
  by_cases absent : ((Table.find? members name).getD .null).isNull = true
  · simp [optional, absent]
  · simp [optional, absent]

/-- A table that is read has the first fault of its keyword, if any. -/
theorem faultOf_table? (members : List (String × Json)) (name : String) :
    faultOf (Reading.table? (Reading.ofMembers members) name) =
      firstFault? (optional .table members name) := by
  rw [Reading.table?_ofMembers, firstFault?_optional]
  cases Table.find? members name with
  | none => rfl
  | some value =>
      rw [Option.getD_some, apply_ite faultOf, faultOf_map, faultOf_ok]
      rfl

/-- A discriminator that is read has the first fault of its keyword, if any. -/
theorem faultOf_discriminator (members : List (String × Json)) (name : String) :
    faultOf (DiscriminatorBlock.ofJson? ((Table.find? members name).getD .null)) =
      firstFault? (optional .discriminator members name) := by
  rw [firstFault?_optional, DiscriminatorBlock.ofJson?, apply_ite faultOf]
  exact congrArg _ (faultOf_map ..)

/-- What an object says about members that it does not name is read only when it is an
object itself. -/
theorem faultOf_additionalOf (members : List (String × Json)) :
    faultOf (Reading.additionalOf (Reading.ofMembers members)) =
      firstFault? (match Table.find? members "additionalProperties" with
        | some (.obj fields) => [(.fragment, .obj fields)]
        | _ => []) := by
  rw [Reading.additionalOf, Reading.find?_ofMembers]
  cases Table.find? members "additionalProperties" with
  | none => rfl
  | some value =>
      cases value with
      | obj fields =>
          rw [firstFault?_cons, firstFault?_nil, Option.or_none]
          exact faultOf_map ..
      | null | bool | int | float | str | arr => rfl

/-- Alternatives of a body are read unless they are absent. -/
theorem faultOf_choices? (members : List (String × Json)) :
    faultOf (Reading.choices? (Reading.ofMembers members)) =
      firstFault? (optional .options members "oneOf") := by
  rw [Reading.choices?, Reading.find?_ofMembers, firstFault?_optional]
  cases Table.find? members "oneOf" with
  | none => rfl
  | some value =>
      rw [Option.map_some, Option.getD_some]
      dsimp only
      rw [Reading.raw_ofJson, apply_ite faultOf, faultOf_map, faultOf_ok]
      rfl

/-- Reading a fragment of a kind fails as reading the first of its parts that cannot be
read. -/
theorem faultOf_fragmentAs (members : List (String × Json)) (kind : Reading.Kind) :
    faultOf (Reading.fragmentAs (Reading.ofMembers members) kind) =
      firstFault? (fragmentParts members kind) := by
  cases kind with
  | oneOf choices =>
      rw [Reading.fragmentAs, faultOf_bind fun _ => faultOf_bind fun _ => faultOf_pure _,
        Option.or_none, Reading.rawOf_ofMembers, faultOf_discriminator, fragmentParts,
        firstFault?_cons]
      rfl
  | anyOf choices | allOf choices =>
      rw [Reading.fragmentAs, faultOf_map, fragmentParts, firstFault?_cons, firstFault?_nil,
        Option.or_none]
      rfl
  | reference target => rfl
  | array items =>
      cases items with
      | none => rfl
      | some items =>
          rw [Reading.fragmentAs, faultOf_map, fragmentParts, firstFault?_cons, firstFault?_nil,
            Option.or_none]
          rfl
  | object =>
      rw [Reading.fragmentAs, faultOf_bind fun _ => faultOf_bind fun _ => faultOf_pure _,
        Option.or_none, faultOf_table?, faultOf_additionalOf, fragmentParts, firstFault?_append]
  | value => rfl

/-- Reading a body fails as reading the first of its parts that cannot be read. -/
theorem fault?_body (members : List (String × Json)) :
    fault? .body (.obj members) = firstFault? (bodyParts members) := by
  rw [fault?, SchemaBody.decode_obj, faultOf_bind fun _ => faultOf_bind fun _ => faultOf_bind
    fun _ => faultOf_bind fun _ => faultOf_pure _, faultOf_table?, faultOf_table?,
    faultOf_choices?, Reading.rawOf_ofMembers, faultOf_discriminator, Option.or_none]
  simp only [bodyParts, firstFault?_append, Option.or_assoc]

/-- Elements that are refused one by one are refused for the first of them. -/
theorem faultOf_mapM_notObject {α : Type} (elements : List Json) (part : String) :
    faultOf (elements.mapM (notObject (α := α) part)) =
      elements.head?.map fun element => .undecodable (.notObject part element.typeName) := by
  cases elements with
  | nil => rfl
  | cons element elements => rw [faultOf_mapM, List.findSome?_cons]; rfl

/-- Reading fails as the value is wrong itself, or else as reading the first of its parts
that cannot be read. -/
theorem fault?_eq (role : Role) (value : Json) :
    role.fault? value = (role.ownFault value).or (firstFault? (role.parts value)) := by
  cases role with
  | fragment =>
      cases value with
      | obj members =>
          rw [fault?, Reading.fragment_ofJson_obj]
          exact faultOf_fragmentAs members _
      | null | bool | int | float | str | arr => rfl
  | options =>
      cases value with
      | arr items =>
          rw [parts, firstFault?, List.findSome?_map, fault?, Reading.ofJson, faultOf_mapM,
            Reading.ofItems_eq_map, List.findSome?_map]
          rfl
      | str text | obj => exact (faultOf_mapM_notObject ..).trans Option.or_none.symm
      | null | bool | int | float => rfl
  | table =>
      cases value with
      | obj members =>
          rw [parts, firstFault?, List.findSome?_map, fault?, Reading.ofJson]
          dsimp only
          rw [faultOf_mapM, Reading.ofMembers_eq_map, List.findSome?_map]
          refine congrArg (fun step => List.findSome? step members) (funext fun member => ?_)
          exact (faultOf_bind fun _ => faultOf_pure _).trans Option.or_none
      | null | bool | int | float | str | arr => rfl
  | discriminator => cases value <;> rfl
  | body =>
      cases value with
      | obj members => exact fault?_body members
      | null | bool | int | float | str | arr => rfl

/-! ## The first fault -/

/-- A value that can be read in a role: nothing is wrong with it, and its parts can be
read. -/
inductive Fits : Role → Json → Prop
  | intro {role : Role} {value : Json} (own : role.ownFault value = none)
      (parts : ∀ part ∈ role.parts value, Fits part.1 part.2) : Fits role value

/-- The first fault of a value in a role, in the order of reading. -/
inductive FirstFault : Role → Json → Error → Prop
  | own {role : Role} {value : Json} {error : Error}
      (wrong : role.ownFault value = some error) : FirstFault role value error
  | part {role : Role} {value : Json} {error : Error} {before after : List (Role × Json)}
      {part : Role × Json} (own : role.ownFault value = none)
      (split : role.parts value = before ++ part :: after)
      (earlier : ∀ other ∈ before, Fits other.1 other.2) (wrong : FirstFault part.1 part.2 error) :
      FirstFault role value error

/-- What fits its role has no fault. -/
theorem Fits.fault?_eq_none {role : Role} {value : Json} (h : Fits role value) :
    role.fault? value = none := by
  induction h with
  | intro own parts ih =>
      rw [fault?_eq, own, Option.none_or, firstFault?, List.findSome?_eq_none_iff]
      exact ih

/-- The first fault of a value is the one that its reading finds. -/
theorem FirstFault.fault?_eq_some {role : Role} {value : Json} {error : Error}
    (h : FirstFault role value error) : role.fault? value = some error := by
  induction h with
  | own wrong => rw [fault?_eq, wrong, Option.some_or]
  | @part role value error before after part own split earlier wrong ih =>
      rw [fault?_eq, own, Option.none_or, firstFault?, List.findSome?_eq_some_iff]
      exact ⟨before, part, after, split, ih, fun other mem => (earlier other mem).fault?_eq_none⟩

/-- What is read of an object are values of its members. -/
theorem exists_find?_of_mem_optional {role : Role} {members : List (String × Json)}
    {name : String} {part : Role × Json} (mem : part ∈ optional role members name) :
    ∃ name, Table.find? members name = some part.2 := by
  unfold optional at mem
  cases found : Table.find? members name with
  | none => simp [found, Json.isNull] at mem
  | some value =>
      dsimp only at mem
      split at mem
      · cases mem
      · rw [List.mem_singleton.mp mem, found]
        exact ⟨name, found⟩

/-- The parts of a fragment are values of its members. -/
theorem exists_find?_of_mem_fragmentParts {members : List (String × Json)} {part : Role × Json}
    (mem : part ∈ fragmentParts members (Reading.kindOf members)) :
    ∃ name, Table.find? members name = some part.2 := by
  cases kind : Reading.kindOf members with
  | oneOf choices =>
      rw [kind] at mem
      rcases List.mem_cons.mp mem with rfl | mem
      · exact Reading.exists_find?_of_kindOf (by rw [kind]; rfl)
      · exact exists_find?_of_mem_optional mem
  | anyOf choices | allOf choices =>
      rw [kind] at mem
      rw [List.mem_singleton.mp mem]
      exact Reading.exists_find?_of_kindOf (by rw [kind]; rfl)
  | array items =>
      cases items with
      | none => rw [kind] at mem; cases mem
      | some items =>
          rw [kind] at mem
          rw [List.mem_singleton.mp mem]
          exact Reading.exists_find?_of_kindOf (by rw [kind]; rfl)
  | object =>
      rw [kind] at mem
      rcases List.mem_append.mp mem with mem | mem
      · exact exists_find?_of_mem_optional mem
      · split at mem
        · next fields found =>
            rw [List.mem_singleton.mp mem]
            exact ⟨_, found⟩
        · cases mem
  | reference target => rw [kind] at mem; cases mem
  | value => rw [kind] at mem; cases mem

/-- The parts of a body are values of its members. -/
theorem exists_find?_of_mem_bodyParts {members : List (String × Json)} {part : Role × Json}
    (mem : part ∈ bodyParts members) : ∃ name, Table.find? members name = some part.2 := by
  simp only [bodyParts, List.mem_append] at mem
  rcases mem with ((mem | mem) | mem) | mem
  all_goals exact exists_find?_of_mem_optional mem

/-- A member of an object is smaller than the object. -/
theorem sizeOf_lt_of_mem {members : List (String × Json)} {member : String × Json}
    (mem : member ∈ members) : sizeOf member.2 < sizeOf (Json.obj members) := by
  have hlist := List.sizeOf_lt_of_mem mem
  rcases member with ⟨name, value⟩
  rw [Prod.mk.sizeOf_spec] at hlist
  rw [Json.obj.sizeOf_spec]
  dsimp only
  omega

/-- The parts of a value are smaller than the value. -/
theorem sizeOf_lt_of_mem_parts {role : Role} {value : Json} {part : Role × Json}
    (mem : part ∈ role.parts value) : sizeOf part.2 < sizeOf value := by
  cases role with
  | fragment =>
      cases value with
      | obj members =>
          obtain ⟨name, found⟩ := exists_find?_of_mem_fragmentParts mem
          exact sizeOf_lt_of_mem (Table.mem_of_find? found)
      | null | bool | int | float | str | arr => cases mem
  | options =>
      cases value with
      | arr items =>
          obtain ⟨item, hitem, rfl⟩ := List.mem_map.mp mem
          have hlist : sizeOf item < sizeOf items := List.sizeOf_lt_of_mem hitem
          rw [Json.arr.sizeOf_spec]
          exact Nat.lt_add_left 1 hlist
      | null | bool | int | float | str | obj => cases mem
  | table =>
      cases value with
      | obj members =>
          obtain ⟨member, hmember, rfl⟩ := List.mem_map.mp mem
          exact sizeOf_lt_of_mem hmember
      | null | bool | int | float | str | arr => cases mem
  | discriminator => cases value <;> cases mem
  | body =>
      cases value with
      | obj members =>
          obtain ⟨name, found⟩ := exists_find?_of_mem_bodyParts mem
          exact sizeOf_lt_of_mem (Table.mem_of_find? found)
      | null | bool | int | float | str | arr => cases mem

/-- A value can be read exactly when it fits. -/
theorem fault?_eq_none_iff {role : Role} {value : Json} :
    role.fault? value = none ↔ Fits role value := by
  constructor
  · intro h
    cases hown : role.ownFault value with
    | some error => rw [fault?_eq, hown] at h; cases h
    | none =>
        refine .intro hown fun part mem => ?_
        have hsize : sizeOf part.2 < sizeOf value := sizeOf_lt_of_mem_parts mem
        rw [fault?_eq, hown, Option.none_or, firstFault?, List.findSome?_eq_none_iff] at h
        exact fault?_eq_none_iff.mp (h part mem)
  · exact Fits.fault?_eq_none
termination_by sizeOf value

/-- Reading a value fails exactly with its first fault. -/
theorem fault?_eq_some_iff {role : Role} {value : Json} {error : Error} :
    role.fault? value = some error ↔ FirstFault role value error := by
  constructor
  · intro h
    rw [fault?_eq] at h
    cases hown : role.ownFault value with
    | some fault =>
        rw [hown, Option.some_or] at h
        exact .own (hown.trans h)
    | none =>
        rw [hown, Option.none_or, firstFault?, List.findSome?_eq_some_iff] at h
        obtain ⟨before, part, after, hsplit, hpart, hbefore⟩ := h
        have hsize : sizeOf part.2 < sizeOf value :=
          sizeOf_lt_of_mem_parts (hsplit ▸ List.mem_append_right _ (List.mem_cons_self ..))
        exact .part hown hsplit (fun other mem => fault?_eq_none_iff.mp (hbefore other mem))
          (fault?_eq_some_iff.mp hpart)
  · exact FirstFault.fault?_eq_some
termination_by sizeOf value

/-- A value is either refused or fails to be run through. -/
theorem FirstFault.eq_wrongType_or {role : Role} {value : Json} {error : Error}
    (h : FirstFault role value error) :
    error = .wrongType ∨ ∃ fault, error = .undecodable fault := by
  induction h with
  | @own role value error wrong =>
      unfold ownFault at wrong
      split at wrong
      · cases wrong
      · split at wrong
        · exact Or.inl (Option.some.inj wrong).symm
        · obtain ⟨element, _, rfl⟩ := Option.map_eq_some_iff.mp wrong
          exact Or.inr ⟨_, rfl⟩
      · cases wrong
      · exact Or.inr ⟨_, (Option.some.inj wrong).symm⟩
  | part own split earlier wrong ih => exact ih

end Role

/-! ## Documents -/

/-- An outcome that a caller is told to expect: a document, or a refusal of the text. -/
def IsExpected {α : Type} (outcome : Except Error α) : Prop :=
  (∃ document, outcome = .ok document) ∨ ∃ fault, outcome = .error (.undecodable fault)

/-- A wrong type is no refusal that a caller is told to expect. -/
theorem not_isExpected_wrongType {α : Type} :
    ¬ IsExpected (.error .wrongType : Except Error α) := by
  intro h
  rcases h with ⟨_, h⟩ | ⟨_, h⟩ <;> cases h

/-- Reading a text is expected unless it is an object whose members are not read as
expected. -/
theorem isExpected_parseObject_iff {α : Type} {text : String}
    {read : List (String × Json) → Except Error α} {stumbles : List (String × Json) → Prop}
    (h : ∀ members, IsExpected (read members) ↔ ¬ stumbles members) :
    IsExpected (parseObject text >>= read) ↔
      ¬ ∃ members, Json.parse text = .ok (.obj members) ∧ stumbles members := by
  unfold parseObject
  cases Json.parse text with
  | error error => exact iff_of_true (Or.inr ⟨_, rfl⟩) (by simp)
  | ok value =>
      cases value with
      | obj members =>
          refine (h members).trans (not_congr ⟨fun h => ⟨members, rfl, h⟩, ?_⟩)
          rintro ⟨_, ⟨⟩, h⟩
          exact h
      | null | bool | int | float | str | arr =>
          exact iff_of_true (Or.inr ⟨_, rfl⟩) (by simp)

/-- Reading what has a body is expected unless the first fault of the body is alternatives
that cannot be run through. -/
theorem isExpected_body_iff {α : Type} (body : Json) (finish : SchemaBody → α) :
    IsExpected (SchemaBody.decode body >>= fun read => pure (finish read)) ↔
      ¬ Role.FirstFault .body body .wrongType := by
  rw [← Role.fault?_eq_some_iff, Role.fault?, faultOf_eq_some_iff]
  cases outcome : SchemaBody.decode body with
  | ok read => exact iff_of_true (Or.inl ⟨_, rfl⟩) nofun
  | error error =>
      have hfault : Role.FirstFault .body body error :=
        Role.fault?_eq_some_iff.mp (faultOf_eq_some_iff.mpr outcome)
      rcases hfault.eq_wrongType_or with rfl | ⟨fault, rfl⟩
      · exact iff_of_false not_isExpected_wrongType (not_not_intro rfl)
      · exact iff_of_true (Or.inr ⟨fault, rfl⟩) nofun

/-- The text is a document with a name, and the first fault of its body is alternatives that
cannot be run through. -/
def SchemaDocument.Stumbles (text : String) : Prop :=
  ∃ members, Json.parse text = .ok (.obj members) ∧ (Table.find? members "name").isSome = true ∧
    Role.FirstFault .body ((Table.find? members "schema").getD (.obj [])) .wrongType

/-- The text is a tool with a name, and the first fault of its parameters is alternatives that
cannot be run through. -/
def ToolDocument.Stumbles (text : String) : Prop :=
  ∃ members, Json.parse text = .ok (.obj members) ∧ (Table.find? members "name").isSome = true ∧
    Table.find? members "type" = some (.str "function") ∧
    Role.FirstFault .body ((Table.find? members "parameters").getD (.obj [])) .wrongType

/-- Decoding a document is as expected exactly when the text does not stumble. -/
theorem SchemaDocument.isExpected_decode_iff (text : String) :
    IsExpected (SchemaDocument.decode text) ↔ ¬ SchemaDocument.Stumbles text := by
  apply isExpected_parseObject_iff
  intro members
  cases Table.find? members "name" with
  | none => exact iff_of_true (Or.inr ⟨_, rfl⟩) (by simp)
  | some name => exact (isExpected_body_iff _ _).trans (by simp)

/-- Decoding a tool is as expected exactly when the text does not stumble. -/
theorem ToolDocument.isExpected_decode_iff (text : String) :
    IsExpected (ToolDocument.decode text) ↔ ¬ ToolDocument.Stumbles text := by
  apply isExpected_parseObject_iff
  intro members
  cases Table.find? members "name" with
  | none => exact iff_of_true (Or.inr ⟨_, rfl⟩) (by simp)
  | some name =>
      have htype : ((Table.find? members "type").getD .null).isText "function" = true ↔
          Table.find? members "type" = some (.str "function") := by
        rw [Json.isText_iff]
        cases Table.find? members "type" <;> simp
      dsimp only
      split
      · next tool => exact (isExpected_body_iff _ _).trans (by simp [htype.mp tool])
      · next other => exact iff_of_true (Or.inr ⟨_, rfl⟩) (by simp [mt htype.mpr other])

/-- Whatever a text holds, reading it as a document of either dialect gives a document or a
refusal, unless the first fault of its body is alternatives that cannot be run through. -/
theorem decode_isExpected_iff (text : String) :
    (IsExpected (SchemaDocument.decode text) ↔ ¬ SchemaDocument.Stumbles text) ∧
      (IsExpected (ToolDocument.decode text) ↔ ¬ ToolDocument.Stumbles text) :=
  ⟨SchemaDocument.isExpected_decode_iff text, ToolDocument.isExpected_decode_iff text⟩

/-- A document with a number in place of the alternatives. -/
def numberedChoice : String :=
  "\x7b\"name\": \"A\", \"schema\": \x7b\"oneOf\": 5\x7d\x7d"

/-- A number in place of the alternatives is neither read nor refused. -/
theorem numberedChoice_not_isExpected : ¬ IsExpected (SchemaDocument.decode numberedChoice) := by
  have hfault : faultOf (SchemaDocument.decode numberedChoice) = some .wrongType := by
    decide +kernel
  rw [faultOf_eq_some_iff.mp hfault]
  exact not_isExpected_wrongType

end Schemata
