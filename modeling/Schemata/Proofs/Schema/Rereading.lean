import Schemata.Proofs.Json.Parsed
import Schemata.Proofs.Schema.Decoding

/-!
# Documents decoded a second time

What a reader gives is readable, so it can be encoded and decoded again.  The second reading
gives the first document back unless there is a bare object in it: an object that the keyword
{lit}`properties` told, with null in it, while its type tells something else.  The encoder leaves
null out, and the second reading takes the object for an array or a value.

Main results:

- Theorem {lit}`Json.Regular.readsAs`: what a reader gives for a regular value is readable.
- Theorem {lit}`Definition.Readable.same_reread_iff`: a readable fragment is the same as what
  is read back from its rendering exactly when it has no bare object in it.
- Theorem {lit}`decode_encode_decode`: a document of either dialect that was read from a text
  without NaN is encoded and read again, and is the same as before exactly when it has no bare
  object in it.
-/

namespace Schemata

namespace Definition

/-! ## Bare objects are not read back -/

/-- Options that are the same as what is read back are so one by one. -/
theorem same_of_sameAll {options : List Definition}
    (h : sameAll (rereadAll options) options = true) :
    ∀ option ∈ options, option.reread.same option = true := by
  induction options with
  | nil => exact nofun
  | cons option options ih =>
      rw [rereadAll, sameAll, Bool.and_eq_true] at h
      exact List.forall_mem_cons.mpr ⟨h.1, ih h.2⟩

/-- Entries that are the same as what is read back are so one by one. -/
theorem same_of_sameTable {table others : List (String × Definition)}
    (found : ∀ entry ∈ table, Table.find? others entry.1 = some entry.2)
    (h : sameTable (rereadTable table) others = true) :
    ∀ entry ∈ table, entry.2.reread.same entry.2 = true := by
  induction table with
  | nil => exact nofun
  | cons entry table ih =>
      rcases entry with ⟨name, definition⟩
      rw [List.forall_mem_cons] at found
      rw [rereadTable, sameTable, found.1, Bool.and_eq_true] at h
      exact List.forall_mem_cons.mpr ⟨h.1, ih found.2 h.2⟩

/-- Properties that are the same as what is read back are so one by one. -/
theorem same_of_sameProperties {properties : Option (List (String × Definition))}
    (names : ∀ table ∈ properties, (table.map Prod.fst).Nodup)
    (h : sameProperties (properties.map rereadTable) properties = true) :
    ∀ table ∈ properties, ∀ entry ∈ table, entry.2.reread.same entry.2 = true := by
  rintro table hproperties
  cases hproperties
  rw [Option.map_some, sameProperties, Bool.and_eq_true] at h
  exact same_of_sameTable (fun entry mem => Table.find?_of_mem (names table rfl) mem) h.2

/-- A bare object is read back as a fragment of another kind. -/
theorem same_rereadBare {head : TypedHead} {required : Json}
    {additional other : Additional Definition} (bare : ¬ HasPrimary head "object") :
    (rereadBare head required other).same (.object head none required additional) = false := by
  rw [rereadBare, if_neg (by rwa [Json.isText_iff])]
  split <;> simp only [same]

/-- A readable fragment that is the same as what is read back has no bare object in it. -/
theorem Readable.not_holdsBare_of_same {definition : Definition} (h : definition.Readable)
    (same : definition.reread.same definition = true) : ¬ definition.HoldsBare := by
  induction h with
  | value | reference => exact not_holdsBare_iff.mpr ⟨id, nofun⟩
  | @array head items keywords kind parts ih =>
      refine not_holdsBare_iff.mpr ⟨id, (forall_mem_parts_array (¬ ·.HoldsBare)).mpr ?_⟩
      rintro fragment ⟨⟩
      rw [reread, Definition.same, Bool.and_eq_true, rereadItems, sameItems] at same
      exact ih fragment rfl same.2
  | @object head properties required additional keywords names parts listed plain schema ihParts
      ihSchema =>
      have hadditional : sameAdditional (rereadAdditional additional) additional = true →
          ∀ fragment, additional = .schema fragment → ¬ fragment.HoldsBare := by
        rintro h fragment rfl
        rw [rereadAdditional, sameAdditional] at h
        exact ihSchema fragment rfl h
      cases properties with
      | none =>
          by_cases hobject : HasPrimary head "object"
          · rw [reread, rereadBare, if_pos (Json.isText_iff.mpr hobject), Definition.same,
              Bool.and_eq_true] at same
            exact not_holdsBare_iff.mpr ⟨not_not_intro hobject,
              (forall_mem_parts_object (¬ ·.HoldsBare)).mpr ⟨by simp, hadditional same.2⟩⟩
          · rw [reread, same_rereadBare hobject] at same
            cases same
      | some table =>
          rw [reread, Definition.same, Bool.and_eq_true, Bool.and_eq_true, Bool.and_eq_true]
            at same
          have hparts := same_of_sameProperties names same.1.1.2
          refine not_holdsBare_iff.mpr ⟨id, (forall_mem_parts_object (¬ ·.HoldsBare)).mpr
            ⟨fun entries hentries entry mem => ?_, hadditional same.2⟩⟩
          exact ihParts entries hentries entry mem (hparts entries hentries entry mem)
  | oneOf text parts block ih =>
      rw [reread, Definition.same, Bool.and_eq_true, Bool.and_eq_true] at same
      have hparts := same_of_sameAll same.1.2
      exact not_holdsBare_iff.mpr ⟨id, List.forall_mem_map.mpr fun option mem =>
        ih option mem (hparts option mem)⟩
  | anyOf text parts ih | allOf text parts ih =>
      rw [reread, Definition.same, Bool.and_eq_true] at same
      have hparts := same_of_sameAll same.2
      exact not_holdsBare_iff.mpr ⟨id, List.forall_mem_map.mpr fun option mem =>
        ih option mem (hparts option mem)⟩

/-- A readable fragment is the same as what is read back from its rendering exactly when it
has no bare object in it. -/
theorem Readable.same_reread_iff {definition : Definition} (h : definition.Readable) :
    definition.reread.same definition = true ↔ ¬ definition.HoldsBare := by
  constructor
  · exact h.not_holdsBare_of_same
  · intro full
    rw [h.reread_eq_self full]
    exact h.same_self

end Definition

/-! ## What a reader gives -/

/-- What a reader gives for a value in each role is readable. -/
structure Json.ReadsAs (value : Json) : Prop where
  fragment {definition : Definition} (h : (Reading.ofJson value).fragment = .ok definition) :
    definition.Readable
  options {options : List Definition} (h : (Reading.ofJson value).options = .ok options) :
    ∀ option ∈ options, option.Readable
  table {table : Table String Definition} (h : (Reading.ofJson value).table = .ok table) :
    ReadableTable table

/-- Members with regular values for which a reader gives readable fragments. -/
structure ReadableMembers (members : List (String × Json)) : Prop where
  regular : ∀ member ∈ members, member.2.Regular
  reads : ∀ member ∈ members, member.2.ReadsAs

/-- The value of a keyword, or what stands for it, is regular. -/
theorem Json.Regular.getD_find? {members : List (String × Json)}
    (regular : ∀ member ∈ members, member.2.Regular) (name : String) {default : Json}
    (other : default.Regular) : ((Table.find? members name).getD default).Regular := by
  cases found : Table.find? members name with
  | none => exact other
  | some value => exact regular _ (Table.mem_of_find? found)

theorem Json.Regular.emptyObject : (Json.obj []).Regular := .obj List.nodup_nil nofun

/-- A discriminator block that is read has regular values. -/
theorem DiscriminatorBlock.regular_of_ofJson? {value : Json} (regular : value.Regular)
    {discriminator : Option DiscriminatorBlock} (h : ofJson? value = .ok discriminator) :
    ∀ block ∈ discriminator, block.Regular := by
  rintro block ⟨⟩
  unfold ofJson? at h
  split at h
  · cases h
  · obtain ⟨read, hread, h⟩ := bind_eq_ok_iff.mp h
    cases h
    cases regular with
    | obj names all =>
        cases hread
        exact ⟨Json.Regular.getD_find? all _ (.str _), Json.Regular.getD_find? all _ .null⟩
    | null | bool | int | float | str | arr => cases hread

namespace ReadableMembers

variable {members : List (String × Json)}

/-- The value of a keyword is regular, or null when there is none. -/
theorem regular_rawOf (h : ReadableMembers members) (name : String) :
    (Reading.rawOf (Reading.ofMembers members) name).Regular := by
  rw [Reading.rawOf_ofMembers]
  exact Json.Regular.getD_find? h.regular name .null

/-- The type of a fragment is regular, or the default when there is none. -/
theorem regular_typeOf (h : ReadableMembers members) (default : String) :
    (Reading.typeOf (Reading.ofMembers members) default).Regular := by
  rw [Reading.typeOf_ofMembers]
  exact Json.Regular.getD_find? h.regular "type" (.str default)

/-- The head of a fragment has regular values. -/
theorem regular_headOf (h : ReadableMembers members) (default : String) :
    (Reading.headOf (Reading.ofMembers members)
      (Reading.typeOf (Reading.ofMembers members) default)).Regular :=
  ⟨h.regular_typeOf default, h.regular_rawOf _, h.regular_rawOf _, h.regular_rawOf _,
    h.regular_rawOf _⟩

/-- The value of a member is readable. -/
theorem reads_of_find? (h : ReadableMembers members) {name : String} {value : Json}
    (found : Table.find? members name = some value) : value.ReadsAs :=
  h.reads _ (Table.mem_of_find? found)

/-- What is read of the keyword that tells the kind of a fragment is readable. -/
theorem reads_of_kindOf (h : ReadableMembers members) {content : Json}
    (kind : (Reading.kindOf members).content? = some content) : content.ReadsAs := by
  obtain ⟨name, found⟩ := Reading.exists_find?_of_kindOf kind
  exact h.reads_of_find? found

/-- Named fragments under a keyword are readable. -/
theorem readable_table? (h : ReadableMembers members) {name : String}
    {table : Option (Table String Definition)}
    (read : Reading.table? (Reading.ofMembers members) name = .ok table) :
    ∀ entries ∈ table, ReadableTable entries := by
  rintro entries ⟨⟩
  rw [Reading.table?_ofMembers] at read
  split at read
  · cases read
  · next value found =>
      split at read
      · cases read
      · obtain ⟨entries, hentries, heq⟩ := map_eq_ok_iff.mp read
        cases heq
        exact (h.reads_of_find? found).table hentries

/-- What an object says about members that it does not name is a plain value that is no
object, or a readable fragment. -/
theorem readable_additionalOf (h : ReadableMembers members) {additional : Additional Definition}
    (read : Reading.additionalOf (Reading.ofMembers members) = .ok additional) :
    (∃ content, additional = .plain content ∧
        content.Regular ∧ ∀ fields, content ≠ .obj fields) ∨
      ∃ fragment, additional = .schema fragment ∧ fragment.Readable := by
  rw [Reading.additionalOf, Reading.find?_ofMembers] at read
  cases found : Table.find? members "additionalProperties" with
  | none =>
      rw [found] at read
      cases read
      exact Or.inl ⟨.null, rfl, .null, by simp⟩
  | some value =>
      have hregular : value.Regular := h.regular _ (Table.mem_of_find? found)
      rw [found, Option.map_some] at read
      dsimp only at read
      rw [Reading.raw_ofJson] at read
      cases value with
      | obj fields =>
          obtain ⟨fragment, hfragment, rfl⟩ := map_eq_ok_iff.mp read
          exact Or.inr ⟨fragment, rfl, (h.reads_of_find? found).fragment hfragment⟩
      | null | bool | int | float | str | arr =>
          cases read
          exact Or.inl ⟨_, rfl, hregular, by simp⟩

/-- The fragment that an object is read as is readable. -/
theorem readable_fragmentAs (h : ReadableMembers members) {definition : Definition}
    (read : Reading.fragmentAs (Reading.ofMembers members) (Reading.kindOf members) =
      .ok definition) : definition.Readable := by
  cases kind : Reading.kindOf members with
  | oneOf choices =>
      rw [kind, Reading.fragmentAs] at read
      obtain ⟨options, hoptions, read⟩ := bind_eq_ok_iff.mp read
      obtain ⟨discriminator, hdiscriminator, read⟩ := bind_eq_ok_iff.mp read
      cases read
      exact .oneOf (h.regular_rawOf _) ((h.reads_of_kindOf (by rw [kind]; rfl)).options hoptions)
        (DiscriminatorBlock.regular_of_ofJson? (h.regular_rawOf _) hdiscriminator)
  | anyOf choices =>
      rw [kind, Reading.fragmentAs] at read
      obtain ⟨options, hoptions, rfl⟩ := map_eq_ok_iff.mp read
      exact .anyOf (h.regular_rawOf _) ((h.reads_of_kindOf (by rw [kind]; rfl)).options hoptions)
  | allOf choices =>
      rw [kind, Reading.fragmentAs] at read
      obtain ⟨options, hoptions, rfl⟩ := map_eq_ok_iff.mp read
      exact .allOf (h.regular_rawOf _) ((h.reads_of_kindOf (by rw [kind]; rfl)).options hoptions)
  | reference target =>
      rw [kind] at read
      cases read
      have hcontent : (Reading.kindOf members).content? = some target := by rw [kind]; rfl
      obtain ⟨name, found⟩ := Reading.exists_find?_of_kindOf hcontent
      exact .reference (h.regular _ (Table.mem_of_find? found)) (h.regular_rawOf _)
  | array items =>
      cases items with
      | none =>
          rw [kind] at read
          cases read
          exact .array (h.regular_headOf _) (Or.inr (Reading.primaryType_of_kindOf_array kind))
            (by simp)
      | some items =>
          rw [kind, Reading.fragmentAs] at read
          obtain ⟨fragment, hfragment, rfl⟩ := map_eq_ok_iff.mp read
          refine .array (h.regular_headOf _) (Or.inl rfl) ?_
          rintro inner ⟨⟩
          exact (h.reads_of_kindOf (by rw [kind]; rfl)).fragment hfragment
  | object =>
      rw [kind, Reading.fragmentAs] at read
      obtain ⟨properties, hproperties, read⟩ := bind_eq_ok_iff.mp read
      obtain ⟨additional, hadditional, read⟩ := bind_eq_ok_iff.mp read
      cases read
      have htable := h.readable_table? hproperties
      refine .object (h.regular_headOf _) (fun table mem => (htable table mem).names)
        (fun table mem => (htable table mem).parts) (h.regular_rawOf _) ?_ ?_
      · rintro content rfl
        rcases h.readable_additionalOf hadditional with ⟨_, ⟨⟩, hcontent⟩ | ⟨_, ⟨⟩, _⟩
        exact hcontent
      · rintro fragment rfl
        rcases h.readable_additionalOf hadditional with ⟨_, ⟨⟩, _⟩ | ⟨_, ⟨⟩, hfragment⟩
        exact hfragment
  | value =>
      rw [kind] at read
      cases read
      exact .value (h.regular_headOf _) (h.regular_rawOf _)
        (Reading.primaryType_of_kindOf_value kind (Or.inl rfl))
        (Reading.primaryType_of_kindOf_value kind (Or.inr rfl))

/-- The body that an object is read as is readable. -/
theorem readable_body (h : ReadableMembers members) {body : SchemaBody}
    (read : SchemaBody.decode (.obj members) = .ok body) : body.Readable := by
  rw [SchemaBody.decode_obj] at read
  obtain ⟨properties, hproperties, read⟩ := bind_eq_ok_iff.mp read
  obtain ⟨oneOf, honeOf, read⟩ := bind_eq_ok_iff.mp read
  obtain ⟨discriminator, hdiscriminator, read⟩ := bind_eq_ok_iff.mp read
  obtain ⟨defs, hdefs, read⟩ := bind_eq_ok_iff.mp read
  cases read
  refine ⟨h.regular_rawOf _, h.regular_rawOf _, h.regular_typeOf _, h.regular_rawOf _,
    h.readable_table? hproperties, h.regular_rawOf _, h.regular_rawOf _, ?_,
    DiscriminatorBlock.regular_of_ofJson? (h.regular_rawOf _) hdiscriminator,
    h.readable_table? hdefs⟩
  rintro options ⟨⟩
  rw [Reading.choices?, Reading.find?_ofMembers] at honeOf
  cases found : Table.find? members "oneOf" with
  | none => rw [found] at honeOf; cases honeOf
  | some value =>
      rw [found, Option.map_some] at honeOf
      dsimp only at honeOf
      split at honeOf
      · cases honeOf
      · obtain ⟨read, hread, heq⟩ := map_eq_ok_iff.mp honeOf
        cases heq
        exact (h.reads_of_find? found).options hread

end ReadableMembers

/-- Elements that are refused one by one are read only where there are none. -/
theorem readable_of_mapM_notObject {elements : List Json} {part : String}
    {options : List Definition} (h : elements.mapM (notObject part) = .ok options) :
    ∀ option ∈ options, option.Readable :=
  forall_of_mapM (fun _ _ _ refused => by cases refused) h

/-- The entries of a table are readable and keep the names of the members. -/
theorem ReadableMembers.readable_table {members : List (String × Json)}
    (h : ReadableMembers members) (names : (members.map Prod.fst).Nodup)
    {table : Table String Definition} (read : (Reading.ofJson (.obj members)).table = .ok table) :
    ReadableTable table := by
  change (Reading.ofMembers members).mapM (fun part => do return (part.1, ← part.2.fragment)) = _
    at read
  rw [Reading.ofMembers_eq_map, List.mapM_map] at read
  have hentry : ∀ (member : String × Json) entry,
      (do return (member.1, ← (Reading.ofJson member.2).fragment) :
        Except Error (String × Definition)) = .ok entry →
      entry.1 = member.1 ∧ (Reading.ofJson member.2).fragment = .ok entry.2 := by
    intro member entry hentry
    obtain ⟨fragment, hfragment, heq⟩ := bind_eq_ok_iff.mp hentry
    cases heq
    exact ⟨rfl, hfragment⟩
  constructor
  · rw [map_eq_of_mapM (fun member entry h => (hentry member entry h).1) read]
    exact names
  · exact forall_of_mapM (fun member mem entry hread =>
      (h.reads member mem).fragment (hentry member entry hread).2) read

/-- What a reader gives for a regular value is readable, by induction on the value. -/
theorem Json.Regular.readsAs {value : Json} (regular : value.Regular) : value.ReadsAs := by
  induction regular with
  | null | bool | int | float => exact ⟨nofun, nofun, nofun⟩
  | str text => exact ⟨nofun, readable_of_mapM_notObject, nofun⟩
  | @arr items all ih =>
      refine ⟨nofun, fun h => ?_, nofun⟩
      change (Reading.ofItems items).mapM (·.fragment) = _ at h
      rw [Reading.ofItems_eq_map, List.mapM_map] at h
      exact forall_of_mapM (fun item mem _ hitem => (ih item mem).fragment hitem) h
  | @obj members names all ih =>
      have hmembers : ReadableMembers members := ⟨all, ih⟩
      refine ⟨fun h => ?_, readable_of_mapM_notObject, hmembers.readable_table names⟩
      rw [Reading.fragment_ofJson_obj] at h
      exact hmembers.readable_fragmentAs h

/-! ## Bodies -/

/-- A readable body is the same as what is read back from its rendering exactly when it has no
bare object in it. -/
theorem SchemaBody.Readable.same_reread_iff {body : SchemaBody} (h : body.Readable) :
    body.reread.same body = true ↔ ¬ body.HoldsBare := by
  constructor
  · intro same
    rw [reread, SchemaBody.same] at same
    simp only [Bool.and_eq_true] at same
    -- Of the ten fields, the properties, the alternatives and the definitions hold fragments.
    have hproperties := Definition.same_of_sameProperties
      (fun table mem => (h.properties table mem).names) same.1.1.1.1.1.2
    have hdefs := Definition.same_of_sameProperties
      (fun table mem => (h.defs table mem).names) same.2
    refine not_holdsBare_iff.mpr ⟨fun table mem entry hentry => ?_,
      fun options mem option hoption => ?_, fun table mem entry hentry => ?_⟩
    · exact ((h.properties table mem).parts entry hentry).not_holdsBare_of_same
        (hproperties table mem entry hentry)
    · have hoptions := same.1.1.2
      rw [mem, Option.map_some, sameOption] at hoptions
      exact (h.oneOf options mem option hoption).not_holdsBare_of_same
        (Definition.same_of_sameAll hoptions option hoption)
    · exact ((h.defs table mem).parts entry hentry).not_holdsBare_of_same
        (hdefs table mem entry hentry)
  · intro full
    rw [h.reread_eq_self full]
    exact h.same_self

/-- The body that a reader gives for a regular value is readable. -/
theorem SchemaBody.readable_of_decode {value : Json} (regular : value.Regular) {body : SchemaBody}
    (h : SchemaBody.decode value = .ok body) : body.Readable := by
  cases regular with
  | obj names all =>
      exact ReadableMembers.readable_body ⟨all, fun member mem => (all member mem).readsAs⟩ h
  | null | bool | int | float | str | arr => cases h

/-! ## Documents -/

/-- The members of an object that a text without NaN holds are regular. -/
theorem regular_of_parseObject {text : String} {members : List (String × Json)}
    (number : Json.textHoldsNaN text = false) (h : parseObject text = .ok members) :
    ∀ member ∈ members, member.2.Regular := by
  unfold parseObject at h
  split at h
  · cases h
  · next hparse =>
      cases h
      cases Json.regular_of_parse hparse number with
      | obj names all => exact all
  · cases h

/-- A document that is decoded from a text without NaN is readable. -/
theorem SchemaDocument.readable_of_decode {text : String} {document : SchemaDocument}
    (number : Json.textHoldsNaN text = false) (h : SchemaDocument.decode text = .ok document) :
    document.Readable := by
  obtain ⟨members, hmembers, h⟩ := bind_eq_ok_iff.mp h
  have hregular := regular_of_parseObject number hmembers
  split at h
  · cases h
  · next name found =>
      obtain ⟨body, hbody, h⟩ := bind_eq_ok_iff.mp h
      cases h
      exact ⟨hregular _ (Table.mem_of_find? found), ⟨_, rfl⟩,
        Json.Regular.getD_find? hregular _ .null,
        SchemaBody.readable_of_decode (Json.Regular.getD_find? hregular _ .emptyObject) hbody⟩

/-- A tool that is decoded from a text without NaN is readable. -/
theorem ToolDocument.readable_of_decode {text : String} {document : ToolDocument}
    (number : Json.textHoldsNaN text = false) (h : ToolDocument.decode text = .ok document) :
    document.Readable := by
  obtain ⟨members, hmembers, h⟩ := bind_eq_ok_iff.mp h
  have hregular := regular_of_parseObject number hmembers
  dsimp only at h
  split at h
  · cases h
  · next name found =>
      split at h
      · obtain ⟨parameters, hparameters, h⟩ := bind_eq_ok_iff.mp h
        cases h
        exact ⟨rfl, hregular _ (Table.mem_of_find? found),
          Json.Regular.getD_find? hregular _ (.str ""), ⟨_, rfl⟩, SchemaBody.readable_of_decode
            (Json.Regular.getD_find? hregular _ .emptyObject) hparameters⟩
      · cases h

/-- A readable document is the same as what is read back from its text exactly when its body
has no bare object in it. -/
theorem SchemaDocument.Readable.same_reread_iff {document : SchemaDocument}
    (h : document.Readable) : document.reread.same document = true ↔ ¬ document.body.HoldsBare := by
  obtain ⟨strict, hstrict⟩ := h.strict
  rw [← h.body.same_reread_iff, reread, SchemaDocument.same]
  simp only [h.name.same_self, hstrict, (Json.Regular.bool strict).same_self,
    h.description.same_self, Bool.true_and]

/-- A readable tool is the same as what is read back from its text exactly when its parameters
have no bare object in them. -/
theorem ToolDocument.Readable.same_reread_iff {document : ToolDocument} (h : document.Readable) :
    document.reread.same document = true ↔ ¬ document.parameters.HoldsBare := by
  obtain ⟨strict, hstrict⟩ := h.strict
  rw [← h.parameters.same_reread_iff, reread, ToolDocument.same]
  simp only [h.type, (Json.Regular.str "function").same_self, h.name.same_self, hstrict,
    (Json.Regular.bool strict).same_self, h.description.same_self, Bool.true_and]

/-- A document of either dialect that was read from a text without NaN is encoded and read
again.  The second document is the same as the first exactly when the first has no bare object
in it, and then they are equal. -/
theorem decode_encode_decode {text : String} (number : Json.textHoldsNaN text = false)
    {layout : Layout} (blank : Json.Parser.BlankLayout layout) :
    (∀ document, SchemaDocument.decode text = .ok document →
      ∃ again, SchemaDocument.decode (document.encode layout) = .ok again ∧
        (again.same document = true ↔ ¬ document.body.HoldsBare) ∧
        (¬ document.body.HoldsBare → again = document)) ∧
    (∀ document, ToolDocument.decode text = .ok document →
      ∃ again, ToolDocument.decode (document.encode layout) = .ok again ∧
        (again.same document = true ↔ ¬ document.parameters.HoldsBare) ∧
        (¬ document.parameters.HoldsBare → again = document)) := by
  constructor
  · intro document h
    have hreadable := SchemaDocument.readable_of_decode number h
    refine ⟨document.reread, hreadable.decode_encode blank, hreadable.same_reread_iff, ?_⟩
    intro full
    rw [SchemaDocument.reread, hreadable.body.reread_eq_self full]
  · intro document h
    have hreadable := ToolDocument.readable_of_decode number h
    refine ⟨document.reread, hreadable.decode_encode blank, hreadable.same_reread_iff, ?_⟩
    intro full
    rw [ToolDocument.reread, hreadable.parameters.reread_eq_self full]

/-! ## Two texts -/

/-- A document with null in place of the properties of a text. -/
def emptiedText : String :=
  "\x7b\"name\": \"A\", \"schema\": \x7b\"properties\": \x7b\"a\": " ++
    "\x7b\"type\": \"string\", \"properties\": null\x7d\x7d\x7d\x7d"

/-- It is encoded and read again, and is not the same. -/
theorem emptiedText_differs : Json.textHoldsNaN emptiedText = false ∧
    ∃ document again, SchemaDocument.decode emptiedText = .ok document ∧
      SchemaDocument.decode (document.encode .compact) = .ok again ∧
      again.same document = false := by
  have hnumber : Json.textHoldsNaN emptiedText = false := by decide +kernel
  have hdiffers : ((SchemaDocument.decode emptiedText).toOption.map fun document =>
      document.reread.same document) = some false := by
    decide +kernel
  obtain ⟨document, hdocument, hsame⟩ := Option.map_eq_some_iff.mp hdiffers
  have hdecode := eq_ok_of_toOption hdocument
  exact ⟨hnumber, document, document.reread, hdecode,
    (SchemaDocument.readable_of_decode hnumber hdecode).decode_encode trivial, hsame⟩

/-- A text that holds a document and a tool.  One of its objects is told by its type only, and
has null in place of its properties. -/
def listedNote : String :=
  "\x7b\"type\":\"function\",\"name\":\"N\",\"schema\":" ++
    "\x7b\"oneOf\":[\x7b\"type\":\"object\",\"properties\":null\x7d]\x7d,\"parameters\":" ++
    "\x7b\"properties\":\x7b\"a\":\x7b\"items\":\x7b\x7d\x7d\x7d\x7d\x7d"

/-- Both are read, have no bare object in them, and are equal to what is read again. -/
theorem listedNote_readsAgain :
    (∃ document, SchemaDocument.decode listedNote = .ok document ∧ ¬ document.body.HoldsBare ∧
      SchemaDocument.decode (document.encode .compact) = .ok document) ∧
    ∃ document, ToolDocument.decode listedNote = .ok document ∧
      ¬ document.parameters.HoldsBare ∧
      ToolDocument.decode (document.encode .compact) = .ok document := by
  have hnumber : Json.textHoldsNaN listedNote = false := by decide +kernel
  have hreads := decode_encode_decode hnumber (show Json.Parser.BlankLayout .compact from trivial)
  constructor
  · have hchecked : ((SchemaDocument.decode listedNote).toOption.map fun document =>
        document.reread.same document) = some true := by
      decide +kernel
    obtain ⟨document, hdocument, hsame⟩ := Option.map_eq_some_iff.mp hchecked
    have hdecode := eq_ok_of_toOption hdocument
    have hfull := (SchemaDocument.readable_of_decode hnumber hdecode).same_reread_iff.mp hsame
    obtain ⟨again, hagain, _, hequal⟩ := hreads.1 document hdecode
    rw [hequal hfull] at hagain
    exact ⟨document, hdecode, hfull, hagain⟩
  · have hchecked : ((ToolDocument.decode listedNote).toOption.map fun document =>
        document.reread.same document) = some true := by
      decide +kernel
    obtain ⟨document, hdocument, hsame⟩ := Option.map_eq_some_iff.mp hchecked
    have hdecode := eq_ok_of_toOption hdocument
    have hfull := (ToolDocument.readable_of_decode hnumber hdecode).same_reread_iff.mp hsame
    obtain ⟨again, hagain, _, hequal⟩ := hreads.2 document hdecode
    rw [hequal hfull] at hagain
    exact ⟨document, hdecode, hfull, hagain⟩

end Schemata
