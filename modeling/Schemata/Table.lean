/-!
# Tables

A table lists its entries in the order in which their keys were first written.
Writing a key again replaces the value and keeps the place, so a key occurs once
in every table that is built with {lit}`put`.

Main results:

- Theorem {lit}`find?_put`: reading after a write gives the written value at its
  key and the old value elsewhere.
- Theorem {lit}`keys_put`: a write adds its key at the end when it is new and
  changes no key otherwise.
-/

namespace Schemata

/-- Entries in the order in which their keys were first written. -/
abbrev Table (κ α : Type) := List (κ × α)

namespace Table

variable {κ α β : Type} [BEq κ]

/-- The value written at a key. -/
def find? (table : Table κ α) (key : κ) : Option α :=
  List.lookup key table

/-- Whether a key was written. -/
def has (table : Table κ α) (key : κ) : Bool :=
  (table.find? key).isSome

/-- The keys in order. -/
def keys (table : Table κ α) : List κ :=
  table.map Prod.fst

/-- Write a value: a known key keeps its place, a new one goes to the end. -/
def put : Table κ α → κ → α → Table κ α
  | [], key, value => [(key, value)]
  | (k, v) :: rest, key, value =>
    if key == k then (k, value) :: rest else (k, v) :: put rest key value

/-- Remove a key. -/
def erase (table : Table κ α) (key : κ) : Table κ α :=
  table.filter fun entry => !(entry.1 == key)

/-- Write entries one after the other, so the last value of a repeated key wins. -/
def ofEntries (entries : List (κ × α)) : Table κ α :=
  entries.foldl (fun table entry => put table entry.1 entry.2) []

/-! ## Reading after a write -/

@[simp] theorem find?_nil (key : κ) : find? ([] : Table κ α) key = none := rfl

/-- The first entry is found when its key is equal to the one asked for. -/
theorem find?_cons (k : κ) (v : α) (rest : Table κ α) (key : κ) :
    find? ((k, v) :: rest) key = if key == k then some v else find? rest key := by
  unfold find?
  rw [List.lookup_cons]
  cases key == k <;> rfl

/-- Of two tables in a row the first counts. -/
theorem find?_append (table others : Table κ α) (key : κ) :
    find? (table ++ others) key = (find? table key).or (find? others key) := by
  induction table with
  | nil => rfl
  | cons entry rest ih =>
    obtain ⟨k, v⟩ := entry
    rw [List.cons_append, find?_cons, find?_cons, ih]
    cases key == k <;> rfl

/-- Nothing is found when no key is equal to the one asked for. -/
theorem find?_eq_none_iff {table : Table κ α} {key : κ} :
    table.find? key = none ↔ ∀ entry ∈ table, (key == entry.1) = false := by
  induction table with
  | nil => simp
  | cons entry rest ih =>
    obtain ⟨k, v⟩ := entry
    rw [find?_cons, List.forall_mem_cons, ← ih]
    cases key == k <;> simp

/-- Only the entry that is put is found differently. -/
theorem find?_put [LawfulBEq κ] (table : Table κ α) (key other : κ) (value : α) :
    find? (put table key value) other = if other == key then some value else find? table other := by
  induction table with
  | nil => simp [put, find?_cons]
  | cons entry rest ih =>
    obtain ⟨k, v⟩ := entry
    by_cases h : key = k
    · subst h
      simp only [put, beq_self_eq_true, if_true, find?_cons]
      cases other == key <;> rfl
    · have hk : (key == k) = false := by simpa using h
      simp only [put, hk, Bool.false_eq_true, if_false, find?_cons, ih]
      by_cases ho : other = k
      · subst ho
        have : (other == key) = false := by simpa using fun e : other = key => h e.symm
        simp [this]
      · have : (other == k) = false := by simpa using ho
        simp [this]

/-- What is read after a write is the written value or was read before, also when equality
of keys is not identity. -/
theorem value_of_find?_put {table : Table κ α} {key other : κ} {value found : α}
    (h : (put table key value).find? other = some found) :
    found = value ∨ table.find? other = some found := by
  induction table with
  | nil =>
    rw [put, find?_cons] at h
    split at h
    · exact Or.inl (Option.some.inj h).symm
    · cases h
  | cons entry rest ih =>
    obtain ⟨k, v⟩ := entry
    rw [put] at h
    by_cases hk : (key == k) = true
    · rw [if_pos hk, find?_cons] at h
      rw [find?_cons]
      by_cases ho : (other == k) = true
      · rw [if_pos ho] at h
        exact Or.inl (Option.some.inj h).symm
      · rw [if_neg ho] at h ⊢
        exact Or.inr h
    · rw [if_neg hk, find?_cons] at h
      rw [find?_cons]
      by_cases ho : (other == k) = true
      · rw [if_pos ho] at h ⊢
        exact Or.inr h
      · rw [if_neg ho] at h ⊢
        exact ih h

/-- A new key comes last, and a known one stays where it is. -/
theorem keys_put [LawfulBEq κ] (table : Table κ α) (key : κ) (value : α) :
    keys (put table key value) = if key ∈ keys table then keys table else keys table ++ [key] := by
  induction table with
  | nil => simp [put, keys]
  | cons entry rest ih =>
    obtain ⟨k, v⟩ := entry
    by_cases h : key = k
    · subst h
      simp [put, keys]
    · have hk : (key == k) = false := by simpa using h
      simp only [put, hk, Bool.false_eq_true, if_false]
      simp only [keys, List.map_cons, List.mem_cons, h, false_or] at ih ⊢
      rw [ih]
      by_cases hm : key ∈ rest.map Prod.fst <;> simp [hm]

/-- A table has the keys that are listed for it. -/
theorem has_iff_mem_keys [LawfulBEq κ] (table : Table κ α) (key : κ) :
    table.has key = true ↔ key ∈ table.keys := by
  induction table with
  | nil => simp [has, keys]
  | cons entry rest ih =>
    obtain ⟨k, v⟩ := entry
    unfold has at ih ⊢
    rw [find?_cons, keys, List.map_cons, List.mem_cons, ← keys, ← ih]
    by_cases h : key = k
    · simp [h]
    · simp [h]

/-- A key at which something is read is a key of the table. -/
theorem mem_keys_of_find? [LawfulBEq κ] {table : Table κ α} {key : κ} {value : α}
    (found : table.find? key = some value) : key ∈ table.keys := by
  rw [← has_iff_mem_keys, has, found]
  rfl

/-- What is read at a key is an entry of the table. -/
theorem mem_of_find? [LawfulBEq κ] {table : Table κ α} {key : κ} {value : α}
    (h : table.find? key = some value) : (key, value) ∈ table := by
  induction table with
  | nil => cases h
  | cons entry rest ih =>
    obtain ⟨k, v⟩ := entry
    rw [find?_cons] at h
    split at h
    · rename_i hk
      rw [eq_of_beq hk, ← Option.some.inj h]
      exact List.mem_cons_self ..
    · exact List.mem_cons_of_mem _ (ih h)

/-- What is read is the value of an entry, also when equality of keys is not identity. -/
theorem exists_mem_of_find? {table : Table κ α} {key : κ} {value : α}
    (h : table.find? key = some value) : ∃ known, (known, value) ∈ table := by
  induction table with
  | nil => cases h
  | cons entry rest ih =>
    obtain ⟨k, v⟩ := entry
    rw [find?_cons] at h
    split at h
    · exact ⟨k, Option.some.inj h ▸ List.mem_cons_self ..⟩
    · obtain ⟨known, hknown⟩ := ih h
      exact ⟨known, List.mem_cons_of_mem _ hknown⟩

/-- What is read is the value of an entry whose key counts as the one asked for. -/
theorem exists_key_of_find? {table : Table κ α} {key : κ} {value : α}
    (h : table.find? key = some value) : ∃ known, (key == known) = true ∧ (known, value) ∈ table := by
  induction table with
  | nil => cases h
  | cons entry rest ih =>
    obtain ⟨k, v⟩ := entry
    rw [find?_cons] at h
    split at h
    · rename_i hk
      exact ⟨k, hk, Option.some.inj h ▸ List.mem_cons_self ..⟩
    · obtain ⟨known, hk, hknown⟩ := ih h
      exact ⟨known, hk, List.mem_cons_of_mem _ hknown⟩

/-- An entry of a table with distinct keys is what is read at its key. -/
theorem find?_of_mem [LawfulBEq κ] {table : Table κ α} (distinct : table.keys.Nodup)
    {entry : κ × α} (h : entry ∈ table) : table.find? entry.1 = some entry.2 := by
  induction table with
  | nil => cases h
  | cons first rest ih =>
    obtain ⟨k, v⟩ := first
    rw [keys, List.map_cons, List.nodup_cons] at distinct
    rw [find?_cons]
    rcases List.mem_cons.mp h with rfl | hrest
    · rw [if_pos (beq_self_eq_true k)]
    · have hkey : entry.1 ≠ k := by
        rintro rfl
        exact distinct.1 (List.mem_map.mpr ⟨entry, hrest, rfl⟩)
      rw [if_neg (by simpa using hkey)]
      exact ih distinct.2 hrest

/-- A table with one more entry has its key and those from before. -/
theorem mem_keys_put [LawfulBEq κ] (table : Table κ α) (key other : κ) (value : α) :
    other ∈ (put table key value).keys ↔ other = key ∨ other ∈ table.keys := by
  rw [keys_put]
  by_cases h : key ∈ keys table
  · rw [if_pos h]
    constructor
    · exact Or.inr
    · rintro (rfl | hother)
      · exact h
      · exact hother
  · rw [if_neg h, List.mem_append, List.mem_singleton]
    exact Or.comm

/-- Changing keys and values commutes with a write, when no keys are joined. -/
theorem put_mapEntries {ι : Type} [BEq ι] {f : κ → ι} (same : ∀ a b, (f a == f b) = (a == b))
    (g : α → β) (table : Table κ α) (key : κ) (value : α) :
    put (table.map fun entry => (f entry.1, g entry.2)) (f key) (g value) =
      (put table key value).map fun entry => (f entry.1, g entry.2) := by
  induction table with
  | nil => rfl
  | cons entry rest ih =>
    obtain ⟨k, v⟩ := entry
    by_cases hk : (key == k) = true
    · simp [put, same, hk]
    · simp [put, same, hk, ih]

/-- Changing the values commutes with a write. -/
theorem map_put (f : α → β) (table : Table κ α) (key : κ) (value : α) :
    (put table key value).map (fun entry => (entry.1, f entry.2)) =
      put (table.map fun entry => (entry.1, f entry.2)) key (f value) :=
  (put_mapEntries (fun _ _ => rfl) f table key value).symm

/-- Changing the values commutes with writing entries. -/
theorem map_ofEntries (f : α → β) (entries : List (κ × α)) :
    (ofEntries entries).map (fun entry => (entry.1, f entry.2)) =
      ofEntries (entries.map fun entry => (entry.1, f entry.2)) := by
  suffices h : ∀ table : Table κ α,
      (entries.foldl (fun table entry => put table entry.1 entry.2) table).map
          (fun entry => (entry.1, f entry.2)) =
        (entries.map fun entry => (entry.1, f entry.2)).foldl
          (fun table entry => put table entry.1 entry.2)
          (table.map fun entry => (entry.1, f entry.2)) from h []
  induction entries with
  | nil => exact fun _ => rfl
  | cons first rest ih =>
    intro table
    rw [List.foldl_cons, ih, map_put, List.map_cons, List.foldl_cons]

/-- Reading in a table whose keys and values are changed is changing what is read, when no
keys are joined. -/
theorem find?_mapEntries {ι : Type} [BEq ι] {f : κ → ι} (same : ∀ a b, (f a == f b) = (a == b))
    (g : α → β) (table : Table κ α) (key : κ) :
    find? (table.map fun entry => (f entry.1, g entry.2)) (f key) = (table.find? key).map g := by
  induction table with
  | nil => rfl
  | cons entry rest ih =>
    rw [List.map_cons, find?_cons, find?_cons, ih, same]
    cases key == entry.1 <;> rfl

/-- Reading changed values is changing what is read. -/
theorem find?_map (f : α → β) (table : Table κ α) (key : κ) :
    find? (table.map fun entry => (entry.1, f entry.2)) key = (table.find? key).map f :=
  find?_mapEntries (fun _ _ => rfl) f table key

/-- A write keeps the keys distinct. -/
theorem nodup_keys_put [LawfulBEq κ] {table : Table κ α} (distinct : table.keys.Nodup) (key : κ)
    (value : α) : (put table key value).keys.Nodup := by
  rw [keys_put]
  split
  · exact distinct
  · rename_i new
    rw [List.nodup_append]
    refine ⟨distinct, by simp, ?_⟩
    rintro other hother _ hkey rfl
    rw [List.mem_singleton] at hkey
    exact new (hkey ▸ hother)

/-- A table of written entries has distinct keys. -/
theorem nodup_keys_ofEntries [LawfulBEq κ] (entries : List (κ × α)) :
    (ofEntries entries).keys.Nodup := by
  suffices h : ∀ table : Table κ α, table.keys.Nodup →
      (entries.foldl (fun table entry => put table entry.1 entry.2) table).keys.Nodup from
    h [] List.nodup_nil
  induction entries with
  | nil => exact fun _ distinct => distinct
  | cons first rest ih => exact fun _ distinct => ih _ (nodup_keys_put distinct ..)

/-- The entries of a table of written entries are what is read there. -/
theorem mem_ofEntries_iff [LawfulBEq κ] {entries : List (κ × α)} {key : κ} {value : α} :
    (key, value) ∈ ofEntries entries ↔ (ofEntries entries).find? key = some value :=
  ⟨find?_of_mem (nodup_keys_ofEntries entries), mem_of_find?⟩

/-- The keys of a table of written entries are those of the entries. -/
theorem mem_keys_ofEntries [LawfulBEq κ] {entries : List (κ × α)} {key : κ} :
    key ∈ (ofEntries entries).keys ↔ key ∈ entries.map Prod.fst := by
  suffices h : ∀ table : Table κ α,
      key ∈ (entries.foldl (fun table entry => put table entry.1 entry.2) table).keys ↔
        key ∈ table.keys ∨ key ∈ entries.map Prod.fst by
    rw [ofEntries, h []]
    exact or_iff_right List.not_mem_nil
  induction entries with
  | nil => simp
  | cons first rest ih =>
    intro table
    rw [List.foldl_cons, ih, mem_keys_put, List.map_cons, List.mem_cons, or_comm (a := key = first.1),
      or_assoc]

/-- Changing the keys without joining any commutes with a write. -/
theorem put_mapKeys {ι : Type} [BEq ι] {f : κ → ι} (same : ∀ a b, (f a == f b) = (a == b))
    (table : Table κ α) (key : κ) (value : α) :
    put (table.map fun entry => (f entry.1, entry.2)) (f key) value =
      (put table key value).map fun entry => (f entry.1, entry.2) :=
  put_mapEntries same id table key value

/-- Changing the keys without joining any commutes with writing entries. -/
theorem ofEntries_mapKeys {ι : Type} [BEq ι] {f : κ → ι} (same : ∀ a b, (f a == f b) = (a == b))
    (entries : List (κ × α)) :
    ofEntries (entries.map fun entry => (f entry.1, entry.2)) =
      (ofEntries entries).map fun entry => (f entry.1, entry.2) := by
  suffices h : ∀ table : Table κ α,
      (entries.map fun entry => (f entry.1, entry.2)).foldl
          (fun table entry => put table entry.1 entry.2)
          (table.map fun entry => (f entry.1, entry.2)) =
        (entries.foldl (fun table entry => put table entry.1 entry.2) table).map
          fun entry => (f entry.1, entry.2) from h []
  induction entries with
  | nil => exact fun _ => rfl
  | cons first rest ih =>
    intro table
    rw [List.map_cons, List.foldl_cons, put_mapKeys same, ih, List.foldl_cons]

/-- Changing the keys commutes with writing entries when none of their keys are joined. -/
theorem ofEntries_mapKeys_of_mem {ι : Type} [BEq ι] {f : κ → ι} {entries : List (κ × α)}
    (same : ∀ a ∈ entries, ∀ b ∈ entries, (f a.1 == f b.1) = (a.1 == b.1)) :
    ofEntries (entries.map fun entry => (f entry.1, entry.2)) =
      (ofEntries entries).map fun entry => (f entry.1, entry.2) := by
  -- The keys that occur are a type of their own, on which no keys are joined at all.
  let Key := { key : κ // ∃ entry ∈ entries, entry.1 = key }
  let _ : BEq Key := ⟨fun a b => a.1 == b.1⟩
  obtain ⟨known, hknown⟩ : ∃ known : List (Key × α),
      known.map (fun entry => (entry.1.1, entry.2)) = entries := by
    refine ⟨entries.attach.map fun entry => (⟨entry.1.1, entry.1, entry.2, rfl⟩, entry.1.2), ?_⟩
    rw [List.map_map]
    exact List.attach_map_subtype_val entries
  have himage : known.map (fun entry => (f entry.1.1, entry.2)) =
      entries.map fun entry => (f entry.1, entry.2) := by
    rw [← congrArg (List.map fun entry => (f entry.1, entry.2)) hknown, List.map_map]
    rfl
  have hsame : ∀ a b : Key, (f a.1 == f b.1) = (a == b) := by
    rintro ⟨_, a, ha, rfl⟩ ⟨_, b, hb, rfl⟩
    exact same a ha b hb
  have hkeys := ofEntries_mapKeys (f := fun key : Key => key.1) (fun _ _ => rfl) known
  rw [hknown] at hkeys
  rw [← himage, ofEntries_mapKeys hsame, hkeys, List.map_map]
  rfl

/-- A new key goes to the end of the table. -/
theorem put_of_new {table : Table κ α} {key : κ} (new : ∀ entry ∈ table, (key == entry.1) = false)
    (value : α) : put table key value = table ++ [(key, value)] := by
  induction table with
  | nil => rfl
  | cons first rest ih =>
    obtain ⟨k, v⟩ := first
    rw [List.forall_mem_cons] at new
    rw [put, if_neg (by simp [new.1]), ih new.2, List.cons_append]

/-- A known key keeps its place between the entries before and after it. -/
theorem put_append_cons [LawfulBEq κ] {front : Table κ α} {key : κ} (new : key ∉ front.keys)
    (old value : α) (rest : Table κ α) :
    put (front ++ (key, old) :: rest) key value = front ++ (key, value) :: rest := by
  induction front with
  | nil => rw [List.nil_append, List.nil_append, put, if_pos (beq_self_eq_true key)]
  | cons first front ih =>
    obtain ⟨k, v⟩ := first
    rw [keys, List.map_cons, List.mem_cons, not_or] at new
    rw [List.cons_append, put, if_neg (by simpa using new.1), ih new.2, List.cons_append]

/-- Removing a key leaves the entries before and after it. -/
theorem erase_append_cons [LawfulBEq κ] {front rest : Table κ α} {key : κ} (before : key ∉ front.keys)
    (after : key ∉ rest.keys) (value : α) : erase (front ++ (key, value) :: rest) key = front ++ rest := by
  have hkeep : ∀ table : Table κ α, key ∉ table.keys →
      table.filter (fun entry => !(entry.1 == key)) = table := by
    intro table absent
    refine List.filter_eq_self.mpr fun entry mem => ?_
    rw [Bool.not_eq_true', beq_eq_false_iff_ne]
    rintro rfl
    exact absent (List.mem_map_of_mem mem)
  rw [erase, List.filter_append, List.filter_cons_of_neg (by simp), hkeep front before,
    hkeep rest after]

/-- An entry of a written table holds the written value or is an old one. -/
theorem value_of_mem_put {table : Table κ α} {key : κ} {value : α} {entry : κ × α}
    (h : entry ∈ put table key value) : entry.2 = value ∨ entry ∈ table := by
  induction table with
  | nil =>
    rw [put, List.mem_singleton] at h
    exact Or.inl (h ▸ rfl)
  | cons first rest ih =>
    obtain ⟨k, v⟩ := first
    rw [put] at h
    split at h
    · rcases List.mem_cons.mp h with rfl | h
      · exact Or.inl rfl
      · exact Or.inr (List.mem_cons_of_mem _ h)
    · rcases List.mem_cons.mp h with rfl | h
      · exact Or.inr (List.mem_cons_self ..)
      · exact (ih h).imp_right (List.mem_cons_of_mem _)

/-- An entry of a written table is an old one, or holds the written value under the written
key or one that counts as it. -/
theorem key_of_mem_put {table : Table κ α} {key : κ} {value : α} {entry : κ × α}
    (h : entry ∈ put table key value) :
    entry ∈ table ∨ entry.2 = value ∧ (entry.1 = key ∨ (key == entry.1) = true) := by
  induction table with
  | nil =>
    rw [put, List.mem_singleton] at h
    subst h
    exact Or.inr ⟨rfl, Or.inl rfl⟩
  | cons first rest ih =>
    obtain ⟨k, v⟩ := first
    rw [put] at h
    split at h
    · rename_i hk
      rcases List.mem_cons.mp h with rfl | h
      · exact Or.inr ⟨rfl, Or.inr hk⟩
      · exact Or.inl (List.mem_cons_of_mem _ h)
    · rcases List.mem_cons.mp h with rfl | h
      · exact Or.inl (List.mem_cons_self ..)
      · exact (ih h).imp_left (List.mem_cons_of_mem _)

/-- An entry of a written table is the written one or an old one. -/
theorem mem_put [LawfulBEq κ] {table : Table κ α} {key : κ} {value : α} {entry : κ × α}
    (h : entry ∈ put table key value) : entry = (key, value) ∨ entry ∈ table := by
  induction table with
  | nil => exact Or.inl (List.mem_singleton.mp h)
  | cons first rest ih =>
    obtain ⟨k, v⟩ := first
    by_cases hk : key = k
    · subst hk
      rw [put, if_pos (beq_self_eq_true key), List.mem_cons] at h
      exact h.imp_right (List.mem_cons_of_mem _)
    · rw [put, if_neg (by simpa using hk), List.mem_cons] at h
      rcases h with rfl | h
      · exact Or.inr (List.mem_cons_self ..)
      · exact (ih h).imp_right (List.mem_cons_of_mem _)

/-- A value of a table of written entries is that of one of them. -/
theorem value_of_mem_ofEntries {entries : List (κ × α)} {entry : κ × α}
    (h : entry ∈ ofEntries entries) : ∃ written ∈ entries, written.2 = entry.2 := by
  suffices hfold : ∀ table : Table κ α,
      entry ∈ entries.foldl (fun table entry => put table entry.1 entry.2) table →
      entry ∈ table ∨ ∃ written ∈ entries, written.2 = entry.2 by
    exact (hfold [] h).resolve_left List.not_mem_nil
  clear h
  induction entries with
  | nil => exact fun _ => Or.inl
  | cons first rest ih =>
    intro table h
    rcases ih _ h with h | ⟨written, hwritten, hvalue⟩
    · rcases value_of_mem_put h with hvalue | h
      · exact Or.inr ⟨first, List.mem_cons_self .., hvalue.symm⟩
      · exact Or.inl h
    · exact Or.inr ⟨written, List.mem_cons_of_mem _ hwritten, hvalue⟩

/-- An entry of a table of written entries is one of them. -/
theorem mem_ofEntries [LawfulBEq κ] {entries : List (κ × α)} {entry : κ × α}
    (h : entry ∈ ofEntries entries) : entry ∈ entries := by
  suffices hfold : ∀ table : Table κ α,
      entry ∈ entries.foldl (fun table entry => put table entry.1 entry.2) table →
      entry ∈ table ∨ entry ∈ entries by
    exact (hfold [] h).resolve_left List.not_mem_nil
  clear h
  induction entries with
  | nil => exact fun _ => Or.inl
  | cons first rest ih =>
    intro table h
    rcases ih _ h with h | h
    · rcases mem_put h with rfl | h
      · exact Or.inr (List.mem_cons_self ..)
      · exact Or.inl h
    · exact Or.inr (List.mem_cons_of_mem _ h)

end Table

end Schemata
