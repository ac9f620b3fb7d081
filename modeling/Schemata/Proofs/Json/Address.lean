import Schemata.Json.Basic

/-!
# Addresses in a JSON value

A JSON Pointer in a fragment, such as {lit}`#/$defs/Leaf`, names a place in a JSON value by the
way to it.  Behind the mark come the names of members and the indices of items from outside in,
each after a slash.  A slash in a name is written {lit}`~1` and a tilde {lit}`~0`, so that a name
is read in two passes: first every {lit}`~1` becomes a slash, then every {lit}`~0` a tilde.

A name that is written as it is does not always come back: a slash in it ends the name, and a
tilde before one of the two digits is taken for the sign.  Nothing else is changed by reading, so
these are the only names that have to be escaped.

Main results:

- Definition {lit}`Json.Locates`: an address leads to a place in a value and to what stands there.
- Theorem {lit}`unescape_eq_self_iff`: reading leaves a name as it is when it holds no sign.
- Theorem {lit}`read_eq_singleton_iff`: a name that is written as it is comes back exactly when it
  is plain.
-/

namespace Schemata

namespace Address

/-! ## Names in an address -/

/-- Put a character in the place of every tilde that a digit follows, with the digit. -/
def expand (digit meaning : Char) : List Char → List Char
  | '~' :: next :: rest =>
    if next = digit then meaning :: expand digit meaning rest
    else '~' :: expand digit meaning (next :: rest)
  | first :: rest => first :: expand digit meaning rest
  | [] => []

/-- The name that is meant where signs for slashes and tildes may stand in it. -/
def unescape (name : List Char) : List Char :=
  expand '0' '~' (expand '1' '/' name)

/-- The names that stand behind the first slash of an address. -/
def read (text : List Char) : List String :=
  (text.splitOn '/').map fun name => String.ofList (unescape name)

/-- The way that an address gives, from outside in.  The mark alone stands for the whole value,
and a text that does not begin like an address gives none. -/
def way? (address : String) : Option (List String) :=
  match address.toList with
  | ['#'] => some []
  | '#' :: '/' :: rest => some (read rest)
  | _ => none

/-- A name that comes back as it is when it is read: it has no slash and no sign in it. -/
structure IsPlain (name : String) : Prop where
  slash : '/' ∉ name.toList
  tildeSign : ¬ ['~', '0'] <:+: name.toList
  slashSign : ¬ ['~', '1'] <:+: name.toList

end Address

namespace Json

/-- The member of an object by its name, or the item of an array by its index, which is written
without leading zeros. -/
def part? : Json → String → Option Json
  | .obj members, name => Table.find? members name
  | .arr items, name => (items.zipIdx.find? fun item => toString item.2 == name).map (·.1)
  | _, _ => none

/-- What stands at the end of a way. -/
def at? (value : Json) : List String → Option Json
  | [] => some value
  | name :: way => (value.part? name).bind (·.at? way)

/-- An address leads to a place in a value, and to what stands there. -/
def Locates (value : Json) (address : String) (place : List String) (found : Json) : Prop :=
  Address.way? address = some place ∧ value.at? place = some found

end Json

namespace Address

variable {digit meaning : Char} {name : List Char}

/-! ## Signs -/

/-- No name becomes longer. -/
theorem length_expand_le (digit meaning : Char) (name : List Char) :
    (expand digit meaning name).length ≤ name.length := by
  fun_induction expand digit meaning name with
  | case1 => simp only [List.length_cons]; omega
  | case2 => simp only [List.length_cons] at *; omega
  | case3 => simpa
  | case4 => simp

/-- A name with a sign in it becomes shorter. -/
theorem length_expand_lt (h : ['~', digit] <:+: name) :
    (expand digit meaning name).length < name.length := by
  fun_induction expand digit meaning name with
  | case1 rest =>
      have hrest := length_expand_le digit meaning rest
      simp only [List.length_cons]
      omega
  | case2 next rest other ih =>
      rcases List.infix_cons_iff.mp h with hfirst | hrest
      · rw [List.cons_prefix_cons, List.cons_prefix_cons] at hfirst
        exact absurd hfirst.2.1.symm other
      · have hshorter := ih hrest
        simp only [List.length_cons] at *
        omega
  | case3 first rest apart ih =>
      rcases List.infix_cons_iff.mp h with hfirst | hrest
      · rw [List.cons_prefix_cons] at hfirst
        rcases hfirst with ⟨rfl, tail, rfl⟩
        exact absurd rfl (apart _ _ rfl)
      · simpa using ih hrest
  | case4 => simp at h

/-- A name without a sign in it stays as it is. -/
theorem expand_eq_self (h : ¬ ['~', digit] <:+: name) : expand digit meaning name = name := by
  fun_induction expand digit meaning name with
  | case1 rest => exact absurd ⟨[], rest, rfl⟩ h
  | case2 next rest other ih => rw [ih fun inside => h (List.infix_cons inside)]
  | case3 first rest apart ih => rw [ih fun inside => h (List.infix_cons inside)]
  | case4 => rfl

/-- Reading leaves a name as it is exactly when it holds no sign. -/
theorem unescape_eq_self_iff :
    unescape name = name ↔ ¬ ['~', '0'] <:+: name ∧ ¬ ['~', '1'] <:+: name := by
  rw [unescape]
  constructor
  · intro h
    have hslash : ¬ ['~', '1'] <:+: name := by
      intro inside
      have hfirst : (expand '1' '/' name).length < name.length := length_expand_lt inside
      have hsecond := length_expand_le '0' '~' (expand '1' '/' name)
      rw [h] at hsecond
      omega
    rw [expand_eq_self hslash] at h
    refine ⟨fun inside => ?_, hslash⟩
    have hshorter : (expand '0' '~' name).length < name.length := length_expand_lt inside
    rw [h] at hshorter
    exact absurd hshorter (Nat.lt_irrefl _)
  · rintro ⟨htilde, hslash⟩
    rw [expand_eq_self hslash, expand_eq_self htilde]

/-! ## Names that are written as they are -/

/-- A name that is written as it is comes back, and alone, exactly when it is plain. -/
theorem read_eq_singleton_iff {name : String} : read name.toList = [name] ↔ IsPlain name := by
  constructor
  · intro h
    rcases List.map_eq_singleton_iff.mp h with ⟨only, hsplit, hname⟩
    have honly : only = name.toList := by
      have hjoin : ['/'].intercalate (name.toList.splitOn '/') = name.toList :=
        List.intercalate_splitOn '/'
      rw [hsplit] at hjoin
      simpa using hjoin
    subst honly
    have hname : unescape name.toList = name.toList := by
      rw [← String.toList_inj, String.toList_ofList] at hname
      exact hname
    rcases unescape_eq_self_iff.mp hname with ⟨htilde, hslash⟩
    refine ⟨fun inside => ?_, htilde, hslash⟩
    -- a slash would end one name and begin another
    rcases List.append_of_mem inside with ⟨before, after, hparts⟩
    rw [hparts, List.splitOn_append_cons_self] at hsplit
    have hbefore := List.length_pos_iff.mpr (List.splitOn_ne_nil '/' before)
    have hafter := List.length_pos_iff.mpr (List.splitOn_ne_nil '/' after)
    have hlength := congrArg List.length hsplit
    rw [List.length_append, List.length_singleton] at hlength
    omega
  · rintro ⟨hapart, htilde, hslash⟩
    rw [read, List.splitOn_eq_singleton hapart, List.map_singleton,
      unescape_eq_self_iff.mpr ⟨htilde, hslash⟩, String.ofList_toList]

end Address

end Schemata
