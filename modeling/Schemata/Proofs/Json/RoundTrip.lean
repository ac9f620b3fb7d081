import Schemata.Proofs.Json.Numbers
import Schemata.Proofs.Json.Regular
import Schemata.Proofs.Json.Strings

/-!
# JSON text read back

A regular value is read back from its text in every layout whose indentation is blank.

The proof goes through the value.  What follows a value in a text must not belong to a
number, and the budget must allow two steps for each character.

Main results:

- Theorem {lit}`Regular.readsBack`: a value is read back in front of any text that
  ends a number.
- Theorem {lit}`parse_print`: a value is read back from its text.
-/

namespace Schemata

namespace Json

namespace Parser

/-! ## Blanks -/

/-- The text is made of blanks. -/
def AllBlank (text : List Char) : Prop :=
  ∀ c ∈ text, isBlank c = true

/-- The indentation is made of blanks. -/
def BlankLayout : Layout → Prop
  | .compact => True
  | .indented unit => AllBlank unit

variable {layout : Layout} {depth : Nat} {rest : List Char}

/-- Blanks in front of a text are skipped. -/
theorem skipBlank_append {gap : List Char} (blank : AllBlank gap) (text : List Char) :
    skipBlank (gap ++ text) = skipBlank text :=
  List.dropWhile_append_of_pos blank

theorem skipBlank_cons {c : Char} (h : isBlank c = false) :
    skipBlank (c :: rest) = c :: rest :=
  List.dropWhile_cons_of_neg (by simp [h])

/-- A line break in a blank layout is made of blanks. -/
theorem allBlank_lineBreak (blank : BlankLayout layout) (depth : Nat) :
    AllBlank (layout.lineBreak depth) := by
  cases layout with
  | compact => exact fun c hc => absurd hc List.not_mem_nil
  | indented unit =>
      intro c hc
      rcases List.mem_cons.mp hc with rfl | hc
      · rfl
      · rcases List.mem_flatten.mp hc with ⟨part, hpart, hc⟩
        rw [List.eq_of_mem_replicate hpart] at hc
        exact blank c hc

/-- Two items have a comma and blanks between them. -/
theorem separator_eq (blank : BlankLayout layout) (depth : Nat) :
    ∃ gap, layout.separator depth = ',' :: gap ∧ AllBlank gap := by
  cases layout with
  | compact =>
      refine ⟨[' '], rfl, fun c hc => ?_⟩
      rw [List.mem_singleton.mp hc]
      rfl
  | indented unit => exact ⟨_, rfl, allBlank_lineBreak blank depth⟩

/-! ## Beginnings and ends of values -/

/-- The character can begin a value. -/
def BeginsValue (c : Char) : Prop :=
  c ∈ ['"', '{', '[', 'n', 't', 'f', 'N', 'I', '-'] ∨ c.isDigit = true

/-- No value begins with a blank. -/
theorem BeginsValue.not_isBlank {c : Char} (h : BeginsValue c) : isBlank c = false := by
  rcases h with h | h
  · simp only [List.mem_cons, List.not_mem_nil, or_false] at h
    rcases h with rfl | rfl | rfl | rfl | rfl | rfl | rfl | rfl | rfl <;> rfl
  · by_cases hblank : isBlank c = true
    · simp only [isBlank, Bool.or_eq_true, beq_iff_eq] at hblank
      rcases hblank with ((rfl | rfl) | rfl) | rfl <;> cases h
    · simpa using hblank

/-- A text that reads as a number begins with a minus or a digit. -/
theorem number_begins {text : List Char} {result : Json × List Char}
    (h : number text = .ok result) : ∃ c tail, text = c :: tail ∧ BeginsValue c := by
  cases text with
  | nil => cases h
  | cons c tail =>
      refine ⟨c, tail, rfl, ?_⟩
      by_cases hminus : c = '-'
      · exact Or.inl (by simp [hminus])
      · have hsign : signOf (c :: tail) = (false, c :: tail) :=
          signOf_signed false (by simpa using hminus)
        rw [number_eq, hsign] at h
        refine Or.inr ?_
        by_cases hzero : c = '0'
        · rw [hzero]
          rfl
        · -- Without a leading zero the digits before the point begin with a digit.
          by_cases hdigit : c.isDigit = true
          · exact hdigit
          · simp [wholeDigits?, hdigit] at h

/-- A text that reads as a number is a value. -/
theorem value_of_number {text : List Char} {result : Json × List Char} {budget : Nat}
    (h : number text = .ok result) : value (budget + 1) text = .ok result := by
  unfold value
  split
  all_goals first
    | exact h
    | cases h

/-- The text of a value begins a value. -/
theorem printAt_begins {v : Json} (layout : Layout) (depth : Nat) :
    ∃ c tail, v.printAt layout depth = c :: tail ∧ BeginsValue c := by
  have hends : EndsNumber [] := fun c hc => by cases hc
  cases v with
  | null => exact ⟨_, _, rfl, Or.inl (by decide)⟩
  | bool value => cases value <;> exact ⟨_, _, rfl, Or.inl (by decide)⟩
  | int value =>
      rw [printAt, ← List.append_nil (toString value).toList]
      exact number_begins (number_int value hends)
  | float value =>
      rw [printAt]
      cases value with
      | nan => exact ⟨_, _, rfl, Or.inl (by decide)⟩
      | infinity negative => cases negative <;> exact ⟨_, _, rfl, Or.inl (by decide)⟩
      | finite negative mantissa exponent canonical =>
          rw [← List.append_nil (Binary64.text _)]
          exact number_begins (number_finite negative mantissa exponent canonical hends)
  | str text => exact ⟨_, _, rfl, Or.inl (by decide)⟩
  | arr items => cases items <;> exact ⟨_, _, by simp only [printAt]; rfl, Or.inl (by decide)⟩
  | obj members => cases members <;> exact ⟨_, _, by simp only [printAt]; rfl, Or.inl (by decide)⟩

/-- A value has a text. -/
theorem length_printAt_pos {v : Json} (layout : Layout) (depth : Nat) :
    0 < (v.printAt layout depth).length := by
  rcases printAt_begins layout depth with ⟨c, tail, htext, -⟩
  rw [htext]
  exact Nat.succ_pos _

/-- Blanks before the text of a value are left out. -/
theorem skipBlank_printAt {gap : List Char} (blank : AllBlank gap) (v : Json) :
    skipBlank (gap ++ (v.printAt layout depth ++ rest)) = v.printAt layout depth ++ rest := by
  rcases printAt_begins (v := v) layout depth with ⟨c, tail, htext, hbegins⟩
  rw [skipBlank_append blank, htext, List.cons_append, skipBlank_cons hbegins.not_isBlank]

/-- A punctuation mark ends a number. -/
theorem endsNumber_mark {mark : Char} (punctuation : mark ∈ [',', ']', '}']) :
    EndsNumber (mark :: rest) := by
  have hmark : mark.isDigit = false ∧ mark ≠ '.' ∧ mark ≠ 'e' ∧ mark ≠ 'E' := by
    simp only [List.mem_cons, List.not_mem_nil, or_false] at punctuation
    rcases punctuation with rfl | rfl | rfl <;> decide
  intro c hc
  cases hc
  exact hmark

/-- Blanks and a punctuation mark end a number. -/
theorem endsNumber_gap {gap : List Char} (blank : AllBlank gap) {mark : Char}
    (punctuation : mark ∈ [',', ']', '}']) : EndsNumber (gap ++ mark :: rest) := by
  cases gap with
  | nil => exact endsNumber_mark punctuation
  | cons d gap =>
      intro c hc
      cases hc
      have hblank := blank d (List.mem_cons_self ..)
      simp only [isBlank, Bool.or_eq_true, beq_iff_eq] at hblank
      rcases hblank with ((rfl | rfl) | rfl) | rfl <;> decide

/-! ## Arrays and objects -/

/-- The value is read back in front of any text that ends a number. -/
def ReadsBack (layout : Layout) (v : Json) : Prop :=
  ∀ depth budget rest, EndsNumber rest → 2 * (v.printAt layout depth).length ≤ budget + 1 →
    value budget (v.printAt layout depth ++ rest) = .ok (v, rest)

theorem quoted_append (text : List Char) :
    quoted text ++ rest = '"' :: (text.flatMap escaped ++ '"' :: rest) := by
  simp [quoted]

/-- A quoted text is a string, and its length is budget enough. -/
theorem string_text (opening : Nat) (text : List Char) :
    string opening ('"' :: (text.flatMap escaped ++ '"' :: rest)).length
      (text.flatMap escaped ++ '"' :: rest) = .ok (text, rest) := by
  apply string_quoted
  have := length_le_length_flatMap_escaped text
  simp only [List.length_append, List.length_cons]
  omega

/-- A quoted text is a value. -/
theorem value_quoted (text : String) (budget : Nat) :
    value (budget + 1) (quoted text.toList ++ rest) = .ok (.str text, rest) := by
  rw [quoted_append, value, string_text, ok_bind]
  simp only [String.ofList_toList]
  rfl

/-- An item after the first has a comma and blanks in front of it. -/
theorem printItems_cons (blank : BlankLayout layout) (depth : Nat) (item : Json)
    (more : List Json) : ∃ inner, AllBlank inner ∧ printItems layout depth (item :: more) =
      ',' :: (inner ++ (item.printAt layout depth ++ printItems layout depth more)) := by
  rcases separator_eq blank depth with ⟨inner, hseparator, hinner⟩
  exact ⟨inner, hinner, by simp [printItems, hseparator]⟩

/-- A member after the first has a comma and blanks in front of it. -/
theorem printMembers_cons (blank : BlankLayout layout) (depth : Nat) (name : String)
    (content : Json) (more : List (String × Json)) : ∃ inner, AllBlank inner ∧
      printMembers layout depth ((name, content) :: more) =
        ',' :: (inner ++ (quoted name.toList ++ ':' :: ' ' ::
          (content.printAt layout depth ++ printMembers layout depth more))) := by
  rcases separator_eq blank depth with ⟨inner, hseparator, hinner⟩
  exact ⟨inner, hinner, by simp [printMembers, hseparator]⟩

/-- The items of an array are read back up to the closing bracket. -/
theorem items_printItems (blank : BlankLayout layout) {gap : List Char} (closing : AllBlank gap)
    {first : Json} {more : List Json} (all : ∀ item ∈ first :: more, ReadsBack layout item)
    {budget : Nat} (enough : 2 * ((first.printAt layout depth).length +
      (printItems layout depth more).length) ≤ budget) :
    items budget (first.printAt layout depth ++
        (printItems layout depth more ++ (gap ++ ']' :: rest))) =
      .ok (first :: more, rest) := by
  induction more generalizing first budget with
  | nil =>
      have hpos := length_printAt_pos (v := first) layout depth
      cases budget with
      | zero => omega
      | succ budget =>
          have hread := all first (List.mem_cons_self ..) depth budget (gap ++ ']' :: rest)
            (endsNumber_gap closing (by decide)) (by simp only [printItems] at enough; omega)
          rw [printItems, List.nil_append, items, hread]
          simp [skipBlank_append closing, skipBlank_cons (show isBlank ']' = false from rfl),
            pure, Except.pure]
  | cons second more ih =>
      rcases printItems_cons blank depth second more with ⟨inner, hinner, hitems⟩
      have hpos := length_printAt_pos (v := first) layout depth
      simp only [hitems, List.length_append, List.length_cons] at enough
      cases budget with
      | zero => omega
      | succ budget =>
          have hread := all first (List.mem_cons_self ..) depth budget
            (',' :: (inner ++ (second.printAt layout depth ++
              (printItems layout depth more ++ (gap ++ ']' :: rest)))))
            (endsNumber_mark (by decide)) (by omega)
          have hmore : items budget (second.printAt layout depth ++
              (printItems layout depth more ++ (gap ++ ']' :: rest))) =
              .ok (second :: more, rest) :=
            ih (fun item hitem => all item (.tail _ hitem)) (by omega)
          simp only [hitems, List.cons_append, List.append_assoc]
          rw [items, hread, ok_bind]
          simp only [skipBlank_cons (show isBlank ',' = false from rfl),
            skipBlank_printAt hinner, hmore, ok_bind]
          rfl

/-- A new name goes to the end of the members. -/
theorem put_of_names {known more : Table String Json} {name : String} {content : Json}
    (names : ((known ++ (name, content) :: more).map Prod.fst).Nodup) :
    known.put name content = known ++ [(name, content)] := by
  apply Table.put_of_new
  intro entry hentry
  rw [List.map_append, List.nodup_append] at names
  have hne := names.2.2 entry.1 (List.mem_map_of_mem hentry) name (List.mem_cons_self ..)
  simpa using fun same : name = entry.1 => hne same.symm

/-- A name and the value after it are read first. -/
theorem members_cons {known : Table String Json} (name : String) {first : Json} {budget : Nat}
    {tail : List Char} (hread : value budget (first.printAt layout depth ++ tail) =
      .ok (first, tail)) :
    members (budget + 1) known
        (quoted name.toList ++ ':' :: ' ' :: (first.printAt layout depth ++ tail)) =
      match skipBlank tail with
      | '}' :: rest => .ok (known.put name first, rest)
      | ',' :: rest => members budget (known.put name first) (skipBlank rest)
      | rest => .error ⟨.missingComma, rest.length⟩ := by
  have hcolon : skipBlank (':' :: ' ' :: (first.printAt layout depth ++ tail)) =
      ':' :: ' ' :: (first.printAt layout depth ++ tail) := skipBlank_cons rfl
  have hspace : skipBlank (' ' :: (first.printAt layout depth ++ tail)) =
      first.printAt layout depth ++ tail :=
    skipBlank_printAt (show AllBlank [' '] by simp [AllBlank, isBlank]) first
  rw [quoted_append, members, string_text, ok_bind]
  simp only [hcolon, hspace, hread, ok_bind, String.ofList_toList]
  rfl

/-- The members of an object are read back up to the closing brace, after those already
read. -/
theorem members_printMembers (blank : BlankLayout layout) {gap : List Char}
    (closing : AllBlank gap) {known : Table String Json} {name : String} {first : Json}
    {more : List (String × Json)}
    (all : ∀ member ∈ (name, first) :: more, ReadsBack layout member.2)
    (names : ((known ++ (name, first) :: more).map Prod.fst).Nodup) {budget : Nat}
    (enough : 2 * ((first.printAt layout depth).length +
      (printMembers layout depth more).length) < budget) :
    members budget known (quoted name.toList ++ ':' :: ' ' :: (first.printAt layout depth ++
        (printMembers layout depth more ++ (gap ++ '}' :: rest)))) =
      .ok (known ++ (name, first) :: more, rest) := by
  induction more generalizing name first known budget with
  | nil =>
      have hfirst : ReadsBack layout first := all _ (List.mem_cons_self ..)
      cases budget with
      | zero => omega
      | succ budget =>
          have hread := hfirst depth budget (gap ++ '}' :: rest)
            (endsNumber_gap closing (by decide)) (by omega)
          rw [printMembers, List.nil_append, members_cons name hread, skipBlank_append closing,
            skipBlank_cons rfl, put_of_names names]
          rfl
  | cons second more ih =>
      rcases second with ⟨other, second⟩
      have hfirst : ReadsBack layout first := all _ (List.mem_cons_self ..)
      rcases printMembers_cons blank depth other second more with ⟨inner, hinner, hmembers⟩
      simp only [hmembers, List.length_append, List.length_cons] at enough
      have hquoted : ∀ tail, skipBlank (quoted other.toList ++ tail) =
          quoted other.toList ++ tail := fun tail => skipBlank_cons rfl
      cases budget with
      | zero => omega
      | succ budget =>
          have hread := hfirst depth budget
            (',' :: (inner ++ (quoted other.toList ++ ':' :: ' ' :: (second.printAt layout depth ++
              (printMembers layout depth more ++ (gap ++ '}' :: rest))))))
            (endsNumber_mark (by decide)) (by omega)
          have hnames : (((known ++ [(name, first)]) ++ (other, second) :: more).map
              Prod.fst).Nodup := by simpa using names
          have hmore := ih (fun member hmember => all member (.tail _ hmember)) hnames
            (show 2 * ((second.printAt layout depth).length +
              (printMembers layout depth more).length) < budget by omega)
          simp only [hmembers, List.cons_append, List.append_assoc]
          rw [members_cons name hread, skipBlank_cons rfl, put_of_names names]
          simp only [skipBlank_append hinner, hquoted, hmore, List.append_assoc,
            List.singleton_append]

/-- An array with items is read back when its items are. -/
theorem ReadsBack.arr (blank : BlankLayout layout) {first : Json} {more : List Json}
    (all : ∀ item ∈ first :: more, ReadsBack layout item) :
    ReadsBack layout (.arr (first :: more)) := by
  intro depth budget rest hends henough
  have hinner := allBlank_lineBreak blank (depth + 1)
  have hclosing := allBlank_lineBreak blank depth
  have htext : (Json.arr (first :: more)).printAt layout depth ++ rest =
      '[' :: (layout.lineBreak (depth + 1) ++ (first.printAt layout (depth + 1) ++
        (printItems layout (depth + 1) more ++ (layout.lineBreak depth ++ ']' :: rest)))) := by
    simp [printAt]
  simp only [printAt, List.length_append, List.length_cons] at henough
  rcases printAt_begins (v := first) layout (depth + 1) with ⟨c, tail, hfirst, hbegins⟩
  cases budget with
  | zero => omega
  | succ budget =>
      have hitems : items budget (first.printAt layout (depth + 1) ++
          (printItems layout (depth + 1) more ++ (layout.lineBreak depth ++ ']' :: rest))) =
          .ok (first :: more, rest) := items_printItems blank hclosing all (by omega)
      rw [htext, value, skipBlank_printAt hinner]
      -- The first item does not begin with the closing bracket.
      rw [hfirst, List.cons_append] at hitems ⊢
      split
      · rename_i hbracket
        cases hbracket
        exact absurd hbegins (by unfold BeginsValue; decide)
      · rw [hitems, ok_bind]
        rfl

/-- An object with members is read back when its members are. -/
theorem ReadsBack.obj (blank : BlankLayout layout) {name : String} {first : Json}
    {more : List (String × Json)} (names : (((name, first) :: more).map Prod.fst).Nodup)
    (all : ∀ member ∈ (name, first) :: more, ReadsBack layout member.2) :
    ReadsBack layout (.obj ((name, first) :: more)) := by
  intro depth budget rest hends henough
  have hinner := allBlank_lineBreak blank (depth + 1)
  have hclosing := allBlank_lineBreak blank depth
  have htext : (Json.obj ((name, first) :: more)).printAt layout depth ++ rest =
      '{' :: (layout.lineBreak (depth + 1) ++ (quoted name.toList ++ ':' :: ' ' ::
        (first.printAt layout (depth + 1) ++ (printMembers layout (depth + 1) more ++
          (layout.lineBreak depth ++ '}' :: rest))))) := by
    simp [printAt]
  simp only [printAt, List.length_append, List.length_cons] at henough
  cases budget with
  | zero => omega
  | succ budget =>
      have hmembers : members budget [] (quoted name.toList ++ ':' :: ' ' ::
          (first.printAt layout (depth + 1) ++ (printMembers layout (depth + 1) more ++
            (layout.lineBreak depth ++ '}' :: rest)))) = .ok ((name, first) :: more, rest) :=
        members_printMembers blank hclosing all names (by omega)
      rw [htext, value, skipBlank_append hinner]
      rw [quoted_append] at hmembers ⊢
      rw [skipBlank_cons rfl]
      split
      · rename_i hbrace
        cases hbrace
      · rw [hmembers, ok_bind]
        rfl

/-- The text of a number that is not NaN is a value. -/
theorem value_float {x : Binary64} (number : x ≠ .nan) (ends : EndsNumber rest) (budget : Nat) :
    value (budget + 1) (x.text ++ rest) = .ok (.float x, rest) := by
  cases x with
  | nan => exact absurd rfl number
  | infinity negative => cases negative <;> rfl
  | finite negative mantissa exponent canonical =>
      exact value_of_number (number_finite negative mantissa exponent canonical ends)

/-- A value is read back when every positive budget is enough. -/
theorem ReadsBack.of_value {v : Json} (h : ∀ depth budget rest, EndsNumber rest →
    value (budget + 1) (v.printAt layout depth ++ rest) = .ok (v, rest)) :
    ReadsBack layout v := by
  intro depth budget rest hends henough
  have hpos := length_printAt_pos (v := v) layout depth
  cases budget with
  | zero => omega
  | succ budget => exact h depth budget rest hends

end Parser

open Schemata.Json.Parser

variable {layout : Layout}

/-- A regular value is read back in front of any text that ends a number. -/
theorem Regular.readsBack {v : Json} (regular : v.Regular) (blank : BlankLayout layout) :
    ReadsBack layout v := by
  induction regular with
  | null => exact .of_value fun _ _ _ _ => rfl
  | bool value => cases value <;> exact .of_value fun _ _ _ _ => rfl
  | int value => exact .of_value fun _ _ _ hends => value_of_number (number_int value hends)
  | float number => exact .of_value fun _ budget _ hends => value_float number hends budget
  | str text => exact .of_value fun _ budget _ _ => value_quoted text budget
  | @arr items all ih =>
      cases items with
      | nil => exact .of_value fun _ _ _ _ => rfl
      | cons first more => exact .arr blank ih
  | @obj members names all ih =>
      cases members with
      | nil => exact .of_value fun _ _ _ _ => rfl
      | cons first more => exact .obj blank names ih

/-- A regular value is read back from its text. -/
theorem parse_print {v : Json} (regular : v.Regular) (blank : BlankLayout layout) :
    Json.parse (v.print layout) = .ok v := by
  rcases printAt_begins (v := v) layout 0 with ⟨c, tail, htext, hbegins⟩
  have hmark : c ≠ '\uFEFF' := by
    rintro rfl
    exact absurd hbegins (by unfold BeginsValue; decide)
  have hread := regular.readsBack blank 0 (2 * (v.printAt layout 0).length + 1) []
    (fun c hc => by cases hc) (by omega)
  have hstart : skipBlank (v.printAt layout 0) = v.printAt layout 0 := by
    rw [htext, skipBlank_cons hbegins.not_isBlank]
  have hhead : (v.printAt layout 0).head? ≠ some '\uFEFF' := by
    rw [htext]
    simpa using hmark
  rw [List.append_nil] at hread
  have hdocument : document (v.printAt layout 0) = .ok v := by
    simp only [document, if_neg hhead, hstart, hread, ok_bind]
    rfl
  simp only [Json.parse, Json.print, String.toList_ofList, hdocument]

end Json

end Schemata
