/-!
# Styling sequences

A styling sequence tells a terminal how to show the text after it: an escape, a bracket,
parameters and a letter.  Output that does not go to a terminal has none.

Main result:

- Definition {lit}`withoutStyling`: a text without its sequences.
-/

namespace Schemata.Text

/-- The character that opens a sequence. -/
def escape : Char :=
  '\x1b'

/-- Characters that stand between the bracket and the letter. -/
def isStyleParameter (c : Char) : Bool :=
  c == ';' || c == '?' || c.isDigit

/-- What follows the sequence that a text after an escape goes on with. -/
def afterStyle? : List Char → Option (List Char)
  | '[' :: rest =>
    match rest.dropWhile isStyleParameter with
    | c :: rest => if c.isAlpha then some rest else none
    | [] => none
  | _ => none

/-- What follows a sequence is shorter than the text. -/
theorem length_afterStyle? {text rest : List Char} (h : afterStyle? text = some rest) :
    rest.length < text.length := by
  unfold afterStyle? at h
  split at h
  · rename_i tail
    have := (List.dropWhile_sublist isStyleParameter (l := tail)).length_le
    split at h
    · rename_i hd
      simp only [hd, List.length_cons] at this
      split at h
      · cases h
        simp only [List.length_cons]
        omega
      · cases h
    · cases h
  · cases h

/-- Remove the styling sequences. -/
def withoutStyling : List Char → List Char
  | [] => []
  | c :: rest =>
    if c == escape then
      match h : afterStyle? rest with
      | some after =>
        have := length_afterStyle? h
        withoutStyling after
      | none => c :: withoutStyling rest
    else c :: withoutStyling rest
termination_by text => text.length

end Schemata.Text
