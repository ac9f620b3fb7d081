import Schemata.Json.Parser
import Schemata.Json.Printer
import Schemata.Error

/-!
# Strings read back

A text between quotation marks is read as the text that was written.  Every character
is escaped on its own, and the reader gives it back whatever stands around it.

Main result:

- Theorem {lit}`string_quoted`: the characters of a text are read up to the closing
  quotation mark.
-/

namespace Schemata.Json.Parser

/-! ## Escapes -/

/-- A hexadecimal digit has its value. -/
theorem hexValue?_hexDigit : ∀ n < 16, hexValue? (hexDigit n) = some n := by
  decide

/-- The code of a control character reads as the character. -/
theorem unicodeEscape_control {c : Char} (control : c.toNat < 0x20) {rest : List Char}
    (nonempty : rest ≠ []) :
    unicodeEscape ('0' :: '0' :: hexDigit (c.toNat / 16) :: hexDigit (c.toNat % 16) :: rest) =
      .ok (c, rest) := by
  cases rest with
  | nil => exact absurd rfl nonempty
  | cons e rest =>
      have hhigh := hexValue?_hexDigit (c.toNat / 16) (by omega)
      have hlow := hexValue?_hexDigit (c.toNat % 16) (by omega)
      have hzero : hexValue? '0' = some 0 := by decide
      have hunit : (c.toNat / 16) * 16 + c.toNat % 16 = c.toNat := by omega
      have hquad : hexQuad? ('0' :: '0' :: hexDigit (c.toNat / 16) ::
          hexDigit (c.toNat % 16) :: e :: rest) = some (c.toNat, e :: rest) := by
        simp only [hexQuad?, hhigh, hlow, hzero, Nat.zero_mul, Nat.zero_add, hunit]
      have hsurrogate : isHighSurrogate c.toNat = false := by
        simp [isHighSurrogate]
        omega
      have hchar : unitChar c.toNat = c := by
        rw [unitChar, if_neg (by omega), Char.ofNat_toNat]
      rw [unicodeEscape, hquad]
      simp only [hsurrogate, hchar]

/-! ## Strings -/

variable {opening budget : Nat} {rest : List Char}

/-- A string whose first character was read. -/
def prepend (c : Char) (result : Except Stop (List Char × List Char)) :
    Except Stop (List Char × List Char) := do
  let (chars, after) ← result
  return (c :: chars, after)

/-- A letter after a backslash reads as the character that it stands for. -/
theorem string_simple {c letter : Char} (h : simpleEscape? letter = some c)
    (other : letter ≠ 'u') :
    string opening (budget + 1) ('\\' :: letter :: rest) =
      prepend c (string opening budget rest) := by
  simp [string, h, prepend]

/-- A character that is escaped reads as itself. -/
theorem string_escaped (c : Char) (nonempty : rest ≠ []) :
    string opening (budget + 1) (escaped c ++ rest) = prepend c (string opening budget rest) := by
  by_cases quote : c = '"'
  · subst c
    exact string_simple rfl (by decide)
  by_cases backslash : c = '\\'
  · subst c
    exact string_simple rfl (by decide)
  by_cases feed : c = '\n'
  · subst c
    exact string_simple rfl (by decide)
  by_cases carriage : c = '\r'
  · subst c
    exact string_simple rfl (by decide)
  by_cases tab : c = '\t'
  · subst c
    exact string_simple rfl (by decide)
  by_cases back : c = '\x08'
  · subst c
    exact string_simple rfl (by decide)
  by_cases form : c = '\x0c'
  · subst c
    exact string_simple rfl (by decide)
  have hescaped : escaped c = if c.toNat < 0x20 then
      ['\\', 'u', '0', '0', hexDigit (c.toNat / 16), hexDigit (c.toNat % 16)] else [c] := by
    simp only [escaped, quote, backslash, feed, carriage, tab, back, form, if_false]
  by_cases control : c.toNat < 0x20
  · rw [hescaped, if_pos control]
    simp [string, unicodeEscape_control control nonempty, prepend]
  · have hcontrol : ¬ c.toNat ≤ 0x1f := by omega
    rw [hescaped, if_neg control]
    simp [string, quote, backslash, hcontrol, prepend]

/-- An escaped character is not empty. -/
theorem length_le_length_flatMap_escaped (text : List Char) :
    text.length ≤ (text.flatMap escaped).length := by
  induction text with
  | nil => exact Nat.le_refl _
  | cons c text ih =>
      have hone : 1 ≤ (escaped c).length := by
        unfold escaped
        repeat' split
        all_goals simp
      rw [List.flatMap_cons, List.length_append, List.length_cons]
      omega

/-- The characters of a text are read up to the closing quotation mark. -/
theorem string_quoted (text : List Char) (enough : text.length < budget) :
    string opening budget (text.flatMap escaped ++ '"' :: rest) = .ok (text, rest) := by
  induction text generalizing budget with
  | nil =>
      cases budget with
      | zero => cases enough
      | succ budget => simp [string]
  | cons c text ih =>
      cases budget with
      | zero => cases enough
      | succ budget =>
          have hread := ih (Nat.lt_of_succ_lt_succ enough)
          rw [List.flatMap_cons, List.append_assoc, string_escaped c (by simp), hread]
          rfl

end Schemata.Json.Parser
