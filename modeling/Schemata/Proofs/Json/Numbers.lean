import Schemata.Json.Parser
import Schemata.Proofs.Json.Rounding

/-!
# Numbers read back

The text of a number is read as the number that was written, when what follows the text
cannot belong to it.  The scanner takes as many characters as a number can have, so what
follows must not begin with a digit, a point or the letter of an exponent.

Main results:

- Theorem {lit}`number_int`: the text of an integer reads as the integer.
- Theorem {lit}`number_text`: the text of a decimal reads as the number nearest to it.
- Theorem {lit}`number_finite`: the text of a finite binary64 number reads as the number.
-/

namespace Schemata

namespace Json.Parser

/-! ## What may follow a number -/

/-- The text begins with no digit. -/
def NoDigit (text : List Char) : Prop :=
  ∀ c, text.head? = some c → c.isDigit = false

/-- The text begins with nothing that a number can go on with. -/
def EndsNumber (text : List Char) : Prop :=
  ∀ c, text.head? = some c → c.isDigit = false ∧ c ≠ '.' ∧ c ≠ 'e' ∧ c ≠ 'E'

variable {rest : List Char}

theorem EndsNumber.noDigit (h : EndsNumber rest) : NoDigit rest :=
  fun c hc => (h c hc).1

theorem noDigit_cons {c : Char} (h : c.isDigit = false) : NoDigit (c :: rest) := by
  intro d hd
  rw [List.head?_cons, Option.some.injEq] at hd
  exact hd ▸ h

/-- A run of digits ends where no digit follows. -/
theorem takeWhile_isDigit {digits : List Char} (all : ∀ c ∈ digits, c.isDigit = true)
    (ends : NoDigit rest) : (digits ++ rest).takeWhile Char.isDigit = digits := by
  rw [List.takeWhile_append_of_pos all]
  cases rest with
  | nil => simp
  | cons c rest => rw [List.takeWhile_cons_of_neg (by simp [ends c rfl]), List.append_nil]

/-- What follows a run of digits is what does not begin with one. -/
theorem dropWhile_isDigit {digits : List Char} (all : ∀ c ∈ digits, c.isDigit = true)
    (ends : NoDigit rest) : (digits ++ rest).dropWhile Char.isDigit = rest := by
  rw [List.dropWhile_append_of_pos all]
  cases rest with
  | nil => rfl
  | cons c rest => rw [List.dropWhile_cons_of_neg (by simp [ends c rfl])]

/-! ## Values of digits -/

/-- The value of digits is the one that the library gives to them. -/
theorem decimalValue_eq (digits : List Char) :
    decimalValue digits = Nat.ofDigitChars 10 digits 0 := by
  rw [decimalValue, Nat.ofDigitChars_eq_foldl]
  congr 1
  funext n c
  rw [Nat.mul_comm]

/-- Digits count ten times as much for each digit that follows. -/
theorem decimalValue_append (digits others : List Char) :
    decimalValue (digits ++ others) =
      decimalValue digits * Nat.pow 10 others.length + decimalValue others := by
  rw [decimalValue_eq, decimalValue_eq, decimalValue_eq, Nat.ofDigitChars_append,
    Nat.ofDigitChars_eq_ofDigitChars_zero, Nat.mul_comm, Nat.pow_eq]

/-- The digits of a number have its value. -/
theorem decimalValue_toDigits (n : Nat) : decimalValue (Nat.toDigits 10 n) = n := by
  rw [decimalValue_eq, Nat.ofDigitChars_ten_toDigits]

theorem decimalValue_zeros (count : Nat) : decimalValue (List.replicate count '0') = 0 := by
  rw [decimalValue_eq, Nat.ofDigitChars_replicate_zero, Nat.mul_zero]

/-- Zeros in front of digits do not count. -/
theorem decimalValue_zeros_append (count : Nat) (digits : List Char) :
    decimalValue (List.replicate count '0' ++ digits) = decimalValue digits := by
  rw [decimalValue_append, decimalValue_zeros, Nat.zero_mul, Nat.zero_add]

/-- Zeros at the end of digits are powers of ten. -/
theorem decimalValue_append_zeros (digits : List Char) (count : Nat) :
    decimalValue (digits ++ List.replicate count '0') = decimalValue digits * Nat.pow 10 count := by
  rw [decimalValue_append, decimalValue_zeros, List.length_replicate, Nat.add_zero]

theorem isDigit_of_mem_toDigits {n : Nat} : ∀ c ∈ Nat.toDigits 10 n, c.isDigit = true :=
  fun _ hc => Nat.isDigit_of_mem_toDigits (by decide) (by decide) hc

theorem isDigit_of_mem_zeros {count : Nat} :
    ∀ c ∈ List.replicate count '0', c.isDigit = true := by
  intro c hc
  rw [List.eq_of_mem_replicate hc]
  rfl

/-! ## The parts of a number -/

/-- The digits before the point: a zero on its own, or digits without a zero in front. -/
inductive IsWhole : List Char → Prop
  | zero : IsWhole ['0']
  | digits {c : Char} {rest : List Char} (digit : c.isDigit = true) (leading : c ≠ '0')
      (all : ∀ d ∈ rest, d.isDigit = true) : IsWhole (c :: rest)

/-- The digits of a natural number may stand before the point. -/
theorem IsWhole.toDigits (n : Nat) : IsWhole (Nat.toDigits 10 n) := by
  induction n using Nat.strongRecOn with
  | _ n ih =>
      rw [Nat.toDigits_eq_if (by decide)]
      split
      · rename_i small
        by_cases zero : n = 0
        · rw [zero]
          exact .zero
        · exact .digits (by simpa using small) (by simpa using zero) (by simp)
      · rename_i large
        have hdigit : (n % 10).digitChar.isDigit = true := by simp; omega
        have hwhole := ih (n / 10) (by omega)
        cases hfront : Nat.toDigits 10 (n / 10) with
        | nil => exact absurd hfront Nat.toDigits_ne_nil
        | cons c rest =>
            rw [hfront] at hwhole
            cases hwhole with
            | zero =>
                -- A zero on its own stands for zero, which is below the base.
                have hzero := decimalValue_toDigits (n / 10)
                rw [hfront] at hzero
                have : decimalValue ['0'] = 0 := rfl
                omega
            | digits digit leading all =>
                refine .digits digit leading fun d hd => ?_
                rcases List.mem_append.mp hd with hd | hd
                · exact all d hd
                · exact List.mem_singleton.mp hd ▸ hdigit

/-- The digits before the point are read up to where they end. -/
theorem wholeDigits?_append {whole : List Char} (h : IsWhole whole) (ends : NoDigit rest) :
    wholeDigits? (whole ++ rest) = some (whole, rest) := by
  cases h with
  | zero => rfl
  | @digits c digits digit leading all =>
      rw [List.cons_append, wholeDigits?, if_pos digit, takeWhile_isDigit all ends,
        dropWhile_isDigit all ends]
      exact leading

/-- The digits after the point are read up to where they end. -/
theorem fractionDigits_append {fraction : List Char} (nonempty : fraction ≠ [])
    (all : ∀ c ∈ fraction, c.isDigit = true) (ends : NoDigit rest) :
    fractionDigits ('.' :: (fraction ++ rest)) = (fraction, rest) := by
  cases fraction with
  | nil => exact absurd rfl nonempty
  | cons c digits =>
      rw [List.forall_mem_cons] at all
      rw [List.cons_append, fractionDigits, if_pos all.1, takeWhile_isDigit all.2 ends,
        dropWhile_isDigit all.2 ends]

/-- Without a point there is no fraction. -/
theorem fractionDigits_of_ne (h : ∀ c, rest.head? = some c → c ≠ '.') :
    fractionDigits rest = ([], rest) := by
  unfold fractionDigits
  split
  · exact absurd rfl (h '.' rfl)
  · rfl

/-- The digits of an exponent are read up to where they end. -/
theorem exponent?_append {places : List Char} (negative : Bool) (nonempty : places ≠ [])
    (all : ∀ c ∈ places, c.isDigit = true) (ends : NoDigit rest) :
    exponent? ('e' :: (if negative then '-' else '+') :: (places ++ rest)) =
      some (if negative then -(decimalValue places : Int) else decimalValue places, rest) := by
  cases negative with
  | false =>
      simp [exponent?, takeWhile_isDigit all ends, dropWhile_isDigit all ends, nonempty]
  | true =>
      simp [exponent?, takeWhile_isDigit all ends, dropWhile_isDigit all ends, nonempty]

/-- Without its letter there is no exponent. -/
theorem exponent?_of_ends (h : EndsNumber rest) : exponent? rest = none := by
  cases rest with
  | nil => rfl
  | cons c rest =>
      have hc := h c rfl
      simp [exponent?, hc.2.2.1, hc.2.2.2]

/-! ## Numbers -/

/-- A minus in front of a negative number. -/
def signed (negative : Bool) (text : List Char) : List Char :=
  if negative then '-' :: text else text

/-- The number whose digits before the point were read. -/
def afterWhole (negative : Bool) (whole rest : List Char) : Except Stop (Json × List Char) :=
  let (fraction, rest) := fractionDigits rest
  let exponent := exponent? rest
  if fraction.isEmpty ∧ exponent.isNone then
    let size : Int := decimalValue whole
    .ok (.int (if negative then -size else size), rest)
  else
    let (power, rest) := exponent.getD (0, rest)
    let decimal : Decimal := ⟨decimalValue (whole ++ fraction), power - fraction.length⟩
    .ok (.float (decimal.toBinary64 negative), rest)

/-- The sign of a text, and what follows it. -/
def signOf (text : List Char) : Bool × List Char :=
  match text with
  | '-' :: rest => (true, rest)
  | _ => (false, text)

/-- A sign that is written is read, in front of what has none. -/
theorem signOf_signed (negative : Bool) {text : List Char} (unsigned : text.head? ≠ some '-') :
    signOf (signed negative text) = (negative, text) := by
  cases negative with
  | true => rfl
  | false =>
      simp only [signed, Bool.false_eq_true, if_false]
      unfold signOf
      split
      · exact absurd rfl unsigned
      · rfl

theorem number_eq (text : List Char) :
    number text = match wholeDigits? (signOf text).2 with
      | none => .error ⟨.missingValue, text.length⟩
      | some (whole, rest) => afterWhole (signOf text).1 whole rest := rfl

/-- A number is its sign, the digits before the point, and the rest. -/
theorem number_signed {whole : List Char} (h : IsWhole whole) (negative : Bool)
    (ends : NoDigit rest) :
    number (signed negative (whole ++ rest)) = afterWhole negative whole rest := by
  have unsigned : (whole ++ rest).head? ≠ some '-' := by
    cases h with
    | zero => simp
    | digits digit =>
        rw [List.cons_append, List.head?_cons]
        intro hminus
        cases hminus
        cases digit
  rw [number_eq, signOf_signed negative unsigned, wholeDigits?_append h ends]

/-- Digits with nothing after them are an integer. -/
theorem number_whole {whole : List Char} (h : IsWhole whole) (negative : Bool)
    (ends : EndsNumber rest) :
    number (signed negative (whole ++ rest)) =
      .ok (.int (if negative then -(decimalValue whole : Int) else decimalValue whole), rest) := by
  rw [number_signed h negative ends.noDigit, afterWhole,
    fractionDigits_of_ne fun c hc => (ends c hc).2.1]
  simp only [exponent?_of_ends ends, List.isEmpty_nil, Option.isNone_none, and_self, if_true]

/-- Digits with a fraction after them are the number nearest to that decimal. -/
theorem number_fraction {whole fraction : List Char} (h : IsWhole whole) (negative : Bool)
    (nonempty : fraction ≠ []) (all : ∀ c ∈ fraction, c.isDigit = true)
    (ends : EndsNumber rest) :
    number (signed negative (whole ++ '.' :: (fraction ++ rest))) =
      .ok (.float ((⟨decimalValue (whole ++ fraction), -(fraction.length : Int)⟩ :
        Decimal).toBinary64 negative), rest) := by
  have hempty : fraction.isEmpty = false := by simpa using nonempty
  rw [number_signed h negative (noDigit_cons rfl), afterWhole,
    fractionDigits_append nonempty all ends.noDigit]
  simp only [exponent?_of_ends ends, hempty, Bool.false_eq_true, false_and, if_false,
    Option.getD_none, Int.zero_sub]

/-- The point and the digits after it, which a number without fraction leaves out. -/
def fractionPart (fraction : List Char) : List Char :=
  if fraction.isEmpty then [] else '.' :: fraction

/-- Digits with an exponent after them are the number nearest to that decimal. -/
theorem number_exponent {whole fraction places : List Char} (h : IsWhole whole)
    (negative below : Bool) (all : ∀ c ∈ fraction, c.isDigit = true) (nonempty : places ≠ [])
    (allPlaces : ∀ c ∈ places, c.isDigit = true) (ends : NoDigit rest) :
    number (signed negative (whole ++ (fractionPart fraction ++
      'e' :: (if below then '-' else '+') :: (places ++ rest)))) =
      .ok (.float ((⟨decimalValue (whole ++ fraction),
        (if below then -(decimalValue places : Int) else decimalValue places) -
          fraction.length⟩ : Decimal).toBinary64 negative), rest) := by
  have hexponent := exponent?_append below nonempty allPlaces ends
  cases fraction with
  | nil =>
      have hpart : fractionPart [] = [] := rfl
      rw [hpart, List.nil_append, number_signed h negative (noDigit_cons rfl), afterWhole,
        fractionDigits_of_ne (by simp)]
      simp only [hexponent, Option.isNone_some, Bool.false_eq_true, and_false, if_false,
        Option.getD_some]
  | cons c digits =>
      have hpart : fractionPart (c :: digits) = '.' :: (c :: digits) := rfl
      rw [hpart, List.cons_append, number_signed h negative (noDigit_cons rfl), afterWhole,
        fractionDigits_append (by simp) all (noDigit_cons rfl)]
      simp only [hexponent, Option.isNone_some, Bool.false_eq_true, and_false, if_false,
        Option.getD_some]

/-- What follows a signed text follows the text. -/
theorem signed_append (negative : Bool) (text : List Char) :
    signed negative text ++ rest = signed negative (text ++ rest) := by
  cases negative <;> rfl

/-- An integer is printed as its sign and the digits of its size. -/
theorem toList_toString_int (value : Int) :
    (toString value).toList = signed (decide (value < 0)) (Nat.toDigits 10 value.natAbs) := by
  cases value with
  | ofNat n =>
      have hsign : decide ((Int.ofNat n) < 0) = false := by simp
      rw [hsign]
      exact Nat.toList_repr
  | negSucc n =>
      have hsign : decide ((Int.negSucc n) < 0) = true := by simp
      have htext : toString (Int.negSucc n) = "-" ++ (n + 1).repr := rfl
      rw [hsign, htext, String.toList_append, Nat.toList_repr]
      rfl

/-- The text of an integer reads as the integer. -/
theorem number_int (value : Int) (ends : EndsNumber rest) :
    number ((toString value).toList ++ rest) = .ok (.int value, rest) := by
  rw [toList_toString_int, signed_append, number_whole (.toDigits _) _ ends,
    decimalValue_toDigits]
  have hsize : (if decide (value < 0) = true then -(value.natAbs : Int) else value.natAbs) =
      value := by
    by_cases hnegative : value < 0
    · rw [if_pos (decide_eq_true hnegative)]
      omega
    · rw [if_neg (by simpa using hnegative)]
      omega
  rw [hsize]

end Json.Parser

namespace Decimal

open Json.Parser

/-! ## Texts of decimals -/

/-- The digits of a decimal without the zeros at their end. -/
def leading (x : Decimal) : List Char :=
  ((Nat.toDigits 10 x.digits).reverse.dropWhile (· == '0')).reverse

/-- The place of the point, counted from the front of the digits. -/
def point (x : Decimal) : Int :=
  length x.digits + x.scale

variable (x : Decimal)

/-- The digits of a decimal are the leading ones and zeros. -/
theorem exists_toDigits_eq : ∃ zeros,
    Nat.toDigits 10 x.digits = x.leading ++ List.replicate zeros '0' := by
  let ending := (Nat.toDigits 10 x.digits).reverse.takeWhile (· == '0')
  have hending : ending = List.replicate ending.length '0' := by
    refine List.eq_replicate_of_mem fun c hc => ?_
    have hall := List.all_takeWhile (p := (· == '0')) (l := (Nat.toDigits 10 x.digits).reverse)
    simpa using List.all_eq_true.mp hall c hc
  refine ⟨ending.length, ?_⟩
  have hsplit := List.takeWhile_append_dropWhile (p := (· == '0'))
    (l := (Nat.toDigits 10 x.digits).reverse)
  rw [← List.reverse_inj, List.reverse_append, List.reverse_replicate, ← hending, leading,
    List.reverse_reverse]
  exact hsplit.symm

theorem isDigit_of_mem_leading : ∀ c ∈ x.leading, c.isDigit = true := by
  intro c hc
  rcases x.exists_toDigits_eq with ⟨zeros, hzeros⟩
  refine isDigit_of_mem_toDigits (n := x.digits) c ?_
  rw [hzeros]
  exact List.mem_append_left _ hc

variable {x}

/-- The leading digits and the zeros after them give the digits. -/
theorem digits_eq {zeros : Nat}
    (h : Nat.toDigits 10 x.digits = x.leading ++ List.replicate zeros '0') :
    x.digits = decimalValue x.leading * Nat.pow 10 zeros := by
  rw [← decimalValue_append_zeros, ← h, decimalValue_toDigits]

/-- The leading digits of a number that is not zero have a value. -/
theorem decimalValue_leading_ne_zero (nonzero : x.digits ≠ 0) :
    decimalValue x.leading ≠ 0 := by
  rcases x.exists_toDigits_eq with ⟨zeros, hzeros⟩
  intro hzero
  refine nonzero ?_
  rw [digits_eq hzeros, hzero, Nat.zero_mul]

/-- The leading digits begin with a digit other than zero. -/
theorem leading_isWhole (nonzero : x.digits ≠ 0) :
    ∃ c rest, x.leading = c :: rest ∧ c.isDigit = true ∧ c ≠ '0' := by
  rcases x.exists_toDigits_eq with ⟨zeros, hzeros⟩
  have hwhole := IsWhole.toDigits x.digits
  cases hleading : x.leading with
  | nil =>
      have hvalue := decimalValue_leading_ne_zero nonzero
      rw [hleading] at hvalue
      exact absurd rfl hvalue
  | cons c rest =>
      rw [hzeros, hleading, List.cons_append] at hwhole
      refine ⟨c, rest, rfl, x.isDigit_of_mem_leading c (hleading ▸ List.mem_cons_self ..), ?_⟩
      rintro rfl
      generalize htail : rest ++ List.replicate zeros '0' = tail at hwhole
      cases hwhole with
      | zero =>
          have hdigits := decimalValue_toDigits x.digits
          rw [hzeros, hleading, List.cons_append, htail] at hdigits
          exact nonzero hdigits.symm
      | digits _ leading => exact absurd rfl leading

/-- The number nearest to a decimal depends on the leading digits and the point. -/
theorem toBinary64_leading (nonzero : x.digits ≠ 0) (negative : Bool) (zeros : Nat) :
    toBinary64 negative
      ⟨decimalValue x.leading * Nat.pow 10 zeros, x.point - x.leading.length - zeros⟩ =
      x.toBinary64 negative := by
  rcases x.exists_toDigits_eq with ⟨ending, hending⟩
  have hvalue := decimalValue_leading_ne_zero nonzero
  have hlength : length x.digits = x.leading.length + ending := by
    rw [length, hending, List.length_append, List.length_replicate]
  have hdecimal : x = ⟨decimalValue x.leading * Nat.pow 10 ending,
      x.point - x.leading.length - ending⟩ := by
    have hscale : x.scale = x.point - x.leading.length - ending := by
      rw [point, hlength]
      omega
    rw [← digits_eq hending, ← hscale]
  rw [toBinary64_shift negative hvalue]
  conv => rhs; rw [hdecimal]
  rw [toBinary64_shift negative hvalue]

/-- The text of a decimal in positional notation with the point in front. -/
theorem text_of_point_le_zero (lower : -4 < x.point) (upper : x.point ≤ 0) :
    x.text = '0' :: '.' :: (List.replicate (-x.point).toNat '0' ++ x.leading) := by
  have hrange : -4 < x.point ∧ x.point ≤ 16 := ⟨lower, by omega⟩
  change (if -4 < x.point ∧ x.point ≤ 16 then if x.point ≤ 0 then _ else _ else _) = _
  rw [if_pos hrange, if_pos upper]
  rfl

/-- The text of a decimal in positional notation with digits in front of the point. -/
theorem text_of_point_pos (lower : 0 < x.point) (upper : x.point ≤ 16) :
    x.text = x.leading.take x.point.toNat ++
      List.replicate (x.point.toNat - x.leading.length) '0' ++ '.' ::
        (if (x.leading.drop x.point.toNat).isEmpty then ['0']
          else x.leading.drop x.point.toNat) := by
  have hrange : -4 < x.point ∧ x.point ≤ 16 := ⟨by omega, upper⟩
  have hpoint : ¬ x.point ≤ 0 := by omega
  change (if -4 < x.point ∧ x.point ≤ 16 then if x.point ≤ 0 then _ else _ else _) = _
  rw [if_pos hrange, if_neg hpoint]
  rfl

/-- The text of a decimal with an exponent. -/
theorem text_of_exponent (outside : ¬ (-4 < x.point ∧ x.point ≤ 16)) :
    x.text = x.leading.take 1 ++ fractionPart (x.leading.drop 1) ++
      'e' :: (if decide (x.point - 1 < 0) then '-' else '+') ::
        (List.replicate (2 - (Nat.toDigits 10 (x.point - 1).natAbs).length) '0' ++
          Nat.toDigits 10 (x.point - 1).natAbs) := by
  change (if -4 < x.point ∧ x.point ≤ 16 then _ else _) = _
  rw [if_neg outside]
  simp only [decide_eq_true_eq]
  rfl

/-- With all digits behind the point. -/
theorem number_text_of_point_le_zero (nonzero : x.digits ≠ 0) (negative : Bool)
    {rest : List Char} (ends : EndsNumber rest) (lower : -4 < x.point) (upper : x.point ≤ 0) :
    number (signed negative (x.text ++ rest)) = .ok (.float (x.toBinary64 negative), rest) := by
  rcases leading_isWhole nonzero with ⟨c, tail, hleading, _, _⟩
  have hfraction : ∀ d ∈ List.replicate (-x.point).toNat '0' ++ x.leading,
      d.isDigit = true := by
    intro d hd
    rcases List.mem_append.mp hd with hd | hd
    · exact isDigit_of_mem_zeros d hd
    · exact x.isDigit_of_mem_leading d hd
  have hread := number_fraction .zero negative (by simp [hleading]) hfraction ends
  have hvalue : decimalValue (['0'] ++ (List.replicate (-x.point).toNat '0' ++ x.leading)) =
      decimalValue x.leading * Nat.pow 10 0 := by
    rw [← List.append_assoc, ← List.replicate_one, List.replicate_append_replicate,
      decimalValue_zeros_append, Nat.pow_eq, Nat.pow_zero, Nat.mul_one]
  have hscale : -((List.replicate (-x.point).toNat '0' ++ x.leading).length : Int) =
      x.point - x.leading.length - (0 : Nat) := by
    rw [List.length_append, List.length_replicate]
    omega
  rw [hvalue, hscale, toBinary64_leading nonzero] at hread
  rw [text_of_point_le_zero lower upper]
  exact hread

/-- With digits in front of the point and behind it. -/
theorem number_text_of_point_lt (nonzero : x.digits ≠ 0) (negative : Bool)
    {rest : List Char} (ends : EndsNumber rest) (lower : 0 < x.point) (upper : x.point ≤ 16)
    (inside : x.point.toNat < x.leading.length) :
    number (signed negative (x.text ++ rest)) = .ok (.float (x.toBinary64 negative), rest) := by
  rcases leading_isWhole nonzero with ⟨c, tail, hleading, hdigit, hnonzero⟩
  have hall := x.isDigit_of_mem_leading
  have hwhole : IsWhole (x.leading.take x.point.toNat) := by
    have hpoint : x.point.toNat = x.point.toNat - 1 + 1 := by omega
    rw [hleading, hpoint, List.take_succ_cons]
    refine .digits hdigit hnonzero fun d hd => hall d ?_
    rw [hleading]
    exact List.mem_cons_of_mem _ (List.mem_of_mem_take hd)
  have hfraction : x.leading.drop x.point.toNat ≠ [] := by
    rw [Ne, List.drop_eq_nil_iff]
    omega
  have hread := number_fraction hwhole negative hfraction
    (fun d hd => hall d (List.mem_of_mem_drop hd)) ends
  have hvalue : decimalValue (x.leading.take x.point.toNat ++ x.leading.drop x.point.toNat) =
      decimalValue x.leading * Nat.pow 10 0 := by
    rw [List.take_append_drop, Nat.pow_eq, Nat.pow_zero, Nat.mul_one]
  have hscale : -((x.leading.drop x.point.toNat).length : Int) =
      x.point - x.leading.length - (0 : Nat) := by
    rw [List.length_drop]
    omega
  have hzeros : x.point.toNat - x.leading.length = 0 := by omega
  have hempty : (x.leading.drop x.point.toNat).isEmpty = false := by simpa using hfraction
  rw [hvalue, hscale, toBinary64_leading nonzero] at hread
  rw [text_of_point_pos lower upper, hzeros, hempty, List.replicate_zero, List.append_nil,
    List.append_assoc]
  exact hread

/-- With all digits in front of the point, and zeros up to it. -/
theorem number_text_of_length_le (nonzero : x.digits ≠ 0) (negative : Bool)
    {rest : List Char} (ends : EndsNumber rest) (lower : 0 < x.point) (upper : x.point ≤ 16)
    (outside : x.leading.length ≤ x.point.toNat) :
    number (signed negative (x.text ++ rest)) = .ok (.float (x.toBinary64 negative), rest) := by
  rcases leading_isWhole nonzero with ⟨c, tail, hleading, hdigit, hnonzero⟩
  have hall := x.isDigit_of_mem_leading
  have hwhole : IsWhole (x.leading ++
      List.replicate (x.point.toNat - x.leading.length) '0') := by
    rw [hleading, List.cons_append]
    refine .digits hdigit hnonzero fun d hd => ?_
    rcases List.mem_append.mp hd with hd | hd
    · exact hall d (hleading ▸ List.mem_cons_of_mem _ hd)
    · exact isDigit_of_mem_zeros d hd
  have hread := number_fraction hwhole negative (List.cons_ne_nil '0' [])
      (List.forall_mem_singleton.mpr rfl) ends
  have hvalue : decimalValue (x.leading ++
      List.replicate (x.point.toNat - x.leading.length) '0' ++ ['0']) =
      decimalValue x.leading * Nat.pow 10 (x.point.toNat - x.leading.length + 1) := by
    rw [← List.replicate_one, List.append_assoc, List.replicate_append_replicate,
      decimalValue_append_zeros]
  have hscale : -((['0'] : List Char).length : Int) = x.point - x.leading.length -
      (x.point.toNat - x.leading.length + 1 : Nat) := by
    rw [List.length_singleton]
    omega
  have htake : x.leading.take x.point.toNat = x.leading := List.take_of_length_le outside
  have hdrop : x.leading.drop x.point.toNat = [] := List.drop_eq_nil_of_le outside
  rw [hvalue, hscale, toBinary64_leading nonzero] at hread
  rw [text_of_point_pos lower upper, htake, hdrop, List.append_assoc]
  exact hread

/-- With an exponent. -/
theorem number_text_of_exponent (nonzero : x.digits ≠ 0) (negative : Bool)
    {rest : List Char} (ends : EndsNumber rest) (outside : ¬ (-4 < x.point ∧ x.point ≤ 16)) :
    number (signed negative (x.text ++ rest)) = .ok (.float (x.toBinary64 negative), rest) := by
  rcases leading_isWhole nonzero with ⟨c, tail, hleading, hdigit, hnonzero⟩
  have hall := x.isDigit_of_mem_leading
  have hwhole : IsWhole [c] := .digits hdigit hnonzero fun d hd => absurd hd List.not_mem_nil
  let places := List.replicate (2 - (Nat.toDigits 10 (x.point - 1).natAbs).length) '0' ++
    Nat.toDigits 10 (x.point - 1).natAbs
  have hplaces : ∀ d ∈ places, d.isDigit = true := by
    intro d hd
    rcases List.mem_append.mp hd with hd | hd
    · exact isDigit_of_mem_zeros d hd
    · exact isDigit_of_mem_toDigits d hd
  have hnonempty : places ≠ [] := by simp [places]
  have hread := number_exponent hwhole negative (decide (x.point - 1 < 0))
    (fun d hd => hall d (hleading ▸ List.mem_cons_of_mem _ hd)) hnonempty hplaces ends.noDigit
  have hvalue : decimalValue ([c] ++ tail) = decimalValue x.leading * Nat.pow 10 0 := by
    rw [hleading, Nat.pow_eq, Nat.pow_zero, Nat.mul_one]
    rfl
  have hpower : (if decide (x.point - 1 < 0) then -(decimalValue places : Int)
      else decimalValue places) - tail.length = x.point - x.leading.length - (0 : Nat) := by
    have hplace : decimalValue places = (x.point - 1).natAbs := by
      rw [decimalValue_zeros_append, decimalValue_toDigits]
    rw [hplace, hleading, List.length_cons]
    by_cases hbelow : x.point - 1 < 0
    · simp only [hbelow, decide_true, if_true]
      omega
    · simp only [hbelow, decide_false, Bool.false_eq_true, if_false]
      omega
  rw [hvalue, hpower, toBinary64_leading nonzero] at hread
  rw [text_of_exponent outside, hleading]
  simpa [places] using hread

/-- The text of a decimal reads as the number nearest to it. -/
theorem number_text (nonzero : x.digits ≠ 0) (negative : Bool) {rest : List Char}
    (ends : EndsNumber rest) :
    number (signed negative (x.text ++ rest)) = .ok (.float (x.toBinary64 negative), rest) := by
  by_cases hrange : -4 < x.point ∧ x.point ≤ 16
  · by_cases hpoint : x.point ≤ 0
    · exact number_text_of_point_le_zero nonzero negative ends hrange.1 hpoint
    · by_cases hinside : x.point.toNat < x.leading.length
      · exact number_text_of_point_lt nonzero negative ends (by omega) hrange.2 hinside
      · exact number_text_of_length_le nonzero negative ends (by omega) hrange.2 (by omega)
  · exact number_text_of_exponent nonzero negative ends hrange

end Decimal

namespace Json.Parser

variable {rest : List Char}

/-- The digits that a number is written with read back as the number. -/
theorem toBinary64_digits {mantissa exponent : Nat}
    (canonical : Binary64.IsCanonical mantissa exponent) (nonzero : mantissa ≠ 0) :
    ((Decimal.shortest? mantissa exponent canonical).getD
      (Decimal.exact mantissa exponent)).toBinary64 false =
        .finite false mantissa exponent canonical := by
  cases hshortest : Decimal.shortest? mantissa exponent canonical with
  | none => exact Decimal.toBinary64_exact canonical nonzero
  | some x => exact Decimal.readsBack_of_shortest? hshortest

/-- The text of a finite number reads as the number. -/
theorem number_finite (negative : Bool) (mantissa exponent : Nat)
    (canonical : Binary64.IsCanonical mantissa exponent) (ends : EndsNumber rest) :
    number ((Binary64.finite negative mantissa exponent canonical).text ++ rest) =
      .ok (.float (.finite negative mantissa exponent canonical), rest) := by
  by_cases hzero : mantissa = 0
  · have hexponent : exponent = 0 := by
      rcases canonical.2.1 with hexponent | hleast
      · exact hexponent
      · rw [hzero] at hleast
        exact absurd hleast (by decide)
    subst hzero
    subst hexponent
    have htext : (Binary64.finite negative 0 0 canonical).text =
        signed negative ['0', '.', '0'] := rfl
    have hread := number_fraction .zero negative (List.cons_ne_nil '0' [])
      (List.forall_mem_singleton.mpr rfl) ends
    have hdecimal : decimalValue (['0'] ++ ['0']) = 0 := rfl
    rw [hdecimal, Decimal.toBinary64_zero] at hread
    rw [htext, signed_append]
    exact hread
  · let x := (Decimal.shortest? mantissa exponent canonical).getD (Decimal.exact mantissa exponent)
    have hvalue : x.toBinary64 false = .finite false mantissa exponent canonical :=
      toBinary64_digits canonical hzero
    have hdigits : x.digits ≠ 0 := by
      intro hdigits
      have hx : x = ⟨0, x.scale⟩ := by rw [← hdigits]
      rw [hx, Decimal.toBinary64_zero, Binary64.zero, Binary64.finite.injEq] at hvalue
      exact hzero hvalue.2.1.symm
    have hsigned : x.toBinary64 negative = .finite negative mantissa exponent canonical := by
      cases negative with
      | false => exact hvalue
      | true =>
          rw [Decimal.toBinary64_true, hvalue]
          rfl
    have htext : (Binary64.finite negative mantissa exponent canonical).text =
        signed negative x.text := by
      simp only [Binary64.text, if_neg hzero]
      rfl
    rw [htext, signed_append, Decimal.number_text hdigits negative ends, hsigned]

end Json.Parser

end Schemata
