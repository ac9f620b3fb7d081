import Schemata.Json.Binary64

/-!
# Decimal text of binary64 numbers

A binary64 number is written with the fewest decimal digits that read back as the
same number, and of those with the digits nearest to it.  Reading a decimal rounds
to the nearest number.

Main result:

- Theorem {lit}`readsBack_of_shortest?`: a decimal found by the search reads back
  as the number it was searched for.
-/

namespace Schemata

/-- The number `digits * 10 ^ scale`. -/
structure Decimal where
  digits : Nat
  scale : Int
deriving DecidableEq

namespace Decimal

/-- How many decimal digits a natural number has. -/
def length (n : Nat) : Nat :=
  (Nat.toDigits 10 n).length

/-- The binary64 number nearest to a decimal.  Exponents far outside the range of
binary64 are decided by the number of digits alone. -/
def toBinary64 (negative : Bool) (x : Decimal) : Binary64 :=
  let magnitude := length x.digits + x.scale
  if x.digits = 0 ∨ magnitude < -330 then .zero negative
  else if 310 < magnitude then .infinity negative
  else if 0 ≤ x.scale then .ofRatio negative (x.digits * Nat.pow 10 x.scale.toNat) 1
  else .ofRatio negative x.digits (Nat.pow 10 (-x.scale).toNat)

/-- The power `p` with `10 ^ (p - 1) ≤ numerator / denominator < 10 ^ p`. -/
def leadingPower (numerator denominator : Nat) : Int :=
  if denominator ≤ numerator then length (numerator / denominator)
  else
    let zeros := (List.range 400).find? fun j => denominator ≤ numerator * Nat.pow 10 j
    1 - (zeros.getD 0 : Int)

/-- The one or two decimals with the given scale next to a ratio, the nearer first;
a tie prefers the even one. -/
def neighbours (numerator denominator : Nat) (scale : Int) : List Decimal :=
  let n := numerator * Nat.pow 10 (-scale).toNat
  let d := denominator * Nat.pow 10 scale.toNat
  let low := n / d
  let twice := 2 * (n % d)
  if twice < d ∨ (twice = d ∧ low % 2 = 0) then [⟨low, scale⟩, ⟨low + 1, scale⟩]
  else [⟨low + 1, scale⟩, ⟨low, scale⟩]

/-- Search one to seventeen digits for a decimal that reads back as the positive
number with the given mantissa and exponent. -/
def shortest? (mantissa exponent : Nat) (canonical : Binary64.IsCanonical mantissa exponent) :
    Option Decimal :=
  let numerator := mantissa * Nat.pow 2 (exponent - 1074)
  let denominator := Nat.pow 2 (1074 - exponent)
  let power := leadingPower numerator denominator
  (List.range 17).findSome? fun n =>
    (neighbours numerator denominator (power - (n + 1 : Nat))).find? fun x =>
      x.toBinary64 false = .finite false mantissa exponent canonical

/-- All digits of the number with the given mantissa and exponent. -/
def exact (mantissa exponent : Nat) : Decimal :=
  if 1074 ≤ exponent then ⟨mantissa * Nat.pow 2 (exponent - 1074), 0⟩
  else ⟨mantissa * Nat.pow 5 (1074 - exponent), -((1074 - exponent : Nat) : Int)⟩

/-- A decimal found by the search reads back as the number it was searched for. -/
theorem readsBack_of_shortest? {mantissa exponent : Nat}
    {canonical : Binary64.IsCanonical mantissa exponent} {x : Decimal}
    (h : shortest? mantissa exponent canonical = some x) :
    x.toBinary64 false = .finite false mantissa exponent canonical := by
  unfold shortest? at h
  obtain ⟨n, _, hn⟩ := List.exists_of_findSome?_eq_some h
  simpa using List.find?_some hn

/-- Digits and the place of the point: positional notation where the leading digit
stands for `10 ^ -4` to `10 ^ 15`, with at least one digit after the point, else
an exponent with a sign and two digits or more. -/
def text (x : Decimal) : List Char :=
  let all := Nat.toDigits 10 x.digits
  let point := all.length + x.scale
  let digits := (all.reverse.dropWhile (· == '0')).reverse
  if -4 < point ∧ point ≤ 16 then
    if point ≤ 0 then '0' :: '.' :: (List.replicate (-point).toNat '0' ++ digits)
    else
      let whole := digits.take point.toNat
      let fraction := digits.drop point.toNat
      whole ++ List.replicate (point.toNat - digits.length) '0' ++ '.' ::
        (if fraction.isEmpty then ['0'] else fraction)
  else
    let exponent := point - 1
    let places := Nat.toDigits 10 exponent.natAbs
    let fraction := digits.drop 1
    digits.take 1 ++ (if fraction.isEmpty then [] else '.' :: fraction) ++
      'e' :: (if exponent < 0 then '-' else '+') ::
      (List.replicate (2 - places.length) '0' ++ places)

end Decimal

/-- The text of a binary64 number in JSON, which lends NaN and the infinities names
of their own. -/
def Binary64.text : Binary64 → List Char
  | .nan => "NaN".toList
  | .infinity negative => if negative then "-Infinity".toList else "Infinity".toList
  | .finite negative mantissa exponent canonical =>
    let magnitude :=
      if mantissa = 0 then ['0', '.', '0']
      else
        ((Decimal.shortest? mantissa exponent canonical).getD
          (Decimal.exact mantissa exponent)).text
    if negative then '-' :: magnitude else magnitude

end Schemata
