/-!
# Binary64 numbers

A JSON number with a fraction or an exponent is a binary64 number.  This file
keeps such a number exactly, as a mantissa and a power of two, and rounds a ratio
of natural numbers to the nearest one, a tie going to the even mantissa.
-/

namespace Schemata

/-- The mantissas and exponents of binary64: a mantissa has at most 53 bits, and
only the least exponent allows fewer. -/
abbrev Binary64.IsCanonical (mantissa exponent : Nat) : Prop :=
  mantissa < Nat.pow 2 53 ∧ (exponent = 0 ∨ Nat.pow 2 52 ≤ mantissa) ∧ exponent ≤ 2045

/-- A binary64 number.  The finite one has the magnitude
`mantissa * 2 ^ exponent / 2 ^ 1074`. -/
inductive Binary64 where
  | nan
  | infinity (negative : Bool)
  | finite (negative : Bool) (mantissa exponent : Nat)
      (canonical : Binary64.IsCanonical mantissa exponent)
deriving DecidableEq

namespace Binary64

/-- The quotient rounded to the nearest natural number, a tie to the even one. -/
def roundDiv (numerator denominator : Nat) : Nat :=
  let quotient := numerator / denominator
  let twice := 2 * (numerator % denominator)
  if twice < denominator ∨ (twice = denominator ∧ quotient % 2 = 0) then quotient
  else quotient + 1

/-- The number nearest to a ratio; a ratio beyond the range gives an infinity. -/
def ofRatio (negative : Bool) (numerator denominator : Nat) : Binary64 :=
  let scaled := numerator * Nat.pow 2 1074
  let exponent := (scaled / denominator).log2 - 52
  let rounded := roundDiv scaled (denominator * Nat.pow 2 exponent)
  let mantissa := if rounded = Nat.pow 2 53 then Nat.pow 2 52 else rounded
  let exponent := if rounded = Nat.pow 2 53 then exponent + 1 else exponent
  if h : IsCanonical mantissa exponent then .finite negative mantissa exponent h
  else .infinity negative

/-- Zero of either sign. -/
def zero (negative : Bool) : Binary64 :=
  .finite negative 0 0 (by decide)

/-- Whether a number is one of the two zeros. -/
def isZero : Binary64 → Bool
  | .finite _ mantissa _ _ => mantissa == 0
  | _ => false

/-- The number of the other sign. -/
def negate : Binary64 → Binary64
  | .nan => .nan
  | .infinity negative => .infinity (!negative)
  | .finite negative mantissa exponent canonical => .finite (!negative) mantissa exponent canonical

/-- The integer that a number is when its fraction is left out. -/
def truncate? : Binary64 → Option Int
  | .finite negative mantissa exponent _ =>
    let magnitude : Int := (mantissa * Nat.pow 2 exponent / Nat.pow 2 1074 : Nat)
    some (if negative then -magnitude else magnitude)
  | _ => none

/-- Equality of values: the zeros are equal, and NaN equals nothing. -/
def same : Binary64 → Binary64 → Bool
  | .nan, _ => false
  | _, .nan => false
  | x, y => (x.isZero && y.isZero) || decide (x = y)

/-- Whether a number has the value of an integer. -/
def equalsInt (x : Binary64) (i : Int) : Bool :=
  match x with
  | .finite negative mantissa exponent _ =>
    let magnitude : Int := (mantissa * Nat.pow 2 exponent : Nat)
    (if negative then -magnitude else magnitude) == i * (Nat.pow 2 1074 : Nat)
  | _ => false

end Binary64

end Schemata
