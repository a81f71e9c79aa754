import ViewTree.Number.Double

/-!
# Decimals

A **decimal** is `significand · 10 ^ exponent`. Texts spell numbers as decimals, so this module
holds both directions: the double nearest to a decimal, and the shortest decimal that stands for a
double.

**Reading.** Very large and very small exponents are decided without computing the power: with a
significand of `l + 1` bits, a decimal whose exponent is above 400 exceeds every double, and one
whose exponent is below `-(400 + l)` is smaller than `10 ^ -400` and rounds to zero.

**Writing.** A double has many decimals that read back as it. The shortest is found by trying one
significant digit, then two, and so on up to seventeen. For each number of digits only the two
decimals around the exact value can read back, and the nearer of them is tried first. Seventeen
digits are enough for every double; the exact expansion, which reads back trivially, closes the
search so that what is found reads back by construction.
-/

set_option autoImplicit false

namespace ViewTree

/-- The number `significand · 10 ^ exponent`. -/
structure Decimal where
  significand : Nat
  exponent : Int
deriving DecidableEq

namespace Decimal

/-- The double nearest to a decimal, if it is not too large for one. -/
def toDouble (negative : Bool) (d : Decimal) : Option Double :=
  if d.significand = 0 then some (Double.zero negative)
  else if 400 < d.exponent then none
  else if d.exponent < -(400 + (d.significand.log2 : Int)) then some (Double.zero negative)
  else
    Double.ofRatio negative (d.significand * Nat.pow 10 d.exponent.toNat)
      (Nat.pow 10 (-d.exponent).toNat)

/-- The decimal digits of a natural number. -/
def digitsOf (n : Nat) : List Char := Nat.toDigits 10 n

/-- The value of a run of decimal digits. -/
def valueOf (digits : List Char) : Nat := Nat.ofDigitChars 10 digits 0

end Decimal

/-- Which of two equally near decimals is taken. -/
inductive Tie where
  /-- The one with the even last digit. -/
  | even
  /-- The larger one. -/
  | up
deriving DecidableEq

namespace Double

/-- The position of the decimal point: a positive magnitude lies between `10 ^ (magnitude - 1)`,
included, and `10 ^ magnitude`. -/
def magnitude (x : Double) : Int :=
  let num := x.numerator
  let den := x.denominator
  if den ≤ num then (Decimal.digitsOf (num / den)).length
  else 1 - ((Decimal.digitsOf ((den - 1) / num)).length : Int)

/-- The decimals of `places` significant digits next to a double, the preferred one first. -/
def neighbours (tie : Tie) (x : Double) (places : Nat) : List Decimal :=
  let exponent := x.magnitude - places
  let num := x.numerator * Nat.pow 10 (-exponent).toNat
  let den := x.denominator * Nat.pow 10 exponent.toNat
  let below := num / den
  let twice := 2 * (num % den)
  let low : Decimal := ⟨below, exponent⟩
  let high : Decimal := ⟨below + 1, exponent⟩
  let lowFirst := twice < den || (twice = den && tie = .even && below % 2 = 0)
  if lowFirst then [low, high] else [high, low]

/-- The decimal that is exactly a double's magnitude. -/
def exactDecimal (x : Double) : Decimal :=
  if x.exponent < 0 then ⟨x.significand * Nat.pow 5 (-x.exponent).toNat, x.exponent⟩
  else ⟨x.numerator, 0⟩

/-- Whether a decimal, with the sign of a double, is read as that double. -/
def standsFor (x : Double) (d : Decimal) : Bool := d.toDouble x.negative = some x

/-- The decimal of fewest digits that reads back as a double's magnitude. -/
def shortest (tie : Tie) (x : Double) : Decimal :=
  ((List.range 17).findSome? fun n => (x.neighbours tie (n + 1)).find? x.standsFor).getD
    x.exactDecimal

end Double

end ViewTree
