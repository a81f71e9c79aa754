import ViewTree.Json.Basic
import ViewTree.Number.Decimal

/-!
# Number literals

A number in a text is a sign, digits, perhaps a point with more digits, perhaps an exponent. Without
the last two it is **whole**, and a whole literal that fits 64 bits is an integer. Every other one
is a double, and which one is not for JSON to say. There are two ways to find it.

**Rounded** is the double nearest to the decimal that is spelled. This is what makes the shortest
digits of a double enough.

**Scaled** is what comes of machine arithmetic. As many digits as fit 64 bits are taken as a whole
number, the number is made a double, and the double is multiplied or divided by a power of ten. That
is fast and needs no long numbers, but it rounds more than once: `91.44446394025773` comes out as
`91.44446394025772`, and `1.7976931348623158e308`, which is nearest to the greatest double, is too
large.
-/

set_option autoImplicit false

namespace ViewTree.Json

/-- A number as it is spelled. -/
structure Literal where
  negative : Bool
  /-- The digits in front of the point. -/
  whole : List Char
  /-- The digits behind the point, if there is one. -/
  fraction : Option (List Char)
  exponent : Option Int
deriving DecidableEq

/-- A way to find the number that a literal stands for, if there is one. -/
abbrev Conversion : Type := Literal → Option Number

namespace Literal

/-- Whether there is neither a fraction nor an exponent. -/
def isWhole (l : Literal) : Bool := l.fraction.isNone && l.exponent.isNone

/-- The magnitude that is spelled. -/
def magnitude (l : Literal) : Decimal :=
  ⟨Decimal.valueOf (l.whole ++ l.fraction.getD []),
    l.exponent.getD 0 - (l.fraction.getD []).length⟩

/-- The integer of a whole literal, if it fits 64 bits. A negative zero is none, since no integer
has a sign of zero. -/
def integer? (l : Literal) : Option Integer :=
  let n := Decimal.valueOf l.whole
  if !l.isWhole then none
  else if !l.negative then Integer.ofInt? n
  else if n = 0 then none
  else Integer.ofInt? (-n)

/-! ## Rounded -/

/-- The number of a literal: an integer, or else the nearest double, if there is one. -/
def rounded? (l : Literal) : Option Number :=
  match l.integer? with
  | some n => some (.integer n)
  | none => (l.magnitude.toDouble l.negative).map .float

/-! ## Scaled -/

/-- The first number beyond 64 bits. -/
def wordBound : Nat := 18446744073709551616

/-- Takes digits in front of the point. From the first one on that does not fit, each of them is a
power of ten and nothing more. -/
def takeWhole (d : Decimal) : List Char → Decimal
  | [] => d
  | c :: rest =>
    let longer := 10 * d.significand + (c.toNat - '0'.toNat)
    if longer < wordBound then takeWhole ⟨longer, d.exponent⟩ rest
    else ⟨d.significand, d.exponent + (rest.length + 1)⟩

/-- Takes digits behind the point. From the first one on that does not fit, they do not count. -/
def takeFraction (d : Decimal) : List Char → Decimal
  | [] => d
  | c :: rest =>
    let longer := 10 * d.significand + (c.toNat - '0'.toNat)
    if longer < wordBound then takeFraction ⟨longer, d.exponent - 1⟩ rest else d

/-- What is taken of a literal: a number of 64 bits and a power of ten. -/
def taken (l : Literal) : Decimal :=
  let digits := takeFraction (takeWhole ⟨0, 0⟩ l.whole) (l.fraction.getD [])
  ⟨digits.significand, digits.exponent + l.exponent.getD 0⟩

/-- The double nearest to a power of ten up to `10 ^ 308`. -/
def power (n : Nat) : Double := (Decimal.toDouble false ⟨1, n⟩).getD default

/-- Divides by `10 ^ 308` again and again, until there is nothing left to divide. -/
def shrink (x : Double) : Nat → Option Double
  | 0 => some x
  | times + 1 => do
    if x.isZero then return x
    let smaller ← x.over? (power 308)
    shrink smaller times

/-- Multiplies or divides by a power of ten, in steps that are doubles. -/
def scale (x : Double) (exponent : Int) : Option Double :=
  if exponent < 0 then do
    let steps := (exponent.natAbs - 1) / 308
    let smaller ← shrink x steps
    smaller.over? (power (exponent.natAbs - 308 * steps))
  else if x.isZero then some x
  else if exponent ≤ 308 then x.times? (power exponent.toNat)
  else none

/-- The number of a literal: an integer, or else the double that its digits are scaled to, if it is
not too large. -/
def scaled? (l : Literal) : Option Number :=
  match l.integer? with
  | some n => some (.integer n)
  | none => do
    let digits ← Double.ofInt l.taken.significand
    let x ← scale digits l.taken.exponent
    pure (.float ⟨l.negative, x.rank⟩)

end Literal

end ViewTree.Json
