/-!
# Double-precision numbers

A **double** is a finite binary64 number. It is held as its sign and its **rank**: its position
among the non-negative doubles in ascending order, so that rank 0 is zero, rank 1 the smallest
subnormal and the next rank always the next larger number. The two zeros differ in their sign only.
Nothing is computed with machine floats; every operation here is exact arithmetic on naturals.

The rank splits into blocks of `2 ^ 52`. Block 0 holds the subnormals, block `e` the numbers
`(2 ^ 52 + f) · 2 ^ (e - 1075)`. Since the blocks follow each other without a gap, rounding a
significand up to `2 ^ 53` lands on the first number of the next block by itself.

A quotient is read as the double nearest to it, and of two equally near ones as the one with the
even significand. There is none when the nearest one would lie beyond the last block.
-/

set_option autoImplicit false

namespace ViewTree

/-- How many doubles there are in a block: `2 ^ 52`. -/
def Double.blockSize : Nat := 4503599627370496

/-- How many non-negative doubles there are: 2047 blocks. -/
def Double.count : Nat := 2047 * Double.blockSize

/-- A finite binary64 number: its sign and its position among the non-negative ones. -/
structure Double where
  negative : Bool
  rank : Fin Double.count
deriving DecidableEq

namespace Double

/-! ## The value -/

/-- Zero, of either sign. -/
def zero (negative : Bool) : Double := ⟨negative, ⟨0, by decide⟩⟩

instance : Inhabited Double := ⟨zero false⟩

/-- Whether a number is one of the zeros. -/
def isZero (x : Double) : Bool := x.rank.val = 0

/-- The whole number that the exponent scales. -/
def significand (x : Double) : Nat :=
  if x.rank.val < blockSize then x.rank.val else blockSize + x.rank.val % blockSize

/-- The power of two that one unit of the significand stands for. -/
def exponent (x : Double) : Int :=
  if x.rank.val < blockSize then -1074 else (x.rank.val / blockSize : Nat) - 1075

/-- Numerator of the magnitude, over `denominator`. -/
def numerator (x : Double) : Nat := x.significand <<< x.exponent.toNat

/-- Denominator of the magnitude: a power of two. -/
def denominator (x : Double) : Nat := 1 <<< (-x.exponent).toNat

/-- Equality as numbers: the two zeros are equal. -/
def equal (x y : Double) : Bool :=
  x.rank.val = y.rank.val && (x.negative == y.negative || x.rank.val = 0)

/-! ## Rounding a quotient -/

/-- The whole number nearest to a quotient, a half going to the even neighbour. -/
def roundHalfEven (num den : Nat) : Nat :=
  let floor := num / den
  let twice := 2 * (num % den)
  if twice < den then floor
  else if den < twice then floor + 1
  else floor + floor % 2

/-- The exponent of the greatest power of two that is at most a quotient of positive numbers. -/
def log2Ratio (num den : Nat) : Int :=
  let guess : Int := (num.log2 : Int) - den.log2
  if den <<< guess.toNat ≤ num <<< (-guess).toNat then guess else guess - 1

/-- The block unit for a quotient: 53 significant bits, but never below the subnormals' unit. -/
def unitExponent (num den : Nat) : Int := max (-1074) (log2Ratio num den - 52)

/-- The rank that rounding a quotient gives, which may lie beyond the last double. -/
def nearestRank (num den : Nat) : Nat :=
  let unit := unitExponent num den
  (unit + 1074).toNat * blockSize + roundHalfEven (num <<< (-unit).toNat) (den <<< unit.toNat)

/-- The double nearest to a quotient, if it is not too large for one. -/
def ofRatio (negative : Bool) (num den : Nat) : Option Double :=
  if num = 0 then some (zero negative)
  else if h : nearestRank num den < count then some ⟨negative, ⟨nearestRank num den, h⟩⟩
  else none

/-- The double nearest to an integer, if it is not too large for one. -/
def ofInt (n : Int) : Option Double := ofRatio (n < 0) n.natAbs 1

/-! ## Machine arithmetic

Products and quotients are rounded like everything else, so a result of several steps need not be
the double nearest to the exact one. -/

/-- The product, if it is not too large for a double. -/
def times? (x y : Double) : Option Double :=
  ofRatio (x.negative != y.negative) (x.numerator * y.numerator) (x.denominator * y.denominator)

/-- The quotient by a number that is not zero, if it is not too large for a double. -/
def over? (x y : Double) : Option Double :=
  ofRatio (x.negative != y.negative) (x.numerator * y.denominator) (x.denominator * y.numerator)

end Double

/-! ## With infinities -/

/-- A binary64 number that need not be finite. Values of this kind come from typed configurations
only: JSON has no spelling for the other two. -/
inductive Double.Extended where
  | finite (value : Double)
  | infinite (negative : Bool)
  | nan
deriving DecidableEq

/-- The number itself, if it is finite. -/
def Double.Extended.finite? : Double.Extended → Option Double
  | .finite x => some x
  | _ => none

end ViewTree
