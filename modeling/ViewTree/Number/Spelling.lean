import ViewTree.Number.Decimal

/-!
# How doubles are spelled

A double is written with the fewest digits that read back. Moderate magnitudes are positional, with
at least one digit on each side of the point; the others are scientific, with a bare digit or a
digit, a point and more digits in front of the `e`.

A `Spelling` is what is left open: where positional writing ends on either side, whether a positive
exponent carries its sign, and which of two equally near decimals is taken. The library writes two
of them, one for JSON texts and one for diagnostics.
-/

set_option autoImplicit false

namespace ViewTree

/-- The choices in the text of a double. Where the decimal point stands is counted from the first
significant digit: the number is `0.DIGITS · 10 ^ point`. -/
structure Spelling where
  /-- The least position of the point that is written positionally. -/
  leastPoint : Int
  /-- The greatest position of the point that is written positionally. -/
  greatestPoint : Int
  /-- Whether a positive exponent is written with its sign. -/
  signedExponent : Bool
  /-- Which of two equally near decimals is written. -/
  tie : Tie

namespace Spelling

/-- JSON texts: `0.00001` and `1000000000000000.0` are positional, `1e-6` and `1e+16` are not. -/
def json : Spelling := ⟨-4, 16, true, .even⟩

/-- Diagnostics: `0.0001` and `1000000000000000.0` are positional, `1e-5` and `1e16` are not. -/
def diagnostic : Spelling := ⟨-3, 16, false, .up⟩

/-- Digits with the point after the first `point` of them, zeros filling the gaps. -/
def positional (digits : List Char) (point : Int) : List Char :=
  if point ≤ 0 then '0' :: '.' :: List.replicate (-point).toNat '0' ++ digits
  else if point < digits.length then
    digits.take point.toNat ++ '.' :: digits.drop point.toNat
  else digits ++ List.replicate (point.toNat - digits.length) '0' ++ ['.', '0']

/-- Digits with the point after the first one, and the exponent. -/
def scientific (signed : Bool) (digits : List Char) (point : Int) : List Char :=
  let exponent := point - 1
  let sign := if exponent < 0 then ['-'] else if signed then ['+'] else []
  let mantissa := match digits with
    | first :: second :: rest => first :: '.' :: second :: rest
    | short => short
  mantissa ++ 'e' :: sign ++ Decimal.digitsOf exponent.natAbs

/-- Digits without the zeros at their end. -/
def dropFinalZeros (digits : List Char) : List Char :=
  (digits.reverse.dropWhile (· = '0')).reverse

/-- The text of a positive decimal. -/
def magnitude (style : Spelling) (d : Decimal) : List Char :=
  let digits := Decimal.digitsOf d.significand
  let point := digits.length + d.exponent
  let shown := dropFinalZeros digits
  if style.leastPoint ≤ point ∧ point ≤ style.greatestPoint then positional shown point
  else scientific style.signedExponent shown point

/-- The characters of a double. -/
def chars (style : Spelling) (x : Double) : List Char :=
  let sign := if x.negative then ['-'] else []
  sign ++ if x.isZero then ['0', '.', '0'] else style.magnitude (x.shortest style.tie)

/-- The text of a double. -/
def text (style : Spelling) (x : Double) : String := String.ofList (style.chars x)

end Spelling

/-- The text of a number that need not be finite, as diagnostics write it. -/
def Double.Extended.debug : Double.Extended → String
  | .finite x => Spelling.diagnostic.text x
  | .infinite true => "-inf"
  | .infinite false => "inf"
  | .nan => "NaN"

end ViewTree
