import ViewTree.Json.Basic
import ViewTree.Number.Spelling

/-!
# Writing JSON

A value has one compact text and one indented text. They differ only in the blanks around the
elements, so there is one writer, and a record of `Blanks` says which it puts.

Strings escape the quote, the backslash and the controls below U+0020 and leave every other
character as it is. How numbers are spelled is left open: writers differ there, in where they begin
with exponents and how they sign them. `numberChars` is one spelling, with integers in decimal and
floats as in `Spelling.json`, and what is written without further mention is written with it.
-/

set_option autoImplicit false

namespace ViewTree.Json

/-! ## Scalars -/

/-- How one character is written inside a string. -/
def escape (c : Char) : List Char :=
  if c = '"' then ['\\', '"']
  else if c = '\\' then ['\\', '\\']
  else if c = '\x08' then ['\\', 'b']
  else if c = '\x0c' then ['\\', 'f']
  else if c = '\n' then ['\\', 'n']
  else if c = '\r' then ['\\', 'r']
  else if c = '\t' then ['\\', 't']
  else if c.toNat < 0x20 then
    ['\\', 'u', '0', '0', Nat.digitChar (c.toNat / 16), Nat.digitChar (c.toNat % 16)]
  else [c]

/-- The characters of a string, with its quotes. -/
def stringChars (s : String) : List Char := '"' :: s.toList.flatMap escape ++ ['"']

/-- The characters of an integer. -/
def integerChars (n : Int) : List Char :=
  if n < 0 then '-' :: Decimal.digitsOf n.natAbs else Decimal.digitsOf n.natAbs

/-- The characters of a number. -/
def numberChars : Number → List Char
  | .integer n => integerChars n.value
  | .float x => Spelling.json.chars x

/-! ## Structure -/

/-- The blanks of a text: what stands before an element at a depth, and behind a colon. -/
structure Blanks where
  gap : Nat → List Char
  afterColon : List Char

/-- No blanks at all. -/
def Blanks.compact : Blanks := ⟨fun _ => [], []⟩

/-- Every element on a line of its own, two spaces further in than its container. -/
def Blanks.indented : Blanks := ⟨fun depth => '\n' :: List.replicate (2 * depth) ' ', [' ']⟩

section Structure

variable (num : Number → List Char)

mutual

/-- The characters of a value whose container is at a depth. -/
def chars (blanks : Blanks) (depth : Nat) : Json → List Char
  | .null => ['n', 'u', 'l', 'l']
  | .bool true => ['t', 'r', 'u', 'e']
  | .bool false => ['f', 'a', 'l', 's', 'e']
  | .num n => num n
  | .str s => stringChars s
  | .arr [] => ['[', ']']
  | .arr (item :: rest) =>
    '[' :: blanks.gap (depth + 1) ++ chars blanks (depth + 1) item ++
      moreItems blanks (depth + 1) rest ++ blanks.gap depth ++ [']']
  | .obj [] => ['\x7b', '\x7d']
  | .obj ((key, value) :: rest) =>
    '\x7b' :: blanks.gap (depth + 1) ++ stringChars key ++ ':' :: blanks.afterColon ++
      chars blanks (depth + 1) value ++ moreFields blanks (depth + 1) rest ++
      blanks.gap depth ++ ['\x7d']

/-- The elements behind the first one, each after its comma. -/
def moreItems (blanks : Blanks) (depth : Nat) : List Json → List Char
  | [] => []
  | item :: rest =>
    ',' :: blanks.gap depth ++ chars blanks depth item ++ moreItems blanks depth rest

/-- The fields behind the first one, each after its comma. -/
def moreFields (blanks : Blanks) (depth : Nat) : List (String × Json) → List Char
  | [] => []
  | (key, value) :: rest =>
    ',' :: blanks.gap depth ++ stringChars key ++ ':' :: blanks.afterColon ++
      chars blanks depth value ++ moreFields blanks depth rest

end

/-- The text of a value without blanks. -/
def textWith (j : Json) : String := String.ofList (j.chars num .compact 0)

/-- The text of a value with one element a line. -/
def prettyWith (j : Json) : String := String.ofList (j.chars num .indented 0)

end Structure

/-- The text of a value without blanks. -/
def text (j : Json) : String := j.textWith numberChars

/-- The text of a value with one element a line. -/
def pretty (j : Json) : String := j.prettyWith numberChars

end ViewTree.Json
