import ViewTree.Number.Decimal
import ViewTree.Text.Escape

/-!
# TOML scalars

Strings in their four forms, and the bare words that stand for truth values, numbers and dates.

A bare word is the longest run of the characters that such words are made of. Since nothing but a
blank, a comma, a bracket, a comment or a line end may follow a value, a word is good exactly if the
whole of it has one of the forms below.
-/

set_option autoImplicit false

namespace ViewTree.Toml

open Text (hexValue unescape)

/-! ## Characters -/

/-- A blank inside a line. -/
def isBlank (c : Char) : Bool := c = ' ' || c = '\t'

/-- A character that may stand in comments and strings: no control but the tab. -/
def isText (c : Char) : Bool := c = '\t' || (0x20 ≤ c.toNat && c.toNat ≠ 0x7F)

/-- A character of a bare key. -/
def isBare (c : Char) : Bool := c.isAlphanum || c = '-' || c = '_'

/-- A character of a bare word. -/
def isWord (c : Char) : Bool := c.isAlphanum || c = '+' || c = '-' || c = '.' || c = '_' || c = ':'

/-- The character whose number is spelled by hexadecimal digits. -/
def hexChar (digits : List Char) : Option Char := do
  let n ← digits.foldlM (fun n c => (hexValue c).map (16 * n + ·)) 0
  if n.isValidChar then pure (Char.ofNat n) else none

/-! ## Strings

Each reader starts behind the opening quotes and gives the content and what follows the closing
ones. -/

/-- The content of a string in double quotes. -/
def basicString : List Char → Option (List Char × List Char)
  | '"' :: rest => some ([], rest)
  | '\\' :: 'u' :: a :: b :: c :: d :: rest => do
    let char ← hexChar [a, b, c, d]
    let (content, rest) ← basicString rest
    pure (char :: content, rest)
  | '\\' :: 'U' :: a :: b :: c :: d :: e :: f :: g :: h :: rest => do
    let char ← hexChar [a, b, c, d, e, f, g, h]
    let (content, rest) ← basicString rest
    pure (char :: content, rest)
  | '\\' :: c :: rest => do
    let char ← unescape c
    let (content, rest) ← basicString rest
    pure (char :: content, rest)
  | c :: rest =>
    if isText c && c ≠ '\\' then do
      let (content, rest) ← basicString rest
      pure (c :: content, rest)
    else none
  | [] => none

/-- The content of a string in single quotes. -/
def literalString (cs : List Char) : Option (List Char × List Char) :=
  let isContent (c : Char) : Bool := isText c && c ≠ '\''
  match cs.dropWhile isContent with
  | '\'' :: rest => some (cs.takeWhile isContent, rest)
  | _ => none

/-- Whether a backslash ends a line: nothing but blanks follow it there. -/
def endsLine (cs : List Char) : Bool :=
  match cs.dropWhile isBlank with
  | '\n' :: _ => true
  | '\r' :: '\n' :: _ => true
  | _ => false

/-- The content of a string in three double quotes. While `joining`, blanks and line ends behind a
backslash at the end of a line are left out. Up to two quotes may stand before the closing ones. -/
def multilineBasic (joining : Bool) : List Char → Option (List Char × List Char)
  | '"' :: '"' :: '"' :: '"' :: '"' :: rest => some (['"', '"'], rest)
  | '"' :: '"' :: '"' :: '"' :: rest => some (['"'], rest)
  | '"' :: '"' :: '"' :: rest => some ([], rest)
  | '\\' :: 'u' :: a :: b :: c :: d :: rest => do
    let char ← hexChar [a, b, c, d]
    let (content, rest) ← multilineBasic false rest
    pure (char :: content, rest)
  | '\\' :: 'U' :: a :: b :: c :: d :: e :: f :: g :: h :: rest => do
    let char ← hexChar [a, b, c, d, e, f, g, h]
    let (content, rest) ← multilineBasic false rest
    pure (char :: content, rest)
  | '\\' :: c :: rest =>
    if endsLine (c :: rest) then multilineBasic true (c :: rest)
    else do
      let char ← unescape c
      let (content, rest) ← multilineBasic false rest
      pure (char :: content, rest)
  | '\r' :: '\n' :: rest =>
    if joining then multilineBasic true rest
    else do
      let (content, rest) ← multilineBasic false rest
      pure ('\n' :: content, rest)
  | c :: rest =>
    if joining && (isBlank c || c = '\n') then multilineBasic true rest
    else if (isText c && c ≠ '\\') || c = '\n' then do
      let (content, rest) ← multilineBasic false rest
      pure (c :: content, rest)
    else none
  | [] => none

/-- The content of a string in three single quotes. Up to two quotes may stand before the closing
ones. -/
def multilineLiteral : List Char → Option (List Char × List Char)
  | '\'' :: '\'' :: '\'' :: '\'' :: '\'' :: rest => some (['\'', '\''], rest)
  | '\'' :: '\'' :: '\'' :: '\'' :: rest => some (['\''], rest)
  | '\'' :: '\'' :: '\'' :: rest => some ([], rest)
  | '\r' :: '\n' :: rest => do
    let (content, rest) ← multilineLiteral rest
    pure ('\n' :: content, rest)
  | c :: rest =>
    if isText c || c = '\n' then do
      let (content, rest) ← multilineLiteral rest
      pure (c :: content, rest)
    else none
  | [] => none

/-- What follows a line end right behind the opening quotes, which does not count. -/
def dropLineEnd : List Char → List Char
  | '\n' :: rest => rest
  | '\r' :: '\n' :: rest => rest
  | cs => cs

/-- A string with either kind of quote, on one line or on several. -/
def anyString : List Char → Option (List Char × List Char)
  | '"' :: '"' :: '"' :: rest => multilineBasic false (dropLineEnd rest)
  | '"' :: rest => basicString rest
  | '\'' :: '\'' :: '\'' :: rest => multilineLiteral (dropLineEnd rest)
  | '\'' :: rest => literalString rest
  | _ => none

/-! ## Numbers -/

/-- Digits of some kind with single underscores between them. -/
def isGrouped (isDigit : Char → Bool) : List Char → Bool
  | [] => false
  | [c] => isDigit c
  | c :: '_' :: rest => isDigit c && isGrouped isDigit rest
  | c :: rest => isDigit c && isGrouped isDigit rest

/-- A word without a sign in front, and whether there was a minus. -/
def splitSign : List Char → Bool × List Char
  | '-' :: rest => (true, rest)
  | '+' :: rest => (false, rest)
  | cs => (false, cs)

/-- Decimal digits without a needless zero in front. -/
def isWhole (cs : List Char) : Bool :=
  isGrouped Char.isDigit cs && (cs.length = 1 || cs.head? ≠ some '0')

/-- The value of digits in a base. -/
def valueIn (base : Nat) (digits : List Char) : Nat :=
  (digits.filterMap hexValue).foldl (fun n d => base * n + d) 0

/-- The first number beyond the integers: `2 ^ 63`. -/
def integerBound : Nat := 9223372036854775808

/-- Whether a word is an integer of 64 bits. Other bases than ten have a mark and no sign. -/
def isInteger (word : List Char) : Bool :=
  match word with
  | '0' :: 'x' :: digits =>
    isGrouped (fun c => (hexValue c).isSome) digits && valueIn 16 digits < integerBound
  | '0' :: 'o' :: digits =>
    isGrouped (fun c => '0' ≤ c && c ≤ '7') digits && valueIn 8 digits < integerBound
  | '0' :: 'b' :: digits =>
    isGrouped (fun c => c = '0' || c = '1') digits && valueIn 2 digits < integerBound
  | _ =>
    let (negative, digits) := splitSign word
    isWhole digits &&
      (if negative then valueIn 10 digits ≤ integerBound else valueIn 10 digits < integerBound)

/-- The value of an exponent behind its letter, if it is one. -/
def exponentValue (cs : List Char) : Option Int :=
  let (negative, digits) := splitSign cs
  if isGrouped Char.isDigit digits then
    let n : Int := valueIn 10 digits
    some (if negative then -n else n)
  else none

/-- Whether a word is a float. One with a fraction or an exponent is refused where it is too large
for a double and has no minus in front. -/
def isFloat (word : List Char) : Bool :=
  let (negative, body) := splitSign word
  if body = ['i', 'n', 'f'] || body = ['n', 'a', 'n'] then true
  else
    let isMark (c : Char) : Bool := c = '.' || c = 'e' || c = 'E'
    let whole := body.takeWhile (!isMark ·)
    let (fraction, behind) := match body.dropWhile (!isMark ·) with
      | '.' :: rest => (some (rest.takeWhile (!isMark ·)), rest.dropWhile (!isMark ·))
      | rest => (none, rest)
    let exponent := match behind with
      | [] => if fraction.isSome then some 0 else none
      | c :: rest => if c = 'e' || c = 'E' then exponentValue rest else none
    match exponent with
    | none => false
    | some exponent =>
      let digits := fraction.getD []
      let places := (digits.filter Char.isDigit).length
      isWhole whole && (fraction.isNone || isGrouped Char.isDigit digits) &&
        (negative ||
          (Decimal.toDouble false ⟨valueIn 10 (whole ++ digits), exponent - places⟩).isSome)

/-! ## Dates -/

/-- A number of exactly so many digits in front of a word, and the rest. -/
def fixedNumber (places : Nat) (cs : List Char) : Option (Nat × List Char) :=
  let digits := cs.take places
  if digits.length = places && digits.all Char.isDigit then
    some (valueIn 10 digits, cs.drop places)
  else none

/-- What follows a character. -/
def after (c : Char) : List Char → Option (List Char)
  | d :: rest => if d = c then some rest else none
  | [] => none

/-- The number of days in a month. -/
def daysIn (year month : Nat) : Nat :=
  if month = 2 then
    if year % 4 = 0 && (year % 100 ≠ 0 || year % 400 = 0) then 29 else 28
  else if month = 4 || month = 6 || month = 9 || month = 11 then 30
  else 31

/-- What follows a day of the calendar. -/
def afterDay (cs : List Char) : Option (List Char) := do
  let (year, cs) ← fixedNumber 4 cs
  let cs ← after '-' cs
  let (month, cs) ← fixedNumber 2 cs
  let cs ← after '-' cs
  let (day, cs) ← fixedNumber 2 cs
  if 1 ≤ month && month ≤ 12 && 1 ≤ day && day ≤ daysIn year month then pure cs else none

/-- What follows a time of the day, which may have a fraction of a second. -/
def afterTime (cs : List Char) : Option (List Char) := do
  let (hour, cs) ← fixedNumber 2 cs
  let cs ← after ':' cs
  let (minute, cs) ← fixedNumber 2 cs
  let cs ← after ':' cs
  let (second, cs) ← fixedNumber 2 cs
  if hour ≤ 23 && minute ≤ 59 && second ≤ 60 then
    match cs with
    | '.' :: rest =>
      if (rest.takeWhile Char.isDigit).isEmpty then none else pure (rest.dropWhile Char.isDigit)
    | cs => pure cs
  else none

/-- Whether a text is an offset from universal time, or none at all. -/
def isOffset (cs : List Char) : Bool :=
  match cs with
  | [] => true
  | ['Z'] => true
  | ['z'] => true
  | sign :: rest =>
    (sign = '+' || sign = '-') &&
      match (do
        let (hour, cs) ← fixedNumber 2 rest
        let cs ← after ':' cs
        let (minute, cs) ← fixedNumber 2 cs
        pure (hour, minute, cs) : Option (Nat × Nat × List Char)) with
      | some (hour, minute, []) => hour ≤ 23 && minute ≤ 59
      | _ => false

/-- Whether a word is a day, a time, or both with a letter between them and perhaps an offset. -/
def isDate (word : List Char) : Bool :=
  match afterDay word with
  | some [] => true
  | some (mark :: rest) =>
    (mark = 'T' || mark = 't' || mark = ' ') &&
      match afterTime rest with
      | some offset => isOffset offset
      | none => false
  | none => afterTime word == some []

end ViewTree.Toml
