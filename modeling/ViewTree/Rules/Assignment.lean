import ViewTree.Text.Blank

/-!
# Rule assignments

A rule value is set on the command line by a text `NAME=BOOL`. The first equals sign separates the
two sides, and blanks around either side do not count. So a name never contains an equals sign and
never begins or ends with a blank.
-/

set_option autoImplicit false

namespace ViewTree

/-- A value for a rule name. -/
structure Assignment where
  name : String
  value : Bool
deriving DecidableEq

namespace Assignment

/-- Why a text is no assignment. -/
inductive Cause where
  /-- There is no equals sign. -/
  | noEquals
  /-- There is nothing but blanks before the equals sign. -/
  | emptyName
  /-- What follows the equals sign is no truth value. -/
  | notBoolean (value : String)
deriving DecidableEq

/-- A text that is no assignment. -/
structure Error where
  raw : String
  cause : Cause
deriving DecidableEq

/-- What a cause says. -/
def Cause.message : Cause → String
  | .noEquals => "expected NAME=BOOL"
  | .emptyName => "empty rule name"
  | .notBoolean value => "'" ++ value ++ "' is not true or false"

/-- The message about a text that is no assignment. -/
def Error.message (e : Error) : String :=
  "invalid rule assignment '" ++ e.raw ++ "': " ++ e.cause.message

/-- The two sides of the first equals sign. -/
def sides (cs : List Char) : Option (List Char × List Char) :=
  match cs.dropWhile (· ≠ '=') with
  | [] => none
  | _ :: right => some (cs.takeWhile (· ≠ '='), right)

/-- The truth value of a word. -/
def boolOf? (word : List Char) : Option Bool :=
  if word = ['t', 'r', 'u', 'e'] then some true
  else if word = ['f', 'a', 'l', 's', 'e'] then some false
  else none

/-- The assignment that characters spell. -/
def ofChars (cs : List Char) : Except Cause Assignment :=
  match sides cs with
  | none => .error .noEquals
  | some (left, right) =>
    if Text.trimList left = [] then .error .emptyName
    else
      match boolOf? (Text.trimList right) with
      | some value => .ok ⟨String.ofList (Text.trimList left), value⟩
      | none => .error (.notBoolean (String.ofList (Text.trimList right)))

/-- The assignment of a text. -/
def parse (raw : String) : Except Error Assignment :=
  (ofChars raw.toList).mapError (⟨raw, ·⟩)

end Assignment

end ViewTree
