/-!
# Diagnostic texts of composite values

Diagnostics write a list between brackets, a record as its name with its fields in braces, and an
optional value as `None` or `Some(..)`. The parts are texts already.
-/

set_option autoImplicit false

namespace ViewTree.Text

/-- Texts between brackets, with commas between them. -/
def bracketed (parts : List String) : String := "[" ++ ", ".intercalate parts ++ "]"

/-- Texts between braces, with commas between them. -/
def braced (parts : List String) : String := "\x7b" ++ ", ".intercalate parts ++ "\x7d"

/-- A name and its arguments. -/
def applied (name : String) (arguments : List String) : String :=
  name ++ "(" ++ ", ".intercalate arguments ++ ")"

/-- A name and its fields. -/
def record (name : String) (fields : List (String × String)) : String :=
  let shown := fields.map fun field => field.1 ++ ": " ++ field.2
  name ++ " \x7b " ++ ", ".intercalate shown ++ " \x7d"

/-- A value that may be missing. -/
def optional : Option String → String
  | none => "None"
  | some part => applied "Some" [part]

end ViewTree.Text
