import ViewTree.Json.Writer
import ViewTree.Text.Quoted
import ViewTree.Text.Record

/-!
# Diagnostic texts of JSON values

Diagnostics show the constructor of a value with its content: `Number(1.5)`, `String("x")`,
`Array [Null, Bool(true)]`, `Object` and the fields in braces. Numbers are spelled as in JSON,
texts are quoted as everywhere in diagnostics.
-/

set_option autoImplicit false

namespace ViewTree.Json

mutual

/-- The diagnostic text of a value. -/
def debug : Json → String
  | .null => "Null"
  | .bool b => Text.applied "Bool" [toString b]
  | .num n => Text.applied "Number" [String.ofList (numberChars n)]
  | .str s => Text.applied "String" [Text.quoted s]
  | .arr items => "Array " ++ Text.bracketed (debugItems items)
  | .obj fields => "Object " ++ Text.braced (debugFields fields)

/-- The diagnostic texts of several values. -/
def debugItems : List Json → List String
  | [] => []
  | item :: rest => debug item :: debugItems rest

/-- The diagnostic texts of several fields. -/
def debugFields : List (String × Json) → List String
  | [] => []
  | (key, value) :: rest => (Text.quoted key ++ ": " ++ debug value) :: debugFields rest

end

end ViewTree.Json
