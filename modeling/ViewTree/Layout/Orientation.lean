import ViewTree.Json.Basic

/-!
# Orientation

The axis along which a stack lays its children out. Metadata, properties and serialized
configurations know an orientation by its name; vertical is the default.
-/

set_option autoImplicit false

namespace ViewTree

/-- The axis of a stack. -/
inductive Orientation where
  | horizontal
  | vertical
deriving DecidableEq

namespace Orientation

/-- A stack is a column unless something else is said. -/
def default : Orientation := .vertical

instance : Inhabited Orientation := ⟨default⟩

/-- The name of an orientation. -/
def name : Orientation → String
  | .horizontal => "horizontal"
  | .vertical => "vertical"

/-- A text that names no orientation. -/
structure Unknown where
  raw : String
deriving DecidableEq

/-- The message about a text that names no orientation. -/
def Unknown.message (e : Unknown) : String := "unknown orientation '" ++ e.raw ++ "'"

/-- The orientation of a name. -/
def parse (raw : String) : Except Unknown Orientation :=
  if raw = "horizontal" then .ok .horizontal
  else if raw = "vertical" then .ok .vertical
  else .error ⟨raw⟩

/-- The orientation of a name, or nothing. -/
def ofName? (raw : String) : Option Orientation := (parse raw).toOption

/-- An orientation as a JSON value. -/
def toJson (o : Orientation) : Json := .str o.name

/-- The orientation that a JSON value names. -/
def ofJson? (j : Json) : Option Orientation := j.str?.bind ofName?

/-- The diagnostic text of an orientation. -/
def debug : Orientation → String
  | .horizontal => "Horizontal"
  | .vertical => "Vertical"

@[simp] theorem parse_name (o : Orientation) : parse o.name = .ok o := by cases o <;> rfl

end Orientation

end ViewTree
