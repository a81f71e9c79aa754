import ViewTree.Json.Writer
import ViewTree.Text.Quoted
import ViewTree.View.Basic

/-!
# Outlines of views

The outline shows a view to a person: one line a widget, two spaces further in for each level. A
line has the kind, then the quoted title and the properties in braces, if there are any. A property
is its key and its value as compact JSON.

Neither a quoted title nor compact JSON contains a line break, so a line is a widget. The compact
JSON is the text that a writer makes of a value, so an outline is made with a writer.
-/

set_option autoImplicit false

namespace ViewTree.View

/-- The title on a line. -/
def titleText : Option String → String
  | none => ""
  | some title => " " ++ Text.quoted title

section Lines

variable (write : Json → String)

/-- The properties on a line. -/
def propertiesText (properties : Dictionary Json) : String :=
  if properties.isEmpty then ""
  else " \x7b" ++ ", ".intercalate (properties.entries.map fun entry =>
    entry.1 ++ "=" ++ write entry.2) ++ "\x7d"

/-- What the line of a widget says. -/
def heading (kind : String) (title : Option String) (properties : Dictionary Json) : String :=
  kind ++ titleText title ++ propertiesText write properties

/-- A line of an outline. -/
def outlineLine (depth : Nat) (content : String) : String :=
  String.ofList (List.replicate (2 * depth) ' ') ++ content ++ "\n"

mutual

/-- The lines of a view that stands at a depth. -/
def outlineLines (depth : Nat) : View → List String
  | ⟨kind, title, properties, children⟩ =>
    outlineLine depth (heading write kind title properties) :: outlineLinesAll (depth + 1) children

/-- The lines of several views. -/
def outlineLinesAll (depth : Nat) : List View → List String
  | [] => []
  | v :: rest => outlineLines depth v ++ outlineLinesAll depth rest

end

/-- The outline of a view, with values as a writer has them. -/
def outlineWith (v : View) : String := String.join (v.outlineLines write 0)

end Lines

/-- The outline of a view. -/
def outline (v : View) : String := v.outlineWith Json.text

end ViewTree.View
