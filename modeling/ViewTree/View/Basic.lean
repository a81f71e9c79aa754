import ViewTree.Json.Basic

/-!
# Views

A **view** is what realizing a component gives: a tree that says which widgets to show, with their
titles and properties, and nothing of how they came about. Properties are a dictionary, so they are
always written in the order of their keys.
-/

set_option autoImplicit false

namespace ViewTree

/-- A realized widget with the widgets inside it. -/
structure View where
  /-- The kind of widget. -/
  kind : String
  /-- The title, if there is one. -/
  title : Option String
  /-- What else the widget is configured with. -/
  properties : Dictionary Json
  /-- The widgets inside, in order. -/
  children : List View

namespace View

/-- A widget of a kind and nothing else. -/
def ofKind (kind : String) : View := ⟨kind, none, .empty, []⟩

instance : Inhabited View := ⟨ofKind ""⟩

/-- Sets the title. -/
def withTitle (v : View) (title : String) : View := { v with title := some title }

/-- Sets a property. -/
def withProperty (v : View) (key : String) (value : Json) : View :=
  { v with properties := v.properties.insert key value }

/-- Sets the widgets inside. -/
def withChildren (v : View) (children : List View) : View := { v with children := children }

/-- The value of a property. -/
def property? (v : View) (key : String) : Option Json := v.properties.get? key

/-! ## The whole tree -/

mutual

/-- The number of widgets, the outermost included. -/
def count : View → Nat
  | ⟨_, _, _, children⟩ => 1 + countAll children

/-- The number of widgets in several views. -/
def countAll : List View → Nat
  | [] => 0
  | v :: rest => count v + countAll rest

end

mutual

/-- Equality of views: the same tree, with equal values as properties. -/
def equal : View → View → Bool
  | ⟨kind, title, properties, children⟩, ⟨kind', title', properties', children'⟩ =>
    kind == kind' && title == title' &&
      Json.equalFields properties.entries properties'.entries && equalAll children children'

/-- Equality of views one by one. -/
def equalAll : List View → List View → Bool
  | [], [] => true
  | v :: vs, w :: ws => equal v w && equalAll vs ws
  | _, _ => false

end

/-! ## As a JSON value -/

/-- A field that is left out when there is nothing to say. -/
def fieldIf (present : Bool) (key : String) (value : Json) : List (String × Json) :=
  if present then [(key, value)] else []

mutual

/-- The serialized view: its kind, then its title, properties and children unless empty. -/
def toJson : View → Json
  | ⟨kind, title, properties, children⟩ =>
    .obj (("kind", .str kind) ::
      (fieldIf title.isSome "title" (.str (title.getD "")) ++
        fieldIf (!properties.isEmpty) "properties" (.ofDictionary properties) ++
        fieldIf (!children.isEmpty) "children" (.arr (toJsonAll children))))

/-- The serialized views. -/
def toJsonAll : List View → List Json
  | [] => []
  | v :: rest => toJson v :: toJsonAll rest

end

end View

end ViewTree
