import ViewTree.Layout.Orientation
import ViewTree.Number.Spelling
import ViewTree.Text.Quoted
import ViewTree.Text.Record

/-!
# Typed configurations

The layouts are configured by records: a stack by its title, spacing, axis and colours, a child of a
tab bar by its title and icon, a tab bar by the tab that is selected. A record can itself be the
metadata of a component, and then answers look-ups with the fields of its serialized form.
-/

set_option autoImplicit false

namespace ViewTree

/-! ## The records -/

/-- Configuration of a stack. -/
structure StackConfig where
  /-- The title, if there is one. -/
  title : Option String
  /-- The space between children. -/
  spacing : Double.Extended
  /-- The axis along which the children lie. -/
  orientation : Orientation
  /-- Whether children are stretched to the width of the stack. -/
  preserveParentWidth : Bool
  /-- The colour behind the children, as a hexadecimal text. -/
  backgroundColor : String
deriving DecidableEq

/-- Configuration of one tab. -/
structure TabConfig where
  title : String
  iconName : String
deriving DecidableEq

/-- Configuration of a tab bar. -/
structure TabBarConfig where
  /-- The position of the selected tab. -/
  selectedIndex : UInt64
deriving DecidableEq

namespace StackConfig

/-- The space between children where nothing is said: ten. -/
def defaultSpacing : Double := (Double.ofInt 10).getD (Double.zero false)

/-- An untitled white column with a spacing of ten, whose children keep their width. -/
def default : StackConfig := ⟨none, .finite defaultSpacing, Orientation.default, false, "#FFFFFF"⟩

instance : Inhabited StackConfig := ⟨default⟩

/-- The serialized record. -/
def toJson (c : StackConfig) : Json :=
  .obj [("title", match c.title with | some title => .str title | none => .null),
    ("spacing", .ofExtended c.spacing),
    ("orientation", c.orientation.toJson),
    ("preserve_parent_width", .bool c.preserveParentWidth),
    ("background_color", .str c.backgroundColor)]

/-- The diagnostic text of the record. -/
def debug (c : StackConfig) : String :=
  Text.record "StackConfig"
    [("title", Text.optional (c.title.map Text.quoted)),
      ("spacing", c.spacing.debug),
      ("orientation", c.orientation.debug),
      ("preserve_parent_width", toString c.preserveParentWidth),
      ("background_color", Text.quoted c.backgroundColor)]

end StackConfig

namespace TabConfig

/-- The serialized record. -/
def toJson (c : TabConfig) : Json :=
  .obj [("title", .str c.title), ("icon_name", .str c.iconName)]

/-- The diagnostic text of the record. -/
def debug (c : TabConfig) : String :=
  Text.record "TabConfig"
    [("title", Text.quoted c.title), ("icon_name", Text.quoted c.iconName)]

end TabConfig

namespace TabBarConfig

/-- The serialized record. -/
def toJson (c : TabBarConfig) : Json := .obj [("selected_index", .ofUInt64 c.selectedIndex)]

/-- The diagnostic text of the record. -/
def debug (c : TabBarConfig) : String :=
  Text.record "TabBarConfig" [("selected_index", toString c.selectedIndex)]

end TabBarConfig

/-! ## Any of them -/

/-- A configuration of one of the three kinds. -/
inductive Config where
  | stack (config : StackConfig)
  | tab (config : TabConfig)
  | tabBar (config : TabBarConfig)
deriving DecidableEq

namespace Config

/-- The serialized record. -/
def toJson : Config → Json
  | .stack c => c.toJson
  | .tab c => c.toJson
  | .tabBar c => c.toJson

/-- The diagnostic text of the record. -/
def debug : Config → String
  | .stack c => c.debug
  | .tab c => c.debug
  | .tabBar c => c.debug

end Config

end ViewTree
