import ViewTree.Component.Basic
import ViewTree.View.Basic

/-!
# Leaf widgets

Labels, tiles and buttons read their content straight from their metadata. Each has a text that it
cannot do without, and is not shown where that is missing.
-/

set_option autoImplicit false

namespace ViewTree.Widget

variable {σ : Type}

/-- A label shows a text. -/
def buildLabel : Option (Metadata σ) → Action σ (Option View)
  | none => pure none
  | some m => do
    match ← m.getStr "text" with
    | none => pure none
    | some text => pure (some ((View.ofKind "label").withProperty "text" (.str text)))

/-- A tile shows a text on a colour, if one is given. -/
def buildTile : Option (Metadata σ) → Action σ (Option View)
  | none => pure none
  | some m => do
    match ← m.getStr "text" with
    | none => pure none
    | some text =>
      let view := (View.ofKind "tile").withProperty "text" (.str text)
      match ← m.getStr "color" with
      | none => pure (some view)
      | some color => pure (some (view.withProperty "color" (.str color)))

/-- A button shows its title. -/
def buildButton : Option (Metadata σ) → Action σ (Option View)
  | none => pure none
  | some m => do
    match ← m.getStr "title" with
    | none => pure none
    | some title => pure (some ((View.ofKind "button").withTitle title))

/-- A label of its metadata. -/
def label (metadata : Option (Metadata σ)) : Component σ View := .single buildLabel metadata

/-- A tile of its metadata. -/
def tile (metadata : Option (Metadata σ)) : Component σ View := .single buildTile metadata

/-- A button of its metadata. -/
def button (metadata : Option (Metadata σ)) : Component σ View := .single buildButton metadata

end ViewTree.Widget
