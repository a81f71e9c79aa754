import ViewTree.Component.Basic
import ViewTree.View.Basic

/-!
# Scrolling containers

A scrolling container holds one child. It is shown in any case, empty where the child is not, and
takes over a title from its metadata.
-/

set_option autoImplicit false

namespace ViewTree.Layout

variable {σ : Type}

/-- The title in metadata that may be missing. -/
def titleOf : Option (Metadata σ) → Effect σ (Option String)
  | none => pure none
  | some m => m.getStr "title"

/-- Builds a scrolling container: first the title, then the child. -/
def buildScroll (child : Child σ View) (metadata : Option (Metadata σ)) :
    Action σ (Option View) := do
  let title ← titleOf metadata
  let inside ← child.realize
  let view := View.ofKind "scroll"
  let view := match title with
    | some title => view.withTitle title
    | none => view
  pure (some (view.withChildren inside.toList))

/-- A scrolling container around a child. -/
def scroll (child : Component σ View) (metadata : Option (Metadata σ)) : Component σ View :=
  .wrapper buildScroll child metadata

end ViewTree.Layout
