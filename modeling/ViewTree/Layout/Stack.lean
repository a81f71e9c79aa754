import ViewTree.Component.Basic
import ViewTree.Metadata.Materialize
import ViewTree.View.Basic

/-!
# Stacks

A stack lays its children out along one axis and leaves out those that are not shown. All of its
configuration has defaults, and all of it but the title becomes properties of the view.
-/

set_option autoImplicit false

namespace ViewTree.Layout

variable {σ : Type}

/-- The view of a stack's configuration, without children. -/
def stackFrame (config : StackConfig) : View :=
  let view := (View.ofKind "stack")
    |>.withProperty "spacing" (.ofExtended config.spacing)
    |>.withProperty "orientation" (.str config.orientation.name)
    |>.withProperty "preserve_parent_width" (.bool config.preserveParentWidth)
    |>.withProperty "background_color" (.str config.backgroundColor)
  match config.title with
  | some title => view.withTitle title
  | none => view

/-- Builds a stack: first its configuration, then the children in order. -/
def buildStack (children : List (Child σ View)) (metadata : Option (Metadata σ)) :
    Action σ (Option View) := do
  let config ← materialize StackConfig metadata
  let views ← Child.realizeAll children
  pure (some ((stackFrame (config.getD StackConfig.default)).withChildren views))

/-- A stack of children. -/
def stack (children : List (Component σ View)) (metadata : Option (Metadata σ)) :
    Component σ View :=
  .cluster buildStack children metadata

end ViewTree.Layout
