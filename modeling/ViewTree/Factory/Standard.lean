import ViewTree.Factory.Basic
import ViewTree.Layout.Scroll
import ViewTree.Layout.Stack
import ViewTree.Layout.TabBar
import ViewTree.Widget

/-!
# The standard factory

The layouts and widgets of this library under their types. Rules are not part of it: which names
there are and what they say is the host's, and the command line has them as constants.
-/

set_option autoImplicit false

namespace ViewTree.Factory

variable {σ : Type}

/-- The builders of the standard types, in the order in which they are registered. -/
def standardBuilders : List (String × Builder σ View) :=
  [("stack", .cluster fun children metadata => pure (Layout.stack children metadata)),
    ("tabbar", .cluster fun children metadata => pure (Layout.tabBar children metadata)),
    ("scroll", .wrapper fun child metadata => pure (Layout.scroll child metadata)),
    ("label", .single fun metadata => pure (Widget.label metadata)),
    ("tile", .single fun metadata => pure (Widget.tile metadata)),
    ("button", .single fun metadata => pure (Widget.button metadata))]

/-- Registers the standard types. What stood under them is replaced. -/
def registerStandard (f : Factory σ View) : Logged (Factory σ View) :=
  f.registerAll standardBuilders

/-- The factory of the standard types. -/
def standard : Factory σ View := (registerStandard empty).value

/-- A factory with one constant evaluator more for each name. -/
def withConstants {N : Type} (f : Factory σ N) (values : List (String × Bool)) : Factory σ N :=
  values.foldl (fun f entry => f.insert entry.1 (.rule (pure entry.2))) f

end ViewTree.Factory
