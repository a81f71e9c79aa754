import ViewTree.Component.Basic
import ViewTree.Metadata.Materialize
import ViewTree.View.Basic

/-!
# Tab bars

A tab bar shows one tab for each child that is shown and whose own metadata configures a tab. Title
and icon of the tab are set on the view of the child. The metadata of the tab bar may select a tab
by its position among those that are there; a position beyond them selects none.
-/

set_option autoImplicit false

namespace ViewTree.Layout

variable {σ : Type}

/-- A view as a tab. -/
def asTab (view : View) (config : TabConfig) : View :=
  (view.withTitle config.title).withProperty "icon_name" (.str config.iconName)

/-- Builds the tab of a child. The child is realized first, also where it is no tab in the end. -/
def buildTab (child : Child σ View) : Action σ (Option View) := do
  match ← child.realize with
  | none => pure none
  | some view =>
    match ← materialize TabConfig child.metadata with
    | some config => pure (some (asTab view config))
    | none =>
      Logged.tell (.unconfiguredTab view.kind)
      pure none

/-- Builds the tabs of children one after the other. -/
def buildTabs : List (Child σ View) → Action σ (List View)
  | [] => pure []
  | child :: rest => do
    let tab ← buildTab child
    let others ← buildTabs rest
    pure (tab.toList ++ others)

/-- The view of a tab bar with its tabs. -/
def tabBarFrame (config : Option TabBarConfig) (tabs : List View) : View :=
  let view := View.ofKind "tabbar"
  let view := match config with
    | some config =>
      if config.selectedIndex.toNat < tabs.length then
        view.withProperty "selected_index" (.ofUInt64 config.selectedIndex)
      else view
    | none => view
  view.withChildren tabs

/-- Builds a tab bar: first the tabs, then its own configuration. -/
def buildTabBar (children : List (Child σ View)) (metadata : Option (Metadata σ)) :
    Action σ (Option View) := do
  let tabs ← buildTabs children
  let config ← materialize TabBarConfig metadata
  pure (some (tabBarFrame config tabs))

/-- A tab bar over children. -/
def tabBar (children : List (Component σ View)) (metadata : Option (Metadata σ)) :
    Component σ View :=
  .cluster buildTabBar children metadata

end ViewTree.Layout
