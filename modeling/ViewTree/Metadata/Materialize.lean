import ViewTree.Metadata.Basic

/-!
# Materializing configurations

A component that wants a typed configuration **materializes** it from whatever metadata it has.
Metadata that is that configuration already is taken as it is. Anything else is read through
look-ups, field by field in a fixed order; a field that is missing or of the wrong type gives the
default where there is one, and no configuration at all where there is none.
-/

set_option autoImplicit false

namespace ViewTree

/-- A type of configuration that can be read from metadata. -/
class Configuration (T : Type) where
  /-- The configuration itself, where a typed one is of this type. -/
  ofConfig? : Config → Option T
  /-- Reads a configuration through look-ups. -/
  ofMetadata : {σ : Type} → Metadata σ → Effect σ (Option T)

/-- The configuration of a component's metadata. Without metadata there is none. -/
def materialize (T : Type) [Configuration T] {σ : Type} :
    Option (Metadata σ) → Effect σ (Option T)
  | none => pure none
  | some m =>
    match m with
    | .typed config =>
      match Configuration.ofConfig? config with
      | some configuration => pure (some configuration)
      | none => Configuration.ofMetadata m
    | _ => Configuration.ofMetadata m

variable {σ : Type}

namespace StackConfig

/-- Reads a stack's configuration. Every field has a default, so there always is one. -/
def ofMetadata (m : Metadata σ) : Effect σ StackConfig := do
  let orientation ← m.getStr "orientation"
  let title ← m.getStr "title"
  let spacing ← m.getDouble "spacing"
  let preserveParentWidth ← m.getBool "preserve_parent_width"
  let backgroundColor ← m.getStr "background_color"
  pure
    { title
      spacing := (spacing.map .finite).getD default.spacing
      orientation := (orientation.bind Orientation.ofName?).getD default.orientation
      preserveParentWidth := preserveParentWidth.getD default.preserveParentWidth
      backgroundColor := backgroundColor.getD default.backgroundColor }

instance : Configuration StackConfig where
  ofConfig?
    | .stack config => some config
    | _ => none
  ofMetadata m := do
    let config ← StackConfig.ofMetadata m
    pure (some config)

end StackConfig

namespace TabConfig

/-- Reads a tab's configuration: both texts must be there. The icon is looked up only behind a
title. -/
def ofMetadata (m : Metadata σ) : Effect σ (Option TabConfig) := do
  match ← m.getStr "title" with
  | none => pure none
  | some title =>
    let iconName ← m.getStr "icon_name"
    pure (iconName.map fun iconName => ⟨title, iconName⟩)

instance : Configuration TabConfig where
  ofConfig?
    | .tab config => some config
    | _ => none
  ofMetadata := TabConfig.ofMetadata

end TabConfig

namespace TabBarConfig

/-- Reads a tab bar's configuration, which is a position. -/
def ofMetadata (m : Metadata σ) : Effect σ (Option TabBarConfig) := do
  let selectedIndex ← m.getUInt64 "selected_index"
  pure (selectedIndex.map fun selectedIndex => ⟨selectedIndex⟩)

instance : Configuration TabBarConfig where
  ofConfig?
    | .tabBar config => some config
    | _ => none
  ofMetadata := TabBarConfig.ofMetadata

end TabBarConfig

end ViewTree
