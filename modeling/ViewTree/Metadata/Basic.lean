import ViewTree.Action
import ViewTree.Json.Debug
import ViewTree.Layout.Config

/-!
# Metadata

What configures a component is looked up by key in its **metadata**. Metadata is a dictionary from a
document, the serialized form of some value, a typed configuration, several of these in layers, or
something that the host wrote by hand; a component never asks which.

**Null means absent.** A dictionary entry or a serialized field that holds the null value is not
found, so it does not cover what a later layer has under the same key.

**Layers are asked in order,** the first that finds something answers, and those behind it are not
asked at all, which matters where a look-up of the host has effects.
-/

set_option autoImplicit false

namespace ViewTree

/-- Keyed configuration of a component, for a host with state `σ`. -/
inductive Metadata (σ : Type) where
  /-- The entries of a JSON object. -/
  | map (entries : Dictionary Json)
  /-- Some value: its diagnostic text, and its serialized form unless that cannot be made. -/
  | reflect (shown : String) (serialized : Option Json)
  /-- A typed configuration. -/
  | typed (config : Config)
  /-- Several metadata, the first one on top. -/
  | zip (layers : List (Metadata σ))
  /-- Metadata of the host: its diagnostic text and its look-up. -/
  | host (shown : String) (look : String → Effect σ (Option Json))

namespace Metadata

variable {σ : Type}

/-! ## Making metadata -/

/-- The metadata of a JSON object; other values are none. -/
def ofJson? (j : Json) : Option (Metadata σ) := j.dictionary?.map .map

/-- A JSON value seen through its fields. -/
def reflectJson (j : Json) : Metadata σ := .reflect j.debug (some j)

/-- Puts metadata below all the layers there are. -/
def push : Metadata σ → Metadata σ → Metadata σ
  | .zip layers, below => .zip (layers ++ [below])
  | top, below => .zip [top, below]

/-! ## Looking up -/

/-- The field of a serialized value under a key, unless it is null. -/
def presentField? (j : Json) (key : String) : Option Json := (j.field? key).bind Json.present?

mutual

/-- The value under a key, if there is one. -/
def lookup : Metadata σ → String → Effect σ (Option Json)
  | .map entries, key => pure ((entries.get? key).bind Json.present?)
  | .reflect _ serialized, key => pure (serialized.bind fun j => presentField? j key)
  | .typed config, key => pure (presentField? config.toJson key)
  | .zip layers, key => lookupFirst layers key
  | .host _ look, key => look key

/-- The value under a key in the first layer that has one. -/
def lookupFirst : List (Metadata σ) → String → Effect σ (Option Json)
  | [], _ => pure none
  | layer :: rest, key => do
    match ← lookup layer key with
    | some value => pure (some value)
    | none => lookupFirst rest key

end

/-- The text under a key. A value of another type is not a text, whatever other layers hold. -/
def getStr (m : Metadata σ) (key : String) : Effect σ (Option String) := do
  let value ← m.lookup key
  pure (value.bind Json.str?)

/-- The truth value under a key. -/
def getBool (m : Metadata σ) (key : String) : Effect σ (Option Bool) := do
  let value ← m.lookup key
  pure (value.bind Json.bool?)

/-- The number under a key as a double. -/
def getDouble (m : Metadata σ) (key : String) : Effect σ (Option Double) := do
  let value ← m.lookup key
  pure ((value.bind Json.num?).map Number.toDouble)

/-- The integer under a key, if it is not negative. -/
def getUInt64 (m : Metadata σ) (key : String) : Effect σ (Option UInt64) := do
  let value ← m.lookup key
  pure ((value.bind Json.num?).bind Number.toUInt64?)

/-! ## Diagnostics -/

mutual

/-- The diagnostic text of metadata. -/
def debug : Metadata σ → String
  | .map entries => Text.applied "MapMeta" [Text.braced (Json.debugFields entries.entries)]
  | .reflect shown _ => Text.applied "Reflect" [shown]
  | .typed config => config.debug
  | .zip layers => Text.record "ZipMeta" [("metas", Text.bracketed (debugAll layers))]
  | .host shown _ => shown

/-- The diagnostic texts of several metadata. -/
def debugAll : List (Metadata σ) → List String
  | [] => []
  | layer :: rest => debug layer :: debugAll rest

end

end Metadata

end ViewTree
