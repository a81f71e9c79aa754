import ViewTree.Component.Basic

/-!
# Descriptions of components

Inspecting a component shows what a document compiled to, without realizing anything: each component
with its kind and its metadata, and each gate as a level of its own, with its rule instead of
metadata and what is behind it as its only child.

There are two such pictures, a JSON value and a text with one line a component. On a line metadata
stand as the text that a writer makes of them.
-/

set_option autoImplicit false

namespace ViewTree.Component

variable {σ N : Type}

/-- Metadata in a description: a dictionary as the object it is, anything else by its diagnostic
text. -/
def metadataValue : Metadata σ → Json
  | .map entries => .ofDictionary entries
  | m => .str m.debug

/-- The metadata field of a description, where there is metadata. -/
def metadataField : Option (Metadata σ) → List (String × Json)
  | none => []
  | some m => [("meta", metadataValue m)]

/-- The field with the descriptions of children, where there are any. -/
def childrenField : List Json → List (String × Json)
  | [] => []
  | descriptions => [("children", .arr descriptions)]

/-- The field with the kind. -/
def kindField (kind : Kind) : String × Json := ("kind", .str kind.name)

mutual

/-- The description of a component as a JSON value. -/
def describe : Component σ N → Json
  | .single _ metadata => .obj (kindField .single :: metadataField metadata)
  | .wrapper _ child metadata =>
    .obj (childrenField [describe child] ++ kindField .wrapper :: metadataField metadata)
  | .cluster _ children metadata =>
    .obj (childrenField (describeAll children) ++ kindField .cluster :: metadataField metadata)
  | .gated rule component =>
    .obj (childrenField [describe component] ++ [kindField .rule, ("rule", .str rule.debug)])

/-- The descriptions of several components. -/
def describeAll : List (Component σ N) → List Json
  | [] => []
  | c :: rest => describe c :: describeAll rest

end

/-- A line of the text, with two spaces for each level. -/
def inspectionLine (depth : Nat) (kind : Kind) (detail : String) : String :=
  String.ofList (List.replicate (2 * depth) ' ') ++ kind.name ++ detail ++ "\n"

section Lines

variable (write : Json → String)

/-- The metadata on a line. -/
def metadataDetail : Option (Metadata σ) → String
  | none => ""
  | some m => " " ++ write (metadataValue m)

mutual

/-- The lines of a component that stands at a depth. -/
def inspectionLines (depth : Nat) : Component σ N → List String
  | .single _ metadata => [inspectionLine depth .single (metadataDetail write metadata)]
  | .wrapper _ child metadata =>
    inspectionLine depth .wrapper (metadataDetail write metadata) ::
      inspectionLines (depth + 1) child
  | .cluster _ children metadata =>
    inspectionLine depth .cluster (metadataDetail write metadata) ::
      inspectionLinesAll (depth + 1) children
  | .gated rule component =>
    inspectionLine depth .rule (" " ++ rule.debug) :: inspectionLines (depth + 1) component

/-- The lines of several components. -/
def inspectionLinesAll (depth : Nat) : List (Component σ N) → List String
  | [] => []
  | c :: rest => inspectionLines depth c ++ inspectionLinesAll depth rest

end

/-- The description of a component as a text, with metadata as a writer has them. -/
def inspectionWith (c : Component σ N) : String := String.join (c.inspectionLines write 0)

end Lines

/-- The description of a component as a text. -/
def inspection (c : Component σ N) : String := c.inspectionWith Json.text

end ViewTree.Component
