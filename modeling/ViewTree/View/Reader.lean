import ViewTree.Json.Tree
import ViewTree.View.Basic

/-!
# Reading views

A view is read from the tree of a JSON text. As an object it has its fields under their keys, in any
order: the kind must be there, the others may be missing, a key that a view does not have is
skipped, and a key that it has may not be repeated. As an array it has its fields by position, and
those missing at the end have their defaults.

The walk goes in the order of the text and stops at the first fault, whether that is one of the text
or a value of the wrong type. A scalar of the wrong type is scanned to its end before it is refused,
a container is refused at its bracket.
-/

set_option autoImplicit false

namespace ViewTree.View

open Json (Fault Tree)

/-! ## Fields -/

/-- Refuses a value of the wrong type. -/
def refuse {α : Type} : Tree → Except Fault α
  | .broken read _ => .error read
  | .number (some _) => .error .mismatched
  | .number none => .error .malformed
  | .string content =>
    match content with
    | .ok _ => .error .mismatched
    | .error fault => .error fault
  | _ => .error .mismatched

/-- Reads a text. -/
def readText : Tree → Except Fault String
  | .string content => content
  | tree => refuse tree

/-- Reads a title, which may be null. -/
def readTitle : Tree → Except Fault (Option String)
  | .null => .ok none
  | tree => (readText tree).map some

/-- Reads properties inside a view in which `room` more containers may be open. -/
def readProperties (room : Nat) : Tree → Except Fault (Dictionary Json)
  | .obj fields stop =>
    match room with
    | 0 => .error .malformed
    | room + 1 => do
      let fields ← Json.ofFields room fields
      Tree.closed (.ofList fields) stop
  | tree => refuse tree

/-! ## The whole view -/

/-- The fields that an object has given so far. -/
structure Draft where
  kind : Option String
  title : Option (Option String)
  properties : Option (Dictionary Json)
  children : Option (List View)

/-- No fields so far. -/
def Draft.empty : Draft := ⟨none, none, none, none⟩

/-- The view of the fields, if the kind is among them. -/
def Draft.toView (d : Draft) : Except Fault View :=
  match d.kind with
  | none => .error .mismatched
  | some kind =>
    .ok ⟨kind, d.title.getD none, d.properties.getD .empty, d.children.getD []⟩

mutual

/-- The view of a tree in which `room` more containers may be open. -/
def ofTree (room : Nat) : Tree → Except Fault View
  | .obj fields stop =>
    match room with
    | 0 => .error .malformed
    | room + 1 => do
      let draft ← ofFields room .empty fields
      let draft ← Tree.closed draft stop
      draft.toView
  | .arr items stop =>
    match room with
    | 0 => .error .malformed
    | room + 1 => do
      let view ← ofPositions room items
      Tree.closed view stop
  | tree => refuse tree

/-- Reads fields by key. -/
def ofFields (room : Nat) (draft : Draft) :
    List (Except Fault String × Tree) → Except Fault Draft
  | [] => .ok draft
  | (key, value) :: rest => do
    match ← key with
    | "kind" =>
      if draft.kind.isSome then throw .mismatched
      let kind ← readText value
      ofFields room { draft with kind := some kind } rest
    | "title" =>
      if draft.title.isSome then throw .mismatched
      let title ← readTitle value
      ofFields room { draft with title := some title } rest
    | "properties" =>
      if draft.properties.isSome then throw .mismatched
      let properties ← readProperties room value
      ofFields room { draft with properties := some properties } rest
    | "children" =>
      if draft.children.isSome then throw .mismatched
      let children ← ofChildren room value
      ofFields room { draft with children := some children } rest
    | _ =>
      value.skip
      ofFields room draft rest

/-- Reads fields by position. There must be a kind, and there may be no fifth one. -/
def ofPositions (room : Nat) : List Tree → Except Fault View
  | [] => .error .mismatched
  | [kind] => do
    let kind ← readText kind
    pure ⟨kind, none, .empty, []⟩
  | [kind, title] => do
    let kind ← readText kind
    let title ← readTitle title
    pure ⟨kind, title, .empty, []⟩
  | [kind, title, properties] => do
    let kind ← readText kind
    let title ← readTitle title
    let properties ← readProperties room properties
    pure ⟨kind, title, properties, []⟩
  | kind :: title :: properties :: children :: more => do
    let kind ← readText kind
    let title ← readTitle title
    let properties ← readProperties room properties
    let children ← ofChildren room children
    if more.isEmpty then pure ⟨kind, title, properties, children⟩ else throw .malformed

/-- Reads the children, which are an array of views. -/
def ofChildren (room : Nat) : Tree → Except Fault (List View)
  | .arr items stop =>
    match room with
    | 0 => .error .malformed
    | room + 1 => do
      let children ← ofTrees room items
      Tree.closed children stop
  | tree => refuse tree

/-- Reads views one after the other. -/
def ofTrees (room : Nat) : List Tree → Except Fault (List View)
  | [] => .ok []
  | tree :: rest => do
    let view ← ofTree room tree
    let views ← ofTrees room rest
    pure (view :: views)

end

/-- Reads a text with one view in it. -/
def parseWith (convert : Json.Conversion) (s : String) : Except Fault View := do
  let (tree, trailing) := Tree.ofChars convert s.toList
  let view ← ofTree Json.maxOpen tree
  if trailing then throw .malformed
  pure view

/-- Reads a text with one view in it, as the program does: numbers are scaled. -/
def parse (s : String) : Except Json.Error View :=
  (parseWith Json.Literal.scaled? s).mapError Fault.toError

end ViewTree.View
