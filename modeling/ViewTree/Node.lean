import ViewTree.Metadata.Basic

/-!
# Document nodes

A document describes a hierarchy by nested objects. A **node** is such an object together with the
nodes of its entries, so that the whole hierarchy is one rose tree: everything that is said about
the nodes of a document is said by recursion on it.

An entry of the children need not be an object. It is a node like the others, one without entries of
its own, and it is up to the reader of the tree to pass it over.
-/

set_option autoImplicit false

namespace ViewTree

/-- A value in a document, with the entries among its children. -/
structure Node where
  source : Json
  entries : List Node

namespace Node

/-! ## What a node says -/

/-- The key of a node's type. -/
def typeKey : String := "type"

/-- The key of a node's metadata. -/
def metadataKey : String := "meta"

/-- The key of a node's children. -/
def childrenKey : String := "children"

/-- The key of a node's rule. -/
def ruleKey : String := "rule"

/-- The text under the type key. -/
def typeOf? (source : Json) : Option String := (source.field? typeKey).bind Json.str?

/-- The metadata of a node: an object under its key, nothing otherwise. -/
def metadataOf? {σ : Type} (source : Json) : Option (Metadata σ) :=
  (source.field? metadataKey).bind Metadata.ofJson?

/-- The specification of a node's rule: whatever stands under its key. -/
def ruleOf? (source : Json) : Option Json := source.field? ruleKey

/-! ## The tree of a value -/

mutual

/-- The node of a value. -/
def ofJson : Json → Node
  | .obj fields => ⟨.obj fields, ofFields fields⟩
  | j => ⟨j, []⟩

/-- The nodes of the array under the children key, if there is one. -/
def ofFields : List (String × Json) → List Node
  | [] => []
  | (key, value) :: rest =>
    if key = childrenKey then
      match value with
      | .arr items => ofItems items
      | _ => []
    else ofFields rest

/-- The nodes of several values. -/
def ofItems : List Json → List Node
  | [] => []
  | item :: rest => ofJson item :: ofItems rest

end

/-- The entries of a value's children. -/
def entriesOf (source : Json) : List Json :=
  ((source.field? childrenKey).bind Json.items?).getD []

theorem ofItems_eq_map (items : List Json) : ofItems items = items.map ofJson := by
  induction items with
  | nil => rfl
  | cons item rest ih => simp [ofItems, ih]

theorem ofFields_eq (fields : List (String × Json)) :
    ofFields fields = (entriesOf (.obj fields)).map ofJson := by
  induction fields with
  | nil => rfl
  | cons field rest ih =>
    obtain ⟨key, value⟩ := field
    unfold ofFields
    split
    · rename_i h
      subst h
      have hfield : Json.field? (.obj ((childrenKey, value) :: rest)) childrenKey = some value := by
        simp [Json.field?]
      simp only [entriesOf, hfield, Option.bind_some]
      cases value <;> simp [Json.items?, ofItems_eq_map]
    · rename_i h
      have hfield : Json.field? (.obj ((key, value) :: rest)) childrenKey =
          Json.field? (.obj rest) childrenKey := by
        simp [Json.field?, Dictionary.lookup_cons, Ne.symm h]
      simp only [entriesOf, hfield] at ih ⊢
      exact ih

/-- A value and the nodes of its entries make its node. -/
theorem ofJson_eq (j : Json) : ofJson j = ⟨j, (entriesOf j).map ofJson⟩ := by
  cases j with
  | obj fields => simp [ofJson, ofFields_eq]
  | _ => rfl

end Node

end ViewTree
