/-!
# Logical operators

The three operators of the rule language, with the keys under which documents name them.
-/

set_option autoImplicit false

namespace ViewTree

/-- An operator of the rule language. -/
inductive Operator where
  | and
  | or
  | not
deriving DecidableEq

namespace Operator

/-- The key that stands for an operator in a document. -/
def key : Operator → String
  | .and => "AND"
  | .or => "OR"
  | .not => "NOT"

/-- The operator of a key. Keys are told apart by case. -/
def ofKey? (key : String) : Option Operator :=
  if key = "AND" then some .and
  else if key = "OR" then some .or
  else if key = "NOT" then some .not
  else none

/-- The diagnostic text of an operator. -/
def debug : Operator → String
  | .and => "And"
  | .or => "Or"
  | .not => "Not"

/-- Keys and operators stand for each other. -/
theorem ofKey?_eq_some_iff {key : String} {op : Operator} :
    ofKey? key = some op ↔ key = op.key := by
  constructor
  · intro h
    unfold ofKey? at h
    split at h
    · rename_i hkey; cases h; exact hkey
    · split at h
      · rename_i hkey; cases h; exact hkey
      · split at h
        · rename_i hkey; cases h; exact hkey
        · cases h
  · rintro rfl
    cases op <;> decide

end Operator

end ViewTree
