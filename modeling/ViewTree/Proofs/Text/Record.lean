import Mathlib.Data.List.Basic
import ViewTree.Text.Record

/-!
# The characters of composite texts

Where several parts stand in one text there is a separator in front of each but the first. Said like
this a list of parts can be taken from the left, which is how it is read (`intercalate_cons`).
-/

set_option autoImplicit false

namespace ViewTree.Text

/-- The separator stands in front of every part behind the first one. -/
theorem intercalate_cons {α : Type} (separator first : List α) (rest : List (List α)) :
    separator.intercalate (first :: rest) = first ++ rest.flatMap (separator ++ ·) := by
  induction rest generalizing first with
  | nil => rw [List.intercalate_singleton, List.flatMap_nil, List.append_nil]
  | cons next rest ih =>
    rw [List.intercalate_cons_cons, ih, List.flatMap_cons, List.append_assoc, List.append_assoc]

theorem toList_applied (name part : String) :
    (applied name [part]).toList = name.toList ++ '(' :: (part.toList ++ [')']) := by
  have hpart : ", ".intercalate [part] = part := by simp
  rw [applied, hpart, String.toList_append, String.toList_append, String.toList_append,
    List.append_assoc, List.append_assoc]
  rfl

theorem toList_bracketed_cons (part : String) (more : List String) :
    (bracketed (part :: more)).toList =
      '[' :: (part.toList ++ (more.flatMap fun other => ',' :: ' ' :: other.toList) ++ [']']) := by
  rw [bracketed, String.toList_append, String.toList_append, String.toList_intercalate,
    List.map_cons, intercalate_cons, List.flatMap_map]
  rfl

end ViewTree.Text
