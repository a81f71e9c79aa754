import ViewTree.Text.Hidden

/-!
# Quoted texts

The spelling of a text inside outlines and diagnostics. It is meant to be read by people and to be
unambiguous: a quoted text stands on one line, it ends at the first quote that no backslash
precedes, and every character that does not show is spelled by its number, `\\u` and the
hexadecimal digits in braces. The apostrophe stands for itself.

JSON texts have an escaping of their own (`ViewTree.Json.Writer`); the two never mix.
-/

set_option autoImplicit false

namespace ViewTree.Text

/-- Lower-case hexadecimal digits of a number, without padding. -/
def hexDigits (n : Nat) : List Char := Nat.toDigits 16 n

/-- How one character is spelled between the quotes. -/
def spell (c : Char) : List Char :=
  if c = '"' then ['\\', '"']
  else if c = '\\' then ['\\', '\\']
  else if c = '\n' then ['\\', 'n']
  else if c = '\r' then ['\\', 'r']
  else if c = '\t' then ['\\', 't']
  else if c = '\x00' then ['\\', '0']
  else if isHidden c then ['\\', 'u', '\x7b'] ++ hexDigits c.toNat ++ ['\x7d']
  else [c]

/-- The spelled characters of a text. -/
def spellAll (cs : List Char) : List Char := cs.flatMap spell

/-- A text between quotes. -/
def quoted (s : String) : String := String.ofList ('"' :: spellAll s.toList ++ ['"'])

end ViewTree.Text
