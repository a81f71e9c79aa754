/-!
# White space

The characters that count as **blank** when a text is trimmed: the twenty-five code points with the
Unicode property White_Space. `Char.isWhitespace` knows only four of them, so it is not used here.

Trimming is stated over lists of characters, where a blank run at either end is a `dropWhile`;
`trim` on strings is that function and nothing else.
-/

set_option autoImplicit false

namespace ViewTree.Text

/-- White_Space: the controls from tab to carriage return, the space, the next-line control, and
the space, line and paragraph separators. -/
def isBlank (c : Char) : Bool :=
  let n := c.toNat
  (0x09 ≤ n && n ≤ 0x0D) || n == 0x20 || n == 0x85 || n == 0xA0 || n == 0x1680 ||
    (0x2000 ≤ n && n ≤ 0x200A) || n == 0x2028 || n == 0x2029 || n == 0x202F || n == 0x205F ||
    n == 0x3000

/-- Characters without the blank run in front. -/
def trimStart (cs : List Char) : List Char := cs.dropWhile isBlank

/-- Characters without the blank run behind. -/
def trimEnd (cs : List Char) : List Char := (cs.reverse.dropWhile isBlank).reverse

/-- Characters without the blank runs at both ends. -/
def trimList (cs : List Char) : List Char := trimEnd (trimStart cs)

/-- A text without the blank runs at both ends. -/
def trim (s : String) : String := String.ofList (trimList s.toList)

end ViewTree.Text
