import ViewTree.Toml.Basic
import ViewTree.Toml.Scalar

/-!
# Reading TOML

The grammar of TOML texts: lines with a key and a value, headers, comments, and values that are
scalars, arrays or tables in braces. Readers take the characters from a state and fail as a whole;
where and why a text is refused is not told.

Keys may have fewer than eighty parts, and fewer than eighty containers may be open at once.
-/

set_option autoImplicit false

namespace ViewTree.Toml

/-- Reads from characters, or fails. -/
abbrev Reader : Type → Type := StateT (List Char) Option

namespace Reader

/-! ## Characters -/

/-- The next character, which stays. -/
def peek? : Reader (Option Char) := do
  let cs ← get
  pure cs.head?

/-- Takes characters while a test holds. -/
def takeWhile (p : Char → Bool) : Reader (List Char) := do
  let cs ← get
  set (cs.dropWhile p)
  pure (cs.takeWhile p)

/-- Takes a text if it stands here. -/
def accept (text : List Char) : Reader Bool := do
  let cs ← get
  if text.isPrefixOf cs then
    set (cs.drop text.length)
    pure true
  else pure false

/-- Takes a text that must stand here. -/
def expect (text : List Char) : Reader Unit := do
  if ← accept text then pure () else failure

/-- Takes what a function finds in front. -/
def take (f : List Char → Option (List Char × List Char)) : Reader String := do
  match f (← get) with
  | some (content, rest) =>
    set rest
    pure (String.ofList content)
  | none => failure

/-- Takes blanks. -/
def blanks : Reader Unit := do
  let _ ← takeWhile isBlank

/-- Takes a comment, if there is one. -/
def comment : Reader Unit := do
  if ← accept ['#'] then
    let _ ← takeWhile isText

/-- Takes the end of a line that may have a comment. The end of the text is one. -/
def lineEnd : Reader Unit := do
  blanks
  comment
  let cs ← get
  if cs.isEmpty then pure ()
  else if ← accept ['\n'] then pure ()
  else expect ['\r', '\n']

/-- Takes blanks, line ends and comments, at most `fuel` lines. -/
def gaps : Nat → Reader Unit
  | 0 => pure ()
  | fuel + 1 => do
    blanks
    comment
    if ← accept ['\n'] then gaps fuel
    else if ← accept ['\r', '\n'] then gaps fuel

/-- The number of characters left, which bounds the steps of every loop. -/
def left : Reader Nat := do
  let cs ← get
  pure cs.length

/-! ## Keys -/

/-- How many parts a key and how many containers a nest may have, and one more. -/
def limit : Nat := 80

/-- One part of a key. -/
def keyPart : Reader String := do
  match ← peek? with
  | some '"' =>
    expect ['"']
    take basicString
  | some '\'' =>
    expect ['\'']
    take literalString
  | _ =>
    let part ← takeWhile isBare
    if part.isEmpty then failure else pure (String.ofList part)

/-- The parts of a key behind its first one. -/
def moreParts : Nat → Reader (List String)
  | 0 => failure
  | fuel + 1 => do
    blanks
    if ← accept ['.'] then
      blanks
      let part ← keyPart
      let rest ← moreParts fuel
      pure (part :: rest)
    else pure []

/-- A key, with blanks around its parts. -/
def key : Reader (String × List String) := do
  blanks
  let part ← keyPart
  let rest ← moreParts limit
  if rest.length + 1 < limit then pure (part, rest) else failure

/-! ## Values -/

/-- Whether a text goes on with the time of a day behind a space. -/
def timeFollows (cs : List Char) : Bool :=
  match cs with
  | ' ' :: rest => (afterTime rest).isSome
  | _ => false

/-- A bare word as a value. The space in a date is part of the word. -/
def word : Reader Item := do
  let first ← takeWhile isWord
  let cs ← get
  if (afterDay first == some []) && timeFollows cs then
    expect [' ']
    let second ← takeWhile isWord
    if isDate (first ++ ' ' :: second) then pure .date else failure
  else if first = ['t', 'r', 'u', 'e'] then pure (.bool true)
  else if first = ['f', 'a', 'l', 's', 'e'] then pure (.bool false)
  else if isInteger first || isFloat first then pure .number
  else if isDate first then pure .date
  else failure

mutual

/-- A value. The fuel bounds the nesting and the length of arrays and tables together, the room the
nesting alone. -/
def value (room : Nat) : Nat → Reader Item
  | 0 => failure
  | fuel + 1 => do
    match ← peek? with
    | some '"' => return .string (← take anyString)
    | some '\'' => return .string (← take anyString)
    | some '[' =>
      if room ≤ 1 then failure
      expect ['[']
      return .array (← items (room - 1) fuel)
    | some '\x7b' =>
      if room ≤ 1 then failure
      expect ['\x7b']
      blanks
      if ← accept ['\x7d'] then return .table .braces []
      let found ← pairs (room - 1) fuel
      match Entries.addAll found [] with
      | some entries => return .table .braces entries
      | none => failure
    | _ => word

/-- The items of an array and its closing bracket. A comma may stand behind the last one. -/
def items (room : Nat) : Nat → Reader (List Item)
  | 0 => failure
  | fuel + 1 => do
    gaps (← left)
    if ← accept [']'] then return []
    let item ← value room fuel
    gaps (← left)
    if ← accept [','] then
      let rest ← items room fuel
      return item :: rest
    else
      expect [']']
      return [item]

/-- The pairs of a table in braces and its closing brace. They stand on one line, and no comma
stands behind the last one. -/
def pairs (room : Nat) : Nat → Reader (List (String × List String × Item))
  | 0 => failure
  | fuel + 1 => do
    let (first, path) ← key
    expect ['=']
    blanks
    let item ← value room fuel
    blanks
    if ← accept [','] then
      let rest ← pairs room fuel
      return (first, path, item) :: rest
    else
      expect ['\x7d']
      return [(first, path, item)]

end

/-! ## Lines -/

/-- A line of a text that is not empty. -/
inductive Line where
  | header (header : Header)
  | pair (key : String) (path : List String) (item : Item)

/-- The header of a path, whose last part names the table. -/
def headerOf (make : List String → String → Header) (first : String) (path : List String) :
    Header :=
  match path.getLast? with
  | none => make [] first
  | some last => make (first :: path.dropLast) last

/-- A line with something on it, up to its end. -/
def line : Reader Line := do
  if ← accept ['[', '['] then
    let (first, path) ← key
    expect [']', ']']
    lineEnd
    pure (.header (headerOf .tables first path))
  else if ← accept ['['] then
    let (first, path) ← key
    expect [']']
    lineEnd
    pure (.header (headerOf .table first path))
  else
    let (first, path) ← key
    expect ['=']
    blanks
    let item ← value limit ((← left) + 1)
    lineEnd
    pure (.pair first path item)

/-- All lines with something on them, at most `fuel` lines in all. -/
def lines : Nat → Reader (List Line)
  | 0 => pure []
  | fuel + 1 => do
    blanks
    let cs ← get
    match cs with
    | [] => pure []
    | c :: _ =>
      if c = '#' || c = '\n' || c = '\r' then
        lineEnd
        lines fuel
      else
        let first ← line
        let rest ← lines fuel
        pure (first :: rest)

end Reader

/-! ## Texts -/

/-- Lines as the values in front of the first header and the sections behind them. -/
def sections : List Reader.Line → List (String × List String × Item) × List Section
  | [] => ([], [])
  | .pair key path item :: rest =>
    let (values, later) := sections rest
    ((key, path, item) :: values, later)
  | .header header :: rest =>
    let (values, later) := sections rest
    ([], ⟨header, values⟩ :: later)

/-- A text without the mark that may stand in front of it. -/
def dropMark : List Char → List Char
  | '\ufeff' :: rest => rest
  | cs => cs

/-- The outermost table of a text. -/
def parse (s : String) : Option Entries := do
  let cs := dropMark s.toList
  let (lines, _) ← (Reader.lines (cs.length + 1)).run cs
  let (values, later) := sections lines
  let root ← Entries.addAll values []
  enterAll later root

end ViewTree.Toml
