import ViewTree.Json.Token

/-!
# Trees of JSON texts

The second stage of reading: tokens become a **tree**. Every text has one. Where the text breaks
off, the tree has a broken leaf, a broken key or a container that is not closed, and nothing behind
it; so the first fault of a text is the first one that a walk over its tree meets, in the order of
the text. What a tree stands for, and what its first fault is, depends on what is wanted of it:
`Json.ofTree` reads values and `Tree.skip` only looks for the end of one.

The tree is built by a machine that takes one token at a time. It keeps the containers that are
open around the present position, innermost first, and knows what must come next. It has no limit
of its own on how many containers are open. How a literal becomes a number is left to a
`Conversion`; everything else about a text is the same for all of them.
-/

set_option autoImplicit false

namespace ViewTree.Json

/-- What a text says, as far as it goes. -/
inductive Tree where
  /-- The text breaks off where a value should be: the fault for one who reads it and for one who
  skips it. -/
  | broken (read skipped : Fault)
  | null
  | bool (value : Bool)
  /-- A number, unless the literal stands for none. -/
  | number (value : Option Number)
  | string (content : Except Fault String)
  /-- Elements, and the fault that stands instead of a comma or the closing bracket. -/
  | arr (items : List Tree) (stop : Option Fault)
  /-- Fields, and the fault that stands instead of a comma or the closing brace. -/
  | obj (fields : List (Except Fault String × Tree)) (stop : Option Fault)

namespace Tree

/-! ## The machine -/

/-- A container around the present position, with its finished elements, last one first. -/
inductive Frame where
  | items (done : List Tree)
  /-- The value of a key is next. -/
  | fields (done : List (Except Fault String × Tree)) (key : Except Fault String)

/-- What must come next. -/
inductive State where
  /-- A value, or the bracket of an array that is still empty. -/
  | value (mayClose : Bool) (around : List Frame)
  /-- A comma or a closing bracket behind a value. Outside all containers, the end. -/
  | separator (value : Tree) (around : List Frame)
  /-- A key, or the brace of an object that is still empty. -/
  | key (mayClose : Bool) (done : List (Except Fault String × Tree)) (around : List Frame)
  /-- A colon behind a key. -/
  | colon (done : List (Except Fault String × Tree)) (key : Except Fault String)
    (around : List Frame)
  /-- Nothing: the text breaks off inside the tree. -/
  | stuck (tree : Tree)
  /-- Nothing: there is more behind the tree than blanks. -/
  | trailing (tree : Tree)

/-- The whole tree, when the text goes no further than a part of it. -/
def within (part : Tree) : List Frame → Tree
  | [] => part
  | .items done :: around => within (.arr (part :: done).reverse none) around
  | .fields done key :: around => within (.obj ((key, part) :: done).reverse none) around

/-- A fault where a value should be. -/
def noValue (fault : Fault) (around : List Frame) : Tree := within (.broken fault fault) around

/-- A fault where a key should be. -/
def noKey (read skipped : Fault) (done : List (Except Fault String × Tree))
    (around : List Frame) : Tree :=
  within (.obj ((.error read, .broken read skipped) :: done).reverse none) around

/-- A fault where a colon should be. -/
def noColon (fault : Fault) (done : List (Except Fault String × Tree))
    (key : Except Fault String) (around : List Frame) : Tree :=
  within (.obj ((key, .broken fault fault) :: done).reverse none) around

/-- A fault where a comma or a closing bracket should be. -/
def noSeparator (fault : Fault) (value : Tree) : List Frame → Tree
  | [] => value
  | .items done :: around => within (.arr (value :: done).reverse (some fault)) around
  | .fields done key :: around => within (.obj ((key, value) :: done).reverse (some fault)) around

section Machine

variable (convert : Conversion)

/-- Takes a token where a value must come. -/
def takeValue (mayClose : Bool) (around : List Frame) : Token → State
  | .null => .separator .null around
  | .bool b => .separator (.bool b) around
  | .number literal => .separator (.number (convert literal)) around
  | .string content => .separator (.string content) around
  | .openArray => .value true (.items [] :: around)
  | .openObject => .key true [] around
  | .closeArray =>
    match mayClose, around with
    | true, .items done :: around => .separator (.arr done.reverse none) around
    | _, around => .stuck (noValue .malformed around)
  | .broken read skipped _ => .stuck (within (.broken read skipped) around)
  | _ => .stuck (noValue .malformed around)

/-- Takes a token behind a value. -/
def takeSeparator (value : Tree) : List Frame → Token → State
  | [], _ => .trailing value
  | .items done :: around, .comma => .value false (.items (value :: done) :: around)
  | .items done :: around, .closeArray =>
    .separator (.arr (value :: done).reverse none) around
  | .fields done key :: around, .comma => .key false ((key, value) :: done) around
  | .fields done key :: around, .closeObject =>
    .separator (.obj ((key, value) :: done).reverse none) around
  | around, _ => .stuck (noSeparator .malformed value around)

/-- Takes a token where a key must come. -/
def takeKey (mayClose : Bool) (done : List (Except Fault String × Tree)) (around : List Frame) :
    Token → State
  | .string content => .colon done content around
  | .closeObject =>
    if mayClose then .separator (.obj done.reverse none) around
    else .stuck (noKey .malformed .malformed done around)
  | .broken read skipped true => .stuck (noKey read skipped done around)
  | _ => .stuck (noKey .malformed .malformed done around)

/-- Takes one token. -/
def step : State → Token → State
  | .value mayClose around, token => takeValue convert mayClose around token
  | .separator value around, token => takeSeparator value around token
  | .key mayClose done around, token => takeKey mayClose done around token
  | .colon done key around, .colon => .value false (.fields done key :: around)
  | .colon done key around, _ => .stuck (noColon .malformed done key around)
  | .stuck tree, _ => .stuck tree
  | .trailing tree, _ => .trailing tree

/-- The tree at the end of the text, and whether there was more behind it. -/
def finish : State → Tree × Bool
  | .value _ around => (noValue .unfinished around, false)
  | .separator value around => (noSeparator .unfinished value around, false)
  | .key _ done around => (noKey .unfinished .unfinished done around, false)
  | .colon done key around => (noColon .unfinished done key around, false)
  | .stuck tree => (tree, false)
  | .trailing tree => (tree, true)

/-- The tree of a list of tokens, and whether there are more tokens behind it. -/
def ofTokens (ts : List Token) : Tree × Bool := finish (ts.foldl (step convert) (.value false []))

/-- The tree of a text, and whether there is more than blanks behind it. -/
def ofChars (cs : List Char) : Tree × Bool := ofTokens convert (tokens cs)

end Machine

/-! ## Skipping -/

/-- A container that is done, unless a fault stands at its end. -/
def closed {α : Type} (value : α) : Option Fault → Except Fault α
  | none => .ok value
  | some fault => .error fault

mutual

/-- Looks for the end of a value that nobody asked for. It may be nested to any depth. -/
def skip : Tree → Except Fault Unit
  | .broken _ skipped => .error skipped
  | .null | .bool _ | .number _ | .string _ => .ok ()
  | .arr items stop => do
    skipItems items
    closed () stop
  | .obj fields stop => do
    skipFields fields
    closed () stop

/-- Skips elements one after the other. -/
def skipItems : List Tree → Except Fault Unit
  | [] => .ok ()
  | item :: rest => do
    skip item
    skipItems rest

/-- Skips fields one after the other. A key that cannot be read is still a key. -/
def skipFields : List (Except Fault String × Tree) → Except Fault Unit
  | [] => .ok ()
  | (_, value) :: rest => do
    skip value
    skipFields rest

end

end Tree

/-! ## Reading values -/

/-- How many containers may be open at once. -/
def maxOpen : Nat := 127

mutual

/-- The value of a tree in which `room` more containers may be open. A repeated key keeps its last
value. -/
def ofTree (room : Nat) : Tree → Except Fault Json
  | .broken read _ => .error read
  | .null => .ok .null
  | .bool b => .ok (.bool b)
  | .number (some n) => .ok (.num n)
  | .number none => .error .malformed
  | .string content => content.map .str
  | .arr items stop =>
    match room with
    | 0 => .error .malformed
    | room + 1 => do
      let items ← ofItems room items
      Tree.closed (.arr items) stop
  | .obj fields stop =>
    match room with
    | 0 => .error .malformed
    | room + 1 => do
      let fields ← ofFields room fields
      Tree.closed (ofDictionary (.ofList fields)) stop

/-- The values of elements, one after the other. -/
def ofItems (room : Nat) : List Tree → Except Fault (List Json)
  | [] => .ok []
  | item :: rest => do
    let item ← ofTree room item
    let rest ← ofItems room rest
    pure (item :: rest)

/-- The fields, one after the other, each key before its value. -/
def ofFields (room : Nat) :
    List (Except Fault String × Tree) → Except Fault (List (String × Json))
  | [] => .ok []
  | (key, value) :: rest => do
    let key ← key
    let value ← ofTree room value
    let rest ← ofFields room rest
    pure ((key, value) :: rest)

end

/-- Reads a text with one value in it. -/
def parseWith (convert : Conversion) (s : String) : Except Fault Json := do
  let (tree, trailing) := Tree.ofChars convert s.toList
  let value ← ofTree maxOpen tree
  if trailing then throw .malformed
  pure value

/-- Reads a text with one value in it, as the program does: numbers are scaled. -/
def parse (s : String) : Except Error Json := (parseWith Literal.scaled? s).mapError Fault.toError

end ViewTree.Json
