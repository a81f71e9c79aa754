/-!
# Faults of JSON texts

A text that is not read has a **fault**, and the fault is of one of three kinds. Which words a
reader finds for it is the reader's own affair: they go with the kind as an `Error`, and nothing
here depends on them but the messages in which they are shown.
-/

set_option autoImplicit false

namespace ViewTree.Json

/-- What kind of fault stops the reading of a text. -/
inductive Fault where
  /-- The text ends inside a value. -/
  | unfinished
  /-- The text goes on in a way that no JSON text does. -/
  | malformed
  /-- The JSON is good but not of the wanted type. -/
  | mismatched
deriving DecidableEq

/-- The fault at a position where the characters behind it cannot continue. -/
def Fault.at : List Char → Fault
  | [] => .unfinished
  | _ :: _ => .malformed

/-- Why a text is not read, in the words of its reader. -/
structure Error where
  fault : Fault
  words : String
deriving DecidableEq

instance : Coe Error Fault := ⟨Error.fault⟩

/-- The words for a fault that are used where no other reader is at hand. -/
def Fault.message : Fault → String
  | .unfinished => "the text ends inside a value"
  | .malformed => "the text is not JSON"
  | .mismatched => "a value has the wrong type"

/-- A fault with these words. -/
def Fault.toError (fault : Fault) : Error := ⟨fault, fault.message⟩

end ViewTree.Json
