import ViewTree.Command.Run

/-!
# The program

Reads the files that the command line names, runs the command on them and writes what it answers.
-/

set_option autoImplicit false

namespace ViewTree.Command

/-- The text of a file, or the reason why it cannot be read. -/
def readText (path : String) : IO (Except String String) := do
  match ← (IO.FS.readBinFile path).toBaseIO with
  | .error error => return .error (toString error)
  | .ok bytes =>
    match String.fromUTF8? bytes with
    | some text => return .ok text
    | none => return .error "stream did not contain valid UTF-8"

/-- The files that an argument list names. -/
def namedFiles (arguments : List String) : List String :=
  match Invocation.ofArguments arguments with
  | .ok (.run _ request) => request.files
  | _ => []

end ViewTree.Command

open ViewTree.Command in
/-- Answers a command line and gives its status to the caller. -/
def main (arguments : List String) : IO UInt32 := do
  let mut contents : List (String × Except String String) := []
  for path in namedFiles arguments do
    contents := (path, ← readText path) :: contents
  let files (path : String) : Except String String :=
    (contents.lookup path).getD (.error "not read")
  let outcome := run files arguments
  IO.print outcome.output
  IO.eprint outcome.errors
  return outcome.status
