/-!
# Command lines

The program has three commands. Two of them, `render` and `inspect`, take a document and say where
rule values come from; `types` takes nothing. Three options belong to no command and may stand on
either side of its name.

An argument list is read from left to right. A request for help or for the version is answered as
soon as it is met; anything wrong in front of it comes first. The word `help` in the place of a
command's name is such a request too, and nothing may follow it but one name, that of a command or
`help` itself. The value of an option stands behind an equals sign or is the next argument, which
then may not look like an option. Behind two dashes nothing is an option. An option that does not
repeat may stand once on each side of the command's name, and the inner one counts.
-/

set_option autoImplicit false

namespace ViewTree.Command

/-- How answers are written. -/
inductive Format where
  | text
  | json
deriving DecidableEq

/-- The options that belong to no command. -/
structure Options where
  format : Format
  /-- Leaves out notices and error messages. -/
  quiet : Bool
  /-- Tells events as they happen. -/
  verbose : Bool
deriving DecidableEq

/-- Where rule values come from. -/
structure RuleSource where
  file : Option String
  assignments : List String
deriving DecidableEq

/-- What is asked of the program. -/
inductive Request where
  | render (document : String) (rules : RuleSource)
  | inspect (document : String) (rules : RuleSource)
  | types
deriving DecidableEq

/-- What a command line asks for. -/
inductive Invocation where
  | run (options : Options) (request : Request)
  | help
  | version
deriving DecidableEq

/-- Why a command line asks for nothing. -/
inductive UsageError where
  | noCommand
  | unknownCommand (name : String)
  | noDocument
  | unexpected (argument : String)
  | noValue (option : String)
  | needlessValue (option : String)
  | badValue (option value : String)
  | repeated (option : String)
  | noTopic
deriving DecidableEq

/-- The message about a command line that asks for nothing. -/
def UsageError.message : UsageError → String
  | .noCommand => "a command is required"
  | .unknownCommand name => "unrecognized command '" ++ name ++ "'"
  | .noDocument => "a document is required"
  | .unexpected argument => "unexpected argument '" ++ argument ++ "'"
  | .noValue option => "a value is required for '" ++ option ++ "'"
  | .needlessValue option => "unexpected value for '" ++ option ++ "'"
  | .badValue option value => "invalid value '" ++ value ++ "' for '" ++ option ++ "'"
  | .repeated option => "'" ++ option ++ "' cannot be used multiple times"
  | .noTopic => "help is given on one command"

/-! ## Pieces

An argument list is first cut into pieces: options with their values, and words. Which options are
known depends on the side of the command's name, whether an option has a value does not. -/

/-- The options without a value. -/
inductive Switch where
  | quiet
  | verbose
deriving DecidableEq

/-- The options with a value. -/
inductive Setting where
  | output
  | rules
  | set
deriving DecidableEq

/-- How an option is spelled. -/
def Switch.spelling : Switch → String
  | .quiet => "--quiet"
  | .verbose => "--verbose"

/-- How an option is spelled. -/
def Setting.spelling : Setting → String
  | .output => "--output"
  | .rules => "--rules"
  | .set => "--set"

/-- A part of a command line. -/
inductive Piece where
  | switch (option : Switch)
  | setting (option : Setting) (value : String)
  | help
  | version
  /-- An argument that is no option: the name of a command, or what a command takes. -/
  | word (argument : String)
  /-- Two dashes. -/
  | dashes
  /-- An argument behind two dashes. It never names a command. -/
  | operand (argument : String)
  /-- Nothing that can be read. -/
  | wrong (error : UsageError)
deriving DecidableEq

/-- What an argument looks like. -/
inductive Shape where
  /-- Two dashes. -/
  | dashes
  /-- Two dashes and a name, with a value behind an equals sign. -/
  | long (name : String) (value : Option String)
  /-- A dash and letters. -/
  | letters (first : Char)
  /-- Anything else, a single dash included. -/
  | plain
deriving DecidableEq

/-- The shape of an argument. -/
def shapeOf (argument : String) : Shape :=
  match argument.toList with
  | ['-', '-'] => .dashes
  | '-' :: '-' :: rest =>
    let name := String.ofList (rest.takeWhile (· ≠ '='))
    match rest.dropWhile (· ≠ '=') with
    | [] => .long name none
    | _ :: value => .long name (some (String.ofList value))
  | '-' :: letter :: _ => .letters letter
  | _ => .plain

/-- The option of a long name that has no value. -/
def bareOption? (name : String) : Option Piece :=
  match name with
  | "quiet" => some (.switch .quiet)
  | "verbose" => some (.switch .verbose)
  | "help" => some .help
  | "version" => some .version
  | _ => none

/-- The option of a long name that has a value. -/
def settingOf? (name : String) : Option Setting :=
  match name with
  | "output" => some .output
  | "rules" => some .rules
  | "set" => some .set
  | _ => none

/-- The option of a letter. -/
def letterOption? (letter : Char) : Option Piece :=
  if letter = 'h' then some .help
  else if letter = 'V' then some .version
  else none

/-- Cuts an argument list into pieces. Nothing is read behind a piece that is wrong. -/
def pieces : List String → List Piece
  | [] => []
  | argument :: rest =>
    match shapeOf argument with
    | .dashes => .dashes :: rest.map .operand
    | .plain => .word argument :: pieces rest
    | .letters letter =>
      match letterOption? letter with
      | some piece => piece :: pieces rest
      | none => [.wrong (.unexpected argument)]
    | .long name value =>
      match bareOption? name, settingOf? name, value, rest with
      | some piece, _, none, rest => piece :: pieces rest
      | some _, _, some _, _ => [.wrong (.needlessValue argument)]
      | none, some option, some value, rest => .setting option value :: pieces rest
      | none, some option, none, value :: rest =>
        if shapeOf value = .plain then .setting option value :: pieces rest
        else [.wrong (.noValue option.spelling)]
      | none, some option, none, [] => [.wrong (.noValue option.spelling)]
      | none, none, _, _ => [.wrong (.unexpected argument)]

/-! ## The two sides of the command's name -/

/-- The commands there are. -/
inductive Name where
  | render
  | inspect
  | types
deriving DecidableEq

/-- The command of a name. -/
def nameOf? (argument : String) : Option Name :=
  match argument with
  | "render" => some .render
  | "inspect" => some .inspect
  | "types" => some .types
  | _ => none

/-- What one side has given so far. -/
structure Given where
  format : Option Format
  quiet : Bool
  verbose : Bool
  file : Option String
  assignments : List String
  document : Option String

/-- Nothing so far. -/
def Given.empty : Given := ⟨none, false, false, none, [], none⟩

/-- Enters an option without a value. -/
def Given.switch (g : Given) : Switch → Except UsageError Given
  | .quiet => if g.quiet then .error (.repeated "--quiet") else .ok { g with quiet := true }
  | .verbose =>
    if g.verbose then .error (.repeated "--verbose") else .ok { g with verbose := true }

/-- Enters an option with its value. -/
def Given.set (g : Given) (value : String) : Setting → Except UsageError Given
  | .output =>
    if g.format.isSome then .error (.repeated "--output")
    else if value = "text" then .ok { g with format := some .text }
    else if value = "json" then .ok { g with format := some .json }
    else .error (.badValue "--output" value)
  | .rules =>
    if g.file.isSome then .error (.repeated "--rules")
    else if value.isEmpty then .error (.noValue "--rules")
    else .ok { g with file := some value }
  | .set => .ok { g with assignments := g.assignments ++ [value] }

/-- Enters a word: the document, if the command takes one and has none. -/
def Given.place (g : Given) (command : Name) (argument : String) : Except UsageError Given :=
  if command = .types ∨ g.document.isSome then .error (.unexpected argument)
  else if argument.isEmpty then .error (.noValue "document")
  else .ok { g with document := some argument }

/-- The options of both sides; the inner side counts where both have given something. -/
def optionsOf (outer inner : Given) : Options where
  format := (inner.format <|> outer.format).getD .text
  quiet := outer.quiet || inner.quiet
  verbose := outer.verbose || inner.verbose

/-- The request of a command with what its side has given. -/
def requestOf (command : Name) (g : Given) : Except UsageError Request :=
  match command, g.document with
  | .types, _ => .ok .types
  | _, none => .error .noDocument
  | .render, some document => .ok (.render document ⟨g.file, g.assignments⟩)
  | .inspect, some document => .ok (.inspect document ⟨g.file, g.assignments⟩)

/-! ## The whole line -/

/-- Where the reading stands. -/
inductive Side where
  /-- Before the command's name. -/
  | outer (given : Given)
  /-- Behind it. -/
  | inner (outer : Given) (command : Name) (given : Given)

/-- Reads one piece before the command's name. -/
def takeOuter (g : Given) : Piece → Except UsageError Side
  | .switch option => (g.switch option).map .outer
  | .setting .output value => (g.set value .output).map .outer
  | .setting option _ => .error (.unexpected option.spelling)
  | .word argument =>
    match nameOf? argument with
    | some command => .ok (.inner g command .empty)
    | none => .error (.unknownCommand argument)
  | .operand argument => .error (.unexpected argument)
  | .wrong error => .error error
  | .dashes | .help | .version => .ok (.outer g)

/-- Reads one piece behind the command's name. -/
def takeInner (outer : Given) (command : Name) (g : Given) : Piece → Except UsageError Side
  | .switch option => (g.switch option).map (.inner outer command)
  | .setting option value =>
    if command = .types ∧ option ≠ .output then .error (.unexpected option.spelling)
    else (g.set value option).map (.inner outer command)
  | .word argument => (g.place command argument).map (.inner outer command)
  | .operand argument => (g.place command argument).map (.inner outer command)
  | .wrong error => .error error
  | .version => .error (.unexpected "--version")
  | .dashes | .help => .ok (.inner outer command g)

/-- What the pieces behind the word `help` ask for: at most one name may stand there. -/
def readTopic : List Piece → Except UsageError Invocation
  | [] => .ok .help
  | [.word topic] =>
    if (nameOf? topic).isSome ∨ topic = "help" then .ok .help else .error (.unknownCommand topic)
  | _ => .error .noTopic

/-- What the pieces ask for, from some point on. -/
def read : Side → List Piece → Except UsageError Invocation
  | .outer _, [] => .error .noCommand
  | .inner outer command g, [] => (requestOf command g).map (.run (optionsOf outer g))
  | _, .help :: _ => .ok .help
  | .outer _, .version :: _ => .ok .version
  | .outer _, .word "help" :: rest => readTopic rest
  | .outer g, piece :: rest => do
    let side ← takeOuter g piece
    read side rest
  | .inner outer command g, piece :: rest => do
    let side ← takeInner outer command g piece
    read side rest

/-- What an argument list asks for. -/
def Invocation.ofArguments (arguments : List String) : Except UsageError Invocation :=
  read (.outer .empty) (pieces arguments)

/-- The files that a request names. -/
def Request.files : Request → List String
  | .render document rules => document :: rules.file.toList
  | .inspect document rules => document :: rules.file.toList
  | .types => []

end ViewTree.Command
