import ViewTree.Command.Arguments
import ViewTree.Component.Description
import ViewTree.Factory.Compile
import ViewTree.Factory.Standard
import ViewTree.Rules.Config
import ViewTree.View.Outline

/-!
# Running commands

What the program answers is a function of its arguments and of the files it can see.

A document passes **four stages**: its file is read, its text is read as JSON, the rules are
configured, and it is compiled. The first stage that fails makes the answer: its message goes to the
error output, nothing to the standard output, and the status is 1. When none fails, the component is
inspected or realized, and a document that comes to nothing is an answer too.

In JSON format every answer is one JSON value, also when notices are left out.

JSON is read and written, and files of rules are read, by `Tools`. What the program says of a text
that a tool does not read are the words of the tool, behind its own; so a failure carries them.
-/

set_option autoImplicit false

namespace ViewTree.Command

/-- What a run leaves behind. -/
structure Outcome where
  status : UInt32
  output : String
  errors : String
deriving DecidableEq

/-- What the program leaves to others. -/
structure Tools where
  /-- Reads a JSON text. -/
  readJson : String → Except Json.Error Json
  /-- Writes a value without blanks. -/
  compact : Json → String
  /-- Writes a value with one element a line. -/
  pretty : Json → String
  /-- Reads the text of a file of rules, or says what is wrong with it. -/
  readRules : RuleValues.Reader

/-- The readers and writers that are defined here. -/
def Tools.own : Tools := ⟨Json.parse, Json.text, Json.pretty, RuleValues.ofText⟩

section Answers

variable (tools : Tools)

/-! ## The stages -/

/-- Why there is no component to show. -/
inductive Failure where
  | unreadable (document reason : String)
  | notJson (document : String) (error : Json.Error)
  | rules (error : RuleValues.Error)
  | notCompiled (document : String) (error : CompileError)

/-- The message about a document that cannot be shown. -/
def Failure.message : Failure → String
  | .unreadable document reason => "error reading file '" ++ document ++ "': " ++ reason
  | .notJson document error => "error parsing JSON in '" ++ document ++ "': " ++ error.words
  | .rules error => error.message
  | .notCompiled document error =>
    "error compiling '" ++ document ++ "': " ++ error.messageWith tools.compact

/-- The component of a document, for a host without state; nothing where it compiles to nothing. -/
abbrev Compiled : Type := Option (Component Unit View)

/-- The value of a document's file. -/
def readDocument (files : Files) (document : String) : Except Failure Json :=
  match files document with
  | .error reason => .error (.unreadable document reason)
  | .ok text =>
    match tools.readJson text with
    | .error error => .error (.notJson document error)
    | .ok value => .ok value

/-- The rule values from where they come from. -/
def readRules (files : Files) (source : RuleSource) : Except Failure RuleValues :=
  match RuleValues.resolveWith tools.readRules files source.file source.assignments with
  | .error error => .error (.rules error)
  | .ok values => .ok values

/-- The standard factory with a constant evaluator for each rule. -/
def factoryOf (values : RuleValues) : Factory Unit View :=
  Factory.standard.withConstants values.entries

/-- Compiles a document's value with rules. -/
def compileWith (values : RuleValues) (document : String) (value : Json) :
    Logged (Except Failure Compiled) := do
  let (result, ()) ← ((factoryOf values).compile value).run.run ()
  match result with
  | .error error => pure (.error (.notCompiled document error))
  | .ok compiled => pure (.ok compiled)

/-- Takes a document through all stages. -/
def load (files : Files) (document : String) (rules : RuleSource) :
    Logged (Except Failure Compiled) :=
  match readDocument tools files document with
  | .error failure => pure (.error failure)
  | .ok value =>
    match readRules tools files rules with
    | .error failure => pure (.error failure)
    | .ok values => compileWith values document value

/-- Realizes a component, if there is one. -/
def realizeCompiled : Compiled → Logged (Option View)
  | none => pure none
  | some component => do
    let (view, ()) ← component.realize.run ()
    pure view

/-! ## The answers -/

/-- The message of a failure on the error output. -/
def errorText (options : Options) (message : String) : String :=
  if options.quiet then ""
  else
    match options.format with
    | .text => message ++ "\n"
    | .json => tools.compact (.obj [("error", .str message)]) ++ "\n"

/-- The answer where nothing is to be shown. -/
def nothingText (options : Options) (notice : String) : String :=
  match options.format with
  | .json => "null\n"
  | .text => if options.quiet then "" else notice ++ "\n"

/-- The answer with a component's description. -/
def inspectText (options : Options) (document : String) : Compiled → String
  | none => nothingText options ("document '" ++ document ++ "' compiled to nothing")
  | some component =>
    match options.format with
    | .text => component.inspectionWith tools.compact
    | .json => tools.pretty component.describe ++ "\n"

/-- The answer with a view. -/
def renderText (options : Options) (document : String) : Option View → String
  | none => nothingText options ("document '" ++ document ++ "' rendered nothing")
  | some view =>
    match options.format with
    | .text => view.outlineWith tools.compact
    | .json => tools.pretty view.toJson ++ "\n"

/-- The answer with the standard types. -/
def typesText (options : Options) : String :=
  let types := (Factory.standard : Factory Unit View).types
  match options.format with
  | .text => String.join (types.map (· ++ "\n"))
  | .json => tools.compact (.obj [("types", .arr (types.map .str))]) ++ "\n"

/-- The events that a verbose run tells. -/
def eventText (options : Options) (events : List Event) : String :=
  if options.verbose then
    String.join ((events.filter (·.level = .debug)).map (·.textWith tools.compact ++ "\n"))
  else ""

/-- Answers a failure or a text. -/
def conclude (options : Options) (result : Logged (Except Failure String)) : Outcome :=
  let told := eventText tools options result.events
  match result.value with
  | .ok text => ⟨0, text, told⟩
  | .error failure => ⟨1, "", told ++ errorText tools options (failure.message tools)⟩

/-- Answers a request. -/
def answer (files : Files) (options : Options) : Request → Outcome
  | .types => ⟨0, typesText tools options, ""⟩
  | .inspect document rules => conclude tools options do
    match ← load tools files document rules with
    | .error failure => pure (.error failure)
    | .ok compiled => pure (.ok (inspectText tools options document compiled))
  | .render document rules => conclude tools options do
    match ← load tools files document rules with
    | .error failure => pure (.error failure)
    | .ok compiled =>
      let view ← realizeCompiled compiled
      pure (.ok (renderText tools options document view))

end Answers

/-! ## The program -/

/-- The name and version of the program. -/
def versionText : String := "composer 0.1.0\n"

/-- How the program is used. -/
def usageText : String :=
  "Declarative view hierarchy renderer\n\n" ++
  "Usage: composer [OPTIONS] <COMMAND>\n\n" ++
  "Commands:\n" ++
  "  render <DOCUMENT>   Compile a document and print the realized view tree\n" ++
  "  inspect <DOCUMENT>  Compile a document and print the component tree\n" ++
  "  types               List the registered type tags\n" ++
  "  help [COMMAND]      Print this text\n\n" ++
  "Options:\n" ++
  "  --output <FORMAT>   text or json\n" ++
  "  --quiet             Suppress non-essential output\n" ++
  "  --verbose           Tell dropped nodes on the error output\n" ++
  "  --rules <FILE>      TOML file with a [rules] table of name = true|false\n" ++
  "  --set <NAME=BOOL>   Set a rule value (repeatable, wins over --rules)\n"

/-- What the program does with its arguments. A command line that asks for nothing has status 2. -/
def run (files : Files) (arguments : List String) : Outcome :=
  match Invocation.ofArguments arguments with
  | .error error => ⟨2, "", "error: " ++ error.message ++ "\n\n" ++ usageText⟩
  | .ok .help => ⟨0, usageText, ""⟩
  | .ok .version => ⟨0, versionText, ""⟩
  | .ok (.run options request) => answer .own files options request

end ViewTree.Command
