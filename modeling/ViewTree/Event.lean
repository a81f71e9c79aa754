import ViewTree.Json.Writer
import ViewTree.Rule.Operator

/-!
# Events

Compiling and realizing drop what they cannot resolve. Nothing of that is an error, but nothing of
it is silent either: each time an **event** says what was dropped and why. Besides, every node that
is compiled is told at the finer level.

An event is the cause alone. Its level, its message and its fields, which make up its line in a
log, are worded here and nowhere else. Values among the fields are shown as a writer has them.
-/

set_option autoImplicit false

namespace ViewTree

/-- How much detail a log must ask for to show an event. -/
inductive Level where
  | debug
  | trace
deriving DecidableEq

/-- What happened. -/
inductive Event where
  /-- A node of a type is about to be compiled. -/
  | compiling (type : String)
  /-- A registration took the place of an earlier one for the same tag. -/
  | replaced (tag : String)
  /-- The rule of a node is no rule, so the node is always shown. -/
  | notGated (type : String) (rule : Json)
  /-- An entry among the children is no object. -/
  | skippedChild (child : Json)
  /-- A wrapper has more children than the one it holds. -/
  | extraChildren (type : String) (count : Nat)
  /-- A wrapper has no child to hold. -/
  | noChild (type : String)
  /-- Nothing is registered for a type. -/
  | unregistered (type : String)
  /-- An operator has too few or too many operands that are rules. -/
  | operandCount (operator : Operator) (count : Nat)
  /-- No rule has a name. -/
  | unknownRule (name : String)
  /-- An object that should be a rule has none or several keys. -/
  | keyCount (count : Nat)
  /-- The key of a rule is no operator. -/
  | unknownOperator (key : String)
  /-- A value of another shape than a rule has. -/
  | unsupportedSpec (spec : Json)
  /-- A child of a tab bar is not configured as a tab. -/
  | unconfiguredTab (kind : String)

namespace Event

/-- Only the compilation of a node is told at the finer level. -/
def level : Event → Level
  | .compiling _ => .trace
  | _ => .debug

/-- The message of an event. -/
def message : Event → String
  | .compiling _ => "compiling node"
  | .replaced _ => "replaced previously registered builder"
  | .notGated .. => "rule could not be parsed, node is not gated"
  | .skippedChild _ => "skipping non-object child"
  | .extraChildren .. => "wrapper takes only its first child"
  | .noChild _ => "wrapper has no child, dropping"
  | .unregistered _ => "no builder registered for type, dropping"
  | .operandCount .. => "rule operator has the wrong number of operands, dropping"
  | .unknownRule _ => "no evaluator registered for rule, dropping"
  | .keyCount _ => "rule object must have exactly one key"
  | .unknownOperator _ => "unknown rule operator"
  | .unsupportedSpec _ => "unsupported rule spec shape"
  | .unconfiguredTab _ => "tab child has no tab configuration, skipping"

/-- The fields of an event, with their values as bare texts. -/
def fields (write : Json → String) : Event → List (String × String)
  | .compiling type => [("component_type", type)]
  | .replaced tag => [("tag", tag)]
  | .notGated type rule => [("component_type", type), ("rule", write rule)]
  | .skippedChild child => [("child", write child)]
  | .extraChildren type count => [("component_type", type), ("children", toString count)]
  | .noChild type => [("component_type", type)]
  | .unregistered type => [("component_type", type)]
  | .operandCount operator count => [("operator", operator.key), ("operands", toString count)]
  | .unknownRule name => [("rule", name)]
  | .keyCount count => [("keys", toString count)]
  | .unknownOperator key => [("operator", key)]
  | .unsupportedSpec spec => [("spec", write spec)]
  | .unconfiguredTab kind => [("kind", kind)]

/-- The word for a level. -/
def levelName : Level → String
  | .debug => "DEBUG"
  | .trace => "TRACE"

/-- The line of an event in a log, with values as a writer has them. -/
def textWith (write : Json → String) (e : Event) : String :=
  levelName e.level ++ " " ++ e.message ++
    String.join ((e.fields write).map fun field => "; " ++ field.1 ++ "=" ++ field.2)

/-- The line of an event in a log. -/
def text (e : Event) : String := e.textWith Json.text

end Event

end ViewTree
