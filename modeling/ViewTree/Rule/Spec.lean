import ViewTree.Action
import ViewTree.Rule.Basic

/-!
# Rule specifications

The rule language of documents. A **specification** is a text, which names a leaf, or an object with
one key, which is an operator, and under it one specification or an array of them.

A specification that is no rule is dropped with an event, and so is an operand that is none, before
the operands are counted. Hence an operator sees only the operands that are rules: whether a
conjunction of three is one does not depend on a fourth that is none.
-/

set_option autoImplicit false

namespace ViewTree

/-- Joins operands with an operator, if it takes so many. -/
def Operator.combine {α : Type} (op : Operator) (operands : List (Rule α)) :
    Logged (Option (Rule α)) :=
  match op, operands with
  | .and, first :: second :: rest => pure (some (.and (first :: second :: rest)))
  | .or, first :: second :: rest => pure (some (.or (first :: second :: rest)))
  | .not, [operand] => pure (some (.not operand))
  | op, operands => do
    Logged.tell (.operandCount op operands.length)
    pure none

namespace Rule

variable {α : Type}

mutual

/-- The rule of a specification, with the leaves that `leaf?` has for the names in it. An operator
takes the specifications of an array as its operands, any other value as its only one. -/
def ofSpec? (leaf? : String → Option α) : Json → Logged (Option (Rule α))
  | .str name =>
    match leaf? name with
    | some leaf => pure (some (.simple leaf))
    | none => do
      Logged.tell (.unknownRule name)
      pure none
  | .obj [(key, operand)] =>
    match Operator.ofKey? key with
    | some op => do
      let operands ← match operand with
        | .arr specs => ofSpecs leaf? specs
        | spec => do
          let rule ← ofSpec? leaf? spec
          pure rule.toList
      op.combine operands
    | none => do
      Logged.tell (.unknownOperator key)
      pure none
  | .obj fields => do
    Logged.tell (.keyCount fields.length)
    pure none
  | spec => do
    Logged.tell (.unsupportedSpec spec)
    pure none

/-- The rules among specifications, in order. -/
def ofSpecs (leaf? : String → Option α) : List Json → Logged (List (Rule α))
  | [] => pure []
  | spec :: rest => do
    let rule ← ofSpec? leaf? spec
    let rules ← ofSpecs leaf? rest
    pure (rule.toList ++ rules)

end

end Rule

end ViewTree
