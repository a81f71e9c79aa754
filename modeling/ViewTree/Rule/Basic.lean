import ViewTree.Text.Record

/-!
# Rules

A **rule** decides whether a component is shown. It is a formula over leaves; the leaves are
evaluators of the host, and the type leaves open what those are: `Rule String` is a rule over names,
`Rule (Effect σ Bool)` one that can be evaluated, `Rule Bool` one whose leaves have been.

**Every leaf counts.** Evaluating a rule runs all its leaves once, from left to right, also when the
result is already decided: an evaluator may change the host, and how often it runs must not depend
on what its neighbours say. A conjunction of nothing holds, a disjunction of nothing does not.
-/

set_option autoImplicit false

namespace ViewTree

/-- A formula over leaves of any type. -/
inductive Rule (α : Type) where
  | simple (leaf : α)
  | and (operands : List (Rule α))
  | or (operands : List (Rule α))
  | not (operand : Rule α)

namespace Rule

variable {α β : Type}

/-! ## Evaluation -/

section

variable {m : Type → Type} [Monad m]

mutual

/-- Runs every leaf once, from left to right, and combines what they say. -/
def evaluate : Rule (m Bool) → m Bool
  | .simple evaluator => evaluator
  | .and operands => do
    let values ← evaluateAll operands
    pure (values.all id)
  | .or operands => do
    let values ← evaluateAll operands
    pure (values.any id)
  | .not operand => do
    let value ← evaluate operand
    pure (!value)

/-- Evaluates rules one after the other. -/
def evaluateAll : List (Rule (m Bool)) → m (List Bool)
  | [] => pure []
  | rule :: rest => do
    let value ← evaluate rule
    let values ← evaluateAll rest
    pure (value :: values)

end

end

/-- A leaf that always says the same. -/
def constant {m : Type → Type} [Monad m] (value : Bool) : Rule (m Bool) := .simple (pure value)

/-! ## Leaves and shape -/

mutual

/-- The leaves from left to right. -/
def leaves : Rule α → List α
  | .simple leaf => [leaf]
  | .and operands => leavesAll operands
  | .or operands => leavesAll operands
  | .not operand => leaves operand

/-- The leaves of several rules, one rule after the other. -/
def leavesAll : List (Rule α) → List α
  | [] => []
  | rule :: rest => leaves rule ++ leavesAll rest

end

mutual

/-- The diagnostic text: the shape of the formula, with the same text for every leaf. -/
def debug : Rule α → String
  | .simple _ => "Simple(<evaluator>)"
  | .and operands => Text.applied "And" [Text.bracketed (debugAll operands)]
  | .or operands => Text.applied "Or" [Text.bracketed (debugAll operands)]
  | .not operand => Text.applied "Not" [debug operand]

/-- The diagnostic texts of several rules. -/
def debugAll : List (Rule α) → List String
  | [] => []
  | rule :: rest => debug rule :: debugAll rest

end

end Rule

end ViewTree
