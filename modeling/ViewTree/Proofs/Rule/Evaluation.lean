import ViewTree.Action
import ViewTree.Rule.Basic

/-!
# What evaluating a rule calls

> Evaluating a rule is running the list of its leaves, and then nothing but logic.

The evaluators of a rule may change the host, so a rule that left one out, or asked one twice, or
asked them in another order could come to another result further down. `run_evaluate` says that
none of that happens: the state is the one that the leaves leave behind, run once each from left to
right, and the result is the truth value of the formula under what they said on the way.

The truth value is taken from the *list* of answers, one for each leaf. An answer does not depend on
where its leaf stands in the formula, and this is how the statement shows it.
-/

set_option autoImplicit false

namespace ViewTree

variable {σ α β : Type}

namespace Rule

/-! ## Truth values -/

mutual

/-- The truth value of a formula, given a value for each of its leaves from left to right. -/
def truth : Rule α → List Bool → Bool
  | .simple _, values => values.headD false
  | .and operands, values => (truths operands values).all id
  | .or operands, values => (truths operands values).any id
  | .not operand, values => !truth operand values

/-- The truth values of several formulas, which share the list of values. -/
def truths : List (Rule α) → List Bool → List Bool
  | [], _ => []
  | rule :: rest, values =>
    truth rule (values.take rule.leaves.length) :: truths rest (values.drop rule.leaves.length)

end

/-! ## Running the leaves -/

theorem length_mapM_id (leaves : List (Effect σ α)) (s : σ) :
    ((leaves.mapM id).run s).1.length = leaves.length := by
  induction leaves generalizing s with
  | nil => rfl
  | cons leaf rest ih =>
    rw [List.mapM_cons]
    exact congrArg Nat.succ (ih (leaf.run s).2)

theorem run_mapM_id_append (first second : List (Effect σ α)) (s : σ) :
    ((first ++ second).mapM id).run s =
      (((first.mapM id).run s).1 ++ ((second.mapM id).run ((first.mapM id).run s).2).1,
        ((second.mapM id).run ((first.mapM id).run s).2).2) := by
  rw [List.mapM_append]
  rfl

mutual

/-- **Evaluating a rule runs its leaves once each, from left to right,** and combines what they
say. -/
theorem run_evaluate (rule : Rule (Effect σ Bool)) (s : σ) :
    rule.evaluate.run s =
      (rule.truth ((rule.leaves.mapM id).run s).1, ((rule.leaves.mapM id).run s).2) := by
  match rule with
  | .simple leaf => rfl
  | .and operands =>
    show ((evaluateAll operands).run s).map (·.all id) id = _
    rw [run_evaluateAll operands s]
    rfl
  | .or operands =>
    show ((evaluateAll operands).run s).map (·.any id) id = _
    rw [run_evaluateAll operands s]
    rfl
  | .not operand =>
    show (operand.evaluate.run s).map (!·) id = _
    rw [run_evaluate operand s]
    rfl

theorem run_evaluateAll (rules : List (Rule (Effect σ Bool))) (s : σ) :
    (evaluateAll rules).run s =
      (truths rules (((leavesAll rules).mapM id).run s).1,
        (((leavesAll rules).mapM id).run s).2) := by
  match rules with
  | [] => rfl
  | rule :: rest =>
    have hlength := length_mapM_id rule.leaves s
    show (((rule.evaluate.run s).1 :: ((evaluateAll rest).run (rule.evaluate.run s).2).1),
      ((evaluateAll rest).run (rule.evaluate.run s).2).2) = _
    rw [run_evaluate rule s, run_evaluateAll rest _, leavesAll, run_mapM_id_append, truths]
    rw [List.take_left' hlength, List.drop_left' hlength]

end

/-! ## Other leaves in the same formula -/

mutual

/-- The formula with its leaves replaced. -/
def map (f : α → β) : Rule α → Rule β
  | .simple leaf => .simple (f leaf)
  | .and operands => .and (mapAll f operands)
  | .or operands => .or (mapAll f operands)
  | .not operand => .not (map f operand)

/-- The formulas with their leaves replaced. -/
def mapAll (f : α → β) : List (Rule α) → List (Rule β)
  | [] => []
  | rule :: rest => map f rule :: mapAll f rest

end

mutual

theorem leaves_map (f : α → β) (rule : Rule α) : (rule.map f).leaves = rule.leaves.map f := by
  match rule with
  | .simple leaf => rfl
  | .and operands => exact leavesAll_mapAll f operands
  | .or operands => exact leavesAll_mapAll f operands
  | .not operand => exact leaves_map f operand

theorem leavesAll_mapAll (f : α → β) (rules : List (Rule α)) :
    leavesAll (mapAll f rules) = (leavesAll rules).map f := by
  match rules with
  | [] => rfl
  | rule :: rest =>
    rw [mapAll, leavesAll, leavesAll, leaves_map f rule, leavesAll_mapAll f rest, List.map_append]

end

mutual

/-- Which leaves a formula has plays no part in its truth value. -/
theorem truth_map (f : α → β) (rule : Rule α) (values : List Bool) :
    (rule.map f).truth values = rule.truth values := by
  match rule with
  | .simple leaf => rfl
  | .and operands => rw [map, truth, truth, truths_mapAll f operands]
  | .or operands => rw [map, truth, truth, truths_mapAll f operands]
  | .not operand => rw [map, truth, truth, truth_map f operand]

theorem truths_mapAll (f : α → β) (rules : List (Rule α)) (values : List Bool) :
    truths (mapAll f rules) values = truths rules values := by
  match rules with
  | [] => rfl
  | rule :: rest =>
    rw [mapAll, truths, truths, leaves_map, List.length_map, truth_map f rule,
      truths_mapAll f rest]

end

end Rule

end ViewTree
