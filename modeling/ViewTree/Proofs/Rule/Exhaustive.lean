import ViewTree.Proofs.Host.Watch

/-!
# Every leaf counts

> Evaluating a rule calls each of its leaves once, from left to right, whatever they say.

The calls are read off a watched run, and all of them are there: the log of a rule with so many
leaves is so many entries long, in the order of the leaves, each with the answer that the host gave
in the state that the calls before it have left. The result is the truth value of the formula under
these answers, and no call is made to find it.

The other way to evaluate a formula is to **stop short**, asking no operand once the result is
decided. It is written down here to say what it has in common with the exhaustive one. The two need
not agree: a leaf that was not asked has not changed the host, and one further right may then answer
differently. Where no answer depends on the state of the host they do, though not in what they leave
behind.
-/

set_option autoImplicit false

namespace ViewTree

variable {σ : Type}

open Call (Threads)

/-- An evaluator whose answer does not depend on the state of the host. It may still change it. -/
def Effect.Steady (leaf : Effect σ Bool) : Prop := ∃ value, ∀ s, (leaf.run s).1 = value

namespace Rule

/-! ## Stopping short -/

mutual

/-- Evaluates a rule from left to right and stops where the result is decided. -/
def shortCircuit : Rule (Effect σ Bool) → Effect σ Bool
  | .simple evaluator => evaluator
  | .and operands => untilFalse operands
  | .or operands => untilTrue operands
  | .not operand => do
    let value ← shortCircuit operand
    pure (!value)

/-- Whether all rules hold, asking none behind one that does not. -/
def untilFalse : List (Rule (Effect σ Bool)) → Effect σ Bool
  | [] => pure true
  | rule :: rest => do
    let value ← shortCircuit rule
    if value then untilFalse rest else pure false

/-- Whether some rule holds, asking none behind one that does. -/
def untilTrue : List (Rule (Effect σ Bool)) → Effect σ Bool
  | [] => pure false
  | rule :: rest => do
    let value ← shortCircuit rule
    if value then pure true else untilTrue rest

end

theorem result_untilFalse_cons (rule : Rule (Effect σ Bool)) (rest : List (Rule (Effect σ Bool)))
    (s : σ) : ((untilFalse (rule :: rest)).run s).1 =
      ((rule.shortCircuit.run s).1 && ((untilFalse rest).run (rule.shortCircuit.run s).2).1) := by
  show ((if (rule.shortCircuit.run s).1 then untilFalse rest else pure false).run _).1 = _
  cases (rule.shortCircuit.run s).1 <;> rfl

theorem result_untilTrue_cons (rule : Rule (Effect σ Bool)) (rest : List (Rule (Effect σ Bool)))
    (s : σ) : ((untilTrue (rule :: rest)).run s).1 =
      ((rule.shortCircuit.run s).1 || ((untilTrue rest).run (rule.shortCircuit.run s).2).1) := by
  show ((if (rule.shortCircuit.run s).1 then pure true else untilTrue rest).run _).1 = _
  cases (rule.shortCircuit.run s).1 <;> rfl

/-! ## Steady leaves

A rule over steady leaves has one result in all states, so it does not matter which of its leaves
have been run when it is asked. -/

mutual

theorem exists_result_of_steady (rule : Rule (Effect σ Bool))
    (h : ∀ leaf ∈ rule.leaves, leaf.Steady) :
    ∃ value, ∀ s, (rule.evaluate.run s).1 = value ∧ (rule.shortCircuit.run s).1 = value := by
  match rule with
  | .simple leaf =>
    obtain ⟨value, hvalue⟩ := h leaf (List.mem_singleton_self leaf)
    exact ⟨value, fun s => ⟨hvalue s, hvalue s⟩⟩
  | .and operands =>
    obtain ⟨values, hvalues⟩ := exists_results_of_steady operands h
    exact ⟨values.all id, fun s => ⟨congrArg (·.all id) (hvalues s).1, (hvalues s).2.1⟩⟩
  | .or operands =>
    obtain ⟨values, hvalues⟩ := exists_results_of_steady operands h
    exact ⟨values.any id, fun s => ⟨congrArg (·.any id) (hvalues s).1, (hvalues s).2.2⟩⟩
  | .not operand =>
    obtain ⟨value, hvalue⟩ := exists_result_of_steady operand h
    exact ⟨!value, fun s => ⟨congrArg (!·) (hvalue s).1, congrArg (!·) (hvalue s).2⟩⟩

theorem exists_results_of_steady (rules : List (Rule (Effect σ Bool)))
    (h : ∀ leaf ∈ leavesAll rules, leaf.Steady) :
    ∃ values : List Bool, ∀ s, ((evaluateAll rules).run s).1 = values ∧
      ((untilFalse rules).run s).1 = values.all id ∧
      ((untilTrue rules).run s).1 = values.any id := by
  match rules with
  | [] => exact ⟨[], fun s => ⟨rfl, rfl, rfl⟩⟩
  | rule :: rest =>
    rw [leavesAll] at h
    obtain ⟨value, hvalue⟩ :=
      exists_result_of_steady rule fun leaf hleaf => h leaf (List.mem_append_left _ hleaf)
    obtain ⟨values, hvalues⟩ :=
      exists_results_of_steady rest fun leaf hleaf => h leaf (List.mem_append_right _ hleaf)
    refine ⟨value :: values, fun s => ⟨?_, ?_, ?_⟩⟩
    · show (rule.evaluate.run s).1 :: ((evaluateAll rest).run (rule.evaluate.run s).2).1 = _
      rw [(hvalue s).1, (hvalues _).1]
    · rw [result_untilFalse_cons, (hvalue s).2, (hvalues _).2.1, List.all_cons, id]
    · rw [result_untilTrue_cons, (hvalue s).2, (hvalues _).2.2, List.any_cons, id]

end

/-! ## The calls of an evaluation -/

/-- **Evaluating a rule is exhaustive and ordered.** There are answers, one for each leaf, such that
running the leaves in order gives them and leaves the host as evaluating the rule does; the rule is
the truth value of its formula under them; under watch the leaves are called once each, in order,
and nothing else is; and each call gave its answer in the state that the calls before it left.
Stopping short comes to the same result where no answer depends on the state. -/
theorem evaluate_calls_every_leaf (rule : Rule (Effect σ Bool)) (s : σ) :
    ∃ (answers : List Bool) (s' : σ),
      answers.length = rule.leaves.length ∧
      (rule.leaves.mapM id).run s = (answers, s') ∧
      rule.evaluate.run s = (rule.truth answers, s') ∧
      (∀ log, (rule.map Effect.watchedEvaluator).evaluate.run (s, log) =
        (rule.truth answers, s', log ++ rule.leaves.zipWith .evaluator answers)) ∧
      Threads s (rule.leaves.zipWith .evaluator answers) s' ∧
      ((∀ leaf ∈ rule.leaves, leaf.Steady) →
        (rule.shortCircuit.run s).1 = rule.truth answers) := by
  have hrun := run_evaluate rule s
  refine ⟨((rule.leaves.mapM id).run s).1, ((rule.leaves.mapM id).run s).2,
    length_mapM_id rule.leaves s, rfl, hrun, fun log => ?_, ?_, fun hsteady => ?_⟩
  · rw [run_evaluate, leaves_map, truth_map, Action.run_mapM_watched]
  · exact Action.threads_mapM rule.leaves s
  · obtain ⟨value, hvalue⟩ := exists_result_of_steady rule hsteady
    rw [(hvalue s).2, ← (hvalue s).1, hrun]

/-- A disjunction of three steady leaves, of which the first decides it and the last one counts. -/
def counted : Rule (Effect Nat Bool) :=
  .or [.simple fun n => (true, n + 1), .and [], .not (.simple fun n => (false, n + 1))]

theorem evaluate_calls_every_leaf_counted :
    (∀ leaf ∈ counted.leaves, leaf.Steady) ∧
      ∃ (answers : List Bool) (s' : Nat),
        answers.length = 2 ∧
        counted.evaluate.run 0 = (counted.truth answers, s') ∧
        (counted.shortCircuit.run 0).1 = counted.truth answers := by
  have hsteady : ∀ leaf ∈ counted.leaves, leaf.Steady := by
    intro leaf hleaf
    rcases List.mem_cons.mp hleaf with rfl | hleaf
    · exact ⟨true, fun _ => rfl⟩
    · rcases List.mem_singleton.mp hleaf with rfl
      exact ⟨false, fun _ => rfl⟩
  obtain ⟨answers, s', hlength, -, hrun, -, -, hshort⟩ := evaluate_calls_every_leaf counted 0
  exact ⟨hsteady, answers, s', hlength, hrun, hshort hsteady⟩

/-! Where an answer depends on the state, the leaf that is left out is missed: the second operand of
the conjunction would have raised the flag that the last leaf reads. -/

example :
    let rule : Rule (Effect Bool Bool) :=
      .or [.and [.simple (pure false), .simple fun _ => (true, true)],
        .simple fun flag => (flag, flag)]
    (rule.evaluate.run false).1 = true ∧ (rule.shortCircuit.run false).1 = false :=
  ⟨rfl, rfl⟩

end Rule

end ViewTree
