import ViewTree.Proofs.Host.Watch

/-!
# Chains of gates

> A chain of gates asks its rules in turn and stops at the first that does not hold.

Between rules the chain stops short, within a rule it does not: a rule that is asked runs all its
leaves. Both can be seen by the host, so the chain is taken apart along `Rule.asked`, the rules that
it comes to ask. They are a beginning of the chain, and the last of them tells the outcome: either
all rules have been asked and hold, or the last one asked is the only one that does not.

What is behind the gates enters only as an action. `Action.gates` is the chain around any action
that may give nothing, and it goes on with that action in the state which the rules asked have
left, or gives nothing there (`Action.run_gates`). Realizing a gated component is such an action,
and so is building its tab, because a gate shows the metadata of what is behind it.

**One gate for all.** A single gate with the conjunction of the rules gives the same result, also
where evaluators depend on the state: up to the first rule that does not hold the two runs are one
run, and behind it neither shows anything. They differ in what they leave behind, for the
conjunction asks every rule.
-/

set_option autoImplicit false

namespace ViewTree

variable {σ α β N : Type}

open Call (Threads)

/-! ## The rules that are asked -/

namespace Rule

/-- The rules that a chain asks, none behind one that does not hold. -/
def asked : List (Rule (Effect σ Bool)) → σ → List (Rule (Effect σ Bool))
  | [], _ => []
  | rule :: rest, s =>
    rule :: if (rule.evaluate.run s).1 then asked rest (rule.evaluate.run s).2 else []

theorem run_evaluateAll_cons (rule : Rule (Effect σ Bool)) (rest : List (Rule (Effect σ Bool)))
    (s : σ) : (evaluateAll (rule :: rest)).run s =
      ((rule.evaluate.run s).1 :: ((evaluateAll rest).run (rule.evaluate.run s).2).1,
        ((evaluateAll rest).run (rule.evaluate.run s).2).2) := rfl

theorem exists_asked_append (rules : List (Rule (Effect σ Bool))) (s : σ) :
    ∃ rest, rules = asked rules s ++ rest := by
  induction rules generalizing s with
  | nil => exact ⟨[], rfl⟩
  | cons rule rest ih =>
    rw [asked]
    split
    · obtain ⟨behind, hbehind⟩ := ih (rule.evaluate.run s).2
      exact ⟨behind, congrArg (rule :: ·) hbehind⟩
    · exact ⟨rest, rfl⟩

/-- Either all rules are asked and hold, or the last one asked is the only one that does not. -/
theorem asked_cases (rules : List (Rule (Effect σ Bool))) (s : σ) :
    (asked rules s = rules ∧
        ((evaluateAll (asked rules s)).run s).1 = List.replicate (asked rules s).length true) ∨
      ∃ n, ((evaluateAll (asked rules s)).run s).1 = List.replicate n true ++ [false] := by
  induction rules generalizing s with
  | nil => exact .inl ⟨rfl, rfl⟩
  | cons rule rest ih =>
    rw [asked, run_evaluateAll_cons]
    cases hholds : (rule.evaluate.run s).1 with
    | false => exact .inr ⟨0, rfl⟩
    | true =>
      rw [if_pos rfl]
      rcases ih (rule.evaluate.run s).2 with ⟨hall, hvalues⟩ | ⟨n, hvalues⟩
      · rw [hvalues, hall]
        exact .inl ⟨rfl, rfl⟩
      · rw [hvalues]
        exact .inr ⟨n + 1, rfl⟩

/-- The rules that are not asked do not matter to whether all hold. -/
theorem all_evaluateAll (rules : List (Rule (Effect σ Bool))) (s : σ) :
    ((evaluateAll rules).run s).1.all id = ((evaluateAll (asked rules s)).run s).1.all id := by
  induction rules generalizing s with
  | nil => rfl
  | cons rule rest ih =>
    rw [asked, run_evaluateAll_cons, run_evaluateAll_cons, List.all_cons, List.all_cons]
    cases (rule.evaluate.run s).1 with
    | false => rfl
    | true => rw [if_pos rfl, ih (rule.evaluate.run s).2]

/-- Under watch the same rules are asked. -/
theorem asked_watched (rules : List (Rule (Effect σ Bool))) (s : σ) (log : List (Call σ)) :
    asked (mapAll Effect.watchedEvaluator rules) (s, log) =
      mapAll Effect.watchedEvaluator (asked rules s) := by
  induction rules generalizing s log with
  | nil => rfl
  | cons rule rest ih =>
    rw [mapAll, asked, asked, Action.run_evaluate_watched]
    cases (rule.evaluate.run s).1 with
    | false => rfl
    | true => rw [if_pos rfl, if_pos rfl, ih (rule.evaluate.run s).2, mapAll]

/-- Rules under watch log the leaves of each, one rule after the other. -/
theorem run_evaluateAll_watched (rules : List (Rule (Effect σ Bool))) (s : σ)
    (log : List (Call σ)) :
    (evaluateAll (mapAll Effect.watchedEvaluator rules)).run (s, log) =
      (((evaluateAll rules).run s).1, ((evaluateAll rules).run s).2,
        log ++ (leavesAll rules).zipWith .evaluator (((leavesAll rules).mapM id).run s).1) := by
  rw [run_evaluateAll, leavesAll_mapAll, truths_mapAll, Action.run_mapM_watched, run_evaluateAll]

end Rule

open Rule (asked evaluateAll leavesAll truths)

/-! ## Gates around an action -/

namespace Action

/-- The action behind a gate: nothing comes of it while the rule does not hold. -/
def gate (rule : Rule (Effect σ Bool)) (x : Action σ (Option α)) : Action σ (Option α) := do
  let holds ← rule.evaluate
  if holds then x else pure none

/-- The action behind several gates, the first of which is the outermost. -/
def gates (rules : List (Rule (Effect σ Bool))) (x : Action σ (Option α)) :
    Action σ (Option α) :=
  rules.foldr gate x

variable (rules : List (Rule (Effect σ Bool))) (x : Action σ (Option α)) (s : σ)

theorem run_gate (rule : Rule (Effect σ Bool)) :
    (gate rule x).run s =
      if (rule.evaluate.run s).1 then x.run (rule.evaluate.run s).2
      else pure (none, (rule.evaluate.run s).2) := by
  show (if (rule.evaluate.run s).1 then x else pure none).run (rule.evaluate.run s).2 = _
  cases (rule.evaluate.run s).1 <;> rfl

/-- **A run of a chain** evaluates the rules that are asked, and then is a run of what is behind,
or gives nothing. -/
theorem run_gates :
    (gates rules x).run s =
      if ((evaluateAll (asked rules s)).run s).1.all id then
        x.run ((evaluateAll (asked rules s)).run s).2
      else pure (none, ((evaluateAll (asked rules s)).run s).2) := by
  induction rules generalizing s with
  | nil => rfl
  | cons rule rest ih =>
    show (gate rule (gates rest x)).run s = _
    rw [run_gate, asked, Rule.run_evaluateAll_cons, List.all_cons]
    cases (rule.evaluate.run s).1 with
    | false => rfl
    | true => exact ih (rule.evaluate.run s).2

/-- A gate with the conjunction asks all rules. -/
theorem run_gate_and :
    (gate (.and rules) x).run s =
      if ((evaluateAll (asked rules s)).run s).1.all id then
        x.run ((evaluateAll rules).run s).2
      else pure (none, ((evaluateAll rules).run s).2) := by
  rw [run_gate, ← Rule.all_evaluateAll]
  rfl

/-- A chain and the conjunction of its rules have the same result. -/
theorem result_gates : (gates rules x).result s = (gate (.and rules) x).result s := by
  unfold result
  rw [run_gates, run_gate_and]
  rcases Rule.asked_cases rules s with ⟨hall, -⟩ | ⟨n, hvalues⟩
  · rw [hall]
  · rw [hvalues, if_neg (by simp), if_neg (by simp)]
    rfl

/-- What makes nothing of nothing can be moved behind a gate. -/
theorem gate_bind (rule : Rule (Effect σ Bool)) {k : Option α → Action σ (Option β)}
    (hk : k none = pure none) : gate rule x >>= k = gate rule (x >>= k) := by
  have hrun : ∀ s, (gate rule x >>= k).run s = (gate rule (x >>= k)).run s := by
    intro s
    rw [StateT.run_bind, run_gate, run_gate]
    cases (rule.evaluate.run s).1 with
    | false => exact congrArg (fun y => StateT.run y (rule.evaluate.run s).2) hk
    | true => rfl
  exact funext hrun

end Action

/-! ## Gates around a component -/

namespace Component

/-- The component behind several gates, the first of which is the outermost. -/
def gatedBy (rules : List (Rule (Effect σ Bool))) (c : Component σ N) : Component σ N :=
  rules.foldr .gated c

variable (rules : List (Rule (Effect σ Bool)))

theorem metadata_gatedBy (c : Component σ N) : (gatedBy rules c).metadata = c.metadata := by
  induction rules with
  | nil => rfl
  | cons rule rest ih => exact ih

theorem children_gatedBy (c : Component σ N) : (gatedBy rules c).children = c.children := by
  induction rules with
  | nil => rfl
  | cons rule rest ih => exact ih

theorem realize_gatedBy (c : Component σ N) :
    (gatedBy rules c).realize = Action.gates rules c.realize := by
  induction rules with
  | nil => rfl
  | cons rule rest ih => exact congrArg (Action.gate rule) ih

theorem buildTab_gated (rule : Rule (Effect σ Bool)) (c : Component σ View) :
    Layout.buildTab (gated rule c).offer = Action.gate rule (Layout.buildTab c.offer) :=
  Action.gate_bind c.realize rule rfl

theorem buildTab_gatedBy (c : Component σ View) :
    Layout.buildTab (gatedBy rules c).offer = Action.gates rules (Layout.buildTab c.offer) := by
  induction rules with
  | nil => rfl
  | cons rule rest ih =>
    show Layout.buildTab (gated rule (gatedBy rest c)).offer = _
    rw [buildTab_gated, ih]
    rfl

/-! ## Open and shut -/

/-- What the rules are asked for, given the answers. -/
def evaluatorCalls (rules : List (Rule (Effect σ Bool))) (answers : List Bool) : List (Call σ) :=
  (leavesAll rules).zipWith .evaluator answers

/-- From `s`, what is behind the gates is run in `s'`, after these calls and no others. -/
structure Opens (s : σ) (calls : List (Call σ)) (s' : σ) : Prop where
  realize : ∀ {N : Type} (c : Component σ N), (gatedBy rules c).realize.run s = c.realize.run s'
  tab : ∀ c : Component σ View,
    (Layout.buildTab (gatedBy rules c).offer).run s = (Layout.buildTab c.offer).run s'
  watched : ∀ {N : Type} (c : Component (Watched σ) N) (log : List (Call σ)),
    (gatedBy (Rule.mapAll Effect.watchedEvaluator rules) c).realize.run (s, log) =
      c.realize.run (s', log ++ calls)
  conjunction : ∀ {N : Type} (c : Component σ N),
    (gated (.and rules) c).realize.run s = c.realize.run s'

/-- From `s`, what is behind the gates is not run. There is nothing, and these calls and no others
leave `s'`. -/
structure Shuts (s : σ) (calls : List (Call σ)) (s' : σ) : Prop where
  realize : ∀ {N : Type} (c : Component σ N), (gatedBy rules c).realize.run s = pure (none, s')
  tab : ∀ c : Component σ View,
    (Layout.buildTab (gatedBy rules c).offer).run s = pure (none, s')
  watched : ∀ {N : Type} (c : Component (Watched σ) N) (log : List (Call σ)),
    (gatedBy (Rule.mapAll Effect.watchedEvaluator rules) c).realize.run (s, log) =
      pure (none, s', log ++ calls)
  conjunction : ∀ {N : Type} (c : Component σ N),
    (gated (.and rules) c).realize.run s =
      pure (none, (((leavesAll rules).mapM id).run s).2)

section

variable {rules} {s s' : σ} {answers : List Bool}
variable (hleaves : ((leavesAll (asked rules s)).mapM id).run s = (answers, s'))

include hleaves

theorem run_asked :
    (evaluateAll (asked rules s)).run s = (truths (asked rules s) answers, s') := by
  rw [Rule.run_evaluateAll, hleaves]

theorem realize_watched (c : Component (Watched σ) N) (log : List (Call σ)) :
    (gatedBy (Rule.mapAll Effect.watchedEvaluator rules) c).realize.run (s, log) =
      if (truths (asked rules s) answers).all id then
        c.realize.run (s', log ++ evaluatorCalls (asked rules s) answers)
      else pure (none, s', log ++ evaluatorCalls (asked rules s) answers) := by
  rw [realize_gatedBy, Action.run_gates, Rule.asked_watched, Rule.run_evaluateAll_watched,
    run_asked hleaves, hleaves]
  rfl

theorem opens_of_all (hall : asked rules s = rules)
    (hholds : (truths (asked rules s) answers).all id = true) :
    Opens rules s (evaluatorCalls (asked rules s) answers) s' where
  realize c := by rw [realize_gatedBy, Action.run_gates, run_asked hleaves, if_pos hholds]
  tab c := by rw [buildTab_gatedBy, Action.run_gates, run_asked hleaves, if_pos hholds]
  watched c log := by rw [realize_watched hleaves, if_pos hholds]
  conjunction c := by
    show (Action.gate (.and rules) c.realize).run s = _
    rw [Action.run_gate_and, run_asked hleaves, if_pos hholds, ← hall, run_asked hleaves]

theorem shuts_of_not (hshut : ¬(truths (asked rules s) answers).all id = true) :
    Shuts rules s (evaluatorCalls (asked rules s) answers) s' where
  realize c := by rw [realize_gatedBy, Action.run_gates, run_asked hleaves, if_neg hshut]
  tab c := by rw [buildTab_gatedBy, Action.run_gates, run_asked hleaves, if_neg hshut]
  watched c log := by rw [realize_watched hleaves, if_neg hshut]
  conjunction c := by
    show (Action.gate (.and rules) c.realize).run s = _
    rw [Action.run_gate_and, run_asked hleaves, if_neg hshut, Rule.run_evaluateAll]

end

/-- **A chain of gates asks its rules in turn.** Metadata and children are those of the component
behind, and the result is that of a single gate with the conjunction of the rules. There is a
beginning of the chain whose rules are asked, each with all its leaves in order, in the state that
the ones before have left. Either these are all rules and they hold, and then realizing goes on as
the component itself does in the state that is left, and so does building its tab, which is
configured by the metadata of the component; or the last one asked is the only one that does not
hold, and then nothing else is called and nothing comes of it. The single gate asks all the rules,
whatever they say. -/
theorem gatedBy_asks_in_turn (rules : List (Rule (Effect σ Bool))) (s : σ) :
    (∀ {N : Type} (c : Component σ N),
      (gatedBy rules c).metadata = c.metadata ∧ (gatedBy rules c).children = c.children ∧
      (gatedBy rules c).realize.result s = (gated (.and rules) c).realize.result s) ∧
    (∃ (asked rest : List (Rule (Effect σ Bool))) (answers : List Bool) (s' : σ),
      rules = asked ++ rest ∧
      ((leavesAll asked).mapM id).run s = (answers, s') ∧
      Threads s (evaluatorCalls asked answers) s' ∧
      ((rest = [] ∧ truths asked answers = List.replicate asked.length true ∧
          Opens rules s (evaluatorCalls asked answers) s') ∨
        ((∃ n, truths asked answers = List.replicate n true ++ [false]) ∧
          Shuts rules s (evaluatorCalls asked answers) s'))) ∧
    ∃ (answers : List Bool) (s' : σ),
      ((leavesAll rules).mapM id).run s = (answers, s') ∧
      ∀ {N : Type} (c : Component (Watched σ) N) (log : List (Call σ)),
        (gated (.map Effect.watchedEvaluator (.and rules)) c).realize.run (s, log) =
          if (truths rules answers).all id then
            c.realize.run (s', log ++ evaluatorCalls rules answers)
          else pure (none, s', log ++ evaluatorCalls rules answers) := by
  refine ⟨fun c => ⟨metadata_gatedBy rules c, children_gatedBy rules c, ?_⟩, ?_, ?_⟩
  · rw [realize_gatedBy, Action.result_gates]
    rfl
  · obtain ⟨rest, hrest⟩ := Rule.exists_asked_append rules s
    rcases hleaves : ((leavesAll (asked rules s)).mapM id).run s with ⟨answers, s'⟩
    have hthreads := Action.threads_mapM (leavesAll (asked rules s)) s
    rw [hleaves] at hthreads
    refine ⟨asked rules s, rest, answers, s', hrest, hleaves, hthreads, ?_⟩
    have hcases := Rule.asked_cases rules s
    simp only [run_asked hleaves] at hcases
    rcases hcases with ⟨hall, hholds⟩ | ⟨n, hholds⟩
    · have hrest : rest = [] := List.append_cancel_left (by rw [← hrest, hall, List.append_nil])
      exact .inl ⟨hrest, hholds, opens_of_all hleaves hall (by simp [hholds])⟩
    · exact .inr ⟨⟨n, hholds⟩, shuts_of_not hleaves (by simp [hholds])⟩
  · refine ⟨_, _, rfl, fun c log => ?_⟩
    show (Action.gate (.map Effect.watchedEvaluator (.and rules)) c.realize).run (s, log) = _
    rw [Action.run_gate, Action.run_evaluate_watched, Rule.run_evaluate]
    rfl

/-! The chain and the single gate leave different states where the chain stops: the second rule
counts how often it is asked. -/

example :
    let rules : List (Rule (Effect Nat Bool)) :=
      [.simple (pure false), .simple fun n => (true, n + 1)]
    let c : Component Nat Unit := .single (fun _ => pure (some ())) none
    (gatedBy rules c).realize.after 0 = 0 ∧ (gated (.and rules) c).realize.after 0 = 1 :=
  ⟨rfl, rfl⟩

end Component

end ViewTree
