import ViewTree.Factory.Compile

/-!
# Running actions and compilations

An action is a function of the host's state, and a compilation an action that may fail. Neither is
ever opened below this file. What a run leaves behind is read off three projections — what it comes
**out** as, the state **after** it, and the events **told** on the way — and each projection of each
monadic operation is one equation here.

The equation for a sequence is the only one with content: where the first part fails, the second is
not run, so its events are missing and the state is the one the failure left. `outcome_bind_eq_ok`
is the same equation read backwards, and it is what takes a successful compilation apart.
-/

set_option autoImplicit false

namespace ViewTree

variable {σ α β : Type}

/-! ## Logged values -/

@[simp] theorem Logged.value_map (f : α → β) (x : Logged α) : (f <$> x).value = f x.value := rfl

@[simp] theorem Logged.events_map (f : α → β) (x : Logged α) : (f <$> x).events = x.events := by
  show x.events ++ [] = x.events
  rw [List.append_nil]

/-! ## Actions -/

namespace Action

/-- What an action gives in a state of the host. -/
def result (x : Action σ α) (s : σ) : α := (x.run s).value.1

/-- The state in which an action leaves the host. -/
def after (x : Action σ α) (s : σ) : σ := (x.run s).value.2

/-- The events that an action tells. -/
def told (x : Action σ α) (s : σ) : List Event := (x.run s).events

@[simp] theorem result_pure (a : α) (s : σ) : result (pure a : Action σ α) s = a := rfl

@[simp] theorem after_pure (a : α) (s : σ) : after (pure a : Action σ α) s = s := rfl

@[simp] theorem told_pure (a : α) (s : σ) : told (pure a : Action σ α) s = [] := rfl

@[simp] theorem result_bind (x : Action σ α) (k : α → Action σ β) (s : σ) :
    result (x >>= k) s = result (k (x.result s)) (x.after s) := rfl

@[simp] theorem after_bind (x : Action σ α) (k : α → Action σ β) (s : σ) :
    after (x >>= k) s = after (k (x.result s)) (x.after s) := rfl

@[simp] theorem told_bind (x : Action σ α) (k : α → Action σ β) (s : σ) :
    told (x >>= k) s = x.told s ++ told (k (x.result s)) (x.after s) := rfl

@[simp] theorem result_map (f : α → β) (x : Action σ α) (s : σ) :
    result (f <$> x) s = f (x.result s) := rfl

@[simp] theorem after_map (f : α → β) (x : Action σ α) (s : σ) :
    after (f <$> x) s = x.after s := rfl

@[simp] theorem told_map (f : α → β) (x : Action σ α) (s : σ) : told (f <$> x) s = x.told s := by
  show x.told s ++ [] = x.told s
  rw [List.append_nil]

@[simp] theorem result_logged (x : Logged α) (s : σ) :
    result (liftM x : Action σ α) s = x.value := rfl

@[simp] theorem after_logged (x : Logged α) (s : σ) : after (liftM x : Action σ α) s = s := rfl

@[simp] theorem told_logged (x : Logged α) (s : σ) :
    told (liftM x : Action σ α) s = x.events := by
  show x.events ++ [] = x.events
  rw [List.append_nil]

@[simp] theorem result_effect (x : Effect σ α) (s : σ) :
    result (liftM x : Action σ α) s = (x.run s).1 := rfl

@[simp] theorem after_effect (x : Effect σ α) (s : σ) :
    after (liftM x : Action σ α) s = (x.run s).2 := rfl

@[simp] theorem told_effect (x : Effect σ α) (s : σ) : told (liftM x : Action σ α) s = [] := rfl

end Action

/-! ## Compilations -/

namespace Compilation

/-- What a compilation comes to in a state of the host. -/
def outcome (x : Compilation σ α) (s : σ) : Except CompileError α := Action.result x.run s

/-- The state in which a compilation leaves the host. -/
def after (x : Compilation σ α) (s : σ) : σ := Action.after x.run s

/-- The events that a compilation tells. -/
def told (x : Compilation σ α) (s : σ) : List Event := Action.told x.run s

@[simp] theorem outcome_pure (a : α) (s : σ) :
    outcome (pure a : Compilation σ α) s = .ok a := rfl

@[simp] theorem after_pure (a : α) (s : σ) : after (pure a : Compilation σ α) s = s := rfl

@[simp] theorem told_pure (a : α) (s : σ) : told (pure a : Compilation σ α) s = [] := rfl

@[simp] theorem outcome_throw (e : CompileError) (s : σ) :
    outcome (throw e : Compilation σ α) s = .error e := rfl

@[simp] theorem told_throw (e : CompileError) (s : σ) :
    told (throw e : Compilation σ α) s = [] := rfl

theorem outcome_bind (x : Compilation σ α) (k : α → Compilation σ β) (s : σ) :
    outcome (x >>= k) s =
      match outcome x s with
      | .ok a => outcome (k a) (after x s)
      | .error e => .error e := by
  unfold outcome after
  rw [ExceptT.run_bind, Action.result_bind]
  cases Action.result x.run s <;> rfl

theorem told_bind (x : Compilation σ α) (k : α → Compilation σ β) (s : σ) :
    told (x >>= k) s =
      told x s ++
        match outcome x s with
        | .ok a => told (k a) (after x s)
        | .error _ => [] := by
  unfold told outcome after
  rw [ExceptT.run_bind, Action.told_bind]
  cases Action.result x.run s <;> rfl

theorem after_bind (x : Compilation σ α) (k : α → Compilation σ β) (s : σ) :
    after (x >>= k) s =
      match outcome x s with
      | .ok a => after (k a) (after x s)
      | .error _ => after x s := by
  unfold outcome after
  rw [ExceptT.run_bind, Action.after_bind]
  cases Action.result x.run s <;> rfl

/-- **A sequence succeeds exactly when both parts do**, the second in the state the first left. -/
theorem outcome_bind_eq_ok {x : Compilation σ α} {k : α → Compilation σ β} {s : σ} {b : β} :
    outcome (x >>= k) s = .ok b ↔
      ∃ a, outcome x s = .ok a ∧ outcome (k a) (after x s) = .ok b := by
  rw [outcome_bind]
  cases outcome x s with
  | ok a => simp
  | error e => simp

/-! Lifted actions never fail. -/

@[simp] theorem outcome_action (x : Action σ α) (s : σ) :
    outcome (liftM x : Compilation σ α) s = .ok (x.result s) := rfl

@[simp] theorem after_action (x : Action σ α) (s : σ) :
    after (liftM x : Compilation σ α) s = x.after s := rfl

@[simp] theorem told_action (x : Action σ α) (s : σ) :
    told (liftM x : Compilation σ α) s = x.told s := by
  show x.told s ++ [] = x.told s
  rw [List.append_nil]

@[simp] theorem outcome_logged (x : Logged α) (s : σ) :
    outcome (liftM x : Compilation σ α) s = .ok x.value := rfl

@[simp] theorem after_logged (x : Logged α) (s : σ) :
    after (liftM x : Compilation σ α) s = s := rfl

@[simp] theorem told_logged (x : Logged α) (s : σ) :
    told (liftM x : Compilation σ α) s = x.events := by
  show (x.events ++ []) ++ [] = x.events
  rw [List.append_nil, List.append_nil]

end Compilation

end ViewTree
