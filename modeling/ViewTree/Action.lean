import ViewTree.Event

/-!
# Actions

Evaluators, factories and hand-written metadata belong to the host: they may read and change
whatever the host keeps. All of it is one value of a type `σ` that this library never looks into,
and what the host does is an **effect**, a function of that state to a result and the next state.

Events are told by the library alone. What only tells events is **logged**. Compiling and realizing
do both, and are **actions**: they take a state and give a result, the next state, and the events
told on the way, in order. Effects and logged values are actions, so the three mix freely; and since
all of them obey the monad laws, a run of several can be regrouped at will.
-/

set_option autoImplicit false

namespace ViewTree

/-- A value together with the events told while it was made. -/
structure Logged (α : Type) where
  value : α
  events : List Event

namespace Logged

variable {α β : Type}

instance : Monad Logged where
  pure value := ⟨value, []⟩
  bind first next :=
    let second := next first.value
    ⟨second.value, first.events ++ second.events⟩

/-- Tells one event. -/
def tell (e : Event) : Logged Unit := ⟨(), [e]⟩

@[ext] theorem ext {x y : Logged α} (hvalue : x.value = y.value) (hevents : x.events = y.events) :
    x = y := by
  cases x; cases y; simp_all

@[simp] theorem value_pure (a : α) : (pure a : Logged α).value = a := rfl

@[simp] theorem events_pure (a : α) : (pure a : Logged α).events = [] := rfl

@[simp] theorem value_bind (x : Logged α) (f : α → Logged β) :
    (x >>= f).value = (f x.value).value := rfl

@[simp] theorem events_bind (x : Logged α) (f : α → Logged β) :
    (x >>= f).events = x.events ++ (f x.value).events := rfl

@[simp] theorem value_tell (e : Event) : (tell e).value = () := rfl

@[simp] theorem events_tell (e : Event) : (tell e).events = [e] := rfl

instance : LawfulMonad Logged := LawfulMonad.mk' Logged
  (fun x => by ext <;> simp [Functor.map])
  (fun _ _ => by ext <;> simp)
  (fun _ _ _ => by ext <;> simp)

end Logged

/-- What the host does: a computation over its state. -/
abbrev Effect (σ : Type) : Type → Type := StateM σ

/-- A computation over the state of the host that tells events. -/
abbrev Action (σ : Type) : Type → Type := StateT σ Logged

/-- An effect is an action that tells nothing. -/
def Effect.act {σ α : Type} (e : Effect σ α) : Action σ α := fun s => pure (e.run s)

instance {σ : Type} : MonadLift (Effect σ) (Action σ) where
  monadLift := Effect.act

end ViewTree
