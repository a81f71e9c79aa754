import Mathlib.Data.List.Forall2
import ViewTree.Proofs.Host.Watch

/-!
# Which calls realizing makes

A **scene** is a component tree as a host writes it by hand: leaves with builders of its own,
stacks, tab bars and scrolling containers with any metadata around them, and gates around anything.
`Scene.component` is the component that it stands for, and `Scene.watched` the same component for
the same host under watch.

`Makes` is the **grammar of calls**. It has no state in it: it says in which order the evaluators
and builders of a scene may be called, given what they answer, and where an answer decides what
comes next, which is at gates only. `realize_calls` is then the whole of what realizing does to the
host. The log of a run is a sentence of the grammar, up to looks at metadata in between, and it
threads the state; so of the many sentences of a grammar it is the one whose answers are those that
the host gives, each in the state that all the calls before it have left.

Nothing is asked twice and nothing is passed over. In particular a tab bar asks a child that is no
tab in the end, and a container goes on behind a child that is not shown.
-/

set_option autoImplicit false

namespace ViewTree

variable {σ : Type}

open Call (withoutLooks Threads)

/-! ## Scenes -/

/-- A component tree with layouts for inner nodes and leaves of the host. -/
inductive Scene (σ : Type) where
  | leaf (builder : Option (Metadata σ) → Action σ (Option View)) (metadata : Option (Metadata σ))
  | stack (children : List (Scene σ)) (metadata : Option (Metadata σ))
  | tabBar (children : List (Scene σ)) (metadata : Option (Metadata σ))
  | scroll (child : Scene σ) (metadata : Option (Metadata σ))
  | gated (rule : Rule (Effect σ Bool)) (scene : Scene σ)

namespace Scene

theorem induct {motive : Scene σ → Prop}
    (leaf : ∀ builder metadata, motive (.leaf builder metadata))
    (stack : ∀ children metadata, (∀ c ∈ children, motive c) → motive (.stack children metadata))
    (tabBar : ∀ children metadata, (∀ c ∈ children, motive c) → motive (.tabBar children metadata))
    (scroll : ∀ child metadata, motive child → motive (.scroll child metadata))
    (gated : ∀ rule scene, motive scene → motive (.gated rule scene)) (c : Scene σ) : motive c := by
  refine @Scene.rec σ motive (fun cs => ∀ c ∈ cs, motive c) leaf
    (fun children metadata h => stack children metadata h)
    (fun children metadata h => tabBar children metadata h) scroll gated ?_ ?_ c
  · intro c hc
    exact absurd hc (by simp)
  · intro head rest hhead hrest c hc
    rcases List.mem_cons.mp hc with rfl | hc
    · exact hhead
    · exact hrest c hc

mutual

/-- The component that a scene stands for. -/
def component : Scene σ → Component σ View
  | leaf builder metadata => .single builder metadata
  | stack children metadata => Layout.stack (componentAll children) metadata
  | tabBar children metadata => Layout.tabBar (componentAll children) metadata
  | scroll child metadata => Layout.scroll (component child) metadata
  | gated rule scene => .gated rule (component scene)

/-- The components that scenes stand for. -/
def componentAll : List (Scene σ) → List (Component σ View)
  | [] => []
  | c :: rest => component c :: componentAll rest

end

mutual

/-- The same component, over the host under watch. A builder is run as it is, on the metadata that
it has; only its call is recorded. -/
def watched : Scene σ → Component (Watched σ) View
  | leaf builder metadata =>
    .single (fun _ => (builder metadata).watched (.builder (builder metadata)))
      (metadata.map Metadata.watched)
  | stack children metadata => Layout.stack (watchedAll children) (metadata.map Metadata.watched)
  | tabBar children metadata => Layout.tabBar (watchedAll children) (metadata.map Metadata.watched)
  | scroll child metadata => Layout.scroll (watched child) (metadata.map Metadata.watched)
  | gated rule scene => .gated (rule.map Effect.watchedEvaluator) (watched scene)

/-- The same components over the host under watch. -/
def watchedAll : List (Scene σ) → List (Component (Watched σ) View)
  | [] => []
  | c :: rest => watched c :: watchedAll rest

end

/-- Metadata is seen through gates on both sides alike. -/
theorem metadata_watched (c : Scene σ) :
    c.watched.metadata = c.component.metadata.map Metadata.watched := by
  induction c using induct with
  | leaf | stack | tabBar | scroll => rfl
  | gated rule scene ih => exact ih

/-! ## The grammar -/

/-- The calls may be made while the scene is realized, if the host answers as they say. -/
inductive Makes : Scene σ → List (Call σ) → Prop
  /-- A leaf: its builder once. -/
  | leaf (builder : Option (Metadata σ) → Action σ (Option View)) (metadata : Option (Metadata σ))
      (view? : Option View) : Makes (.leaf builder metadata) [.builder (builder metadata) view?]
  /-- A stack: every child once, in order. -/
  | stack {children : List (Scene σ)} {metadata : Option (Metadata σ)}
      {parts : List (List (Call σ))} (each : List.Forall₂ Makes children parts) :
      Makes (.stack children metadata) parts.flatten
  /-- A tab bar: every child once, in order, and no matter which are tabs. -/
  | tabBar {children : List (Scene σ)} {metadata : Option (Metadata σ)}
      {parts : List (List (Call σ))} (each : List.Forall₂ Makes children parts) :
      Makes (.tabBar children metadata) parts.flatten
  /-- A scrolling container: its child once. -/
  | scroll {child : Scene σ} {metadata : Option (Metadata σ)} {calls : List (Call σ)}
      (inside : Makes child calls) : Makes (.scroll child metadata) calls
  /-- A gate that stays shut: every leaf of the rule once, from left to right. -/
  | shut {rule : Rule (Effect σ Bool)} {scene : Scene σ} {answers : List Bool}
      (all : answers.length = rule.leaves.length) (isFalse : rule.truth answers = false) :
      Makes (.gated rule scene) (rule.leaves.zipWith .evaluator answers)
  /-- A gate that opens: the same, and then what is behind. -/
  | opened {rule : Rule (Effect σ Bool)} {scene : Scene σ} {answers : List Bool}
      {calls : List (Call σ)} (all : answers.length = rule.leaves.length)
      (isTrue : rule.truth answers = true) (behind : Makes scene calls) :
      Makes (.gated rule scene) (rule.leaves.zipWith .evaluator answers ++ calls)

/-! ## Realizing -/

/-- From state `s`, the program `x'` does under watch what `x` does, and logs calls that the grammar
has for a scene. -/
def Logs (c : Scene σ) (x' : Action (Watched σ) (Option View)) (x : Action σ (Option View))
    (s : σ) : Prop :=
  ∃ calls, Action.Watches x' x s calls ∧ c.Makes (withoutLooks calls)

/-- The same for a program that goes through several scenes. -/
def LogsAll (cs : List (Scene σ)) (x' : Action (Watched σ) (List View)) (x : Action σ (List View))
    (s : σ) : Prop :=
  ∃ calls, Action.Watches x' x s calls ∧
    ∃ parts, List.Forall₂ Makes cs parts ∧ withoutLooks calls = parts.flatten

theorem LogsAll.nil (s : σ) : LogsAll [] (pure []) (pure []) s :=
  ⟨[], .pure [] s, [], .nil, rfl⟩

theorem LogsAll.cons {c : Scene σ} {rest : List (Scene σ)}
    {x' : Action (Watched σ) (Option View)} {x : Action σ (Option View)}
    {y' : Action (Watched σ) (List View)} {y : Action σ (List View)} {s : σ}
    (hfirst : Logs c x' x s) (hothers : LogsAll rest y' y (x.after s)) :
    LogsAll (c :: rest) (do let view? ← x'; let views ← y'; pure (view?.toList ++ views))
      (do let view? ← x; let views ← y; pure (view?.toList ++ views)) s := by
  obtain ⟨first, hfirst, hmakes⟩ := hfirst
  obtain ⟨others, hothers, parts, hparts, hflat⟩ := hothers
  refine ⟨first ++ (others ++ []), hfirst.bind (hothers.bind (.pure _ _)),
    withoutLooks first :: parts, .cons hmakes hparts, ?_⟩
  rw [List.append_nil, Call.withoutLooks_append, hflat, List.flatten_cons]

variable {children : List (Scene σ)}

theorem realizeAll_logs (h : ∀ c ∈ children, ∀ s, Logs c c.watched.realize c.component.realize s)
    (s : σ) :
    LogsAll children (Child.realizeAll (Component.offerAll (watchedAll children)))
      (Child.realizeAll (Component.offerAll (componentAll children))) s := by
  induction children generalizing s with
  | nil => exact .nil s
  | cons c rest ih =>
    exact .cons (h c List.mem_cons_self s) (ih (fun c hc => h c (List.mem_cons_of_mem _ hc)) _)

theorem buildTab_logs {c : Scene σ} {s : σ} (h : Logs c c.watched.realize c.component.realize s) :
    Logs c (Layout.buildTab c.watched.offer) (Layout.buildTab c.component.offer) s := by
  obtain ⟨first, hfirst, hmakes⟩ := h
  suffices hrest : ∃ looks, (∀ c ∈ looks, c.isLook) ∧
      Action.Watches (Layout.buildTab c.watched.offer) (Layout.buildTab c.component.offer) s
        (first ++ looks) by
    obtain ⟨looks, hlooks, hwatches⟩ := hrest
    refine ⟨first ++ looks, hwatches, ?_⟩
    rw [Call.withoutLooks_append, Call.withoutLooks_eq_nil hlooks, List.append_nil]
    exact hmakes
  unfold Layout.buildTab
  -- Whatever the child has come to, its calls are made already.
  cases hview : c.component.realize.result s with
  | none =>
    refine ⟨[], fun _ hc => absurd hc (by simp), hfirst.bind ?_⟩
    rw [hview]
    exact .pure none _
  | some view =>
    have hread := materialize_tab_looks c.component.metadata (c.component.realize.after s)
    rw [← metadata_watched] at hread
    obtain ⟨looks, hwatches, hlooks⟩ := hread
    refine ⟨looks ++ [], by rwa [List.append_nil], hfirst.bind ?_⟩
    rw [hview]
    refine hwatches.bind ?_
    cases (liftM (materialize TabConfig c.component.metadata) : Action σ _).result _ with
    | none => exact Action.Watches.bind (.logged _ _) (.pure none _)
    | some config => exact .pure _ _

theorem buildTabs_logs (h : ∀ c ∈ children, ∀ s, Logs c c.watched.realize c.component.realize s)
    (s : σ) :
    LogsAll children (Layout.buildTabs (Component.offerAll (watchedAll children)))
      (Layout.buildTabs (Component.offerAll (componentAll children))) s := by
  induction children generalizing s with
  | nil => exact .nil s
  | cons c rest ih =>
    exact .cons (buildTab_logs (h c List.mem_cons_self s))
      (ih (fun c hc => h c (List.mem_cons_of_mem _ hc)) _)

theorem realize_logs (c : Scene σ) : ∀ s, Logs c c.watched.realize c.component.realize s := by
  induction c using induct with
  | leaf builder metadata =>
    intro s
    exact ⟨_, .builder (builder metadata) s, .leaf builder metadata _⟩
  | stack children metadata ih =>
    intro s
    obtain ⟨looks, hconfig, hlooks⟩ := materialize_stack_looks metadata s
    obtain ⟨calls, hcalls, parts, hparts, hflat⟩ := realizeAll_logs ih _
    refine ⟨looks ++ (calls ++ []), hconfig.bind (hcalls.bind (.pure _ _)), ?_⟩
    rw [List.append_nil, Call.withoutLooks_append, Call.withoutLooks_eq_nil hlooks, hflat]
    exact .stack hparts
  | tabBar children metadata ih =>
    intro s
    obtain ⟨calls, hcalls, parts, hparts, hflat⟩ := buildTabs_logs ih s
    obtain ⟨looks, hconfig, hlooks⟩ := materialize_tabBar_looks metadata _
    refine ⟨calls ++ (looks ++ []), hcalls.bind (hconfig.bind (.pure _ _)), ?_⟩
    rw [List.append_nil, Call.withoutLooks_append, Call.withoutLooks_eq_nil hlooks, hflat,
      List.append_nil]
    exact .tabBar hparts
  | scroll child metadata ih =>
    intro s
    obtain ⟨looks, htitle, hlooks⟩ := titleOf_looks metadata s
    obtain ⟨calls, hcalls, hmakes⟩ := ih _
    refine ⟨looks ++ (calls ++ []), htitle.bind (hcalls.bind (.pure _ _)), ?_⟩
    rw [List.append_nil, Call.withoutLooks_append, Call.withoutLooks_eq_nil hlooks]
    exact .scroll hmakes
  | gated rule scene ih =>
    intro s
    -- The answers in the log are those that the rule is decided by.
    have hlength := Rule.length_mapM_id rule.leaves s
    have htruth : (liftM rule.evaluate : Action σ Bool).result s =
        rule.truth ((rule.leaves.mapM id).run s).1 := by
      rw [Action.result_effect, Rule.run_evaluate]
    cases hvalue : rule.truth ((rule.leaves.mapM id).run s).1 with
    | false =>
      refine ⟨_ ++ [], (Action.Watches.evaluate rule s).bind ?_, ?_⟩
      · rw [htruth, hvalue]
        exact .pure none _
      · rw [List.append_nil, Call.withoutLooks_evaluators]
        exact .shut hlength hvalue
    | true =>
      obtain ⟨calls, hcalls, hmakes⟩ := ih ((liftM rule.evaluate : Action σ Bool).after s)
      refine ⟨_ ++ calls, (Action.Watches.evaluate rule s).bind ?_, ?_⟩
      · rw [htruth, hvalue]
        exact hcalls
      · rw [Call.withoutLooks_append, Call.withoutLooks_evaluators]
        exact .opened hlength hvalue hmakes

/-- **The calls of one realization.** Realizing a scene calls evaluators and builders in exactly the
order of the grammar, each in the state that the calls before it have left, and asks nothing else of
the host but to look up metadata. -/
theorem realize_calls (c : Scene σ) (s : σ) :
    ∃ calls : List (Call σ),
      (∀ log, c.watched.realize.result (s, log) = c.component.realize.result s ∧
        c.watched.realize.after (s, log) = (c.component.realize.after s, log ++ calls) ∧
        c.watched.realize.told (s, log) = c.component.realize.told s) ∧
      Threads s calls (c.component.realize.after s) ∧
      c.Makes (withoutLooks calls) := by
  obtain ⟨calls, hwatches, hmakes⟩ := realize_logs c s
  refine ⟨calls, fun log => ⟨?_, ?_, ?_⟩, hwatches.threads, hmakes⟩
  · exact hwatches.result log
  · exact hwatches.after log
  · exact hwatches.told log

/-! The first gate flips the flag on which the second one closes. -/

example (leaf : Option (Metadata Bool) → Action Bool (Option View))
    (h : leaf none = pure none) :
    let ask : Effect Bool Bool := fun flag => (flag, !flag)
    let gate : Scene Bool := .gated (.simple ask) (.leaf leaf none)
    (Scene.stack [gate, gate] none).watched.realize.after (true, []) =
      (true, [.evaluator ask true, .builder (leaf none) none, .evaluator ask false]) := by
  intro ask gate
  simp only [gate, Scene.watched, watchedAll, h]
  rfl

end Scene

end ViewTree
