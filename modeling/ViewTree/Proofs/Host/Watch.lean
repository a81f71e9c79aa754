import ViewTree.Layout.Scroll
import ViewTree.Layout.Stack
import ViewTree.Layout.TabBar
import ViewTree.Proofs.Compile.Run
import ViewTree.Proofs.Rule.Evaluation

/-!
# Watching the host

What the host is asked for cannot be read off a result: an evaluator that was run and ignored leaves
no trace in the view. So the host is **watched**. Its state is paired with a log, every evaluator,
builder and look-up is wrapped so as to append a record of itself and of what it gave, and then the
*same* program is run over the wrapped host. Nothing in the program can tell the difference, and
whatever it calls is in the log afterwards.

`Action.Watches` relates the two runs. It says that the wrapped program does what the plain one does
and tells the same, that it adds certain calls to the log and touches nothing that is in it, and
that those calls **thread** the state: each was made in the state which the one before it left, and
gave there what is recorded. It is closed under sequencing, so the calls of a program are read off
its text.

Metadata of the host is watched too. A layout looks its configuration up there, and a look-up may
have effects. These **looks** are in the log, or the calls between them would not thread the state.
-/

set_option autoImplicit false

namespace ViewTree

variable {σ α β : Type}

/-! ## Calls -/

/-- Something that the host was asked for, with what it gave. -/
inductive Call (σ : Type) where
  | evaluator (leaf : Effect σ Bool) (value : Bool)
  | builder (build : Action σ (Option View)) (view? : Option View)
  | look (find : Effect σ (Option Json)) (found? : Option Json)

namespace Call

/-- In state `s`, the call gives what is recorded and leaves `s'`. -/
def Takes : Call σ → σ → σ → Prop
  | .evaluator leaf value, s, s' => leaf.run s = (value, s')
  | .builder build view?, s, s' => build.result s = view? ∧ build.after s = s'
  | .look find found?, s, s' => find.run s = (found?, s')

/-- The call looked something up in metadata. -/
def isLook : Call σ → Bool
  | .look .. => true
  | _ => false

/-- The calls of evaluators and builders, without the looks between them. -/
def withoutLooks (calls : List (Call σ)) : List (Call σ) := calls.filter (!·.isLook)

@[simp] theorem withoutLooks_append (first second : List (Call σ)) :
    withoutLooks (first ++ second) = withoutLooks first ++ withoutLooks second :=
  List.filter_append ..

theorem withoutLooks_eq_nil {calls : List (Call σ)} (h : ∀ c ∈ calls, c.isLook) :
    withoutLooks calls = [] := by
  unfold withoutLooks
  rw [List.filter_eq_nil_iff]
  intro c hc
  simp [h c hc]

theorem withoutLooks_evaluators (leaves : List (Effect σ Bool)) (answers : List Bool) :
    withoutLooks (leaves.zipWith evaluator answers) = leaves.zipWith evaluator answers := by
  unfold withoutLooks
  rw [List.filter_eq_self]
  intro c hc
  rw [List.mem_iff_getElem] at hc
  obtain ⟨i, hi, rfl⟩ := hc
  rw [List.getElem_zipWith]
  rfl

/-- Each call is made in the state that the one before it leaves. -/
inductive Threads : σ → List (Call σ) → σ → Prop
  | nil (s : σ) : Threads s [] s
  | cons {s s' s'' : σ} {call : Call σ} {rest : List (Call σ)} (first : call.Takes s s')
      (others : Threads s' rest s'') : Threads s (call :: rest) s''

theorem Threads.append {s s' s'' : σ} {first second : List (Call σ)} (hfirst : Threads s first s')
    (hsecond : Threads s' second s'') : Threads s (first ++ second) s'' := by
  induction hfirst with
  | nil => exact hsecond
  | cons hcall _ ih => exact .cons hcall (ih hsecond)

end Call

open Call (withoutLooks Threads)

/-! ## The watched host -/

/-- The state of a host with the log of its calls. -/
abbrev Watched (σ : Type) : Type := σ × List (Call σ)

/-- The effect, leaving a record of itself in the log. -/
def Effect.watched (record : α → Call σ) (e : Effect σ α) : Effect (Watched σ) α :=
  fun w => ((e.run w.1).1, (e.run w.1).2, w.2 ++ [record (e.run w.1).1])

/-- The action, leaving a record of itself in the log. -/
def Action.watched (record : α → Call σ) (x : Action σ α) : Action (Watched σ) α :=
  fun w => ⟨(x.result w.1, x.after w.1, w.2 ++ [record (x.result w.1)]), x.told w.1⟩

/-- An evaluator under watch. -/
def Effect.watchedEvaluator (leaf : Effect σ Bool) : Effect (Watched σ) Bool :=
  leaf.watched (.evaluator leaf)

mutual

/-- Metadata whose look-ups of the host are under watch. -/
def Metadata.watched : Metadata σ → Metadata (Watched σ)
  | .map entries => .map entries
  | .reflect shown serialized => .reflect shown serialized
  | .typed config => .typed config
  | .zip layers => .zip (watchedAll layers)
  | .host shown look => .host shown fun key => (look key).watched (.look (look key))

/-- Several metadata under watch. -/
def Metadata.watchedAll : List (Metadata σ) → List (Metadata (Watched σ))
  | [] => []
  | layer :: rest => watched layer :: watchedAll rest

end

/-! ## A run and the same run under watch -/

namespace Action

/-- From state `s`, `x'` does under watch what `x` does, and logs `calls`. -/
structure Watches (x' : Action (Watched σ) α) (x : Action σ α) (s : σ) (calls : List (Call σ)) :
    Prop where
  result : ∀ log, x'.result (s, log) = x.result s
  after : ∀ log, x'.after (s, log) = (x.after s, log ++ calls)
  told : ∀ log, x'.told (s, log) = x.told s
  threads : Threads s calls (x.after s)

namespace Watches

variable {x' : Action (Watched σ) α} {x : Action σ α} {k' : α → Action (Watched σ) β}
variable {k : α → Action σ β} {s : σ} {first second : List (Call σ)}

theorem pure (a : α) (s : σ) :
    Watches (Pure.pure a : Action (Watched σ) α) (Pure.pure a : Action σ α) s [] where
  result _ := rfl
  after log := by rw [List.append_nil]; rfl
  told _ := rfl
  threads := .nil s

theorem logged (x : Logged α) (s : σ) :
    Watches (liftM x : Action (Watched σ) α) (liftM x : Action σ α) s [] where
  result _ := rfl
  after log := by rw [List.append_nil]; rfl
  told _ := rfl
  threads := .nil s

/-- **Sequencing appends the logs.** -/
theorem bind (hx : Watches x' x s first)
    (hk : Watches (k' (x.result s)) (k (x.result s)) (x.after s) second) :
    Watches (x' >>= k') (x >>= k) s (first ++ second) where
  result log := by
    rw [result_bind, result_bind, hx.result, hx.after]
    exact hk.result _
  after log := by
    rw [after_bind, after_bind, hx.result, hx.after, hk.after, List.append_assoc]
  told log := by
    rw [told_bind, told_bind, hx.result, hx.after, hx.told, hk.told]
  threads := hx.threads.append hk.threads

theorem builder (build : Action σ (Option View)) (s : σ) :
    Watches (build.watched (.builder build)) build s [.builder build (build.result s)] where
  result _ := rfl
  after _ := rfl
  told _ := rfl
  threads := .cons ⟨rfl, rfl⟩ (.nil _)

end Watches

/-! ## Rules -/

theorem run_mapM_watched (leaves : List (Effect σ Bool)) (s : σ) (log : List (Call σ)) :
    ((leaves.map Effect.watchedEvaluator).mapM id).run (s, log) =
      (((leaves.mapM id).run s).1, ((leaves.mapM id).run s).2,
        log ++ leaves.zipWith .evaluator ((leaves.mapM id).run s).1) := by
  induction leaves generalizing s log with
  | nil =>
    rw [List.zipWith_nil_left, List.append_nil]
    rfl
  | cons leaf rest ih =>
    rw [List.map_cons, List.mapM_cons, List.mapM_cons]
    have hrest := ih (leaf.run s).2 (log ++ [.evaluator leaf (leaf.run s).1])
    show ((leaf.run s).1 :: (((rest.map Effect.watchedEvaluator).mapM id).run _).1,
      (((rest.map Effect.watchedEvaluator).mapM id).run _).2) = _
    rw [hrest, List.append_assoc]
    rfl

theorem threads_mapM (leaves : List (Effect σ Bool)) (s : σ) :
    Threads s (leaves.zipWith .evaluator ((leaves.mapM id).run s).1)
      ((leaves.mapM id).run s).2 := by
  induction leaves generalizing s with
  | nil => exact .nil s
  | cons leaf rest ih =>
    have hfirst : (Call.evaluator leaf (leaf.run s).1).Takes s (leaf.run s).2 := rfl
    rw [List.mapM_cons]
    exact .cons hfirst (ih (leaf.run s).2)

theorem run_evaluate_watched (rule : Rule (Effect σ Bool)) (s : σ) (log : List (Call σ)) :
    (rule.map Effect.watchedEvaluator).evaluate.run (s, log) =
      ((rule.evaluate.run s).1, (rule.evaluate.run s).2,
        log ++ rule.leaves.zipWith .evaluator ((rule.leaves.mapM id).run s).1) := by
  rw [Rule.run_evaluate, Rule.leaves_map, Rule.truth_map, run_mapM_watched, Rule.run_evaluate]

/-- **A rule under watch** logs every leaf once, from left to right. -/
theorem Watches.evaluate (rule : Rule (Effect σ Bool)) (s : σ) :
    Watches (liftM (rule.map Effect.watchedEvaluator).evaluate) (liftM rule.evaluate) s
      (rule.leaves.zipWith .evaluator ((rule.leaves.mapM id).run s).1) := by
  refine ⟨fun log => ?_, fun log => ?_, fun _ => rfl, ?_⟩
  · rw [result_effect, result_effect, run_evaluate_watched]
  · rw [after_effect, after_effect, run_evaluate_watched]
  · rw [after_effect, Rule.run_evaluate]
    exact threads_mapM rule.leaves s

end Action

/-! ## Metadata

Reading a configuration makes no calls but looks. -/

namespace Effect

/-- Under watch, `e'` does what `e` does, and what it logs are looks. -/
def Looks (e' : Effect (Watched σ) α) (e : Effect σ α) : Prop :=
  ∀ s, ∃ calls, Action.Watches (liftM e' : Action (Watched σ) α) (liftM e : Action σ α) s calls ∧
    ∀ c ∈ calls, c.isLook

namespace Looks

theorem pure (a : α) : Looks (Pure.pure a : Effect (Watched σ) α) (Pure.pure a : Effect σ α) :=
  fun s => ⟨[], Action.Watches.pure a s, fun _ hc => absurd hc (by simp)⟩

theorem look (find : Effect σ (Option Json)) : Looks (find.watched (.look find)) find := by
  intro s
  refine ⟨[.look find (find.run s).1], ⟨fun _ => rfl, fun _ => rfl, fun _ => rfl, ?_⟩, ?_⟩
  · exact .cons rfl (.nil _)
  · intro c hc
    rw [List.mem_singleton.mp hc]
    rfl

theorem bind {e' : Effect (Watched σ) α} {e : Effect σ α} {k' : α → Effect (Watched σ) β}
    {k : α → Effect σ β} (he : Looks e' e) (hk : ∀ a, Looks (k' a) (k a)) :
    Looks (e' >>= k') (e >>= k) := by
  intro s
  obtain ⟨first, hfirst, hlooks⟩ := he s
  obtain ⟨second, hsecond, hothers⟩ := hk (e.run s).1 (e.run s).2
  have hboth : Action.Watches
      ((liftM e' : Action (Watched σ) α) >>= fun a => (liftM (k' a) : Action (Watched σ) β))
      ((liftM e : Action σ α) >>= fun a => (liftM (k a) : Action σ β)) s (first ++ second) :=
    hfirst.bind hsecond
  refine ⟨first ++ second, hboth, ?_⟩
  intro c hc
  rcases List.mem_append.mp hc with hc | hc
  · exact hlooks c hc
  · exact hothers c hc

end Looks

end Effect

namespace Metadata

open Effect (Looks)

mutual

theorem lookup_looks (m : Metadata σ) (key : String) :
    Looks (m.watched.lookup key) (m.lookup key) := by
  match m with
  | .map entries => exact .pure _
  | .reflect shown serialized => exact .pure _
  | .typed config => exact .pure _
  | .zip layers => exact lookupFirst_looks layers key
  | .host shown look => exact .look (look key)

theorem lookupFirst_looks (layers : List (Metadata σ)) (key : String) :
    Looks (lookupFirst (watchedAll layers) key) (lookupFirst layers key) := by
  match layers with
  | [] => exact .pure none
  | layer :: rest =>
    refine (lookup_looks layer key).bind fun found? => ?_
    cases found? with
    | some value => exact .pure _
    | none => exact lookupFirst_looks rest key

end

variable (m : Metadata σ) (key : String)

theorem getStr_looks : Looks (m.watched.getStr key) (m.getStr key) :=
  (lookup_looks m key).bind fun _ => .pure _

theorem getBool_looks : Looks (m.watched.getBool key) (m.getBool key) :=
  (lookup_looks m key).bind fun _ => .pure _

theorem getDouble_looks : Looks (m.watched.getDouble key) (m.getDouble key) :=
  (lookup_looks m key).bind fun _ => .pure _

theorem getUInt64_looks : Looks (m.watched.getUInt64 key) (m.getUInt64 key) :=
  (lookup_looks m key).bind fun _ => .pure _

end Metadata

open Effect (Looks)

/-- A configuration that is read by looks is also materialized by looks. -/
theorem materialize_looks {T : Type} [Configuration T]
    (hread : ∀ m : Metadata σ, Looks (Configuration.ofMetadata m.watched : Effect _ (Option T))
      (Configuration.ofMetadata m))
    (m? : Option (Metadata σ)) :
    Looks (materialize T (m?.map Metadata.watched)) (materialize T m?) := by
  match m? with
  | none => exact .pure none
  | some (.typed config) =>
    rw [Option.map_some, Metadata.watched, materialize, materialize]
    cases (Configuration.ofConfig? config : Option T) with
    | some configuration => exact .pure _
    | none => exact hread (.typed config)
  | some (.map entries) => exact hread (.map entries)
  | some (.reflect shown serialized) => exact hread (.reflect shown serialized)
  | some (.zip layers) => exact hread (.zip layers)
  | some (.host shown look) => exact hread (.host shown look)

variable (m? : Option (Metadata σ))

theorem materialize_stack_looks :
    Looks (materialize StackConfig (m?.map Metadata.watched)) (materialize StackConfig m?) := by
  refine materialize_looks (fun m => ?_) m?
  have hread : Looks (StackConfig.ofMetadata m.watched) (StackConfig.ofMetadata m) := by
    refine (m.getStr_looks "orientation").bind fun _ => ?_
    refine (m.getStr_looks "title").bind fun _ => ?_
    refine (m.getDouble_looks "spacing").bind fun _ => ?_
    refine (m.getBool_looks "preserve_parent_width").bind fun _ => ?_
    exact (m.getStr_looks "background_color").bind fun _ => .pure _
  exact hread.bind fun _ => .pure _

theorem materialize_tab_looks :
    Looks (materialize TabConfig (m?.map Metadata.watched)) (materialize TabConfig m?) := by
  refine materialize_looks (fun m => ?_) m?
  show Looks (TabConfig.ofMetadata m.watched) (TabConfig.ofMetadata m)
  refine (m.getStr_looks "title").bind fun title? => ?_
  cases title? with
  | none => exact .pure none
  | some title => exact (m.getStr_looks "icon_name").bind fun _ => .pure _

theorem materialize_tabBar_looks :
    Looks (materialize TabBarConfig (m?.map Metadata.watched)) (materialize TabBarConfig m?) :=
  materialize_looks (fun m => (m.getUInt64_looks "selected_index").bind fun _ => .pure _) m?

theorem titleOf_looks :
    Looks (Layout.titleOf (m?.map Metadata.watched)) (Layout.titleOf m?) := by
  cases m? with
  | none => exact .pure none
  | some m => exact m.getStr_looks "title"

end ViewTree
