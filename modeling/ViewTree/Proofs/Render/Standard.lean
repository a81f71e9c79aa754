import ViewTree.Proofs.Compile.Induction
import ViewTree.Proofs.Factory.Registry
import ViewTree.Proofs.Render.Content
import ViewTree.Proofs.Rule.Subspec

/-!
# The standard factory with constant rules

What a document is rendered with when nothing but the values of its rules is the host's business:
the six standard types, and an evaluator for each rule name that always says the same. This is the
factory of the command line, and the one that statements about rendering are about.

Two facts are all that is needed of it. Its **registries** are the table `Standard.component?`
(`result_resolve_standardWith`); rules do not get into it, whatever their names. And every rule that
a document can have is **settled**: it says the same in every state of the host, so a specification
has one verdict (`verdict`), which is that of the rule it is, or none where it is no rule.
-/

set_option autoImplicit false

namespace ViewTree

variable {σ N α : Type}

/-! ## Settled rules -/

namespace Rule

/-- A rule that says the same in every state of the host and leaves it alone. -/
def Settled (rule : Rule (Effect σ Bool)) : Prop := ∃ holds, rule.evaluate = pure holds

theorem evaluateAll_settled {rules : List (Rule (Effect σ Bool))}
    (h : ∀ rule ∈ rules, rule.Settled) : ∃ values, evaluateAll rules = pure values := by
  induction rules with
  | nil => exact ⟨[], rfl⟩
  | cons rule rest ih =>
    obtain ⟨value, hvalue⟩ := h rule List.mem_cons_self
    obtain ⟨values, hvalues⟩ := ih fun rule hrule => h rule (List.mem_cons_of_mem _ hrule)
    refine ⟨value :: values, ?_⟩
    rw [evaluateAll, hvalue, pure_bind, hvalues, pure_bind]

theorem combine_settled {op : Operator} {operands : List (Rule (Effect σ Bool))}
    {rule : Rule (Effect σ Bool)} (h : ∀ operand ∈ operands, operand.Settled)
    (hrule : (op.combine operands).value = some rule) : rule.Settled := by
  obtain ⟨values, hvalues⟩ := evaluateAll_settled h
  unfold Operator.combine at hrule
  split at hrule
  · obtain rfl := Option.some.inj hrule
    exact ⟨values.all id, by rw [evaluate, hvalues, pure_bind]⟩
  · obtain rfl := Option.some.inj hrule
    exact ⟨values.any id, by rw [evaluate, hvalues, pure_bind]⟩
  · obtain rfl := Option.some.inj hrule
    obtain ⟨value, hvalue⟩ := h _ List.mem_cons_self
    exact ⟨!value, by rw [evaluate, hvalue, pure_bind]⟩
  · exact absurd hrule (by simp)

theorem settled_of_ofSpec? {leaf? : String → Option (Effect σ Bool)}
    (hleaf : ∀ name leaf, leaf? name = some leaf → ∃ holds, leaf = pure holds) (spec : Json)
    (rule : Rule (Effect σ Bool)) (h : (ofSpec? leaf? spec).value = some rule) :
    rule.Settled := by
  refine ofSpec?_induct (motive := fun _ rule => rule.Settled) ?_ ?_ h
  · intro name leaf hname
    obtain ⟨holds, hholds⟩ := hleaf name leaf hname
    exact ⟨holds, by rw [evaluate, hholds]⟩
  · intro key op operand rule _ hrule ih
    refine combine_settled (fun below hbelow => ?_) hrule
    obtain ⟨spec, hspec, hvalue⟩ := List.mem_filterMap.mp hbelow
    exact ih spec hspec below hvalue

end Rule

namespace Factory

/-! ## Verdicts -/

/-- **What the rule of a specification says** in a state of the host; nothing where the
specification is no rule. -/
def verdict (f : Factory σ N) (s : σ) (spec : Json) : Option Bool :=
  (f.parseRule spec).value.map fun rule => (rule.evaluate.run s).1

/-- Every evaluator of a factory always says the same. -/
def Constant (f : Factory σ N) : Prop :=
  ∀ name evaluator, f.rules.get? name = some evaluator → ∃ holds, evaluator = pure holds

theorem Constant.insert {f : Factory σ N} (hf : f.Constant) (name : String) (holds : Bool) :
    (f.insert name (.rule (pure holds))).Constant := by
  intro other evaluator h
  rw [Factory.insert, Dictionary.get?_insert] at h
  split at h
  · exact ⟨holds, (Option.some.inj h).symm⟩
  · exact hf other evaluator h

theorem Constant.withConstants {f : Factory σ N} (hf : f.Constant)
    (values : List (String × Bool)) : (f.withConstants values).Constant := by
  induction values generalizing f with
  | nil => exact hf
  | cons value rest ih => exact ih (hf.insert value.1 value.2)

/-- With constant evaluators, a rule says what its verdict is, in every state. -/
theorem Constant.evaluate_eq {f : Factory σ N} (hf : f.Constant) (s : σ) {spec : Json}
    {rule : Rule (Effect σ Bool)} (h : (f.parseRule spec).value = some rule) :
    ∃ holds, f.verdict s spec = some holds ∧ rule.evaluate = pure holds := by
  obtain ⟨holds, hholds⟩ := Rule.settled_of_ofSpec? hf spec rule h
  refine ⟨holds, ?_, hholds⟩
  rw [verdict, h, Option.map_some, hholds]
  rfl

/-! ## The registries -/

theorem withConstants_registries (f : Factory σ N) (values : List (String × Bool)) :
    (f.withConstants values).singles = f.singles ∧ (f.withConstants values).wrappers = f.wrappers ∧
      (f.withConstants values).clusters = f.clusters := by
  induction values generalizing f with
  | nil => exact ⟨rfl, rfl, rfl⟩
  | cons value rest ih => exact ih (f.insert value.1 (.rule (pure value.2)))

theorem singles_standard (type : String) :
    (standard : Factory σ View).singles.get? type =
      if type = "button" then some fun metadata => pure (Widget.button metadata)
      else if type = "tile" then some fun metadata => pure (Widget.tile metadata)
      else if type = "label" then some fun metadata => pure (Widget.label metadata)
      else none := by
  rw [standard, registerStandard, value_registerAll]
  simp only [standardBuilders, List.foldl_cons, List.foldl_nil, insert, Dictionary.get?_insert,
    empty, Dictionary.get?_empty]

theorem wrappers_standard (type : String) :
    (standard : Factory σ View).wrappers.get? type =
      if type = "scroll" then some fun child metadata => pure (Layout.scroll child metadata)
      else none := by
  rw [standard, registerStandard, value_registerAll]
  simp only [standardBuilders, List.foldl_cons, List.foldl_nil, insert, Dictionary.get?_insert,
    empty, Dictionary.get?_empty]

theorem clusters_standard (type : String) :
    (standard : Factory σ View).clusters.get? type =
      if type = "tabbar" then
        some fun children metadata => pure (Layout.tabBar children metadata)
      else if type = "stack" then
        some fun children metadata => pure (Layout.stack children metadata)
      else none := by
  rw [standard, registerStandard, value_registerAll]
  simp only [standardBuilders, List.foldl_cons, List.foldl_nil, insert, Dictionary.get?_insert,
    empty, Dictionary.get?_empty]

theorem standard_constant : (standard : Factory σ View).Constant := by
  intro name evaluator h
  rw [standard, registerStandard, value_registerAll] at h
  exact absurd h (by simp [standardBuilders, insert, empty])

/-! ## With constants -/

/-- **The factory that documents are rendered with**: the standard types, and rules by name that
always say the same. -/
def standardWith (σ : Type) (values : List (String × Bool)) : Factory σ View :=
  standard.withConstants values

variable (values : List (String × Bool))

theorem kindOf?_standardWith (type : String) :
    (standardWith σ values).kindOf? type =
      (Standard.ofTag? type).map Standard.kind := by
  obtain ⟨hsingles, hwrappers, hclusters⟩ := withConstants_registries
    (standard : Factory σ View) values
  unfold kindOf? Dictionary.contains standardWith
  rw [hsingles, hwrappers, hclusters, singles_standard, wrappers_standard, clusters_standard]
  cases hk : Standard.ofTag? type with
  | some k =>
    obtain rfl := Standard.ofTag?_eq_some_iff.mp hk
    cases k <;> rfl
  | none =>
    simp only [Standard.ne_of_ofTag?_eq_none hk, if_false, Option.isSome_none, Bool.false_eq_true,
      Option.map_none]

theorem nodeKind?_standardWith (source : Json) :
    (standardWith σ values).nodeKind? source =
      (Standard.ofNode? source).map Standard.kind := by
  rw [nodeKind?, Standard.ofNode?, Option.map_bind]
  exact congrArg _ (funext (kindOf?_standardWith values))

theorem standard_faithful : (standard : Factory σ View).Faithful := by
  refine ⟨?_, ?_, ?_⟩
  · intro type factory h metadata s
    rw [singles_standard] at h
    repeat' split at h
    all_goals first
      | (obtain rfl := Option.some.inj h; exact ⟨_, rfl⟩)
      | exact absurd h (by simp)
  · intro type factory h child metadata s
    rw [wrappers_standard] at h
    split at h
    · obtain rfl := Option.some.inj h
      exact ⟨_, rfl⟩
    · exact absurd h (by simp)
  · intro type factory h children metadata s
    rw [clusters_standard] at h
    repeat' split at h
    all_goals first
      | (obtain rfl := Option.some.inj h; exact ⟨_, rfl⟩)
      | exact absurd h (by simp)

theorem standardWith_faithful : (standardWith σ values).Faithful := by
  obtain ⟨hsingles, hwrappers, hclusters⟩ := withConstants_registries
    (standard : Factory σ View) values
  exact ⟨fun h => standard_faithful.single (hsingles ▸ h),
    fun h => standard_faithful.wrapper (hwrappers ▸ h),
    fun h => standard_faithful.cluster (hclusters ▸ h)⟩

/-- **The registries of the standard factory are its table of types.** -/
theorem resolve_standard_gives (type : String) (children : List (Component σ View))
    (metadata : Option (Metadata σ)) :
    ((standard : Factory σ View).resolve type children metadata).Gives
      ((Standard.ofTag? type).bind (Standard.component? children metadata)) := by
  intro s
  unfold resolve
  rw [singles_standard, wrappers_standard, clusters_standard]
  cases hk : Standard.ofTag? type with
  | some k =>
    obtain rfl := Standard.ofTag?_eq_some_iff.mp hk
    cases k with
    | scroll =>
      cases children with
      | nil => exact ⟨rfl, rfl⟩
      | cons child more => cases more <;> exact ⟨rfl, rfl⟩
    | _ => exact ⟨rfl, rfl⟩
  | none =>
    simp only [Standard.ne_of_ofTag?_eq_none hk, if_false]
    exact ⟨rfl, rfl⟩

theorem result_resolve_standardWith (type : String) (children : List (Component σ View))
    (metadata : Option (Metadata σ)) (s : σ) :
    ((standardWith σ values).resolve type children metadata).result s =
      (Standard.ofTag? type).bind (Standard.component? children metadata) := by
  obtain ⟨hsingles, hwrappers, hclusters⟩ := withConstants_registries
    (standard : Factory σ View) values
  have hresolve : (standardWith σ values).resolve type children metadata =
      (standard : Factory σ View).resolve type children metadata := by
    unfold resolve standardWith
    rw [hsingles, hwrappers, hclusters]
  rw [hresolve]
  exact (resolve_standard_gives type children metadata s).1

theorem standardWith_constant : (standardWith σ values).Constant :=
  standard_constant.withConstants values

end Factory

end ViewTree
