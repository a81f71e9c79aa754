import ViewTree.Proofs.Component.Skeleton
import ViewTree.Proofs.Render.Meaning

/-!
# What a document takes from its configuration

A factory is one table for all documents. This file says how little of it a document can notice.

**Only what is named.** Two factories that have the same under the types of the nodes that can be
reached, and under the names in their rules, compile the document to the same thing. It is the same
computation that is run, so there is nothing that could come out differently: not the failure, not
the component with its builders, not what is told, and not the view (`compileNode_congr`).

**Not the values of rules.** Two factories that have evaluators for the same names compile to
components with the same skeleton, from whatever states of the host, and tell the same on the way
(`compileNode_parallel`). The evaluators get into the component as leaves, and are not run before it
is realized.

The second is a statement about two runs that go side by side through different states. `Parallel`
is what holds between them, seen through a function of their results; it is closed under sequencing
for parts whose results look alike through it.
-/

set_option autoImplicit false

namespace ViewTree

variable {σ N α β γ δ : Type}

open Component (skeleton)

namespace Factory

variable {f g : Factory σ N}

/-! ## Two factories with the same for what is named -/

/-- Two factories have the same under the type of a node and under the names in its rule. -/
structure AgreesAt (f g : Factory σ N) (m : Json) : Prop where
  singles : ∀ type, Node.typeOf? m = some type → f.singles.get? type = g.singles.get? type
  wrappers : ∀ type, Node.typeOf? m = some type → f.wrappers.get? type = g.wrappers.get? type
  clusters : ∀ type, Node.typeOf? m = some type → f.clusters.get? type = g.clusters.get? type
  rules : ∀ spec, Node.ruleOf? m = some spec →
    ∀ name ∈ spec.strings, f.rules.get? name = g.rules.get? name

theorem AgreesAt.trans {k : Factory σ N} {m : Json} (h : f.AgreesAt g m) (h' : g.AgreesAt k m) :
    f.AgreesAt k m where
  singles type htype := (h.singles type htype).trans (h'.singles type htype)
  wrappers type htype := (h.wrappers type htype).trans (h'.wrappers type htype)
  clusters type htype := (h.clusters type htype).trans (h'.clusters type htype)
  rules spec hspec name hname :=
    (h.rules spec hspec name hname).trans (h'.rules spec hspec name hname)

/-- Registering under a tag makes no difference to a node that does not name it. -/
theorem agreesAt_insert (f : Factory σ N) {m : Json} {tag : String}
    (htype : Node.typeOf? m ≠ some tag)
    (hrule : ∀ spec, Node.ruleOf? m = some spec → tag ∉ spec.strings) (builder : Builder σ N) :
    f.AgreesAt (f.insert tag builder) m := by
  have hother {type : String} (h : Node.typeOf? m = some type) : type ≠ tag := fun he =>
    htype (he ▸ h)
  cases builder with
  | single factory =>
    refine ⟨fun type h => ?_, fun _ _ => rfl, fun _ _ => rfl, fun _ _ _ _ => rfl⟩
    rw [insert, Dictionary.get?_insert, if_neg (hother h)]
  | wrapper factory =>
    refine ⟨fun _ _ => rfl, fun type h => ?_, fun _ _ => rfl, fun _ _ _ _ => rfl⟩
    rw [insert, Dictionary.get?_insert, if_neg (hother h)]
  | cluster factory =>
    refine ⟨fun _ _ => rfl, fun _ _ => rfl, fun type h => ?_, fun _ _ _ _ => rfl⟩
    rw [insert, Dictionary.get?_insert, if_neg (hother h)]
  | rule evaluator =>
    refine ⟨fun _ _ => rfl, fun _ _ => rfl, fun _ _ => rfl, fun spec hspec name hname => ?_⟩
    have hne : name ≠ tag := fun he => hrule spec hspec (he ▸ hname)
    rw [insert, Dictionary.get?_insert, if_neg hne]

theorem AgreesAt.resolve_eq {m : Json} (h : f.AgreesAt g m) {type : String}
    (htype : Node.typeOf? m = some type) (children : List (Component σ N))
    (metadata : Option (Metadata σ)) :
    f.resolve type children metadata = g.resolve type children metadata := by
  unfold resolve
  rw [h.singles type htype, h.wrappers type htype, h.clusters type htype]

theorem AgreesAt.gate_eq {m : Json} (h : f.AgreesAt g m) (type : String)
    (component : Component σ N) :
    f.gate type (Node.ruleOf? m) component = g.gate type (Node.ruleOf? m) component := by
  unfold gate
  cases hspec : Node.ruleOf? m with
  | none => rfl
  | some spec =>
    have hparse : f.parseRule spec = g.parseRule spec := Rule.ofSpec?_congr (h.rules spec hspec)
    simp only [hparse]

theorem compileEntries_congr {entries : List Node}
    (h : ∀ e ∈ entries, e.source.isObject = true → f.compileNode e = g.compileNode e) :
    f.compileEntries entries = g.compileEntries entries := by
  induction entries with
  | nil => rfl
  | cons entry rest ih =>
    have hrest := ih fun e he => h e (List.mem_cons_of_mem _ he)
    rw [compileEntries, compileEntries, hrest]
    by_cases hobject : entry.source.isObject = true
    · rw [if_pos hobject, if_pos hobject, h entry List.mem_cons_self hobject]
    · rw [if_neg hobject, if_neg hobject]

/-- **A node is compiled by what is registered for the nodes that can be reached from it**, and by
nothing else. -/
theorem compileNode_congr (n : Node) (h : ∀ m ∈ n.reachable, f.AgreesAt g m) :
    f.compileNode n = g.compileNode n := by
  induction n with
  | step source entries ih =>
    rw [Node.reachable] at h
    have hsource := h source List.mem_cons_self
    have hentries : f.compileEntries entries = g.compileEntries entries := by
      refine compileEntries_congr fun e he hobject => ih e he fun m hm => h m ?_
      rw [Node.reachableAll_eq]
      exact List.mem_cons_of_mem _
        (List.mem_flatMap.mpr ⟨e, List.mem_filter.mpr ⟨he, hobject⟩, hm⟩)
    rw [compileNode, compileNode]
    cases htype : Node.typeOf? source with
    | none => rfl
    | some type => simp only [hentries, hsource.resolve_eq htype, hsource.gate_eq]

end Factory

/-! ## Runs side by side -/

/-- Two compilations fail with the same error or come to results that look alike through a function,
and tell the same, from any two states of the host. -/
structure Compilation.Parallel (p : α → γ) (x y : Compilation σ α) : Prop where
  outcome : ∀ s t, (x.outcome s).map p = (y.outcome t).map p
  told : ∀ s t, x.told s = y.told t

namespace Compilation.Parallel

variable {p : α → γ} {q : β → δ} {x y : Compilation σ α}

theorem pure {a b : α} (h : p a = p b) :
    Parallel p (Pure.pure a : Compilation σ α) (Pure.pure b) :=
  ⟨fun _ _ => congrArg Except.ok h, fun _ _ => rfl⟩

theorem throw (e : CompileError) :
    Parallel p (MonadExcept.throw e : Compilation σ α) (MonadExcept.throw e) :=
  ⟨fun _ _ => rfl, fun _ _ => rfl⟩

theorem logged {l l' : Logged α} (hvalue : p l.value = p l'.value)
    (hevents : l.events = l'.events) : Parallel p (liftM l : Compilation σ α) (liftM l') := by
  refine ⟨fun _ _ => congrArg Except.ok hvalue, fun s t => ?_⟩
  rw [told_logged, told_logged, hevents]

theorem action {a b : Action σ α} (hresult : ∀ s t, p (a.result s) = p (b.result t))
    (htold : ∀ s t, a.told s = b.told t) :
    Parallel p (liftM a : Compilation σ α) (liftM b) := by
  refine ⟨fun s t => congrArg Except.ok (hresult s t), fun s t => ?_⟩
  rw [told_action, told_action, htold s t]

theorem bind {k l : α → Compilation σ β} (hx : Parallel p x y)
    (hk : ∀ a b, p a = p b → Parallel q (k a) (l b)) : Parallel q (x >>= k) (y >>= l) := by
  -- Either both first parts fail, alike, or both second parts are run, on results that look alike.
  have hcases : ∀ s t, (∃ e, x.outcome s = .error e ∧ y.outcome t = .error e) ∨
      ∃ a b, x.outcome s = .ok a ∧ y.outcome t = .ok b ∧ p a = p b := by
    intro s t
    have houtcome := hx.outcome s t
    cases hs : x.outcome s with
    | error e =>
      cases ht : y.outcome t with
      | error e' =>
        rw [hs, ht] at houtcome
        exact .inl ⟨e, rfl, congrArg Except.error (Except.error.inj houtcome).symm⟩
      | ok b =>
        rw [hs, ht] at houtcome
        exact absurd houtcome (by simp [Except.map])
    | ok a =>
      cases ht : y.outcome t with
      | error e =>
        rw [hs, ht] at houtcome
        exact absurd houtcome (by simp [Except.map])
      | ok b =>
        rw [hs, ht] at houtcome
        exact .inr ⟨a, b, rfl, rfl, Except.ok.inj houtcome⟩
  constructor
  · intro s t
    rw [outcome_bind, outcome_bind]
    rcases hcases s t with ⟨e, hs, ht⟩ | ⟨a, b, hs, ht, hab⟩
    · rw [hs, ht]
    · rw [hs, ht]
      exact (hk a b hab).outcome _ _
  · intro s t
    rw [told_bind, told_bind, hx.told s t]
    rcases hcases s t with ⟨e, hs, ht⟩ | ⟨a, b, hs, ht, hab⟩
    · rw [hs, ht]
    · rw [hs, ht]
      exact congrArg _ ((hk a b hab).told _ _)

/-- What looks alike through a function looks alike through what is made of its values. -/
theorem map (hx : Parallel p x y) {r : α → δ} (h : ∀ a b, p a = p b → r a = r b) :
    Parallel r x y := by
  have hbind := hx.bind (k := Pure.pure) (l := Pure.pure) fun a b hab =>
    Parallel.pure (p := r) (h a b hab)
  rwa [bind_pure, bind_pure] at hbind

end Compilation.Parallel

open Compilation (Parallel)

/-! ## Two factories with the same names -/

namespace Factory

variable {f g : Factory σ N}

/-- Two factories make the same kinds of components of the same types, and have evaluators for the
same names. -/
structure SameNames (f g : Factory σ N) : Prop where
  kinds : ∀ type, f.kindOf? type = g.kindOf? type
  rules : ∀ name, f.containsRule name = g.containsRule name

/-- Without the evaluators, a specification is the same rule for both. -/
theorem SameNames.parseRule_eq (h : f.SameNames g) (spec : Json) :
    Option.map (Rule.map fun _ => (pure false : Effect σ Bool)) <$> f.parseRule spec =
      Option.map (Rule.map fun _ => pure false) <$> g.parseRule spec := by
  have hnames : (fun name => (f.rules.get? name).map fun _ => (pure false : Effect σ Bool)) =
      fun name => (g.rules.get? name).map fun _ => pure false := by
    funext name
    have hname : (f.rules.get? name).isSome = (g.rules.get? name).isSome := h.rules name
    cases hf : f.rules.get? name <;> cases hg : g.rules.get? name <;> simp_all
  rw [parseRule, parseRule, ← Rule.ofSpec?_map, ← Rule.ofSpec?_map, hnames]

theorem SameNames.gate_parallel (h : f.SameNames g) (type : String) (spec? : Option Json)
    {c d : Component σ N} (hcd : c.skeleton = d.skeleton) :
    Parallel skeleton (liftM (f.gate type spec? c) : Compilation σ _)
      (liftM (g.gate type spec? d)) := by
  cases spec? with
  | none => exact .logged hcd rfl
  | some spec =>
    have hparse := h.parseRule_eq spec
    have hevents := congrArg Logged.events hparse
    have hvalue := congrArg Logged.value hparse
    rw [Logged.events_map, Logged.events_map] at hevents
    rw [Logged.value_map, Logged.value_map] at hvalue
    unfold gate
    cases hf : (f.parseRule spec).value with
    | none =>
      rw [hf, Option.map_none, eq_comm, Option.map_eq_none_iff] at hvalue
      refine .logged ?_ ?_
      · simp only [Logged.value_bind, hf, hvalue]
        exact hcd
      · simp only [Logged.events_bind, Logged.events_pure, hf, hvalue, hevents]
    | some rule =>
      rw [hf, Option.map_some, eq_comm, Option.map_eq_some_iff] at hvalue
      obtain ⟨rule', hg, hrule⟩ := hvalue
      refine .logged ?_ ?_
      · simp only [Logged.value_bind, hf, hg]
        rw [Logged.value_pure, Logged.value_pure, skeleton, skeleton, hrule, hcd]
      · simp only [Logged.events_bind, Logged.events_pure, hf, hg, hevents]

/-- What is told of a type depends on its kind and on the number of children. -/
theorem told_resolve (f : Factory σ N) (type : String) (children : List (Component σ N))
    (metadata : Option (Metadata σ)) (s : σ) :
    (f.resolve type children metadata).told s =
      match f.kindOf? type, children.length with
      | some .single, _ => []
      | some .wrapper, 0 => [.noChild type]
      | some .wrapper, 1 => []
      | some .wrapper, count => [.extraChildren type count]
      | some .cluster, _ => []
      | _, _ => [.unregistered type] := by
  unfold kindOf? resolve Dictionary.contains
  cases f.singles.get? type with
  | some factory => rfl
  | none =>
    cases f.wrappers.get? type with
    | some factory =>
      rcases children with _ | ⟨child, _ | ⟨second, rest⟩⟩ <;> rfl
    | none => cases f.clusters.get? type <;> rfl

theorem SameNames.resolve_parallel (h : f.SameNames g) (hf : f.Faithful) (hg : g.Faithful)
    (type : String) {cs ds : List (Component σ N)} (hcd : cs.map skeleton = ds.map skeleton)
    (metadata : Option (Metadata σ)) :
    Parallel (Option.map skeleton) (liftM (f.resolve type cs metadata) : Compilation σ _)
      (liftM (g.resolve type ds metadata)) := by
  have hlength : cs.length = ds.length := by simpa using congrArg List.length hcd
  refine .action (fun s t => ?_) fun s t => ?_
  · obtain ⟨hsome, hnone⟩ := result_resolve hf type cs metadata s
    obtain ⟨hsome', hnone'⟩ := result_resolve hg type ds metadata t
    have hempty : cs = [] ↔ ds = [] := by
      rw [← List.length_eq_zero_iff, ← List.length_eq_zero_iff, hlength]
    rw [h.kinds type, hempty, ← hnone'] at hnone
    cases hc : (f.resolve type cs metadata).result s with
    | none => rw [hnone.mp hc]
    | some c =>
      cases hd : (g.resolve type ds metadata).result t with
      | none =>
        rw [hnone.mpr hd] at hc
        exact absurd hc (by simp)
      | some d =>
        obtain ⟨hkind, hmetadata, hchildren⟩ := hsome c hc
        obtain ⟨hkind', hmetadata', hchildren'⟩ := hsome' d hd
        rw [h.kinds type] at hkind hchildren
        refine congrArg some (Component.skeleton_eq_of_parts ?_ ?_ ?_ ?_)
        · exact Option.some.inj (hkind.symm.trans hkind')
        · rintro hgate
          rw [hgate] at hkind
          exact g.kindOf?_ne_rule type hkind
        · rw [hmetadata, hmetadata']
        · rw [hchildren, hchildren', ← childrenOf_map, ← childrenOf_map, hcd]
  · rw [told_resolve, told_resolve, h.kinds type, hlength]

theorem compileEntries_parallel {entries : List Node}
    (h : ∀ e ∈ entries, Parallel (Option.map skeleton) (f.compileNode e) (g.compileNode e)) :
    Parallel (List.map skeleton) (f.compileEntries entries) (g.compileEntries entries) := by
  induction entries with
  | nil => exact .pure rfl
  | cons entry rest ih =>
    have hrest := ih fun e he => h e (List.mem_cons_of_mem _ he)
    rw [compileEntries, compileEntries]
    by_cases hobject : entry.source.isObject = true
    · rw [if_pos hobject, if_pos hobject]
      refine (h entry List.mem_cons_self).bind fun c? d? hcd => ?_
      refine hrest.bind fun cs ds hrest => .pure ?_
      rw [List.map_append, List.map_append, hrest, ← Option.toList_map, ← Option.toList_map, hcd]
    · rw [if_neg hobject, if_neg hobject]
      exact Parallel.bind (p := id) (.logged rfl rfl) fun _ _ _ => hrest

/-- **Nothing but names shows in a skeleton.** Compiling with two factories that have the same
names, in any two states of the host, fails alike, or gives components with the same skeleton; and
the same is told. -/
theorem compileNode_parallel (hf : f.Faithful) (hg : g.Faithful) (h : f.SameNames g) (n : Node) :
    Parallel (Option.map skeleton) (f.compileNode n) (g.compileNode n) := by
  induction n with
  | step source entries ih =>
    rw [compileNode, compileNode]
    cases Node.typeOf? source with
    | none => exact .throw _
    | some type =>
      refine Parallel.bind (p := id) (.logged rfl rfl) fun _ _ _ => ?_
      refine (compileEntries_parallel ih).bind fun cs ds hcd => ?_
      refine (h.resolve_parallel hf hg type hcd _).bind fun c? d? hresolved => ?_
      cases c? with
      | none =>
        cases d? with
        | none => exact .pure rfl
        | some d => exact absurd hresolved (by simp)
      | some c =>
        cases d? with
        | none => exact absurd hresolved (by simp)
        | some d =>
          refine (h.gate_parallel type _ (Option.some.inj hresolved)).bind fun c d hcd => .pure ?_
          exact congrArg some hcd

theorem compile_parallel (hf : f.Faithful) (hg : g.Faithful) (h : f.SameNames g)
    (document : Json) :
    Parallel (Option.map skeleton) (f.compile document) (g.compile document) := by
  unfold compile
  cases document.field? structureKey with
  | none => exact .throw _
  | some root => exact compileNode_parallel hf hg h _

/-! ## Constants -/

theorem Faithful.withConstants (hf : f.Faithful) (values : List (String × Bool)) :
    (f.withConstants values).Faithful := by
  obtain ⟨hsingles, hwrappers, hclusters⟩ := withConstants_registries f values
  refine ⟨?_, ?_, ?_⟩
  · rw [hsingles]
    exact hf.single
  · rw [hwrappers]
    exact hf.wrapper
  · rw [hclusters]
    exact hf.cluster

theorem containsRule_withConstants (f : Factory σ N) (values : List (String × Bool))
    (name : String) :
    (f.withConstants values).containsRule name = true ↔
      name ∈ values.map (·.1) ∨ f.containsRule name = true := by
  induction values generalizing f with
  | nil => simp [withConstants]
  | cons value rest ih =>
    rw [withConstants, List.foldl_cons, ← withConstants, ih, List.map_cons, List.mem_cons]
    have hinsert : (f.insert value.1 (.rule (pure value.2))).containsRule name = true ↔
        name = value.1 ∨ f.containsRule name = true := by
      unfold containsRule insert Dictionary.contains
      rw [Dictionary.get?_insert]
      by_cases h : name = value.1 <;> simp [h]
    rw [hinsert]
    exact or_left_comm.trans (or_assoc.symm)

theorem sameNames_withConstants (f : Factory σ N) {values values' : List (String × Bool)}
    (h : ∀ name, name ∈ values.map (·.1) ↔ name ∈ values'.map (·.1)) :
    (f.withConstants values).SameNames (f.withConstants values') := by
  obtain ⟨hsingles, hwrappers, hclusters⟩ := withConstants_registries f values
  obtain ⟨hsingles', hwrappers', hclusters'⟩ := withConstants_registries f values'
  constructor
  · intro type
    unfold kindOf?
    rw [hsingles, hwrappers, hclusters, hsingles', hwrappers', hclusters']
  · intro name
    rw [Bool.eq_iff_iff, containsRule_withConstants, containsRule_withConstants, h name]

/-! ## Locality -/

/-- What is looked up of a skeleton is the same for components that have the same. -/
theorem map_eq_of_skeleton_eq {look : {M : Type} → Component σ M → α}
    (hlook : ∀ c : Component σ N, look c.skeleton = look c) (c? d? : Option (Component σ N))
    (h : c?.map skeleton = d?.map skeleton) : c?.map look = d?.map look := by
  have hmap : ∀ e? : Option (Component σ N), e?.map look = (e?.map skeleton).map look := by
    intro e?
    rw [Option.map_map]
    exact congrFun (congrArg Option.map (funext fun e => (hlook e).symm)) e?
  rw [hmap c?, hmap d?, h]

/-- **A document sees of its configuration what it names.** Two factories that have the same under
the types of the nodes that can be reached, and under the names in their rules, compile and render
the document alike, whatever else is registered. And what a constant says never shows in compiling:
with constants under the same names, a document fails with the same error, or comes to components
with the same skeleton, the same description and the same text, and the same is told. -/
theorem configuration_is_local (f g : Factory σ N) (document : Json) :
    ((∀ root, document.field? structureKey = some root →
        ∀ m ∈ (Node.ofJson root).reachable, f.AgreesAt g m) →
      f.compile document = g.compile document ∧ f.render document = g.render document) ∧
    (f.Faithful → ∀ values values' : List (String × Bool),
      (∀ name, name ∈ values.map (·.1) ↔ name ∈ values'.map (·.1)) → ∀ s t : σ,
      let x := (f.withConstants values).compile document
      let y := (f.withConstants values').compile document
      (x.outcome s).map (Option.map skeleton) = (y.outcome t).map (Option.map skeleton) ∧
      (x.outcome s).map (Option.map Component.describe) =
        (y.outcome t).map (Option.map Component.describe) ∧
      (x.outcome s).map (Option.map Component.inspection) =
        (y.outcome t).map (Option.map Component.inspection) ∧
      x.told s = y.told t) := by
  constructor
  · intro hagrees
    have hcompile : f.compile document = g.compile document := by
      unfold compile
      cases hroot : document.field? structureKey with
      | none => rfl
      | some root => exact compileNode_congr _ (hagrees root hroot)
    exact ⟨hcompile, by rw [render, render, hcompile]⟩
  · intro hf values values' hnames s t
    have hparallel := compile_parallel (hf.withConstants values) (hf.withConstants values')
      (f.sameNames_withConstants hnames) document
    refine ⟨hparallel.outcome s t, ?_, ?_, hparallel.told s t⟩
    · exact (hparallel.map (map_eq_of_skeleton_eq Component.describe_skeleton)).outcome s t
    · exact (hparallel.map (map_eq_of_skeleton_eq Component.inspection_skeleton)).outcome s t

/-- A stack with a label behind a rule. -/
def guardedLabel : Json :=
  .obj [("structure", .obj [("type", .str "stack"),
    ("children", .arr [.obj [("type", .str "label"), ("rule", .str "shown")]])])]

theorem configuration_is_local_label :
    let f := standardWith Unit [("shown", true)]
    let grid := fun children metadata => pure (Layout.stack children metadata)
    let g := (f.insert "grid" (.cluster grid)).insert "other" (.rule (pure false))
    (f.compile guardedLabel = g.compile guardedLabel ∧
      f.render guardedLabel = g.render guardedLabel) ∧
    let x := (standardWith Unit [("shown", true)]).compile guardedLabel
    let y := (standardWith Unit [("shown", false)]).compile guardedLabel
    (x.outcome ()).map (Option.map Component.describe) =
      (y.outcome ()).map (Option.map Component.describe) := by
  intro f grid g
  constructor
  · refine (configuration_is_local f g guardedLabel).1 fun root hroot m hm => ?_
    have hnamed : ∀ tag ∈ ["grid", "other"], ∀ m ∈ (Node.ofJson root).reachable,
        Node.typeOf? m ≠ some tag ∧ ∀ spec ∈ Node.ruleOf? m, tag ∉ spec.strings := by
      obtain rfl := Option.some.inj hroot
      decide +kernel
    obtain ⟨htype, hrule⟩ := hnamed "grid" (by simp) m hm
    obtain ⟨htype', hrule'⟩ := hnamed "other" (by simp) m hm
    exact (f.agreesAt_insert htype hrule _).trans (agreesAt_insert _ htype' hrule' _)
  · exact ((configuration_is_local standard standard guardedLabel).2
      (standardWith_faithful []) [("shown", true)] [("shown", false)] (by simp) () ()).2.1

end Factory

end ViewTree
