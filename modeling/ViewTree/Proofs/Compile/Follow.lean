import ViewTree.Proofs.Compile.Induction
import ViewTree.Proofs.Component.Skeleton

/-!
# Compilations that follow one another

Two documents that ought to come to the same are compiled by two programs, which go through
different states of the host if one of them runs a registered function more often. What can be said
of the results then depends on what the registered functions can see.

So there are two **views**. `seen` is what of the host's state the registered functions can see, and
`look` is what of a component anyone looks at. A factory **respects** the views when its functions,
on arguments that look the same and in states where the same is seen, make components that look the
same and leave states where the same is seen. Every factory respects the two views that show
everything, and every factory the two that show nothing. In between there is more to be had: the
first view may show nothing and the second everything, for registered functions that really are
functions, and `frame` for those that make what they are registered as.

`Follows` is what a program has to do for the results to look the same: wherever the other one
succeeds, it succeeds too. It is closed under sequencing, so `compileNode_follows` reads it off the
program that compiles a node.
-/

set_option autoImplicit false

namespace ViewTree

variable {σ N α β γ γ' δ : Type}

/-! ## Following -/

/-- **`y` follows `x`**: where `x` succeeds, so does `y` from any state in which the same is seen,
the results look the same, and the same is seen afterwards. -/
def Compilation.Follows (seen : σ → δ) (look : α → γ) (y x : Compilation σ α) : Prop :=
  ∀ s t, seen t = seen s → ∀ a, x.outcome s = .ok a →
    ∃ b, y.outcome t = .ok b ∧ look b = look a ∧ seen (y.after t) = seen (x.after s)

namespace Compilation.Follows

variable {seen : σ → δ} {look : α → γ} {look' : β → γ'} {x y : Compilation σ α}

theorem pure {a b : α} (h : look b = look a) :
    Follows seen look (Pure.pure b : Compilation σ α) (Pure.pure a) := by
  intro s t hst made hmade
  obtain rfl := Except.ok.inj hmade
  exact ⟨b, rfl, h, hst⟩

/-- Nothing has to be done to follow a failure. -/
theorem throw (e : CompileError) : Follows seen look y (MonadExcept.throw e) := by
  intro s t _ made hmade
  rw [outcome_throw] at hmade
  exact absurd hmade (by simp)

theorem logged {l l' : Logged α} (h : look l'.value = look l.value) :
    Follows seen look (liftM l' : Compilation σ α) (liftM l) := by
  intro s t hst made hmade
  obtain rfl := Except.ok.inj hmade
  exact ⟨l'.value, rfl, h, hst⟩

theorem action {a a' : Action σ α}
    (h : ∀ s t, seen t = seen s →
      look (a'.result t) = look (a.result s) ∧ seen (a'.after t) = seen (a.after s)) :
    Follows seen look (liftM a' : Compilation σ α) (liftM a) := by
  intro s t hst made hmade
  obtain rfl := Except.ok.inj hmade
  exact ⟨a'.result t, rfl, h s t hst⟩

/-- Where the whole state of the host is seen, a program follows itself. -/
theorem same (look : α → γ) (x : Compilation σ α) : Follows id look x x := by
  rintro s t rfl made hmade
  exact ⟨made, hmade, rfl, rfl⟩

theorem bind {k l : α → Compilation σ β} (hx : Follows seen look y x)
    (hk : ∀ a b, look b = look a → Follows seen look' (l b) (k a)) :
    Follows seen look' (y >>= l) (x >>= k) := by
  intro s t hst made hmade
  obtain ⟨a, ha, hmade⟩ := outcome_bind_eq_ok.mp hmade
  obtain ⟨b, hb, hlook, hseen⟩ := hx s t hst a ha
  obtain ⟨result, hresult, hlook', hseen'⟩ := hk a b hlook _ _ hseen made hmade
  refine ⟨result, outcome_bind_eq_ok.mpr ⟨b, hb, hresult⟩, hlook', ?_⟩
  rw [after_bind, after_bind, ha, hb]
  exact hseen'

end Compilation.Follows

open Compilation (Follows)

namespace Factory

variable {f : Factory σ N}

/-! ## Factories that respect views -/

/-- **The registered functions respect two views**, one of the host and one of components. -/
structure Respects (f : Factory σ N) (seen : σ → δ) (look : Component σ N → γ) : Prop where
  single : ∀ {type factory}, f.singles.get? type = some factory →
    ∀ metadata s t, seen t = seen s →
      look ((factory metadata).run t).1 = look ((factory metadata).run s).1 ∧
        seen ((factory metadata).run t).2 = seen ((factory metadata).run s).2
  wrapper : ∀ {type factory}, f.wrappers.get? type = some factory →
    ∀ child child' metadata s t, look child' = look child → seen t = seen s →
      look ((factory child' metadata).run t).1 = look ((factory child metadata).run s).1 ∧
        seen ((factory child' metadata).run t).2 = seen ((factory child metadata).run s).2
  cluster : ∀ {type factory}, f.clusters.get? type = some factory →
    ∀ children children' metadata s t, children'.map look = children.map look → seen t = seen s →
      look ((factory children' metadata).run t).1 = look ((factory children metadata).run s).1 ∧
        seen ((factory children' metadata).run t).2 = seen ((factory children metadata).run s).2
  gated : ∀ rule component component', look component' = look component →
    look (.gated rule component') = look (.gated rule component)

/-- What a registered function makes depends on what it is given, and not on the state of the
host. -/
structure Functional (f : Factory σ N) : Prop where
  single : ∀ {type factory}, f.singles.get? type = some factory →
    ∀ metadata, ∃ made, ∀ s, ((factory metadata).run s).1 = made
  wrapper : ∀ {type factory}, f.wrappers.get? type = some factory →
    ∀ child metadata, ∃ made, ∀ s, ((factory child metadata).run s).1 = made
  cluster : ∀ {type factory}, f.clusters.get? type = some factory →
    ∀ children metadata, ∃ made, ∀ s, ((factory children metadata).run s).1 = made

/-- Nobody sees a difference who sees nothing. -/
theorem respects_nothing (f : Factory σ N) : f.Respects (fun _ => ()) fun _ => () where
  single _ _ _ _ _ := ⟨rfl, rfl⟩
  wrapper _ _ _ _ _ _ _ _ := ⟨rfl, rfl⟩
  cluster _ _ _ _ _ _ _ _ := ⟨rfl, rfl⟩
  gated _ _ _ _ := rfl

/-- Where there is no difference, none is made. -/
theorem respects_everything (f : Factory σ N) : f.Respects id id where
  single := by
    rintro type factory - metadata s t rfl
    exact ⟨rfl, rfl⟩
  wrapper := by
    rintro type factory - child child' metadata s t rfl rfl
    exact ⟨rfl, rfl⟩
  cluster := by
    rintro type factory - children children' metadata s t hchildren rfl
    rw [List.map_id, List.map_id] at hchildren
    rw [hchildren]
    exact ⟨rfl, rfl⟩
  gated := by
    rintro rule component component' rfl
    rfl

theorem Functional.respects (hf : f.Functional) : f.Respects (fun _ => ()) id where
  single := by
    intro type factory h metadata s t _
    obtain ⟨made, hmade⟩ := hf.single h metadata
    exact ⟨(hmade t).trans (hmade s).symm, rfl⟩
  wrapper := by
    rintro type factory h child child' metadata s t rfl -
    obtain ⟨made, hmade⟩ := hf.wrapper h child' metadata
    exact ⟨(hmade t).trans (hmade s).symm, rfl⟩
  cluster := by
    intro type factory h children children' metadata s t hchildren _
    rw [List.map_id, List.map_id] at hchildren
    obtain ⟨made, hmade⟩ := hf.cluster h children metadata
    rw [hchildren]
    exact ⟨(hmade t).trans (hmade s).symm, rfl⟩
  gated := by
    rintro rule component component' rfl
    rfl

/-- Of what a faithful factory makes, only the builders can depend on the state of the host. -/
theorem Faithful.respects (hf : f.Faithful) : f.Respects (fun _ => ()) Component.frame where
  single := by
    intro type factory h metadata s t _
    obtain ⟨builder, hmade⟩ := hf.single h metadata s
    obtain ⟨builder', hmade'⟩ := hf.single h metadata t
    rw [hmade, hmade']
    exact ⟨rfl, rfl⟩
  wrapper := by
    intro type factory h child child' metadata s t hchild _
    obtain ⟨builder, hmade⟩ := hf.wrapper h child metadata s
    obtain ⟨builder', hmade'⟩ := hf.wrapper h child' metadata t
    rw [hmade, hmade', Component.frame, Component.frame, hchild]
    exact ⟨rfl, rfl⟩
  cluster := by
    intro type factory h children children' metadata s t hchildren _
    obtain ⟨builder, hmade⟩ := hf.cluster h children metadata s
    obtain ⟨builder', hmade'⟩ := hf.cluster h children' metadata t
    rw [hmade, hmade', Component.frame, Component.frame, Component.frameAll_eq_map,
      Component.frameAll_eq_map, hchildren]
    exact ⟨rfl, rfl⟩
  gated := by
    intro rule component component' hcomponent
    rw [Component.frame, Component.frame, hcomponent]

/-! ## One node after another -/

variable {seen : σ → δ} {look : Component σ N → γ}

theorem Respects.resolve (hf : f.Respects seen look) (type : String)
    {children children' : List (Component σ N)} (hchildren : children'.map look = children.map look)
    (metadata : Option (Metadata σ)) (s t : σ) (hst : seen t = seen s) :
    ((f.resolve type children' metadata).result t).map look =
        ((f.resolve type children metadata).result s).map look ∧
      seen ((f.resolve type children' metadata).after t) =
        seen ((f.resolve type children metadata).after s) := by
  unfold Factory.resolve
  cases hsingle : f.singles.get? type with
  | some factory =>
    obtain ⟨hmade, hseen⟩ := hf.single hsingle metadata s t hst
    exact ⟨congrArg some hmade, hseen⟩
  | none =>
    cases hwrapper : f.wrappers.get? type with
    | some factory =>
      rcases children with _ | ⟨child, more⟩ <;> rcases children' with _ | ⟨child', more'⟩
      · exact ⟨rfl, hst⟩
      · exact absurd hchildren (by simp)
      · exact absurd hchildren (by simp)
      · obtain ⟨hchild, -⟩ := List.cons.inj hchildren
        obtain ⟨hmade, hseen⟩ := hf.wrapper hwrapper child child' metadata s t hchild hst
        -- How many more children there are is told, and makes no other difference.
        cases more <;> cases more' <;> exact ⟨congrArg some hmade, hseen⟩
    | none =>
      cases hcluster : f.clusters.get? type with
      | some factory =>
        obtain ⟨hmade, hseen⟩ :=
          hf.cluster hcluster children children' metadata s t hchildren hst
        exact ⟨congrArg some hmade, hseen⟩
      | none => exact ⟨rfl, hst⟩

/-- A rule is put in front of components that look the same, and they still do. -/
theorem look_behindRule (f : Factory σ N)
    (hgated : ∀ rule component component', look component' = look component →
      look (.gated rule component') = look (.gated rule component))
    (spec : Option Json) {component component' : Component σ N}
    (h : look component' = look component) :
    look (f.behindRule spec component') = look (f.behindRule spec component) := by
  unfold Factory.behindRule
  cases spec.bind fun spec => (f.parseRule spec).value with
  | none => exact h
  | some rule => exact hgated rule component component' h

/-- **A node follows another one** of the same type and with the same rule when its entries follow,
and when what the type makes of them and of the metadata does. -/
theorem compileNode_follows_of_resolve
    (hgated : ∀ rule component component', look component' = look component →
      look (.gated rule component') = look (.gated rule component))
    {source source' : Json} {entries entries' : List Node}
    (htype : Node.typeOf? source' = Node.typeOf? source)
    (hrule : Node.ruleOf? source' = Node.ruleOf? source)
    (hentries : Follows seen (List.map look) (f.compileEntries entries')
      (f.compileEntries entries))
    (hresolve : ∀ type children children', List.map look children' = List.map look children →
      Follows seen (Option.map look)
        (liftM (f.resolve type children' (Node.metadataOf? source')) : Compilation σ _)
        (liftM (f.resolve type children (Node.metadataOf? source)))) :
    Follows seen (Option.map look) (f.compileNode ⟨source', entries'⟩)
      (f.compileNode ⟨source, entries⟩) := by
  rw [compileNode, compileNode, htype, hrule]
  cases Node.typeOf? source with
  | none => exact .throw _
  | some type =>
    refine Follows.bind (.logged rfl : Follows seen id _ _) fun _ _ _ => ?_
    refine hentries.bind fun children children' hchildren => ?_
    refine (hresolve type children children' hchildren).bind fun c? d? hcd => ?_
    cases c? with
    | none =>
      cases d? with
      | none => exact .pure rfl
      | some d => exact absurd hcd (by simp)
    | some c =>
      cases d? with
      | none => exact absurd hcd (by simp)
      | some d =>
        have hgate : Follows seen look
            (liftM (f.gate type (Node.ruleOf? source) d) : Compilation σ _)
            (liftM (f.gate type (Node.ruleOf? source) c)) := by
          refine .logged ?_
          rw [value_gate, value_gate]
          exact f.look_behindRule hgated _ (Option.some.inj hcd)
        exact hgate.bind fun c d hcd => .pure (congrArg some hcd)

/-- **A node follows another one** that says the same of itself when its entries follow. -/
theorem compileNode_follows (hf : f.Respects seen look) {source source' : Json}
    {entries entries' : List Node} (htype : Node.typeOf? source' = Node.typeOf? source)
    (hmetadata : (Node.metadataOf? source' : Option (Metadata σ)) = Node.metadataOf? source)
    (hrule : Node.ruleOf? source' = Node.ruleOf? source)
    (hentries : Follows seen (List.map look) (f.compileEntries entries')
      (f.compileEntries entries)) :
    Follows seen (Option.map look) (f.compileNode ⟨source', entries'⟩)
      (f.compileNode ⟨source, entries⟩) := by
  refine compileNode_follows_of_resolve hf.gated htype hrule hentries ?_
  intro type children children' hchildren
  rw [hmetadata]
  exact .action (hf.resolve type hchildren _)

end Factory

end ViewTree
