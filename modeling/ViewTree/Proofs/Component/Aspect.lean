import ViewTree.Proofs.Compile.Follow
import ViewTree.Proofs.Metadata.Merging
import ViewTree.Proofs.Render.Standard

/-!
# What is seen of a component

The standard components are told apart by whoever is above them in two ways only: by what they
realize to, and, under a tab bar, by the tab that their metadata configures. These two make up the
**aspect** of a component. Everything else about it, its kind, its metadata and its children, is out
of sight.

So the aspect is what a replacement has to keep. A standard component made of children with the same
aspects, and of metadata that is read alike, has the same aspect (`component?_congr`); a gate keeps
it (`aspect_gated`). Both are equalities of programs: not only the view is the same, but whatever
the host is asked for on the way, and what is told.
-/

set_option autoImplicit false

namespace ViewTree

variable {σ : Type}

namespace Component

/-- **What is seen of a component from above**: what it realizes to, and the tab that its metadata
configures. -/
def aspect (c : Component σ View) : Action σ (Option View) × Effect σ (Option TabConfig) :=
  (c.realize, materialize TabConfig c.metadata)

theorem realize_eq_of_aspect {c c' : Component σ View} (h : c'.aspect = c.aspect) :
    c'.realize = c.realize := congrArg Prod.fst h

theorem tab_eq_of_aspect {c c' : Component σ View} (h : c'.aspect = c.aspect) :
    materialize TabConfig c'.metadata = materialize TabConfig c.metadata := congrArg Prod.snd h

theorem aspect_gated (rule : Rule (Effect σ Bool)) {c c' : Component σ View}
    (h : c'.aspect = c.aspect) : aspect (.gated rule c') = aspect (.gated rule c) := by
  have hrealize : realize (.gated rule c') = realize (.gated rule c) := by
    rw [realize, realize, realize_eq_of_aspect h]
  have htab : materialize TabConfig (metadata (.gated rule c')) =
      materialize TabConfig (metadata (.gated rule c)) := by
    rw [metadata, metadata]
    exact tab_eq_of_aspect h
  exact Prod.ext hrealize htab

/-! ## Children with the same aspects -/

theorem realizeAll_congr {children children' : List (Component σ View)}
    (h : children'.map aspect = children.map aspect) :
    Child.realizeAll (offerAll children') = Child.realizeAll (offerAll children) := by
  induction children generalizing children' with
  | nil =>
    rw [List.map_nil, List.map_eq_nil_iff] at h
    rw [h]
  | cons c rest ih =>
    cases children' with
    | nil => exact absurd h (by simp)
    | cons c' rest' =>
      obtain ⟨hc, hrest⟩ := List.cons.inj h
      rw [offerAll, offerAll, Child.realizeAll, Child.realizeAll, realize_eq_of_aspect hc, ih hrest]

theorem buildTab_congr {c c' : Component σ View} (h : c'.aspect = c.aspect) :
    Layout.buildTab c'.offer = Layout.buildTab c.offer := by
  unfold Layout.buildTab offer
  simp only [realize_eq_of_aspect h, tab_eq_of_aspect h]

theorem buildTabs_congr {children children' : List (Component σ View)}
    (h : children'.map aspect = children.map aspect) :
    Layout.buildTabs (offerAll children') = Layout.buildTabs (offerAll children) := by
  induction children generalizing children' with
  | nil =>
    rw [List.map_nil, List.map_eq_nil_iff] at h
    rw [h]
  | cons c rest ih =>
    cases children' with
    | nil => exact absurd h (by simp)
    | cons c' rest' =>
      obtain ⟨hc, hrest⟩ := List.cons.inj h
      have htab := buildTab_congr hc
      unfold offer at htab
      rw [offerAll, offerAll, Layout.buildTabs, Layout.buildTabs, htab, ih hrest]

/-! ## Metadata that is read alike -/

section

variable {m m' : Option (Metadata σ)} (h : Option.Rel Metadata.Alike m m')

include h

theorem materialize_stack_congr : materialize StackConfig m = materialize StackConfig m' := by
  cases h with
  | none => rfl
  | some h => exact h.materialize_stack

theorem materialize_tab_congr : materialize TabConfig m = materialize TabConfig m' := by
  cases h with
  | none => rfl
  | some h => exact h.materialize_tab

theorem materialize_tabBar_congr : materialize TabBarConfig m = materialize TabBarConfig m' := by
  cases h with
  | none => rfl
  | some h => exact h.materialize_tabBar

theorem titleOf_congr : Layout.titleOf m = Layout.titleOf m' := by
  cases h with
  | none => rfl
  | some h => exact h.getStr "title"

theorem buildLabel_congr : Widget.buildLabel m = Widget.buildLabel m' := by
  cases h with
  | none => rfl
  | some h => simp only [Widget.buildLabel, h.getStr]

theorem buildTile_congr : Widget.buildTile m = Widget.buildTile m' := by
  cases h with
  | none => rfl
  | some h => simp only [Widget.buildTile, h.getStr]

theorem buildButton_congr : Widget.buildButton m = Widget.buildButton m' := by
  cases h with
  | none => rfl
  | some h => simp only [Widget.buildButton, h.getStr]

/-- **A standard component shows nothing else of what it is made of** than the aspects of its
children and what is read of its metadata. -/
theorem component?_congr (k : Standard) {children children' : List (Component σ View)}
    (hchildren : children'.map aspect = children.map aspect) :
    (k.component? children' m').map aspect = (k.component? children m).map aspect := by
  have htab := materialize_tab_congr h
  cases k with
  | stack =>
    have hrealize : Layout.buildStack (offerAll children') m' =
        Layout.buildStack (offerAll children) m := by
      rw [Layout.buildStack, Layout.buildStack, materialize_stack_congr h,
        realizeAll_congr hchildren]
    exact congrArg some (Prod.ext hrealize htab.symm)
  | tabBar =>
    have hrealize : Layout.buildTabBar (offerAll children') m' =
        Layout.buildTabBar (offerAll children) m := by
      rw [Layout.buildTabBar, Layout.buildTabBar, materialize_tabBar_congr h,
        buildTabs_congr hchildren]
    exact congrArg some (Prod.ext hrealize htab.symm)
  | scroll =>
    cases children with
    | nil =>
      rw [List.map_nil, List.map_eq_nil_iff] at hchildren
      rw [hchildren]
      rfl
    | cons c rest =>
      cases children' with
      | nil => exact absurd hchildren (by simp)
      | cons c' rest' =>
        have hc := realize_eq_of_aspect (List.cons.inj hchildren).1
        have hrealize : Layout.buildScroll c'.offer m' = Layout.buildScroll c.offer m := by
          unfold Layout.buildScroll offer
          simp only [titleOf_congr h, hc]
        exact congrArg some (Prod.ext hrealize htab.symm)
  | label => exact congrArg some (Prod.ext (buildLabel_congr h).symm htab.symm)
  | tile => exact congrArg some (Prod.ext (buildTile_congr h).symm htab.symm)
  | button => exact congrArg some (Prod.ext (buildButton_congr h).symm htab.symm)

end

end Component

/-! ## The standard factory -/

namespace Factory

variable {N : Type}

/-- A factory with other evaluators. -/
def withRules (f : Factory σ N) (rules : Dictionary (Effect σ Bool)) : Factory σ N :=
  { f with rules := rules }

theorem resolve_withRules (f : Factory σ N) (rules : Dictionary (Effect σ Bool)) (type : String)
    (children : List (Component σ N)) (metadata : Option (Metadata σ)) :
    (f.withRules rules).resolve type children metadata = f.resolve type children metadata := rfl

theorem Faithful.withRules {f : Factory σ N} (h : f.Faithful)
    (rules : Dictionary (Effect σ Bool)) : (f.withRules rules).Faithful :=
  ⟨h.single, h.wrapper, h.cluster⟩

/-- **What a standard type makes follows**, where it is made of children with the same aspects and
of metadata that is read alike. -/
theorem resolve_follows (rules : Dictionary (Effect σ Bool)) (type : String)
    {children children' : List (Component σ View)}
    (hchildren : children'.map Component.aspect = children.map Component.aspect)
    {m m' : Option (Metadata σ)} (hm : Option.Rel Metadata.Alike m m') :
    Compilation.Follows id (Option.map Component.aspect)
      (liftM ((standard.withRules rules).resolve type children' m') : Compilation σ _)
      (liftM ((standard.withRules rules).resolve type children m)) := by
  refine .action fun s t hst => ?_
  obtain ⟨hmade, hafter⟩ := resolve_standard_gives type children m s
  obtain ⟨hmade', hafter'⟩ := resolve_standard_gives type children' m' t
  rw [resolve_withRules, resolve_withRules, hmade, hmade', hafter, hafter']
  refine ⟨?_, hst⟩
  cases Standard.ofTag? type with
  | none => rfl
  | some k => exact Component.component?_congr hm k hchildren

/-- **A node follows another one** over the standard types when it says the same of itself, but for
metadata that is read alike, and its entries follow. -/
theorem compileNode_follows_of_alike (rules : Dictionary (Effect σ Bool))
    {source source' : Json} {entries entries' : List Node}
    (htype : Node.typeOf? source' = Node.typeOf? source)
    (hmetadata : Option.Rel Metadata.Alike (Node.metadataOf? source : Option (Metadata σ))
      (Node.metadataOf? source'))
    (hrule : Node.ruleOf? source' = Node.ruleOf? source)
    (hentries : Compilation.Follows id (List.map Component.aspect)
      ((standard.withRules rules).compileEntries entries')
      ((standard.withRules rules).compileEntries entries)) :
    Compilation.Follows id (Option.map Component.aspect)
      ((standard.withRules rules).compileNode ⟨source', entries'⟩)
      ((standard.withRules rules).compileNode ⟨source, entries⟩) :=
  compileNode_follows_of_resolve (fun rule _ _ => Component.aspect_gated rule) htype hrule hentries
    fun type _ _ hchildren => resolve_follows rules type hchildren hmetadata

end Factory

end ViewTree
