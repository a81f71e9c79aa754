import ViewTree.Proofs.Component.Aspect
import ViewTree.Proofs.Render.Meaning
import ViewTree.Proofs.View.Outline

/-!
# Outlines of rendered views

What a host sees of a rendered view when it prints it. A view in general may have any text as a
kind, and then its outline says nothing for sure: a kind may contain a line break and go on like a
line. The views that the standard types make are **plain**, so their outlines can be relied on.

That they are plain does not depend on what is rendered. A builder takes its kind and the keys of
its properties from the program, never from a document, and what it takes from metadata becomes a
title or a value. So the property goes through the builders one by one, whatever the metadata says
and does, whatever state the host is in, and whichever of the children rules leave
(`showsPlain_component?`).
-/

set_option autoImplicit false

namespace ViewTree

variable {σ α β : Type}

/-! ## What an action can yield -/

/-- Whatever the state of the host, the result has a property. -/
def Action.Yields (x : Action σ α) (P : α → Prop) : Prop := ∀ s, P (x.result s)

namespace Action.Yields

variable {x : Action σ α} {k : α → Action σ β} {P : β → Prop} {Q : α → Prop}

theorem pure {b : β} (h : P b) : Yields (Pure.pure b : Action σ β) P := fun _ => h

theorem bind (hx : x.Yields Q) (hk : ∀ a, Q a → (k a).Yields P) : (x >>= k).Yields P := fun s =>
  hk (x.result s) (hx s) (x.after s)

theorem bind_any (hk : ∀ a, (k a).Yields P) : (x >>= k).Yields P := fun s =>
  hk (x.result s) (x.after s)

end Action.Yields

/-! ## Plain views -/

namespace View

theorem plain_ofKind {kind : String} (h : Text.isWord kind = true) : (ofKind kind).Plain :=
  .widget h (fun _ he => absurd he List.not_mem_nil) fun _ hc => absurd hc List.not_mem_nil

variable {v : View}

theorem Plain.withTitle (h : v.Plain) (title : String) : (v.withTitle title).Plain :=
  .widget h.kind h.keys h.inside

theorem Plain.withProperty (h : v.Plain) {key : String} (hkey : Text.isWord key = true)
    (value : Json) : (v.withProperty key value).Plain := by
  refine .widget h.kind ?_ h.inside
  intro entry hentry
  rcases Dictionary.mem_insertEntry hentry with rfl | hentry
  · exact hkey
  · exact h.keys entry hentry

theorem Plain.withChildren (h : v.Plain) {children : List View}
    (hchildren : ∀ c ∈ children, c.Plain) : (v.withChildren children).Plain :=
  .widget h.kind h.keys hchildren

end View

/-! ## The builders -/

/-- Whatever an action shows is plain. -/
def Action.ShowsPlain (x : Action σ (Option View)) : Prop :=
  x.Yields fun view? => ∀ v ∈ view?, v.Plain

theorem Action.showsPlain_none : ShowsPlain (Pure.pure none : Action σ (Option View)) :=
  .pure fun v hv => absurd hv (by simp)

theorem Action.showsPlain_some {v : View} (h : v.Plain) :
    ShowsPlain (Pure.pure (some v) : Action σ (Option View)) :=
  .pure fun _ hv => Option.some.inj hv ▸ h

/-- Whatever a component is realized to is plain. -/
def Component.ShowsPlain (c : Component σ View) : Prop := c.realize.ShowsPlain

/-- What a builder is given of a component realizes to what the component does. -/
theorem Component.ShowsPlain.offer {c : Component σ View} (h : c.ShowsPlain) :
    c.offer.realize.Yields fun view? => ∀ v ∈ view?, v.Plain := h

open ViewTree.Action (showsPlain_none showsPlain_some)

namespace Widget

variable (metadata : Option (Metadata σ))

theorem buildLabel_showsPlain : (buildLabel metadata).ShowsPlain := by
  cases metadata with
  | none => exact showsPlain_none
  | some m =>
    refine .bind_any fun text? => ?_
    cases text? with
    | none => exact showsPlain_none
    | some text =>
      exact showsPlain_some ((View.plain_ofKind (by decide)).withProperty (by decide) _)

theorem buildTile_showsPlain : (buildTile metadata).ShowsPlain := by
  cases metadata with
  | none => exact showsPlain_none
  | some m =>
    refine .bind_any fun text? => ?_
    cases text? with
    | none => exact showsPlain_none
    | some text =>
      have htile := (View.plain_ofKind (by decide : Text.isWord "tile" = true)).withProperty
        (by decide : Text.isWord "text" = true) (.str text)
      refine .bind_any fun color? => ?_
      cases color? with
      | none => exact showsPlain_some htile
      | some color => exact showsPlain_some (htile.withProperty (by decide) _)

theorem buildButton_showsPlain : (buildButton metadata).ShowsPlain := by
  cases metadata with
  | none => exact showsPlain_none
  | some m =>
    refine .bind_any fun title? => ?_
    cases title? with
    | none => exact showsPlain_none
    | some title => exact showsPlain_some ((View.plain_ofKind (by decide)).withTitle title)

end Widget

namespace Layout

theorem plain_stackFrame (config : StackConfig) : (stackFrame config).Plain := by
  have hframe := (((View.plain_ofKind (by decide : Text.isWord "stack" = true)).withProperty
    (by decide : Text.isWord "spacing" = true) (.ofExtended config.spacing)).withProperty
    (by decide : Text.isWord "orientation" = true) (.str config.orientation.name)).withProperty
    (by decide : Text.isWord "preserve_parent_width" = true) (.bool config.preserveParentWidth)
  have hframe := hframe.withProperty (by decide : Text.isWord "background_color" = true)
    (.str config.backgroundColor)
  unfold stackFrame
  cases config.title with
  | none => exact hframe
  | some title => exact hframe.withTitle title

theorem plain_asTab {v : View} (h : v.Plain) (config : TabConfig) : (asTab v config).Plain :=
  (h.withTitle config.title).withProperty (by decide) (.str config.iconName)

theorem plain_tabBarFrame (config : Option TabBarConfig) {tabs : List View}
    (h : ∀ tab ∈ tabs, tab.Plain) : (tabBarFrame config tabs).Plain := by
  have hbar := View.plain_ofKind (by decide : Text.isWord "tabbar" = true)
  unfold tabBarFrame
  cases config with
  | none => exact hbar.withChildren h
  | some config =>
    by_cases hlt : config.selectedIndex.toNat < tabs.length
    · simp only [if_pos hlt]
      exact (hbar.withProperty (by decide) _).withChildren h
    · simp only [if_neg hlt]
      exact hbar.withChildren h

theorem buildTab_showsPlain {c : Component σ View} (h : c.ShowsPlain) :
    (buildTab c.offer).ShowsPlain := by
  refine .bind h.offer fun view? hview => ?_
  cases view? with
  | none => exact showsPlain_none
  | some view =>
    refine .bind_any fun config? => ?_
    cases config? with
    | none => exact .bind_any fun _ => showsPlain_none
    | some config => exact showsPlain_some (plain_asTab (hview view rfl) config)

theorem buildScroll_showsPlain {c : Component σ View} (h : c.ShowsPlain)
    (metadata : Option (Metadata σ)) : (buildScroll c.offer metadata).ShowsPlain := by
  have hframe := View.plain_ofKind (by decide : Text.isWord "scroll" = true)
  refine .bind_any fun title? => ?_
  refine .bind h.offer fun view? hview => showsPlain_some ?_
  have hinside : ∀ v ∈ view?.toList, v.Plain := fun v hv => hview v (Option.mem_toList.mp hv)
  cases title? with
  | none => exact hframe.withChildren hinside
  | some title => exact (hframe.withTitle title).withChildren hinside

variable {children : List (Component σ View)} (h : ∀ c ∈ children, c.ShowsPlain)

include h

theorem realizeAll_plain : (Child.realizeAll (Component.offerAll children)).Yields
    fun views => ∀ v ∈ views, v.Plain := by
  induction children with
  | nil => exact .pure fun v hv => absurd hv List.not_mem_nil
  | cons c rest ih =>
    rw [Component.offerAll, Child.realizeAll]
    refine .bind (h c List.mem_cons_self).offer fun view? hview => ?_
    refine .bind (ih fun c hc => h c (List.mem_cons_of_mem _ hc)) fun views hviews => .pure ?_
    intro v hv
    rcases List.mem_append.mp hv with hv | hv
    · exact hview v (Option.mem_toList.mp hv)
    · exact hviews v hv

theorem buildTabs_plain : (buildTabs (Component.offerAll children)).Yields
    fun tabs => ∀ v ∈ tabs, v.Plain := by
  induction children with
  | nil => exact .pure fun v hv => absurd hv List.not_mem_nil
  | cons c rest ih =>
    rw [Component.offerAll, buildTabs]
    refine .bind (buildTab_showsPlain (h c List.mem_cons_self)) fun tab? htab => ?_
    refine .bind (ih fun c hc => h c (List.mem_cons_of_mem _ hc)) fun tabs htabs => .pure ?_
    intro v hv
    rcases List.mem_append.mp hv with hv | hv
    · exact htab v (Option.mem_toList.mp hv)
    · exact htabs v hv

variable (metadata : Option (Metadata σ))

theorem buildStack_showsPlain :
    (buildStack (Component.offerAll children) metadata).ShowsPlain := by
  refine .bind_any fun config? => .bind (realizeAll_plain h) fun views hviews => ?_
  exact showsPlain_some ((plain_stackFrame _).withChildren hviews)

theorem buildTabBar_showsPlain :
    (buildTabBar (Component.offerAll children) metadata).ShowsPlain := by
  refine .bind (buildTabs_plain h) fun tabs htabs => .bind_any fun config? => ?_
  exact showsPlain_some (plain_tabBarFrame config? htabs)

end Layout

namespace Component

theorem ShowsPlain.gated (rule : Rule (Effect σ Bool)) {c : Component σ View} (h : c.ShowsPlain) :
    ShowsPlain (.gated rule c) := by
  unfold ShowsPlain realize
  refine .bind_any fun holds => ?_
  cases holds with
  | false => exact showsPlain_none
  | true => exact h

/-- **What a standard type makes shows plain views**, where its children do, whatever it reads. -/
theorem showsPlain_component? {children : List (Component σ View)}
    (h : ∀ c ∈ children, c.ShowsPlain) {k : Standard} {metadata : Option (Metadata σ)}
    {c : Component σ View} (hc : k.component? children metadata = some c) : c.ShowsPlain := by
  cases k with
  | stack =>
    obtain rfl := Option.some.inj hc
    exact Layout.buildStack_showsPlain h metadata
  | tabBar =>
    obtain rfl := Option.some.inj hc
    exact Layout.buildTabBar_showsPlain h metadata
  | scroll =>
    cases children with
    | nil => exact absurd hc (by simp [Standard.component?])
    | cons child rest =>
      obtain rfl := Option.some.inj hc
      exact Layout.buildScroll_showsPlain (h child List.mem_cons_self) metadata
  | label =>
    obtain rfl := Option.some.inj hc
    exact Widget.buildLabel_showsPlain metadata
  | tile =>
    obtain rfl := Option.some.inj hc
    exact Widget.buildTile_showsPlain metadata
  | button =>
    obtain rfl := Option.some.inj hc
    exact Widget.buildButton_showsPlain metadata

end Component

/-! ## Documents -/

namespace Factory

variable (rules : Dictionary (Effect σ Bool))

theorem showsPlain_behindRule (f : Factory σ View) (spec : Option Json) {c : Component σ View}
    (h : c.ShowsPlain) : (f.behindRule spec c).ShowsPlain := by
  unfold behindRule
  cases spec.bind fun spec => (f.parseRule spec).value with
  | none => exact h
  | some rule => exact h.gated rule

/-- A component compiled with the standard types shows plain views only. -/
theorem showsPlain_compileNode {n : Node} {s : σ} {c : Component σ View}
    (h : ((standard.withRules rules).compileNode n).outcome s = .ok (some c)) : c.ShowsPlain := by
  refine (compile_induction (Q := fun _ c => c.ShowsPlain) (standard_faithful.withRules rules) ?_
    n s _ h).2 c rfl
  intro source entries type children s bare _ hentries hbare
  refine showsPlain_behindRule _ _ ?_
  rw [resolve_withRules, (resolve_standard_gives type children _ s).1] at hbare
  obtain ⟨k, -, hk⟩ := Option.bind_eq_some_iff.mp hbare
  exact Component.showsPlain_component? (forall_mem_right hentries) hk

/-- **Whatever is rendered with the standard types is plain.** -/
theorem plain_of_render {document : Json} {s : σ} {v : View}
    (h : ((standard.withRules rules).render document).outcome s = .ok (some v)) : v.Plain := by
  rw [render] at h
  obtain ⟨component?, hcompile, hrealize⟩ := Compilation.outcome_bind_eq_ok.mp h
  cases component? with
  | none => exact absurd (Except.ok.inj hrealize) (by simp)
  | some c =>
    rw [Compilation.outcome_action] at hrealize
    rw [compile] at hcompile
    cases hroot : document.field? structureKey with
    | none =>
      rw [hroot] at hcompile
      exact absurd hcompile (by simp)
    | some root =>
      rw [hroot] at hcompile
      exact showsPlain_compileNode rules hcompile _ v (Except.ok.inj hrealize)

end Factory

/-! ## The outline -/

namespace View

/-- **The outline is a faithful picture of a plain view**, as all are that the standard types make.
It has exactly one line for each widget, in the order of the places, with two spaces for each step
of the place. A line alone says at which level its widget is and what it says of itself, and all
lines together say which view it is, whatever stands in titles and values. How numbers are spelled
does not matter, as long as no two are spelled alike. -/
theorem outline_is_faithful (num : Number → List Char) (hnum : Json.NumberText num) (v : View)
    (hv : v.Plain) :
    (∃ lines : List String,
      v.outlineWith (Json.textWith num) = String.join (lines.map (· ++ "\n")) ∧
      lines.length = v.count ∧
      List.Forall₂ (fun line p => ∃ w, follow View.children v p = some w ∧
        LineOf (Json.textWith num) w p.length line) lines v.places) ∧
    v.places.Pairwise (· < ·) ∧
    (∀ p, p ∈ v.places ↔ ∃ w, follow View.children v p = some w) ∧
    (∀ w w' : View, w.Plain → w'.Plain → ∀ level level' line,
      LineOf (Json.textWith num) w level line → LineOf (Json.textWith num) w' level' line →
      level = level' ∧ w.kind = w'.kind ∧ w.title = w'.title ∧ w.properties = w'.properties) ∧
    (∀ w : View, w.Plain →
      v.outlineWith (Json.textWith num) = w.outlineWith (Json.textWith num) → v = w) ∧
    ∀ (rules : Dictionary (Effect σ Bool)) (document : Json) (s : σ) (rendered : View),
      ((Factory.standard.withRules rules).render document).outcome s = .ok (some rendered) →
      rendered.Plain := by
  have hwrite := Json.inline_textWith hnum
  refine ⟨?_, v.pairwise_places, fun p => mem_places, ?_, ?_, ?_⟩
  · obtain ⟨lines, hjoined, heach⟩ := outline_lines hwrite hv
    exact ⟨lines, hjoined, heach.length_eq.trans v.length_places, heach⟩
  · intro w w' hw hw' level level' line hline hline'
    exact hline.inj hwrite hw hw' hline'
  · intro w hw h
    exact outlineWith_inj hwrite hv hw h
  · intro rules document s rendered h
    exact Factory.plain_of_render rules h

/-- A title that looks like the rest of a line and the next one, and a value that looks like the end
of the properties. -/
def pretender : View :=
  ((ofKind "stack").withTitle "a\" \x7bb=1\x7d\n  label \"c").withProperty "text"
    (.str "d\", color=\"e\"\x7d\n  tile")

/-- A stack with a property around a label, as the title of the pretender has it. -/
def pretended : View :=
  (((ofKind "stack").withTitle "a").withProperty "b" (.ofUInt64 1)).withChildren
    [(ofKind "label").withTitle "c"]

theorem outline_is_faithful_pretender :
    let document : Json := .obj [("structure", .obj [("type", .str "label"),
      ("meta", .obj [("text", .str "\n  tile")])])]
    pretender.Plain ∧ pretended.Plain ∧
    Json.NumberText Json.numberChars ∧
    (∃ line, pretender.outline = line ++ "\n" ∧ LineOf Json.text pretender 0 line ∧
      ¬ LineOf Json.text pretended 0 line) ∧
    pretender.outline ≠ pretended.outline ∧
    ∃ rendered, ((Factory.standard.withRules .empty).render document).outcome () =
      .ok (some rendered) ∧ rendered.Plain := by
  intro document
  have hkind : Text.isWord "stack" = true := by decide
  have hplain : pretender.Plain := ((plain_ofKind hkind).withTitle _).withProperty (by decide) _
  have hplain' : pretended.Plain := by
    refine (((plain_ofKind hkind).withTitle _).withProperty (by decide) _).withChildren ?_
    intro c hc
    rw [List.mem_singleton.mp hc]
    exact (plain_ofKind (by decide)).withTitle _
  have htitle : pretender.title ≠ pretended.title := by decide
  obtain ⟨⟨lines, hjoined, -, heach⟩, -, -, hline, houtline, hrendered⟩ :=
    outline_is_faithful Json.numberChars Json.numberText_numberChars pretender hplain
  refine ⟨hplain, hplain', Json.numberText_numberChars, ?_, ?_, _, rfl,
    hrendered .empty document () _ rfl⟩
  · cases heach with
    | cons hfirst hrest =>
      cases hrest
      obtain ⟨w, hw, hfirst⟩ := hfirst
      obtain rfl := Option.some.inj hw
      refine ⟨_, hjoined, hfirst, fun hfirst' => htitle ?_⟩
      exact (hline _ _ hplain hplain' 0 0 _ hfirst hfirst').2.2.1
  · exact fun h => htitle (congrArg View.title (houtline pretended hplain' h))

end View

end ViewTree
