import Mathlib.Data.List.Forall2
import ViewTree.Factory.Standard
import ViewTree.Proofs.Compile.Run

/-!
# What the standard components read and show

The metadata of a document is a dictionary, and looking something up in a dictionary neither asks
the host nor tells anything. So everything that the standard components read comes down to a
function of the dictionary, and what they show to a function of that and of what their children
show. This file has these functions, and the equations that say so.

`Standard.view` is the whole of it: **one node of a standard type, rendered**. It is given the
node's dictionary and, for each child, the child's dictionary and view. Nothing else can matter,
and this is where that is established; what a document is shown as is then a recursion over it.

An action that always gives the same and leaves the host as it was is said to **give** a value. It
may tell events: a tab bar tells of every child that is no tab.
-/

set_option autoImplicit false

namespace ViewTree

variable {σ α β N : Type}

/-! ## Actions that leave the host alone -/

namespace Action

/-- An action that gives a value in every state and does not change it. -/
def Gives (x : Action σ α) (a : α) : Prop := ∀ s, x.result s = a ∧ x.after s = s

theorem Gives.pure (a : α) : Gives (Pure.pure a : Action σ α) a := fun _ => ⟨rfl, rfl⟩

theorem Gives.logged (x : Logged α) : Gives (liftM x : Action σ α) x.value := fun _ => ⟨rfl, rfl⟩

theorem Gives.effect {x : Effect σ α} {a : α} (h : x = Pure.pure a) :
    Gives (liftM x : Action σ α) a := by
  subst h
  exact fun _ => ⟨rfl, rfl⟩

theorem Gives.bind {x : Action σ α} {k : α → Action σ β} {a : α} {b : β} (hx : Gives x a)
    (hk : Gives (k a) b) : Gives (x >>= k) b := by
  intro s
  obtain ⟨hresult, hafter⟩ := hx s
  rw [result_bind, after_bind, hresult, hafter]
  exact hk s

end Action

/-! ## Reading a dictionary -/

/-- The metadata of a node, which is always a dictionary. -/
def Node.settings? (source : Json) : Option (Dictionary Json) :=
  (source.field? metadataKey).bind Json.dictionary?

theorem Node.metadataOf?_eq (source : Json) :
    (Node.metadataOf? source : Option (Metadata σ)) = (Node.settings? source).map .map := by
  unfold metadataOf? settings?
  rw [Option.map_bind]
  rfl

namespace Dictionary

/-- The text under a key. -/
def text? (d : Dictionary Json) (key : String) : Option String := (d.get? key).bind Json.str?

/-- The truth value under a key. -/
def truth? (d : Dictionary Json) (key : String) : Option Bool := (d.get? key).bind Json.bool?

/-- The number under a key. -/
def number? (d : Dictionary Json) (key : String) : Option Number := (d.get? key).bind Json.num?

end Dictionary

namespace Metadata

theorem lookup_map (d : Dictionary Json) (key : String) :
    (Metadata.map d : Metadata σ).lookup key = pure ((d.get? key).bind Json.present?) := by
  rw [lookup]

/-- A conversion that has nothing for null finds the same with and without it. -/
theorem bind_present? {read : Json → Option α} (hnull : read .null = none) (value : Option Json) :
    (value.bind Json.present?).bind read = value.bind read := by
  cases value with
  | none => rfl
  | some j =>
    cases j with
    | null => exact hnull.symm
    | _ => rfl

theorem getStr_map (d : Dictionary Json) (key : String) :
    (Metadata.map d : Metadata σ).getStr key = pure (d.text? key) := by
  rw [getStr, lookup_map, pure_bind, bind_present? rfl, Dictionary.text?]

theorem getBool_map (d : Dictionary Json) (key : String) :
    (Metadata.map d : Metadata σ).getBool key = pure (d.truth? key) := by
  rw [getBool, lookup_map, pure_bind, bind_present? rfl, Dictionary.truth?]

theorem getDouble_map (d : Dictionary Json) (key : String) :
    (Metadata.map d : Metadata σ).getDouble key = pure ((d.number? key).map Number.toDouble) := by
  rw [getDouble, lookup_map, pure_bind, bind_present? rfl, Dictionary.number?]

theorem getUInt64_map (d : Dictionary Json) (key : String) :
    (Metadata.map d : Metadata σ).getUInt64 key =
      pure ((d.number? key).bind Number.toUInt64?) := by
  rw [getUInt64, lookup_map, pure_bind, bind_present? rfl, Dictionary.number?]

end Metadata

/-! ## Configurations -/

/-- The configuration of a stack in a dictionary. -/
def StackConfig.ofDictionary (d : Dictionary Json) : StackConfig where
  title := d.text? "title"
  spacing := (((d.number? "spacing").map Number.toDouble).map .finite).getD default.spacing
  orientation := ((d.text? "orientation").bind Orientation.ofName?).getD default.orientation
  preserveParentWidth := (d.truth? "preserve_parent_width").getD default.preserveParentWidth
  backgroundColor := (d.text? "background_color").getD default.backgroundColor

/-- The configuration of a tab in a dictionary. -/
def TabConfig.ofDictionary? (d : Dictionary Json) : Option TabConfig :=
  (d.text? "title").bind fun title => (d.text? "icon_name").map fun iconName => ⟨title, iconName⟩

/-- The configuration of a tab bar in a dictionary. -/
def TabBarConfig.ofDictionary? (d : Dictionary Json) : Option TabBarConfig :=
  ((d.number? "selected_index").bind Number.toUInt64?).map fun index => ⟨index⟩

theorem materialize_stack (d : Option (Dictionary Json)) :
    materialize StackConfig (d.map .map : Option (Metadata σ)) =
      pure (d.map StackConfig.ofDictionary) := by
  cases d with
  | none => rfl
  | some d =>
    show (StackConfig.ofMetadata (.map d) >>= fun config => pure (some config)) = _
    rw [StackConfig.ofMetadata]
    simp only [Metadata.getStr_map, Metadata.getDouble_map, Metadata.getBool_map, pure_bind]
    rfl

theorem materialize_tab (d : Option (Dictionary Json)) :
    materialize TabConfig (d.map .map : Option (Metadata σ)) =
      pure (d.bind TabConfig.ofDictionary?) := by
  cases d with
  | none => rfl
  | some d =>
    show TabConfig.ofMetadata (.map d) = _
    rw [TabConfig.ofMetadata]
    simp only [Metadata.getStr_map, pure_bind, Option.bind_some, TabConfig.ofDictionary?]
    cases d.text? "title" <;> rfl

theorem materialize_tabBar (d : Option (Dictionary Json)) :
    materialize TabBarConfig (d.map .map : Option (Metadata σ)) =
      pure (d.bind TabBarConfig.ofDictionary?) := by
  cases d with
  | none => rfl
  | some d =>
    show TabBarConfig.ofMetadata (.map d) = _
    rw [TabBarConfig.ofMetadata]
    simp only [Metadata.getUInt64_map, pure_bind, Option.bind_some, TabBarConfig.ofDictionary?]

/-! ## The standard types -/

/-- A type of the standard factory. -/
inductive Standard where
  | stack
  | tabBar
  | scroll
  | label
  | tile
  | button
deriving DecidableEq

namespace Standard

/-- The tag under which documents name a standard type. -/
def tag : Standard → String
  | .stack => "stack"
  | .tabBar => "tabbar"
  | .scroll => "scroll"
  | .label => "label"
  | .tile => "tile"
  | .button => "button"

/-- The standard type of a tag. -/
def ofTag? (type : String) : Option Standard :=
  if type = "stack" then some .stack
  else if type = "tabbar" then some .tabBar
  else if type = "scroll" then some .scroll
  else if type = "label" then some .label
  else if type = "tile" then some .tile
  else if type = "button" then some .button
  else none

theorem ofTag?_tag (k : Standard) : ofTag? k.tag = some k := by
  cases k <;> decide

theorem ofTag?_eq_some_iff {type : String} {k : Standard} :
    ofTag? type = some k ↔ type = k.tag := by
  constructor
  · intro h
    unfold ofTag? at h
    repeat' split at h
    all_goals first
      | (obtain rfl := Option.some.inj h; assumption)
      | exact absurd h (by simp)
  · rintro rfl
    exact ofTag?_tag k

theorem ne_of_ofTag?_eq_none {type : String} (h : ofTag? type = none) :
    type ≠ "stack" ∧ type ≠ "tabbar" ∧ type ≠ "scroll" ∧ type ≠ "label" ∧ type ≠ "tile" ∧
      type ≠ "button" := by
  have hne : ∀ k : Standard, type ≠ k.tag := fun k hk =>
    absurd (ofTag?_eq_some_iff.mpr hk) (by rw [h]; simp)
  exact ⟨hne .stack, hne .tabBar, hne .scroll, hne .label, hne .tile, hne .button⟩

/-- The standard type of a node. -/
def ofNode? (source : Json) : Option Standard := (Node.typeOf? source).bind ofTag?

/-- The kind of component that a standard type is. -/
def kind : Standard → Kind
  | .stack | .tabBar => .cluster
  | .scroll => .wrapper
  | .label | .tile | .button => .single

/-- The component of a standard type; a scrolling container needs a child. -/
def component? (children : List (Component σ View)) (metadata : Option (Metadata σ)) :
    Standard → Option (Component σ View)
  | .stack => some (Layout.stack children metadata)
  | .tabBar => some (Layout.tabBar children metadata)
  | .scroll => children.head?.map fun child => Layout.scroll child metadata
  | .label => some (Widget.label metadata)
  | .tile => some (Widget.tile metadata)
  | .button => some (Widget.button metadata)

/-! ## What they show -/

/-- The tab of a child, from the child's dictionary and view. -/
def tabOf (child : Option (Dictionary Json) × Option View) : Option View :=
  child.2.bind fun view => (child.1.bind TabConfig.ofDictionary?).map (Layout.asTab view)

/-- A scrolling container with what is inside. -/
def scrollFrame (title : Option String) (inside : List View) : View :=
  let view := View.ofKind "scroll"
  let view := match title with
    | some title => view.withTitle title
    | none => view
  view.withChildren inside

/-- A tile with its text and its colour, if it has one. -/
def tileFrame (text : String) (color : Option String) : View :=
  let view := (View.ofKind "tile").withProperty "text" (.str text)
  match color with
  | none => view
  | some color => view.withProperty "color" (.str color)

/-- **What a node of a standard type is shown as**, behind no rule: from its dictionary and, for
each child, the child's dictionary and view. -/
def view (d : Option (Dictionary Json)) (below : List (Option (Dictionary Json) × Option View)) :
    Standard → Option View
  | .stack => some
    ((Layout.stackFrame ((d.map StackConfig.ofDictionary).getD StackConfig.default)).withChildren
      (below.filterMap (·.2)))
  | .tabBar => some
    (Layout.tabBarFrame (d.bind TabBarConfig.ofDictionary?) (below.filterMap tabOf))
  | .scroll => below.head?.map fun child =>
    scrollFrame (d.bind (·.text? "title")) child.2.toList
  | .label => (d.bind (·.text? "text")).map fun text =>
    (View.ofKind "label").withProperty "text" (.str text)
  | .tile => (d.bind (·.text? "text")).map fun text => tileFrame text (d.bind (·.text? "color"))
  | .button => (d.bind (·.text? "title")).map fun title => (View.ofKind "button").withTitle title

end Standard

/-! ## Realizing is showing -/

namespace Component

/-- A component has a dictionary for metadata and always realizes to the same view, if any. -/
structure Shows (c : Component σ View) (d : Option (Dictionary Json)) (view? : Option View) :
    Prop where
  metadata : c.metadata = d.map .map
  realize : c.realize.Gives view?

theorem filterMap_cons_toList (f : α → Option β) (a : α) (rest : List α) :
    (a :: rest).filterMap f = (f a).toList ++ rest.filterMap f := by
  rw [List.filterMap_cons]
  cases f a <;> rfl

variable {children : List (Component σ View)}
variable {below : List (Option (Dictionary Json) × Option View)}

theorem realizeAll_gives (h : List.Forall₂ (fun e c => Shows c e.1 e.2) below children) :
    (Child.realizeAll (offerAll children)).Gives (below.filterMap (·.2)) := by
  induction h with
  | nil => exact .pure []
  | cons hshows _ ih =>
    rw [filterMap_cons_toList]
    exact hshows.realize.bind (ih.bind (.pure _))

theorem buildTab_gives {c : Component σ View} {e : Option (Dictionary Json) × Option View}
    (h : Shows c e.1 e.2) : (Layout.buildTab c.offer).Gives (Standard.tabOf e) := by
  obtain ⟨d, view?⟩ := e
  obtain ⟨hmetadata, hrealize⟩ := h
  refine Action.Gives.bind hrealize ?_
  cases view? with
  | none => exact .pure none
  | some view =>
    -- The configuration is read from the metadata of the child, also through a gate.
    have hconfig : materialize TabConfig c.metadata = pure (d.bind TabConfig.ofDictionary?) := by
      rw [hmetadata, materialize_tab]
    refine Action.Gives.bind (.effect hconfig) ?_
    cases hd : d.bind TabConfig.ofDictionary? with
    | none =>
      rw [Standard.tabOf, Option.bind_some, hd]
      exact Action.Gives.bind (.logged _) (.pure none)
    | some config =>
      rw [Standard.tabOf, Option.bind_some, hd]
      exact .pure _

theorem buildTabs_gives (h : List.Forall₂ (fun e c => Shows c e.1 e.2) below children) :
    (Layout.buildTabs (offerAll children)).Gives (below.filterMap Standard.tabOf) := by
  induction h with
  | nil => exact .pure []
  | cons hshows _ ih =>
    rw [filterMap_cons_toList]
    exact (buildTab_gives hshows).bind (ih.bind (.pure _))

theorem titleOf_eq (d : Option (Dictionary Json)) :
    Layout.titleOf (d.map .map : Option (Metadata σ)) = pure (d.bind (·.text? "title")) := by
  cases d with
  | none => rfl
  | some d => exact Metadata.getStr_map d "title"

/-- **A component of a standard type shows what its type shows**, given what its children show. -/
theorem shows_of_component? {k : Standard} {d : Option (Dictionary Json)} {c : Component σ View}
    (h : List.Forall₂ (fun e c => Shows c e.1 e.2) below children)
    (hc : k.component? children (d.map .map) = some c) : Shows c d (k.view d below) := by
  cases k with
  | stack =>
    obtain rfl := Option.some.inj hc
    refine ⟨rfl, ?_⟩
    exact Action.Gives.bind (.effect (materialize_stack d))
      (Action.Gives.bind (realizeAll_gives h) (.pure _))
  | tabBar =>
    obtain rfl := Option.some.inj hc
    refine ⟨rfl, ?_⟩
    exact Action.Gives.bind (buildTabs_gives h)
      (Action.Gives.bind (.effect (materialize_tabBar d)) (.pure _))
  | scroll =>
    cases h with
    | nil => exact absurd hc (by simp [Standard.component?])
    | cons hshows _ =>
      obtain rfl := Option.some.inj hc
      refine ⟨rfl, ?_⟩
      exact Action.Gives.bind (.effect (titleOf_eq d))
        (Action.Gives.bind hshows.realize (.pure _))
  | label =>
    obtain rfl := Option.some.inj hc
    refine ⟨rfl, ?_⟩
    cases d with
    | none => exact .pure none
    | some d =>
      refine Action.Gives.bind (.effect (Metadata.getStr_map d "text")) ?_
      rw [Standard.view, Option.bind_some]
      cases d.text? "text" <;> exact .pure _
  | tile =>
    obtain rfl := Option.some.inj hc
    refine ⟨rfl, ?_⟩
    cases d with
    | none => exact .pure none
    | some d =>
      refine Action.Gives.bind (.effect (Metadata.getStr_map d "text")) ?_
      rw [Standard.view, Option.bind_some, Option.bind_some]
      cases d.text? "text" with
      | none => exact .pure none
      | some text =>
        refine Action.Gives.bind (.effect (Metadata.getStr_map d "color")) ?_
        cases d.text? "color" <;> exact .pure _
  | button =>
    obtain rfl := Option.some.inj hc
    refine ⟨rfl, ?_⟩
    cases d with
    | none => exact .pure none
    | some d =>
      refine Action.Gives.bind (.effect (Metadata.getStr_map d "title")) ?_
      rw [Standard.view, Option.bind_some]
      cases d.text? "title" <;> exact .pure _

/-- Behind a rule that always says the same, a component shows what it shows or nothing. -/
theorem Shows.gated {c : Component σ View} {d : Option (Dictionary Json)} {view? : Option View}
    {rule : Rule (Effect σ Bool)} {holds : Bool} (h : Shows c d view?)
    (hrule : rule.evaluate = pure holds) :
    Shows (.gated rule c) d (if holds then view? else none) := by
  refine ⟨h.metadata, Action.Gives.bind (.effect hrule) ?_⟩
  cases holds with
  | false => exact .pure none
  | true => exact h.realize

end Component

end ViewTree
