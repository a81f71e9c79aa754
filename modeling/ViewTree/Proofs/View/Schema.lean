import ViewTree.Proofs.Render.Meaning
import ViewTree.Proofs.Render.Picture
import ViewTree.Proofs.Tree.Place

/-!
# The schema of views

Metadata can hold anything under any key. A view cannot: whatever a document says, a widget has the
properties of its kind and no others, each of the type that a reader may rely on. This file is that
promise. The schema is a table, `Standard.slot`, which says for a kind and a key whether a property
is there and of which type; what a widget has of a title and of children goes with it.

**A widget alone does not say what it may have.** A tab bar sets a title and an icon on the widgets
that it shows, so both depend on the node above, and the position that it selects depends on how
many of them there are. Hence the schema has two parameters besides the kind: whether the widget is
a tab, and the number of its children *in the view*, which is smaller than in the document when
some are hidden.

The argument goes by one widget at a time. `Standard.conforms_view` says that a builder makes what
the schema says of a widget that is no tab, `Conforms.asTab` that a tab bar turns this into what it
says of a tab, and `Obeys` follows along the document.
-/

set_option autoImplicit false

namespace ViewTree

variable {σ : Type}

/-! ## The table -/

/-- The types of property values. -/
inductive Shape where
  | text
  | truth
  | float
  /-- The name of an orientation. -/
  | axis
  /-- An unsigned integer below a number. -/
  | position (count : Nat)

/-- Whether a value is of a type. A float is finite, as any number in a JSON value. -/
def Shape.admits : Shape → Json → Bool
  | .text, .str _ => true
  | .truth, .bool _ => true
  | .float, .num (.float _) => true
  | .axis, .str raw => raw == "horizontal" || raw == "vertical"
  | .position count, .num (.integer n) => decide (0 ≤ n.value ∧ n.value < count)
  | _, _ => false

/-- What a widget has under a key. -/
inductive Slot where
  | absent
  | optional (shape : Shape)
  | required (shape : Shape)

/-- Whether a property, present or not, is what a widget has. -/
def Slot.admits : Slot → Option Json → Bool
  | .absent, value? => value?.isNone
  | .optional shape, value? => value?.all shape.admits
  | .required shape, value? => value?.any shape.admits

namespace Standard

/-- **The properties of each kind**, by the number of children in the view. -/
def ownSlot (count : Nat) (key : String) : Standard → Slot
  | .stack =>
    if key = "spacing" then .required .float
    else if key = "orientation" then .required .axis
    else if key = "preserve_parent_width" then .required .truth
    else if key = "background_color" then .required .text
    else .absent
  | .tabBar => if key = "selected_index" then .optional (.position count) else .absent
  | .label => if key = "text" then .required .text else .absent
  | .tile =>
    if key = "text" then .required .text
    else if key = "color" then .optional .text
    else .absent
  | .scroll | .button => .absent

/-- The properties of a widget: those of its kind, and an icon exactly where it is a tab. -/
def slot (tab : Bool) (count : Nat) (key : String) (k : Standard) : Slot :=
  if key = "icon_name" then if tab then .required .text else .absent else k.ownSlot count key

/-- Whether a widget may have a title, or be without one. -/
def admitsTitle (tab : Bool) (present : Bool) : Standard → Bool
  | .stack | .scroll => !tab || present
  | .button => present
  | .label | .tile | .tabBar => present == tab

/-- Whether a widget may have so many children. -/
def admitsCount (count : Nat) : Standard → Bool
  | .stack | .tabBar => true
  | .scroll => decide (count ≤ 1)
  | .label | .tile | .button => count == 0

end Standard

/-- **A widget of a kind is as the schema says.** -/
structure Conforms (k : Standard) (tab : Bool) (v : View) : Prop where
  kind : v.kind = k.tag
  property : ∀ key, (k.slot tab v.children.length key).admits (v.property? key) = true
  title : k.admitsTitle tab v.title.isSome = true
  count : k.admitsCount v.children.length = true

/-- A widget and all widgets inside it are as the schema says. -/
inductive Obeys : Bool → View → Prop
  | widget {k : Standard} {tab : Bool} {v : View} (conforms : Conforms k tab v)
    (inside : ∀ c ∈ v.children, Obeys (k == .tabBar) c) : Obeys tab v

/-! ## One widget -/

namespace View

theorem property?_withProperty (v : View) (key other : String) (value : Json) :
    (v.withProperty key value).property? other =
      if other = key then some value else v.property? other :=
  v.properties.get?_insert key other value

@[simp] theorem property?_ofKind (kind key : String) : (ofKind kind).property? key = none := rfl

@[simp] theorem property?_withChildren (v : View) (children : List View) (key : String) :
    (v.withChildren children).property? key = v.property? key := rfl

@[simp] theorem property?_withTitle (v : View) (title key : String) :
    (v.withTitle title).property? key = v.property? key := rfl

end View

/-- A stack read from a document has a finite spacing. -/
theorem StackConfig.spacing_eq (d : Option (Dictionary Json)) :
    ∃ x, ((d.map ofDictionary).getD default).spacing = .finite x := by
  cases d with
  | none => exact ⟨defaultSpacing, rfl⟩
  | some d =>
    simp only [Option.map_some, Option.getD_some, ofDictionary]
    cases d.number? "spacing" with
    | none => exact ⟨defaultSpacing, rfl⟩
    | some n => exact ⟨n.toDouble, rfl⟩

namespace Layout

theorem property?_stackFrame (config : StackConfig) (key : String) :
    (stackFrame config).property? key =
      if key = "background_color" then some (.str config.backgroundColor)
      else if key = "preserve_parent_width" then some (.bool config.preserveParentWidth)
      else if key = "orientation" then some (.str config.orientation.name)
      else if key = "spacing" then some (.ofExtended config.spacing)
      else none := by
  unfold stackFrame
  cases config.title <;> simp only [View.property?_withTitle, View.property?_withProperty,
    View.property?_ofKind]

theorem title_stackFrame (config : StackConfig) : (stackFrame config).title = config.title := by
  unfold stackFrame
  cases config.title <;> rfl

theorem title_tabBarFrame (config : Option TabBarConfig) (tabs : List View) :
    (tabBarFrame config tabs).title = none := by
  unfold tabBarFrame
  cases config with
  | none => rfl
  | some config => by_cases h : config.selectedIndex.toNat < tabs.length <;> simp [h] <;> rfl

theorem property?_tabBarFrame (config : Option TabBarConfig) (tabs : List View) (key : String) :
    (tabBarFrame config tabs).property? key =
      if key = "selected_index" then
        (config.filter (·.selectedIndex.toNat < tabs.length)).map (.ofUInt64 ·.selectedIndex)
      else none := by
  unfold tabBarFrame
  cases config with
  | none => simp
  | some config =>
    by_cases h : config.selectedIndex.toNat < tabs.length
    · simp [h, View.property?_withProperty, Option.filter_some]
    · simp [h, Option.filter_some]

end Layout

namespace Standard

theorem property?_tileFrame (text : String) (color : Option String) (key : String) :
    (tileFrame text color).property? key =
      if key = "color" then color.map .str
      else if key = "text" then some (.str text)
      else none := by
  unfold tileFrame
  cases color with
  | none => by_cases h : key = "color" <;> simp [h, View.property?_withProperty]
  | some color => simp [View.property?_withProperty]

theorem title_tileFrame (text : String) (color : Option String) :
    (tileFrame text color).title = none := by
  unfold tileFrame
  cases color <;> rfl

theorem kind_tileFrame (text : String) (color : Option String) :
    (tileFrame text color).kind = "tile" := by
  unfold tileFrame
  cases color <;> rfl

theorem children_tileFrame (text : String) (color : Option String) :
    (tileFrame text color).children = [] := by
  unfold tileFrame
  cases color <;> rfl

theorem property?_scrollFrame (title : Option String) (inside : List View) (key : String) :
    (scrollFrame title inside).property? key = none := by
  unfold scrollFrame
  cases title <;> rfl

theorem title_scrollFrame (title : Option String) (inside : List View) :
    (scrollFrame title inside).title = title := by
  unfold scrollFrame
  cases title <;> rfl

theorem admits_stackFrame (config : StackConfig) {x : Double} (hx : config.spacing = .finite x)
    (count : Nat) (key : String) :
    (slot false count key .stack).admits ((Layout.stackFrame config).property? key) = true := by
  rw [Layout.property?_stackFrame, hx]
  by_cases hkey : key = "spacing" ∨ key = "orientation" ∨ key = "preserve_parent_width" ∨
      key = "background_color"
  · rcases hkey with rfl | rfl | rfl | rfl
    · rfl
    · cases config.orientation <;> rfl
    · rfl
    · rfl
  · simp only [not_or] at hkey
    simp [slot, ownSlot, hkey, Slot.admits]

theorem admits_tabBarFrame (config : Option TabBarConfig) (tabs : List View) (key : String) :
    (slot false tabs.length key .tabBar).admits ((Layout.tabBarFrame config tabs).property? key) =
      true := by
  rw [Layout.property?_tabBarFrame]
  by_cases hkey : key = "selected_index"
  · subst hkey
    rw [if_pos rfl, show slot false tabs.length "selected_index" .tabBar =
      .optional (.position tabs.length) from rfl]
    cases config with
    | none => rfl
    | some config =>
      by_cases hlt : config.selectedIndex.toNat < tabs.length
      · simp [Option.filter_some, hlt, Slot.admits, Shape.admits, Json.ofUInt64, Integer.ofUInt64]
      · simp [Option.filter_some, hlt, Slot.admits]
  · simp [slot, ownSlot, hkey, Slot.admits]

theorem admits_tileFrame (text : String) (color : Option String) (count : Nat) (key : String) :
    (slot false count key .tile).admits ((tileFrame text color).property? key) = true := by
  rw [property?_tileFrame]
  by_cases hkey : key = "text" ∨ key = "color"
  · rcases hkey with rfl | rfl
    · rfl
    · cases color <;> rfl
  · simp only [not_or] at hkey
    simp [slot, ownSlot, hkey, Slot.admits]

/-- **What a builder makes is as the schema says** of a widget that is no tab, whatever it reads. -/
theorem conforms_view {k : Standard} {d : Option (Dictionary Json)}
    {below : List (Option (Dictionary Json) × Option View)} {v : View}
    (h : k.view d below = some v) : Conforms k false v := by
  obtain ⟨hkind, -⟩ := view_eq_some h
  cases k with
  | stack =>
    obtain rfl := Option.some.inj h
    obtain ⟨x, hx⟩ := StackConfig.spacing_eq d
    exact ⟨hkind, admits_stackFrame _ hx _, rfl, rfl⟩
  | tabBar =>
    obtain rfl := Option.some.inj h
    refine ⟨hkind, admits_tabBarFrame _ _, ?_, rfl⟩
    rw [Layout.title_tabBarFrame]
    rfl
  | scroll =>
    cases below with
    | nil => exact absurd h (by simp [view])
    | cons child rest =>
      obtain rfl := Option.some.inj h
      refine ⟨hkind, fun key => ?_, rfl, ?_⟩
      · rw [property?_scrollFrame]
        by_cases hicon : key = "icon_name" <;> simp [slot, ownSlot, hicon, Slot.admits]
      · rw [(scrollFrame_eq _ _).2]
        cases child.2 <;> rfl
  | label =>
    obtain ⟨text, -, rfl⟩ := Option.map_eq_some_iff.mp h
    refine ⟨hkind, fun key => ?_, rfl, rfl⟩
    rw [View.property?_withProperty]
    by_cases htext : key = "text"
    · subst htext
      rfl
    · simp [slot, ownSlot, htext, Slot.admits]
  | tile =>
    obtain ⟨text, -, rfl⟩ := Option.map_eq_some_iff.mp h
    refine ⟨hkind, admits_tileFrame _ _ _, ?_, ?_⟩
    · rw [title_tileFrame]
      rfl
    · rw [children_tileFrame]
      rfl
  | button =>
    obtain ⟨title, -, rfl⟩ := Option.map_eq_some_iff.mp h
    refine ⟨hkind, fun key => ?_, rfl, rfl⟩
    by_cases hicon : key = "icon_name" <;> simp [slot, ownSlot, hicon, Slot.admits]

end Standard

/-- **A tab bar makes a tab of a widget**: it has a title and an icon then, and is as it was
otherwise. -/
theorem Conforms.asTab {k : Standard} {v : View} (h : Conforms k false v) (config : TabConfig) :
    Conforms k true (Layout.asTab v config) := by
  refine ⟨h.kind, fun key => ?_, ?_, h.count⟩
  · have hproperty := h.property key
    rw [Layout.asTab, View.property?_withProperty]
    by_cases hicon : key = "icon_name"
    · subst hicon
      rfl
    · rw [Standard.slot, if_neg hicon] at hproperty ⊢
      rw [if_neg hicon]
      exact hproperty
  · cases k <;> rfl

/-! ## The whole view -/

theorem Obeys.asTab {v : View} (h : Obeys false v) (config : TabConfig) :
    Obeys true (Layout.asTab v config) := by
  obtain ⟨hconforms, hinside⟩ := h
  exact .widget (hconforms.asTab config) hinside

/-- What a type shows of a child is a tab in a tab bar, and the child's own view otherwise. -/
theorem obeys_of_pictureOf {k : Standard} {child : Option (Dictionary Json) × Option View}
    {w : View} (hchild : ∀ v, child.2 = some v → Obeys false v) (h : k.pictureOf child = some w) :
    Obeys (k == .tabBar) w := by
  cases k with
  | tabBar =>
    obtain ⟨v, hv, h⟩ := Option.bind_eq_some_iff.mp h
    obtain ⟨config, -, rfl⟩ := Option.map_eq_some_iff.mp h
    exact (hchild v hv).asTab config
  | _ => exact hchild w h

theorem obeys_of_view {k : Standard} {d : Option (Dictionary Json)}
    {below : List (Option (Dictionary Json) × Option View)} {v : View}
    (hbelow : ∀ child ∈ below, ∀ w, child.2 = some w → Obeys false w)
    (h : k.view d below = some v) : Obeys false v := by
  refine .widget (Standard.conforms_view h) fun c hc => ?_
  rw [(Standard.view_eq_some h).2] at hc
  obtain ⟨child, hchild, hpicture⟩ := List.mem_filterMap.mp hc
  exact obeys_of_pictureOf (hbelow child (Factory.mem_of_mem_childrenOf hchild)) hpicture

namespace Factory

theorem mem_shownBelow {f : Factory σ View} {s : σ} {entries : List Node}
    {child : Option (Dictionary Json) × Option View} (h : child ∈ f.shownBelow s entries) :
    ∃ entry ∈ entries, child = (Node.settings? entry.source, f.shown s entry) := by
  rw [shownBelow_eq f s 0] at h
  obtain ⟨e, he, rfl⟩ := List.mem_map.mp h
  obtain ⟨hmem, -⟩ := mem_resolvingFrom.mp he
  exact ⟨e.1, List.fst_mem_of_mem_zipIdx hmem, rfl⟩

theorem shown_obeys (f : Factory σ View) (s : σ) (n : Node) :
    ∀ v, f.shown s n = some v → Obeys false v := by
  induction n with
  | step source entries ih =>
    intro v hv
    rw [shown] at hv
    split at hv
    · exact absurd hv (by simp)
    obtain ⟨k, -, hv⟩ := Option.bind_eq_some_iff.mp hv
    refine obeys_of_view (fun child hchild w hw => ?_) hv
    obtain ⟨entry, hentry, rfl⟩ := mem_shownBelow hchild
    exact ih entry hentry w hw

end Factory

theorem Obeys.follow {v w : View} {tab : Bool} {p : Place} (h : Obeys tab v)
    (hw : follow View.children v p = some w) : ∃ tab', Obeys tab' w := by
  induction p generalizing v tab with
  | nil =>
    obtain rfl := Option.some.inj hw
    exact ⟨tab, h⟩
  | cons i p ih =>
    obtain ⟨c, hc, hw⟩ := follow_cons_eq_some.mp hw
    obtain ⟨-, hinside⟩ := h
    exact ih (hinside c (List.mem_of_getElem? hc)) hw

/-- The widgets inside one that obeys the schema are tabs exactly where it is a tab bar. -/
theorem Obeys.child {v c : View} {tab : Bool} (h : Obeys tab v) (hc : c ∈ v.children) :
    ∃ k, Conforms k (v.kind == "tabbar") c := by
  obtain ⟨hconforms, hinside⟩ := h
  obtain ⟨hchild, -⟩ := hinside c hc
  have htab : ∀ k : Standard, (k.tag == "tabbar") = (k == .tabBar) := by
    intro k
    cases k <;> decide
  rw [hconforms.kind, htab]
  exact ⟨_, hchild⟩

namespace Factory

variable (values : List (String × Bool)) (s : σ)

/-- **Every rendered view obeys its widget schema.** Whatever a document says, and whatever its
rules, each widget of its view is of a standard kind and as the schema says of it: the outermost one
as a widget that is no tab, and every other one as a tab or not, by the kind of the one it is in. -/
theorem rendering_obeys_schema (document : Json) (v : View)
    (h : ((standardWith σ values).render document).outcome s = .ok (some v)) :
    (∃ k, Conforms k false v) ∧
    ∀ p w, follow View.children v p = some w → ∀ c ∈ w.children,
      ∃ k, Conforms k (w.kind == "tabbar") c := by
  obtain ⟨root, -, hshown⟩ := shown_of_render values h
  have hobeys := shown_obeys (standardWith σ values) s (.ofJson root) v hshown
  constructor
  · obtain ⟨hconforms, -⟩ := hobeys
    exact ⟨_, hconforms⟩
  · intro p w hw c hc
    obtain ⟨tab, hinside⟩ := hobeys.follow hw
    exact hinside.child hc

/-- A tab bar that selects its second tab, with metadata of the wrong types here and there. -/
def shop : Json :=
  .obj [("structure", .obj [("type", .str "tabbar"),
    ("meta", .obj [("selected_index", .ofUInt64 1), ("title", .str "Shop")]), ("children", .arr [
      .obj [("type", .str "tile"), ("meta", .obj [("color", .bool true), ("icon_name", .str "tag"),
        ("text", .str "Offers"), ("title", .str "Today")])],
      .obj [("type", .str "stack"), ("rule", .str "open"),
        ("meta", .obj [("icon_name", .str "cart"), ("orientation", .str "diagonal"),
          ("spacing", .null), ("title", .str "Cart")]),
        ("children", .arr [.obj [("type", .str "button"),
          ("meta", .obj [("icon_name", .str "card"), ("title", .str "Pay")])]])]])])]

theorem rendering_obeys_schema_shop :
    ∃ v, ((standardWith Unit [("open", true)]).render shop).outcome () = .ok (some v) ∧
      (∃ k, Conforms k false v) ∧
      ∀ p w, follow View.children v p = some w → ∀ c ∈ w.children,
        ∃ k, Conforms k (w.kind == "tabbar") c :=
  ⟨_, rfl, rendering_obeys_schema [("open", true)] () shop _ rfl⟩

end Factory

end ViewTree
