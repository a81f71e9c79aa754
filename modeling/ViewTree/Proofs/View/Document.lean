import ViewTree.Proofs.Render.Places
import ViewTree.Proofs.View.Schema

/-!
# Views as documents

A view can be written down as a document: each widget as a node of its kind, with its properties and
its title for metadata. Rendering that document gives the view back, and the theorem of this file is
that it does, to the last bit, for every view that was ever rendered — with one exception.

**An empty scrolling container does not come back.** It is what is left when the child of a
scrolling container is hidden; written down it has no child at all, and such a node does not
resolve.

Where the view came from plays no part. A view that obeys the schema has, under each key, a value
that the builder of its kind reads without falling back on a default, and each builder writes what
it reads; so it is the schema, and not the document behind the view, that the argument is about.
What crosses the builders is the tab: title and icon are written by the tab bar, and read by it
again from the metadata of the node below. This is why the statement that is carried along the view
is about the *picture* that the node above makes of it (`pictureOf_toNode`).
-/

set_option autoImplicit false

namespace ViewTree

variable {σ : Type}

/-! ## The document of a view -/

namespace View

/-- What a view has to say as metadata: its properties, and its title if it has one. -/
def settings (v : View) : Dictionary Json :=
  match v.title with
  | some title => v.properties.insert "title" (.str title)
  | none => v.properties

mutual

/-- A view as a node of a document. -/
def toNode : View → Json
  | ⟨kind, title, properties, children⟩ =>
    .obj [("children", .arr (toNodes children)),
      ("meta", .ofDictionary (settings ⟨kind, title, properties, children⟩)),
      ("type", .str kind)]

/-- Several views as nodes of a document. -/
def toNodes : List View → List Json
  | [] => []
  | v :: rest => toNode v :: toNodes rest

end

theorem toNodes_eq_map (vs : List View) : toNodes vs = vs.map toNode := by
  induction vs with
  | nil => rfl
  | cons v rest ih => rw [toNodes, ih, List.map_cons]

theorem isObject_toNode (v : View) : v.toNode.isObject = true := by
  cases v
  rfl

theorem ofNode?_toNode (v : View) : Standard.ofNode? v.toNode = Standard.ofTag? v.kind := by
  cases v
  rfl

theorem ruleOf?_toNode (v : View) : Node.ruleOf? v.toNode = none := by
  cases v
  rfl

theorem settings?_toNode (v : View) : Node.settings? v.toNode = some v.settings := by
  cases v
  exact congrArg some (Dictionary.ofList_entries _)

theorem entriesOf_toNode (v : View) : Node.entriesOf v.toNode = v.children.map toNode := by
  cases v
  exact toNodes_eq_map _

theorem typed_toNode (v : View) : Node.Typed v.toNode := by
  induction v with
  | step kind title properties children ih =>
    rw [Node.typed_iff, entriesOf_toNode]
    refine ⟨rfl, fun entry hentry _ => ?_⟩
    obtain ⟨c, hc, rfl⟩ := List.mem_map.mp hentry
    exact ih c hc

theorem get?_settings (v : View) {key : String} (h : key ≠ "title") :
    v.settings.get? key = v.property? key := by
  unfold settings
  cases v.title with
  | none => rfl
  | some title => exact Dictionary.get?_insert_of_ne _ _ h

theorem text?_settings_title {v : View} (h : v.property? "title" = none) :
    v.settings.text? "title" = v.title := by
  unfold settings Dictionary.text?
  cases v.title with
  | none => rw [show v.properties.get? "title" = none from h, Option.bind_none]
  | some title => rw [Dictionary.get?_insert_self]; rfl

/-- No scrolling container in a view is empty. -/
def Filled (v : View) : Prop :=
  ∀ p w, follow View.children v p = some w → w.kind = "scroll" → w.children ≠ []

theorem filled_iff {v : View} :
    v.Filled ↔ ∀ p ∈ v.places, (follow View.children v p).all fun w =>
      w.kind != "scroll" || !w.children.isEmpty := by
  constructor
  · intro h p _
    rw [Option.all_eq_true]
    intro w hw
    by_cases hscroll : w.kind = "scroll"
    · simpa [hscroll] using h p w hw hscroll
    · simp [hscroll]
  · intro h p w hw hscroll
    have hfilled := Option.all_eq_true _ _ |>.mp (h p (mem_places.mpr ⟨w, hw⟩)) w hw
    simpa [hscroll] using hfilled

instance (v : View) : Decidable v.Filled := decidable_of_iff _ filled_iff.symm

theorem Filled.child {v c : View} (h : v.Filled) (hc : c ∈ v.children) : c.Filled := by
  intro p w hw
  obtain ⟨i, hi⟩ := List.mem_iff_getElem?.mp hc
  exact h (i :: p) w (follow_cons_eq_some.mpr ⟨c, hi, hw⟩)

end View

/-! ## Values of a type -/

namespace Slot

theorem eq_none_of_absent {value? : Option Json} (h : absent.admits value? = true) :
    value? = none :=
  Option.isNone_iff_eq_none.mp h

theorem exists_of_required {shape : Shape} {value? : Option Json}
    (h : (required shape).admits value? = true) :
    ∃ value, value? = some value ∧ shape.admits value = true := by
  cases value? with
  | none => exact absurd h (by simp [admits])
  | some value => exact ⟨value, rfl, h⟩

theorem cases_of_optional {shape : Shape} {value? : Option Json}
    (h : (optional shape).admits value? = true) :
    value? = none ∨ ∃ value, value? = some value ∧ shape.admits value = true := by
  cases value? with
  | none => exact .inl rfl
  | some value => exact .inr ⟨value, rfl, h⟩

end Slot

namespace Shape

theorem eq_of_text {value : Json} (h : text.admits value = true) : ∃ s, value = .str s := by
  cases value with
  | str s => exact ⟨s, rfl⟩
  | _ => exact absurd h (by simp [admits])

theorem eq_of_truth {value : Json} (h : truth.admits value = true) : ∃ b, value = .bool b := by
  cases value with
  | bool b => exact ⟨b, rfl⟩
  | _ => exact absurd h (by simp [admits])

theorem eq_of_float {value : Json} (h : float.admits value = true) :
    ∃ x, value = .num (.float x) := by
  cases value with
  | num n =>
    cases n with
    | float x => exact ⟨x, rfl⟩
    | integer n => exact absurd h (by simp [admits])
  | _ => exact absurd h (by simp [admits])

theorem eq_of_axis {value : Json} (h : axis.admits value = true) :
    ∃ o : Orientation, value = .str o.name := by
  cases value with
  | str raw =>
    simp only [admits, Bool.or_eq_true, beq_iff_eq] at h
    rcases h with rfl | rfl
    · exact ⟨.horizontal, rfl⟩
    · exact ⟨.vertical, rfl⟩
  | _ => exact absurd h (by simp [admits])

theorem eq_of_position {count : Nat} {value : Json} (h : (position count).admits value = true) :
    ∃ n : UInt64, value = .ofUInt64 n ∧ n.toNat < count := by
  cases value with
  | num n =>
    cases n with
    | float x => exact absurd h (by simp [admits])
    | integer n =>
      obtain ⟨value, lower, upper⟩ := n
      simp only [admits, decide_eq_true_eq] at h
      have hlt : value.toNat < UInt64.size := by
        change value.toNat < 18446744073709551616
        omega
      have hvalue := UInt64.toNat_ofNat_of_lt' hlt
      refine ⟨UInt64.ofNat value.toNat, ?_, by rw [hvalue]; omega⟩
      rw [Json.ofUInt64, Integer.ofUInt64]
      congr 3
      rw [hvalue]
      omega
  | _ => exact absurd h (by simp [admits])

end Shape

theorem Number.toUInt64?_ofUInt64 (n : UInt64) :
    (Number.integer (.ofUInt64 n)).toUInt64? = some n := by
  simp [Number.toUInt64?, Integer.ofUInt64]

@[simp] theorem Orientation.ofName?_name (o : Orientation) : ofName? o.name = some o := by
  rw [ofName?, parse_name]
  rfl

/-! ## Building a widget again -/

namespace Conforms

variable {k : Standard} {tab : Bool} {v : View}

theorem admits_own (h : Conforms k tab v) {key : String} (hicon : key ≠ "icon_name") :
    (k.ownSlot v.children.length key).admits (v.property? key) = true := by
  have hproperty := h.property key
  rwa [Standard.slot, if_neg hicon] at hproperty

theorem property?_title (h : Conforms k tab v) : v.property? "title" = none := by
  have hown := h.admits_own (by decide : "title" ≠ "icon_name")
  cases k <;> exact Slot.eq_none_of_absent hown

/-- A property that a kind has is read from the settings as it is. -/
theorem exists_get? (h : Conforms k tab v) (key : String) {shape : Shape}
    (hslot : k.slot tab v.children.length key = .required shape) (htitle : key ≠ "title") :
    ∃ value, v.property? key = some value ∧ v.settings.get? key = some value ∧
      shape.admits value = true := by
  have hproperty := h.property key
  rw [hslot] at hproperty
  obtain ⟨value, hvalue, hshape⟩ := Slot.exists_of_required hproperty
  exact ⟨value, hvalue, by rw [View.get?_settings v htitle, hvalue], hshape⟩

theorem exists_text? (h : Conforms k tab v) (key : String)
    (hslot : k.slot tab v.children.length key = .required .text) (htitle : key ≠ "title") :
    ∃ s, v.property? key = some (.str s) ∧ v.settings.text? key = some s := by
  obtain ⟨value, hvalue, hget, htext⟩ := h.exists_get? key hslot htitle
  obtain ⟨s, rfl⟩ := Shape.eq_of_text htext
  exact ⟨s, hvalue, by rw [Dictionary.text?, hget]; rfl⟩

theorem text?_title (h : Conforms k tab v) : v.settings.text? "title" = v.title :=
  View.text?_settings_title h.property?_title

theorem title_eq_none (h : Conforms k false v) (hk : k.admitsTitle false true = false) :
    v.title = none := by
  have htitle := h.title
  cases hv : v.title with
  | none => rfl
  | some title =>
    rw [hv, Option.isSome_some, hk] at htitle
    exact absurd htitle (by simp)

theorem children_eq_nil (h : Conforms k tab v) (hk : k.kind = .single) : v.children = [] := by
  have hcount := h.count
  cases k <;> first
    | exact absurd hk (by decide)
    | exact List.length_eq_zero_iff.mp (beq_iff_eq.mp hcount)

end Conforms

/-- A widget is another one but for what a tab bar sets. -/
structure SameButTab (tab : Bool) (u v : View) : Prop where
  kind : u.kind = v.kind
  children : u.children = v.children
  property : ∀ key, key ≠ "icon_name" → u.property? key = v.property? key
  title : tab = false → u.title = v.title

namespace Standard

variable {tab : Bool} {v : View}

theorem stackFrame_settings (h : Conforms .stack tab v) :
    SameButTab tab ((Layout.stackFrame (StackConfig.ofDictionary v.settings)).withChildren
      v.children) v := by
  obtain ⟨spacing, hspacing, hspacing', hfloat⟩ := h.exists_get? "spacing" rfl (by decide)
  obtain ⟨axis, haxis, haxis', hname⟩ := h.exists_get? "orientation" rfl (by decide)
  obtain ⟨width, hwidth, hwidth', htruth⟩ :=
    h.exists_get? "preserve_parent_width" rfl (by decide)
  obtain ⟨c, hcolor, hcolor'⟩ := h.exists_text? "background_color" rfl (by decide)
  obtain ⟨x, rfl⟩ := Shape.eq_of_float hfloat
  obtain ⟨o, rfl⟩ := Shape.eq_of_axis hname
  obtain ⟨b, rfl⟩ := Shape.eq_of_truth htruth
  -- Nothing is left to a default, so the configuration is the one that was shown.
  have hconfig : StackConfig.ofDictionary v.settings = ⟨v.title, .finite x, o, b, c⟩ := by
    rw [StackConfig.ofDictionary, h.text?_title, hcolor', Dictionary.number?, hspacing',
      Dictionary.truth?, hwidth', Dictionary.text?, haxis']
    simp [Json.num?, Json.str?, Json.bool?, Number.toDouble]
  rw [hconfig]
  refine ⟨?_, rfl, fun key hicon => ?_, fun _ => Layout.title_stackFrame _⟩
  · rw [kind_stackFrame, h.kind]
    rfl
  · have hown := h.admits_own hicon
    rw [View.property?_withChildren, Layout.property?_stackFrame]
    by_cases hkey : key = "background_color" ∨ key = "preserve_parent_width" ∨
        key = "orientation" ∨ key = "spacing"
    · rcases hkey with rfl | rfl | rfl | rfl
      · exact hcolor.symm
      · exact hwidth.symm
      · exact haxis.symm
      · exact hspacing.symm
    · simp only [not_or] at hkey
      simp only [ownSlot, hkey, if_false] at hown ⊢
      exact (Slot.eq_none_of_absent hown).symm

theorem tabBarFrame_settings (h : Conforms .tabBar tab v) :
    SameButTab tab (Layout.tabBarFrame (TabBarConfig.ofDictionary? v.settings) v.children) v := by
  refine ⟨?_, rfl, fun key hicon => ?_, fun htab => ?_⟩
  · rw [kind_tabBarFrame, h.kind]
    rfl
  · have hown := h.admits_own hicon
    rw [Layout.property?_tabBarFrame]
    by_cases hkey : key = "selected_index"
    · subst hkey
      rw [if_pos rfl, TabBarConfig.ofDictionary?, Dictionary.number?,
        View.get?_settings v (by decide)]
      rcases Slot.cases_of_optional hown with hnone | ⟨value, hvalue, hposition⟩
      · rw [hnone]
        rfl
      · obtain ⟨n, rfl, hlt⟩ := Shape.eq_of_position hposition
        rw [hvalue]
        simp [Json.ofUInt64, Json.num?, Number.toUInt64?_ofUInt64, Option.filter_some, hlt]
    · simp only [ownSlot, hkey, if_false] at hown ⊢
      exact (Slot.eq_none_of_absent hown).symm
  · subst htab
    rw [Layout.title_tabBarFrame, h.title_eq_none rfl]

theorem scrollFrame_settings (h : Conforms .scroll tab v) :
    SameButTab tab (scrollFrame (v.settings.text? "title") v.children) v := by
  obtain ⟨hkind, hchildren⟩ := scrollFrame_eq (v.settings.text? "title") v.children
  refine ⟨hkind.trans h.kind.symm, hchildren, fun key hicon => ?_, fun _ => ?_⟩
  · rw [property?_scrollFrame]
    exact (Slot.eq_none_of_absent (h.admits_own hicon)).symm
  · rw [title_scrollFrame, h.text?_title]

theorem label_settings (h : Conforms .label tab v) :
    ∃ text, v.settings.text? "text" = some text ∧
      SameButTab tab ((View.ofKind "label").withProperty "text" (.str text)) v := by
  obtain ⟨text, hproperty, htext⟩ := h.exists_text? "text" rfl (by decide)
  refine ⟨text, htext, h.kind.symm, (h.children_eq_nil rfl).symm, fun key hicon => ?_,
    fun htab => ?_⟩
  · have hown := h.admits_own hicon
    rw [View.property?_withProperty]
    by_cases hkey : key = "text"
    · rw [if_pos hkey, hkey, hproperty]
    · simp only [ownSlot, hkey, if_false] at hown ⊢
      exact (Slot.eq_none_of_absent hown).symm
  · subst htab
    exact (h.title_eq_none rfl).symm

theorem tileFrame_settings (h : Conforms .tile tab v) :
    ∃ text, v.settings.text? "text" = some text ∧
      SameButTab tab (tileFrame text (v.settings.text? "color")) v := by
  obtain ⟨text, hproperty, htext⟩ := h.exists_text? "text" rfl (by decide)
  have hcolor := h.admits_own (by decide : "color" ≠ "icon_name")
  refine ⟨text, htext, ?_, ?_, fun key hicon => ?_, fun htab => ?_⟩
  · rw [kind_tileFrame, h.kind]
    rfl
  · rw [children_tileFrame, h.children_eq_nil rfl]
  · have hown := h.admits_own hicon
    rw [property?_tileFrame]
    by_cases hkey : key = "text" ∨ key = "color"
    · rcases hkey with rfl | rfl
      · exact hproperty.symm
      · rw [if_pos rfl, Dictionary.text?, View.get?_settings v (by decide)]
        rcases Slot.cases_of_optional hown with hnone | ⟨value, hvalue, hshape⟩
        · rw [hnone]
          rfl
        · obtain ⟨color, rfl⟩ := Shape.eq_of_text hshape
          rw [hvalue]
          rfl
    · simp only [not_or] at hkey
      simp only [ownSlot, hkey, if_false] at hown ⊢
      exact (Slot.eq_none_of_absent hown).symm
  · subst htab
    rw [title_tileFrame, h.title_eq_none rfl]

theorem button_settings (h : Conforms .button tab v) :
    ∃ title, v.settings.text? "title" = some title ∧
      SameButTab tab ((View.ofKind "button").withTitle title) v := by
  obtain ⟨title, htitle⟩ := Option.isSome_iff_exists.mp h.title
  refine ⟨title, by rw [h.text?_title, htitle], h.kind.symm, (h.children_eq_nil rfl).symm,
    fun key hicon => ?_, fun _ => htitle.symm⟩
  exact (Slot.eq_none_of_absent (h.admits_own hicon)).symm

/-- **A widget as the schema says is built again from its settings**, up to what a tab bar sets. -/
theorem view_settings {k : Standard} {g : View → Option (Dictionary Json) × Option View}
    (h : Conforms k tab v) (hfilled : k = .scroll → v.children ≠ [])
    (hbelow : ∀ c ∈ v.children, k.pictureOf (g c) = some c) :
    ∃ u, k.view (some v.settings) (v.children.map g) = some u ∧ SameButTab tab u v := by
  have hchildren : (v.children.map g).filterMap k.pictureOf = v.children := by
    have hsame : v.children.filterMap (k.pictureOf ∘ g) = v.children.filterMap some :=
      List.filterMap_congr hbelow
    rw [List.filterMap_map, hsame, List.filterMap_some]
  cases k with
  | stack =>
    refine ⟨_, rfl, ?_⟩
    rw [show (v.children.map g).filterMap (·.2) = v.children from hchildren]
    exact stackFrame_settings h
  | tabBar =>
    refine ⟨_, rfl, ?_⟩
    rw [show (v.children.map g).filterMap tabOf = v.children from hchildren]
    exact tabBarFrame_settings h
  | scroll =>
    have hsame := scrollFrame_settings h
    have hcount : v.children.length ≤ 1 := of_decide_eq_true h.count
    obtain ⟨c, hc⟩ : ∃ c, v.children = [c] :=
      List.length_eq_one_iff.mp
        (Nat.le_antisymm hcount (List.length_pos_iff.mpr (hfilled rfl)))
    have hpicture : (g c).2 = some c := hbelow c (by rw [hc]; exact List.mem_singleton_self c)
    refine ⟨_, ?_, hsame⟩
    rw [hc, List.map_singleton, view, List.head?_cons, Option.map_some, hpicture]
    rfl
  | label =>
    obtain ⟨text, htext, hsame⟩ := label_settings h
    exact ⟨_, by rw [view, Option.bind_some, htext, Option.map_some], hsame⟩
  | tile =>
    obtain ⟨text, htext, hsame⟩ := tileFrame_settings h
    exact ⟨_, by rw [view, Option.bind_some, Option.bind_some, htext, Option.map_some], hsame⟩
  | button =>
    obtain ⟨title, htitle, hsame⟩ := button_settings h
    exact ⟨_, by rw [view, Option.bind_some, htitle, Option.map_some], hsame⟩

end Standard

/-! ## Building a tab again -/

theorem View.eq_of_property? {u v : View} (hkind : u.kind = v.kind) (htitle : u.title = v.title)
    (hproperty : ∀ key, u.property? key = v.property? key) (hchildren : u.children = v.children) :
    u = v := by
  cases u
  cases v
  obtain rfl := hkind
  obtain rfl := htitle
  obtain rfl := hchildren
  obtain rfl := Dictionary.ext_get? hproperty
  rfl

/-- A widget that is no tab is the one that it was built from. -/
theorem SameButTab.eq {j k : Standard} {u v : View} (h : SameButTab false u v)
    (hu : Conforms j false u) (hv : Conforms k false v) : u = v := by
  refine View.eq_of_property? h.kind (h.title rfl) (fun key => ?_) h.children
  by_cases hicon : key = "icon_name"
  · subst hicon
    rw [Slot.eq_none_of_absent (hu.property "icon_name"),
      Slot.eq_none_of_absent (hv.property "icon_name")]
  · exact h.property key hicon

/-- **A tab bar reads from a tab what it had set on it.** -/
theorem SameButTab.tabOf {k : Standard} {u v : View} (h : SameButTab true u v)
    (hv : Conforms k true v) : Standard.tabOf (some v.settings, some u) = some v := by
  obtain ⟨icon, hproperty, htext⟩ := hv.exists_text? "icon_name" rfl (by decide)
  obtain ⟨title, htitle⟩ : ∃ title, v.title = some title := by
    have hpresent := hv.title
    cases hv : v.title with
    | some title => exact ⟨title, rfl⟩
    | none =>
      rw [hv] at hpresent
      cases k <;> exact absurd hpresent (by decide)
  have hconfig : TabConfig.ofDictionary? v.settings = some ⟨title, icon⟩ := by
    rw [TabConfig.ofDictionary?, hv.text?_title, htitle, htext]
    rfl
  rw [Standard.tabOf, Option.bind_some, Option.bind_some, hconfig, Option.map_some]
  refine congrArg some (View.eq_of_property? h.kind htitle.symm (fun key => ?_) h.children)
  rw [Layout.asTab, View.property?_withProperty]
  by_cases hicon : key = "icon_name"
  · rw [if_pos hicon, hicon, hproperty]
  · rw [if_neg hicon]
    exact h.property key hicon

theorem SameButTab.pictureOf {k parent : Standard} {u v : View}
    (h : SameButTab (parent == .tabBar) u v) (hu : Conforms k false u)
    (hv : Conforms k (parent == .tabBar) v) :
    parent.pictureOf (some v.settings, some u) = some v := by
  cases parent with
  | tabBar => exact h.tabOf hv
  | _ => exact congrArg some (h.eq hu hv)

/-! ## Building a view again -/

namespace Factory

theorem shownBelow_of_resolves {f : Factory σ View} {s : σ} {nodes : List Json}
    (h : ∀ j ∈ nodes, j.isObject = true ∧ f.resolves (.ofJson j) = true) :
    f.shownBelow s (nodes.map Node.ofJson) =
      nodes.map fun j => (Node.settings? j, f.shown s (.ofJson j)) := by
  induction nodes with
  | nil => rfl
  | cons j rest ih =>
    obtain ⟨hobject, hresolves⟩ := h j List.mem_cons_self
    rw [List.map_cons, shownBelow, Node.source_ofJson, hobject, hresolves,
      ih fun j hj => h j (List.mem_cons_of_mem _ hj), List.map_cons]
    rfl

variable (values : List (String × Bool)) (s : σ)

/-- **The document of a view is pictured as the view**, by a parent under which the view obeys the
schema. -/
theorem pictureOf_toNode {tab : Bool} {v : View} (h : Obeys tab v) (hfilled : v.Filled) :
    (standardWith σ values).resolves (.ofJson v.toNode) = true ∧
      ∀ parent : Standard, (parent == .tabBar) = tab →
        parent.pictureOf (some v.settings, (standardWith σ values).shown s (.ofJson v.toNode)) =
          some v := by
  induction h with
  | @widget k tab v hconforms _ ih =>
    have hk : Standard.ofNode? v.toNode = some k := by
      rw [View.ofNode?_toNode, hconforms.kind, Standard.ofTag?_tag]
    have hbelow : (standardWith σ values).shownBelow s
        ((Node.entriesOf v.toNode).map Node.ofJson) =
          v.children.map fun c =>
            (some c.settings, (standardWith σ values).shown s (.ofJson c.toNode)) := by
      rw [View.entriesOf_toNode, shownBelow_of_resolves, List.map_map]
      · simp only [Function.comp_def, View.settings?_toNode]
      · intro j hj
        obtain ⟨c, hc, rfl⟩ := List.mem_map.mp hj
        exact ⟨c.isObject_toNode, (ih c hc (hfilled.child hc)).1⟩
    have hempty : k = .scroll → v.children ≠ [] := by
      rintro rfl
      exact hfilled [] v rfl hconforms.kind
    obtain ⟨u, hu, hsame⟩ := Standard.view_settings hconforms hempty
      fun c hc => (ih c hc (hfilled.child hc)).2 k rfl
    constructor
    · rw [Node.ofJson_eq, resolves_standardWith values s, hk, hbelow]
      cases k with
      | scroll => simpa using hempty rfl
      | _ => rfl
    · rintro parent rfl
      rw [Node.ofJson_eq, shown, View.ruleOf?_toNode, if_neg (by simp), hk, Option.bind_some,
        View.settings?_toNode, hbelow, hu]
      exact hsame.pictureOf (Standard.conforms_view hu) hconforms

/-- A node in which every node has a type compiles. -/
theorem compileNode_of_typed (f : Factory σ View) {n : Json} (h : Node.Typed n) (t : σ) :
    ∃ component?, (f.compileNode (.ofJson n)).outcome t = .ok component? := by
  have hfailure := (f.compileNode_visits (.ofJson n)).failure t
  rw [h] at hfailure
  cases hout : (f.compileNode (.ofJson n)).outcome t with
  | ok component? => exact ⟨component?, rfl⟩
  | error e =>
    rw [hout] at hfailure
    exact absurd hfailure (by simp [failure?])

/-- **Rendering reads back what it wrote.** A view that some document was rendered as, under some
rules, and that has no empty scrolling container in it, is what its own document is rendered as,
without any rules and whatever the state of the host. -/
theorem rendering_reads_back (document : Json) (v : View)
    (h : ((standardWith σ values).render document).outcome s = .ok (some v)) (hfilled : v.Filled)
    (t : σ) :
    ∃ c, (standard.compileNode (.ofJson v.toNode)).outcome t = .ok (some c) ∧
      ∀ u, c.realize.result u = some v := by
  obtain ⟨root, -, hshown⟩ := shown_of_render values h
  have hobeys := shown_obeys (standardWith σ values) s (.ofJson root) v hshown
  obtain ⟨component?, hcompiled⟩ := compileNode_of_typed (standardWith σ []) v.typed_toNode t
  have hpicture := fun u : σ => pictureOf_toNode [] u hobeys hfilled
  cases component? with
  | none =>
    have hresolves := ((compileNode_shows [] t _ t _ hcompiled).1).mp rfl
    rw [(hpicture t).1] at hresolves
    exact absurd hresolves (by simp)
  | some c =>
    refine ⟨c, hcompiled, fun u => ?_⟩
    -- The component was compiled in one state and may be realized in another.
    have hshows := (compileNode_shows [] u _ t _ hcompiled).2 c rfl
    rw [(hshows.realize u).1]
    exact (hpicture u).2 .stack rfl

/-- A tab bar with a stack that holds a tile, and a tab that is hidden. -/
def gallery : Json :=
  .obj [("structure", .obj [("type", .str "tabbar"),
    ("meta", .obj [("selected_index", .ofUInt64 0)]), ("children", .arr [
      .obj [("type", .str "scroll"), ("rule", .str "closed")],
      .obj [("type", .str "stack"),
        ("meta", .obj [("icon_name", .str "photo"), ("title", .str "Pictures")]),
        ("children", .arr [.obj [("type", .str "tile"),
          ("meta", .obj [("text", .str "Sunset"), ("title", .str "ignored")])]])]])])]

theorem rendering_reads_back_gallery :
    ∃ v, ((standardWith Unit [("closed", false)]).render gallery).outcome () = .ok (some v) ∧
      v.Filled ∧
      ∃ c, (standard.compileNode (.ofJson v.toNode)).outcome () = .ok (some c) ∧
        ∀ u, c.realize.result u = some v :=
  ⟨_, rfl, by decide,
    rendering_reads_back [("closed", false)] () gallery _ rfl (by decide) ()⟩

/-- An empty scrolling container does not resolve when it is written down. -/
example : ((standard : Factory Unit View).compileNode
    (.ofJson (View.ofKind "scroll").toNode)).outcome () = .ok none := by
  rfl

end Factory

end ViewTree
