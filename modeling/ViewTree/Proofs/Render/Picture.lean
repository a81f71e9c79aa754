import ViewTree.Proofs.Compile.Resolve
import ViewTree.Proofs.Render.Content

/-!
# What a view shows of its children

The view of a node is made from its own dictionary and from the views of its children, by six
functions that have little in common. For the question *which* children are shown they are all
alike: a type has all of them or the first or none, as its kind says, and of each it shows a picture
or nothing. A tab bar shows the tab, which is the view under another title and has the same below
it.
-/

set_option autoImplicit false

namespace ViewTree

/-! ## From lists to lists -/

/-- What a partial function makes of a list is, one by one, what it makes of those of its elements
for which there is something. -/
theorem forall₂_filter_filterMap {α β : Type} {g : α → Option β} {R : α → β → Prop} :
    ∀ {as : List α}, (∀ a ∈ as, ∀ b, g a = some b → R a b) →
      List.Forall₂ R (as.filter fun a => (g a).isSome) (as.filterMap g)
  | [], _ => .nil
  | a :: rest, h => by
    have hrest := forall₂_filter_filterMap fun b hb => h b (List.mem_cons_of_mem _ hb)
    rw [List.filter_cons, List.filterMap_cons]
    cases ha : g a with
    | none => exact hrest
    | some b => exact .cons (h a List.mem_cons_self b ha) hrest

/-! ## Pictures of children -/

namespace Standard

/-- What a type shows of a child: a tab bar its tab, any other type its view. -/
def pictureOf : Standard → Option (Dictionary Json) × Option View → Option View
  | .tabBar => tabOf
  | _ => fun child => child.2

theorem kind_stackFrame (config : StackConfig) (children : List View) :
    ((Layout.stackFrame config).withChildren children).kind = "stack" := by
  unfold Layout.stackFrame
  cases config.title <;> rfl

theorem kind_tabBarFrame (config : Option TabBarConfig) (tabs : List View) :
    (Layout.tabBarFrame config tabs).kind = "tabbar" := by
  unfold Layout.tabBarFrame
  cases config with
  | none => rfl
  | some config => by_cases h : config.selectedIndex.toNat < tabs.length <;> simp [h] <;> rfl

theorem scrollFrame_eq (title : Option String) (inside : List View) :
    (scrollFrame title inside).kind = "scroll" ∧ (scrollFrame title inside).children = inside := by
  unfold scrollFrame
  cases title <;> exact ⟨rfl, rfl⟩

/-- **The widget of a node has its type for a kind**, and shows of the children that the type has
what it makes of them. -/
theorem view_eq_some {k : Standard} {d : Option (Dictionary Json)}
    {below : List (Option (Dictionary Json) × Option View)} {v : View}
    (h : k.view d below = some v) :
    v.kind = k.tag ∧
      v.children = (Factory.childrenOf (some k.kind) below).filterMap k.pictureOf := by
  cases k with
  | stack =>
    obtain rfl := Option.some.inj h
    exact ⟨kind_stackFrame _ _, rfl⟩
  | tabBar =>
    obtain rfl := Option.some.inj h
    exact ⟨kind_tabBarFrame _ _, rfl⟩
  | scroll =>
    cases below with
    | nil => exact absurd h (by simp [view])
    | cons child rest =>
      obtain rfl := Option.some.inj h
      obtain ⟨hkind, hchildren⟩ := scrollFrame_eq (d.bind (·.text? "title")) child.2.toList
      refine ⟨hkind, hchildren.trans ?_⟩
      show child.2.toList = [child].filterMap (·.2)
      rw [Component.filterMap_cons_toList, List.filterMap_nil, List.append_nil]
  | label =>
    obtain ⟨text, -, rfl⟩ := Option.map_eq_some_iff.mp h
    exact ⟨rfl, rfl⟩
  | tile =>
    obtain ⟨text, -, rfl⟩ := Option.map_eq_some_iff.mp h
    unfold tileFrame
    cases d.bind (·.text? "color") <;> exact ⟨rfl, rfl⟩
  | button =>
    obtain ⟨title, -, rfl⟩ := Option.map_eq_some_iff.mp h
    exact ⟨rfl, rfl⟩

theorem isSome_view (k : Standard) (d : Option (Dictionary Json))
    (below : List (Option (Dictionary Json) × Option View)) :
    (k.view d below).isSome =
      match k with
      | .stack | .tabBar => true
      | .scroll => !below.isEmpty
      | .label | .tile => (d.bind (·.text? "text")).isSome
      | .button => (d.bind (·.text? "title")).isSome := by
  cases k with
  | stack => rfl
  | tabBar => rfl
  | scroll => cases below <;> rfl
  | label => exact Option.isSome_map
  | tile => exact Option.isSome_map
  | button => exact Option.isSome_map

theorem isSome_tabOf (d : Option (Dictionary Json)) (view? : Option View) :
    (tabOf (d, view?)).isSome =
      (view?.isSome &&
        ((d.bind (·.text? "title")).isSome && (d.bind (·.text? "icon_name")).isSome)) := by
  unfold tabOf TabConfig.ofDictionary?
  cases view? with
  | none => rfl
  | some view =>
    cases d with
    | none => rfl
    | some d => cases ht : d.text? "title" <;> cases hi : d.text? "icon_name" <;> simp [ht, hi]

theorem pictureOf_eq_some {k : Standard} {child : Option (Dictionary Json) × Option View} {w : View}
    (h : k.pictureOf child = some w) :
    ∃ v, child.2 = some v ∧ v.kind = w.kind ∧ v.children = w.children := by
  cases k with
  | tabBar =>
    obtain ⟨v, hv, h⟩ := Option.bind_eq_some_iff.mp h
    obtain ⟨config, -, rfl⟩ := Option.map_eq_some_iff.mp h
    exact ⟨v, hv, rfl, rfl⟩
  | _ => exact ⟨w, h, rfl, rfl⟩

/-- A stack or a tab bar is told apart from another one only by what it shows of its children. -/
theorem view_congr {k : Standard} (hk : k.kind = .cluster) (d : Option (Dictionary Json))
    {below below' : List (Option (Dictionary Json) × Option View)}
    (h : below.filterMap k.pictureOf = below'.filterMap k.pictureOf) :
    k.view d below = k.view d below' := by
  cases k with
  | stack =>
    rw [view, view, show below.filterMap (·.2) = below'.filterMap (·.2) from h]
  | tabBar =>
    rw [view, view, show below.filterMap tabOf = below'.filterMap tabOf from h]
  | _ => exact absurd hk (by decide)

@[simp] theorem pictureOf_none (k : Standard) (d : Option (Dictionary Json)) :
    k.pictureOf (d, none) = none := by
  cases k <;> rfl

end Standard

end ViewTree
