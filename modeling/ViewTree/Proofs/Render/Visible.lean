import ViewTree.Proofs.Render.Meaning
import ViewTree.Proofs.Render.Picture
import ViewTree.Proofs.Render.Places

/-!
# Rendering shows exactly the visible nodes

A node can be missing from the view for many reasons: its type is unknown, or it stands below a
leaf, or behind the first child of a scrolling container; its rule is false; it is a label without a
text; it is in a tab bar and not configured as a tab; or something of the kind is true of a node
above it. `Visible` lists these reasons, each where the document says it, and the theorem of this
file is that there are no others: the view is a picture of the visible nodes, with their types for
kinds, their parents for parents and their order for order.

Some of the reasons are found while compiling and some while realizing, some by the node and some by
its parent. What makes them one notion is that, from a visible node, they select among its entries:
`visibleBelow` is what `kept` is for components, with what realizing leaves out taken away. So the
picture is found as it was there, level by level, and read as a bijection by
`Mirrors.correspondence`.

Two reasons do not combine as one may expect. An entry of a scrolling container that resolves and is
not shown leaves the container empty: no later entry takes its place. And a tab that is shown but
has no configuration is missing with all that is below it.
-/

set_option autoImplicit false

namespace ViewTree

variable {σ N : Type}

/-! ## Reasons for not being shown -/

namespace Node

/-- Whether the metadata of a node has a text under a key. -/
def hasText (source : Json) (key : String) : Bool :=
  ((settings? source).bind (·.text? key)).isSome

/-- A label or a tile needs a `text`, a button a `title`. -/
def hasContent (source : Json) : Bool :=
  match Standard.ofNode? source with
  | some .label | some .tile => hasText source "text"
  | some .button => hasText source "title"
  | _ => true

/-- A tab needs a `title` and an `icon_name`. -/
def isTab (source : Json) : Bool := hasText source "title" && hasText source "icon_name"

end Node

namespace Factory

/-- The rule of a node is true, if it is a rule. -/
def opened (f : Factory σ N) (s : σ) (source : Json) : Bool :=
  (Node.ruleOf? source).bind (f.verdict s) != some false

/-- **There is a component for a node**: the root resolves, and from there on down every node is
kept by the one above it. -/
def Contained (f : Factory σ N) (root : Node) (p : Place) (n : Node) : Prop :=
  f.resolves root = true ∧ Reached f.kept root p n

/-- **The visible nodes of a document**, with their places. -/
inductive Visible (f : Factory σ N) (s : σ) (root : Node) : Place → Node → Prop
  | root : Contained f root [] root → f.opened s root.source → Node.hasContent root.source →
      Visible f s root [] root
  | entry {p : Place} {i : Nat} {m n : Node} :
      Visible f s root p m → Contained f root (p ++ [i]) n → f.opened s n.source →
      Node.hasContent n.source →
      (Node.typeOf? m.source = some "tabbar" → Node.isTab n.source) →
      Visible f s root (p ++ [i]) n

/-- A node is shown by the node above it, if that is shown. -/
def pictured (f : Factory σ N) (s : σ) (parent source : Json) : Bool :=
  f.opened s source && Node.hasContent source &&
    (!(Node.typeOf? parent == some "tabbar") || Node.isTab source)

/-- The entries of a node that are shown when the node is. -/
def visibleBelow (f : Factory σ N) (s : σ) (n : Node) : List (Node × Nat) :=
  (f.kept n).filter fun e => f.pictured s n.source e.1.source

theorem pictured_iff {f : Factory σ N} {s : σ} {parent source : Json} :
    f.pictured s parent source = true ↔
      f.opened s source = true ∧ Node.hasContent source = true ∧
        (Node.typeOf? parent = some "tabbar" → Node.isTab source = true) := by
  unfold pictured
  rw [Bool.and_eq_true, Bool.and_eq_true, and_assoc]
  by_cases h : Node.typeOf? parent = some "tabbar" <;> simp [h]

theorem mem_visibleBelow {f : Factory σ N} {s : σ} {n : Node} {e : Node × Nat} :
    e ∈ f.visibleBelow s n ↔ e ∈ f.kept n ∧ f.pictured s n.source e.1.source = true := by
  rw [visibleBelow, List.mem_filter]

theorem pairwise_visibleBelow (f : Factory σ N) (s : σ) (n : Node) :
    (f.visibleBelow s n).Pairwise (·.2 < ·.2) :=
  (f.pairwise_kept n).filter _

/-- What is reached by way of visible entries stands at its place in the document. -/
theorem follow_of_reached {f : Factory σ N} {s : σ} {root n : Node} {p : Place}
    (h : Reached (f.visibleBelow s) root p n) : follow Node.entries root p = some n :=
  h.follow_eq fun _ _ he => getElem?_of_mem_kept (mem_visibleBelow.mp he).1

theorem Visible.contained {f : Factory σ N} {s : σ} {root n : Node} {p : Place}
    (h : Visible f s root p n) : Contained f root p n := by
  cases h with
  | root hcontained _ _ => exact hcontained
  | entry _ hcontained _ _ _ => exact hcontained

theorem Visible.descend {f : Factory σ N} {s : σ} {root m n : Node} {p q : Place}
    (h : Visible f s root p m) (hq : Reached (f.visibleBelow s) m q n) :
    Visible f s root (p ++ q) n := by
  induction hq generalizing p with
  | here => rw [List.append_nil]; exact h
  | @down m e n i q he _ ih =>
    obtain ⟨hkept, hpictured⟩ := mem_visibleBelow.mp he
    obtain ⟨hopened, hcontent, htab⟩ := pictured_iff.mp hpictured
    obtain ⟨hresolves, hreached⟩ := h.contained
    have hcontained : Contained f root (p ++ [i]) e :=
      ⟨hresolves, reached_append.mpr ⟨m, hreached, reached_singleton.mpr hkept⟩⟩
    have hfirst := ih (.entry h hcontained hopened hcontent htab)
    rw [List.append_assoc] at hfirst
    exact hfirst

/-- **Being visible is being reached**: the visible nodes are those that are reached by way of
visible entries, from a root that is shown. -/
theorem visible_iff {f : Factory σ N} {s : σ} {root n : Node} {p : Place} :
    Visible f s root p n ↔
      (f.resolves root = true ∧ f.opened s root.source = true ∧
        Node.hasContent root.source = true) ∧ Reached (f.visibleBelow s) root p n := by
  constructor
  · intro h
    induction h with
    | root hcontained hopened hcontent =>
      exact ⟨⟨hcontained.1, hopened, hcontent⟩, .here⟩
    | @entry p i m n _ hcontained hopened hcontent htab ih =>
      obtain ⟨hroot, hreached⟩ := ih
      refine ⟨hroot, reached_append.mpr ⟨m, hreached, reached_singleton.mpr ?_⟩⟩
      -- The node that keeps this one is the visible one: they stand at one place.
      obtain ⟨m', hm', hn⟩ := reached_append.mp hcontained.2
      have hfollow : follow Node.entries root p = some m' :=
        hm'.follow_eq fun _ _ he => getElem?_of_mem_kept he
      obtain rfl := Option.some.inj (hfollow.symm.trans (follow_of_reached hreached))
      exact mem_visibleBelow.mpr
        ⟨reached_singleton.mp hn, pictured_iff.mpr ⟨hopened, hcontent, htab⟩⟩
  · rintro ⟨⟨hresolves, hopened, hcontent⟩, hreached⟩
    exact (Visible.root ⟨hresolves, .here⟩ hopened hcontent).descend hreached

/-! ## The view is a picture of them -/

variable (values : List (String × Bool)) (s : σ)

/-- **When a node is shown as something**, going by itself and by what resolves below it. -/
theorem isSome_shown (n : Node) :
    ((standardWith σ values).shown s n).isSome = true ↔
      (standardWith σ values).resolves n = true ∧
        (standardWith σ values).opened s n.source = true ∧
        Node.hasContent n.source = true := by
  obtain ⟨source, entries⟩ := n
  rw [shown]
  by_cases hrule : (Node.ruleOf? source).bind ((standardWith σ values).verdict s) = some false
  · simp [hrule, opened]
  have hopened : (standardWith σ values).opened s source = true := by
    simpa [opened] using hrule
  rw [if_neg hrule, hopened]
  cases hk : Standard.ofNode? source with
  | none => simp [resolves_standardWith values s, hk]
  | some k =>
    rw [resolves_standardWith values s, hk, Node.hasContent, hk, Option.bind_some,
      Standard.isSome_view]
    cases k with
    | _ => simp [Node.hasText]

theorem isSome_pictureOf {k : Standard} {parent : Json} (hk : Standard.ofNode? parent = some k)
    {n : Node} (hn : (standardWith σ values).resolves n = true) :
    (k.pictureOf (Node.settings? n.source,
        (standardWith σ values).shown s n)).isSome =
      (standardWith σ values).pictured s parent n.source := by
  have hshown : ((standardWith σ values).shown s n).isSome =
      ((standardWith σ values).opened s n.source && Node.hasContent n.source) := by
    rw [Bool.eq_iff_iff, isSome_shown, Bool.and_eq_true]
    exact and_iff_right hn
  obtain ⟨type, htype, htag⟩ := Option.bind_eq_some_iff.mp hk
  obtain rfl := Standard.ofTag?_eq_some_iff.mp htag
  rw [pictured, ← hshown, htype]
  cases k with
  | tabBar => exact Standard.isSome_tabOf _ _
  | _ => simp [Standard.pictureOf, Standard.tag]

/-- **A view shows, level by level, the visible entries**, each with its type for a kind. -/
theorem shown_mirrors (n : Node) :
    ∀ v, (standardWith σ values).shown s n = some v →
      Mirrors ((standardWith σ values).visibleBelow s) View.children
        (fun m w => Node.typeOf? m.source = some w.kind) n v := by
  induction n with
  | step source entries ih =>
    intro v h
    rw [shown] at h
    split at h
    · exact absurd h (by simp)
    obtain ⟨k, hk, hview⟩ := Option.bind_eq_some_iff.mp h
    obtain ⟨hkind, hchildren⟩ := Standard.view_eq_some hview
    obtain ⟨type, htype, htag⟩ := Option.bind_eq_some_iff.mp hk
    obtain rfl := Standard.ofTag?_eq_some_iff.mp htag
    have hkept : (standardWith σ values).kept ⟨source, entries⟩ =
        childrenOf (some k.kind) ((standardWith σ values).resolvingFrom 0 entries) := by
      rw [kept, nodeKind?_standardWith, hk]
      rfl
    rw [shownBelow_eq _ s 0, childrenOf_map, List.filterMap_map, ← hkept] at hchildren
    -- Compiling keeps entries, realizing leaves some of them out: those with no picture.
    have hbelow : (standardWith σ values).visibleBelow s ⟨source, entries⟩ =
        ((standardWith σ values).kept ⟨source, entries⟩).filter fun e =>
          (k.pictureOf
            (Node.settings? e.1.source, (standardWith σ values).shown s e.1)).isSome := by
      apply List.filter_congr
      intro e he
      exact (isSome_pictureOf values s hk (resolves_of_mem_kept he)).symm
    refine .of_forall₂ (by rw [htype, hkind]) ?_
    rw [hbelow, hchildren]
    apply forall₂_filter_filterMap
    intro e he w hw
    have hmem : e.1 ∈ entries := List.mem_of_getElem? (getElem?_of_mem_kept he)
    obtain ⟨u, hu, hkind', hchildren'⟩ := Standard.pictureOf_eq_some hw
    exact (ih e.1 hmem u hu).congr (fun hlabel => by rw [hlabel, hkind']) hchildren'

/-- **A rendering shows exactly the visible nodes** of the document below a root. -/
structure ShowsVisible (f : Factory σ N) (s : σ) (root : Node) (view? : Option View) : Prop where
  /-- There is no view exactly when the root is not visible. -/
  none_iff : view? = none ↔ ¬ Visible f s root [] root
  /-- The widgets correspond to the visible nodes, whose types are their kinds, and no node on the
  way to one of them has a rule that is false. -/
  picture : ∀ v, view? = some v → ∃ origin,
    Correspondence View.children v (fun q => ∃ n, Visible f s root q n) origin ∧
    ∀ p w, follow View.children v p = some w →
      (∃ n, Visible f s root (origin p) n ∧ Node.typeOf? n.source = some w.kind) ∧
      ∀ q n, q <+: origin p → follow Node.entries root q = some n → f.opened s n.source = true
  /-- There are as many widgets as visible nodes. -/
  count_eq : ∀ v, view? = some v → v.count = Set.ncard {q | ∃ n, Visible f s root q n}

/-- Every node on the way to a visible one is visible. -/
theorem Visible.of_prefix {f : Factory σ N} {s : σ} {root m n : Node} {p q : Place}
    (h : Visible f s root p n) (hq : q <+: p) (hm : follow Node.entries root q = some m) :
    Visible f s root q m := by
  obtain ⟨hroot, hreached⟩ := visible_iff.mp h
  obtain ⟨rest, rfl⟩ := hq
  obtain ⟨b, hb, -⟩ := reached_append.mp hreached
  obtain rfl := Option.some.inj ((follow_of_reached hb).symm.trans hm)
  exact visible_iff.mpr ⟨hroot, hb⟩

theorem Visible.opened {f : Factory σ N} {s : σ} {root n : Node} {p : Place}
    (h : Visible f s root p n) : f.opened s n.source = true := by
  cases h with
  | root _ hopened _ => exact hopened
  | entry _ _ hopened _ _ => exact hopened

theorem shown_shows_visible (root : Node) :
    ShowsVisible (standardWith σ values) s root ((standardWith σ values).shown s root) := by
  have hpicture : ∀ v, (standardWith σ values).shown s root = some v → ∃ origin,
      Correspondence View.children v (fun q => ∃ n, Visible (standardWith σ values) s root q n)
        origin ∧
      ∀ p w, follow View.children v p = some w →
        ∃ n, Visible (standardWith σ values) s root (origin p) n ∧
          Node.typeOf? n.source = some w.kind := by
    intro v hv
    have hroot := (isSome_shown values s root).mp (by rw [hv]; rfl)
    have hvisible : ∀ {q n}, Reached ((standardWith σ values).visibleBelow s) root q n ↔
        Visible (standardWith σ values) s root q n :=
      fun {q n} => (visible_iff.trans (and_iff_right hroot)).symm
    have h := (shown_mirrors values s root v hv).correspondence (pairwise_visibleBelow _ s)
    simp only [hvisible] at h
    exact h
  refine ⟨?_, ?_, ?_⟩
  · rw [← Option.not_isSome_iff_eq_none, isSome_shown, not_iff_not, visible_iff]
    exact (and_iff_left Reached.here).symm
  · intro v hv
    obtain ⟨origin, horigin, hwidgets⟩ := hpicture v hv
    refine ⟨origin, horigin, ?_⟩
    intro p w hw
    obtain ⟨n, hn, hkind⟩ := hwidgets p w hw
    exact ⟨⟨n, hn, hkind⟩, fun q m hq hm => (hn.of_prefix hq hm).opened⟩
  · intro v hv
    obtain ⟨origin, horigin, -⟩ := hpicture v hv
    exact horigin.count_eq

/-- **Rendering shows exactly the visible nodes.** Every document that compiles with the standard
types and constant rules is rendered, as a view in an order- and parent-preserving bijection with
its visible nodes, or as nothing when its root is not among them. -/
theorem rendering_shows_visible (document : Json) (component? : Option (Component σ View))
    (h : ((standardWith σ values).compile document).outcome s = .ok component?) :
    ∃ root view?, document.field? "structure" = some root ∧
      ((standardWith σ values).render document).outcome s = .ok view? ∧
      ShowsVisible (standardWith σ values) s (.ofJson root) view? := by
  obtain ⟨root, hroot, -, hrender⟩ := render_of_compiles values h
  exact ⟨root, _, hroot, hrender, shown_shows_visible values s (.ofJson root)⟩

/-- A tab bar with a tab, a tab behind a false rule, a child that is no tab, and a scrolling
container that stays empty. -/
def page : Json :=
  .obj [("structure", .obj [("type", .str "tabbar"), ("children", .arr [
    .obj [("type", .str "label"), ("meta", .obj [("icon_name", .str "home"),
      ("text", .str "Welcome"), ("title", .str "Home")])],
    .obj [("type", .str "stack"), ("rule", .str "hidden"),
      ("meta", .obj [("icon_name", .str "lock"), ("title", .str "Secret")])],
    .obj [("type", .str "label"), ("meta", .obj [("text", .str "no tab")])],
    .obj [("type", .str "scroll"), ("rule", .str "unknown"),
      ("meta", .obj [("icon_name", .str "list"), ("title", .str "Feed")]),
      ("children", .arr [.obj [("type", .str "label")],
        .obj [("type", .str "label"), ("meta", .obj [("text", .str "later")])]])]])])]

theorem rendering_shows_visible_page :
    ∃ c, ((standardWith Unit [("hidden", false)]).compile page).outcome () = .ok (some c) ∧
      ∃ root view?, page.field? "structure" = some root ∧
        ((standardWith Unit [("hidden", false)]).render page).outcome () = .ok view? ∧
        ShowsVisible (standardWith Unit [("hidden", false)]) () (.ofJson root) view? :=
  ⟨_, rfl, rendering_shows_visible [("hidden", false)] () page _ rfl⟩

end Factory

end ViewTree
