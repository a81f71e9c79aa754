import Mathlib.Logic.Relation
import ViewTree.Proofs.Render.Meaning
import ViewTree.Proofs.Render.Picture

/-!
# Rules can be resolved in the document

With the values of all rules at hand, a document can be rid of them before it is compiled. A rule
that is none, or is true, is taken out of its node; an entry whose rule is false is taken out with
all that is below it. The theorem of this file is that nobody sees the difference:

> However many such edits are made, wherever and in whatever order, the view stays as it was.

**Only stacks and tab bars lose entries.** A scrolling container takes the first entry that
resolves, shown or not, so there the entry behind the hidden one would come into view. In a stack or
a tab bar an entry that is shown as nothing leaves no trace, neither in the other tabs nor in the
index of the selected one, which is a position among the tabs that are there.

The argument is a congruence. Two values are **alike** when nothing above them can tell them apart:
not by whether they resolve, nor by the configuration that a tab bar reads from them, nor by their
view. An edit gives a value that is alike, and a node stays alike when one of its entries does.
-/

set_option autoImplicit false

namespace ViewTree

variable {σ : Type}

/-! ## Changing the fields of an object -/

namespace Json

/-- An object without the fields under a key. -/
def without (j : Json) (key : String) : Json :=
  match j with
  | .obj fields => .obj (fields.filter fun field => field.1 ≠ key)
  | j => j

/-- An object with another value under a key that it has. -/
def replace (j : Json) (key : String) (value : Json) : Json :=
  match j with
  | .obj fields => .obj (fields.map fun field => if field.1 = key then (key, value) else field)
  | j => j

theorem field?_without (j : Json) {key other : String} (h : other ≠ key) :
    (j.without key).field? other = j.field? other := by
  cases j with
  | obj fields =>
    show (fields.filter fun field => field.1 ≠ key).lookup other = fields.lookup other
    induction fields with
    | nil => rfl
    | cons field rest ih =>
      rw [List.filter_cons, Dictionary.lookup_cons]
      by_cases hfield : field.1 = key
      · rw [if_neg (by simp [hfield]), ih, if_neg (by rw [hfield]; exact h)]
      · rw [if_pos (by simp [hfield]), Dictionary.lookup_cons, ih]
  | _ => rfl

theorem field?_without_self (j : Json) (key : String) : (j.without key).field? key = none := by
  cases j with
  | obj fields =>
    show (fields.filter fun field => field.1 ≠ key).lookup key = none
    rw [List.lookup_eq_none_iff]
    intro field hfield
    have hne : field.1 ≠ key := by simpa using (List.mem_filter.mp hfield).2
    exact bne_iff_ne.mpr hne.symm
  | _ => rfl

theorem field?_replace (j : Json) {key other : String} (value : Json) (h : other ≠ key) :
    (j.replace key value).field? other = j.field? other := by
  cases j with
  | obj fields =>
    show (fields.map fun field => if field.1 = key then (key, value) else field).lookup other =
      fields.lookup other
    induction fields with
    | nil => rfl
    | cons field rest ih =>
      rw [List.map_cons, Dictionary.lookup_cons, Dictionary.lookup_cons, ih]
      by_cases hfield : field.1 = key
      · rw [if_pos hfield, if_neg h, if_neg (by rw [hfield]; exact h)]
      · rw [if_neg hfield]
  | _ => rfl

theorem field?_replace_self (j : Json) (key : String) (value : Json) :
    (j.replace key value).field? key = (j.field? key).map fun _ => value := by
  cases j with
  | obj fields =>
    show (fields.map fun field => if field.1 = key then (key, value) else field).lookup key =
      (fields.lookup key).map fun _ => value
    induction fields with
    | nil => rfl
    | cons field rest ih =>
      rw [List.map_cons, Dictionary.lookup_cons, Dictionary.lookup_cons, ih]
      by_cases hfield : field.1 = key
      · rw [if_pos hfield, if_pos rfl, if_pos hfield.symm]
        rfl
      · rw [if_neg hfield, if_neg (Ne.symm hfield), if_neg (Ne.symm hfield)]
  | _ => rfl

@[simp] theorem isObject_without (j : Json) (key : String) :
    (j.without key).isObject = j.isObject := by
  cases j <;> rfl

@[simp] theorem isObject_replace (j : Json) (key : String) (value : Json) :
    (j.replace key value).isObject = j.isObject := by
  cases j <;> rfl

end Json

namespace Node

/-- The entries of a node, one by one replaced. -/
theorem entriesOf_replace {j : Json} (h : entriesOf j ≠ []) (items : List Json) :
    entriesOf (j.replace childrenKey (.arr items)) = items := by
  unfold entriesOf at h ⊢
  rw [Json.field?_replace_self]
  cases hfield : j.field? childrenKey with
  | none => rw [hfield] at h; exact absurd rfl h
  | some value => rfl

end Node

/-! ## Edits -/

/-- **An edit of a node**, given what rules say: at the node itself, or at one of its entries. -/
inductive Edit (verdict : Json → Option Bool) : Json → Json → Prop
  /-- Takes out a rule that is none or is true. -/
  | rule {j spec : Json} :
      Node.ruleOf? j = some spec → verdict spec = none ∨ verdict spec = some true →
      Edit verdict j (j.without Node.ruleKey)
  /-- Takes out an entry of a stack or a tab bar whose rule is false. -/
  | entry {j hidden spec : Json} {before after : List Json} :
      Node.typeOf? j = some "stack" ∨ Node.typeOf? j = some "tabbar" →
      Node.entriesOf j = before ++ hidden :: after →
      Node.ruleOf? hidden = some spec → verdict spec = some false →
      Edit verdict j (j.replace Node.childrenKey (.arr (before ++ after)))
  /-- Edits an entry. -/
  | inside {j entry entry' : Json} {before after : List Json} :
      Node.entriesOf j = before ++ entry :: after → Edit verdict entry entry' →
      Edit verdict j (j.replace Node.childrenKey (.arr (before ++ entry' :: after)))

/-- An edit of a document is one of the node under its `structure`. -/
inductive DocumentEdit (verdict : Json → Option Bool) : Json → Json → Prop
  | root {document root root' : Json} :
      document.field? Factory.structureKey = some root → Edit verdict root root' →
      DocumentEdit verdict document (document.replace Factory.structureKey root')

namespace Factory

/-! ## What the nodes above can tell -/

/-- **Two values that no node above can tell apart**, neither compiling nor shown. -/
structure Alike (f : Factory σ View) (s : σ) (j j' : Json) : Prop where
  isObject : j'.isObject = j.isObject
  settings : Node.settings? j' = Node.settings? j
  resolves : f.resolves (.ofJson j') = f.resolves (.ofJson j)
  shown : f.shown s (.ofJson j') = f.shown s (.ofJson j)
  typed : Node.Typed j → Node.Typed j'

theorem shownBelow_append (f : Factory σ View) (s : σ) (first second : List Node) :
    f.shownBelow s (first ++ second) = f.shownBelow s first ++ f.shownBelow s second := by
  induction first with
  | nil => rfl
  | cons entry rest ih =>
    rw [List.cons_append, shownBelow, shownBelow, ih]
    split <;> rfl

theorem shownBelow_insert (f : Factory σ View) (s : σ) (before after : List Json) (entry : Json) :
    f.shownBelow s ((before ++ entry :: after).map Node.ofJson) =
      f.shownBelow s (before.map Node.ofJson) ++
        (f.shownBelow s [.ofJson entry] ++ f.shownBelow s (after.map Node.ofJson)) := by
  rw [List.map_append, List.map_cons, shownBelow_append, ← List.singleton_append,
    shownBelow_append]

variable (values : List (String × Bool)) (s : σ)

/-- **Two nodes are alike** when they say the same and their type shows the same of what is
below. -/
theorem alike_of_view {j j' : Json} (hobject : j'.isObject = j.isObject)
    (htype : Node.typeOf? j' = Node.typeOf? j) (hsettings : Node.settings? j' = Node.settings? j)
    (hrule : (Node.ruleOf? j').bind ((standardWith σ values).verdict s) = some false ↔
      (Node.ruleOf? j).bind ((standardWith σ values).verdict s) = some false)
    (hview : ∀ k, Standard.ofNode? j = some k →
      k.view (Node.settings? j)
          ((standardWith σ values).shownBelow s ((Node.entriesOf j').map Node.ofJson)) =
        k.view (Node.settings? j)
          ((standardWith σ values).shownBelow s ((Node.entriesOf j).map Node.ofJson)))
    (htyped : (∀ entry ∈ Node.entriesOf j, entry.isObject → Node.Typed entry) →
      ∀ entry ∈ Node.entriesOf j', entry.isObject → Node.Typed entry) :
    Alike (standardWith σ values) s j j' := by
  have hnode : Standard.ofNode? j' = Standard.ofNode? j := by
    rw [Standard.ofNode?, Standard.ofNode?, htype]
  refine ⟨hobject, hsettings, ?_, ?_, ?_⟩
  -- A scrolling container resolves when it is shown as something but for its rule.
  · rw [Node.ofJson_eq, Node.ofJson_eq, resolves_standardWith values s,
      resolves_standardWith values s, hnode]
    cases hk : Standard.ofNode? j with
    | none => rfl
    | some k =>
      cases k with
      | scroll =>
        have hsome := congrArg Option.isSome (hview .scroll hk)
        rw [Standard.isSome_view, Standard.isSome_view] at hsome
        exact hsome
      | _ => rfl
  · rw [Node.ofJson_eq, Node.ofJson_eq, shown, shown, hnode, hsettings]
    by_cases hclosed : (Node.ruleOf? j).bind ((standardWith σ values).verdict s) = some false
    · rw [if_pos hclosed, if_pos (hrule.mpr hclosed)]
    · rw [if_neg hclosed, if_neg (fun h => hclosed (hrule.mp h))]
      cases hk : Standard.ofNode? j with
      | none => rfl
      | some k => exact hview k hk
  · rw [Node.typed_iff, Node.typed_iff, htype]
    exact fun h => ⟨h.1, htyped h.2⟩

/-! ## Edits cannot be told -/

theorem alike_without_rule {j spec : Json} (hspec : Node.ruleOf? j = some spec)
    (hverdict : (standardWith σ values).verdict s spec = none ∨
      (standardWith σ values).verdict s spec = some true) :
    Alike (standardWith σ values) s j (j.without Node.ruleKey) := by
  have hentries : Node.entriesOf (j.without Node.ruleKey) = Node.entriesOf j := by
    rw [Node.entriesOf, Node.entriesOf, Json.field?_without _ (by decide)]
  refine alike_of_view values s (by simp) ?_ ?_ ?_ ?_ ?_
  · rw [Node.typeOf?, Node.typeOf?, Json.field?_without _ (by decide)]
  · rw [Node.settings?, Node.settings?, Json.field?_without _ (by decide)]
  · rw [hspec, Node.ruleOf?, Json.field?_without_self, Option.bind_none, Option.bind_some]
    rcases hverdict with h | h <;> simp [h]
  · rw [hentries]
    exact fun _ _ => rfl
  · rw [hentries]
    exact id

theorem alike_replace_children {j : Json} {items : List Json} (hne : Node.entriesOf j ≠ [])
    (hview : ∀ k, Standard.ofNode? j = some k →
      k.view (Node.settings? j) ((standardWith σ values).shownBelow s (items.map Node.ofJson)) =
        k.view (Node.settings? j)
          ((standardWith σ values).shownBelow s ((Node.entriesOf j).map Node.ofJson)))
    (htyped : (∀ entry ∈ Node.entriesOf j, entry.isObject → Node.Typed entry) →
      ∀ entry ∈ items, entry.isObject → Node.Typed entry) :
    Alike (standardWith σ values) s j (j.replace Node.childrenKey (.arr items)) := by
  refine alike_of_view values s (by simp) ?_ ?_ ?_ ?_ ?_
  · rw [Node.typeOf?, Node.typeOf?, Json.field?_replace _ _ (by decide)]
  · rw [Node.settings?, Node.settings?, Json.field?_replace _ _ (by decide)]
  · rw [Node.ruleOf?, Node.ruleOf?, Json.field?_replace _ _ (by decide)]
  · rw [Node.entriesOf_replace hne]
    exact hview
  · rw [Node.entriesOf_replace hne]
    exact htyped

theorem filterMap_pictureOf_hidden {hidden spec : Json} (hspec : Node.ruleOf? hidden = some spec)
    (hverdict : (standardWith σ values).verdict s spec = some false) (k : Standard) :
    ((standardWith σ values).shownBelow s [.ofJson hidden]).filterMap k.pictureOf = [] := by
  have hshown : (standardWith σ values).shown s (.ofJson hidden) = none := by
    rw [Node.ofJson_eq, shown, hspec, Option.bind_some, if_pos hverdict]
  rw [shownBelow, shownBelow, hshown]
  split
  · rw [List.filterMap_cons, Standard.pictureOf_none, List.filterMap_nil]
  · rfl

theorem alike_without_entry {j hidden spec : Json} {before after : List Json}
    (htype : Node.typeOf? j = some "stack" ∨ Node.typeOf? j = some "tabbar")
    (hentries : Node.entriesOf j = before ++ hidden :: after)
    (hspec : Node.ruleOf? hidden = some spec)
    (hverdict : (standardWith σ values).verdict s spec = some false) :
    Alike (standardWith σ values) s j
      (j.replace Node.childrenKey (.arr (before ++ after))) := by
  refine alike_replace_children values s (by rw [hentries]; simp) ?_ ?_
  -- With a scrolling container this is where it would go wrong: it is no cluster.
  · intro k hk
    have hcluster : k.kind = .cluster := by
      rcases htype with htype | htype
      · rw [Standard.ofNode?, htype] at hk
        obtain rfl := Option.some.inj hk
        rfl
      · rw [Standard.ofNode?, htype] at hk
        obtain rfl := Option.some.inj hk
        rfl
    refine Standard.view_congr hcluster _ ?_
    rw [hentries, shownBelow_insert, List.map_append, shownBelow_append, List.filterMap_append,
      List.filterMap_append, List.filterMap_append,
      filterMap_pictureOf_hidden values s hspec hverdict, List.nil_append]
  · intro h entry he
    refine h entry ?_
    rw [hentries]
    rcases List.mem_append.mp he with he | he
    · exact List.mem_append_left _ he
    · exact List.mem_append_right _ (List.mem_cons_of_mem _ he)

/-- **A node stays alike when an entry does.** -/
theorem Alike.inside {j entry entry' : Json} {before after : List Json}
    (hentries : Node.entriesOf j = before ++ entry :: after)
    (h : Alike (standardWith σ values) s entry entry') :
    Alike (standardWith σ values) s j
      (j.replace Node.childrenKey (.arr (before ++ entry' :: after))) := by
  refine alike_replace_children values s (by rw [hentries]; simp) ?_ ?_
  · intro k _
    have hbelow : (standardWith σ values).shownBelow s [.ofJson entry'] =
        (standardWith σ values).shownBelow s [.ofJson entry] := by
      simp only [shownBelow, Node.source_ofJson, h.isObject, h.settings, h.resolves, h.shown]
    rw [hentries, shownBelow_insert, shownBelow_insert, hbelow]
  · intro hall other hother hobject
    rw [hentries] at hall
    rcases List.mem_append.mp hother with hother | hother
    · exact hall other (List.mem_append_left _ hother) hobject
    · rcases List.mem_cons.mp hother with rfl | hother
      · refine h.typed (hall entry (List.mem_append_right _ List.mem_cons_self) ?_)
        rw [← h.isObject]
        exact hobject
      · exact hall other (List.mem_append_right _ (List.mem_cons_of_mem _ hother)) hobject

theorem alike_of_edit {j j' : Json} (h : Edit ((standardWith σ values).verdict s) j j') :
    Alike (standardWith σ values) s j j' := by
  induction h with
  | rule hspec hverdict => exact alike_without_rule values s hspec hverdict
  | entry htype hentries hspec hverdict =>
    exact alike_without_entry values s htype hentries hspec hverdict
  | inside hentries _ ih => exact ih.inside values s hentries

/-! ## Edited documents -/

/-- An edited document still compiles, and is shown as it was. -/
theorem shown_of_documentEdit {document document' root : Json}
    (h : DocumentEdit ((standardWith σ values).verdict s) document document')
    (hroot : document.field? structureKey = some root)
    (htyped : Node.Typed root) :
    ∃ root', document'.field? structureKey = some root' ∧ Node.Typed root' ∧
      (standardWith σ values).shown s (.ofJson root') =
        (standardWith σ values).shown s (.ofJson root) := by
  cases h with
  | @root before after hfield hedit =>
    obtain rfl := Option.some.inj (hroot.symm.trans hfield)
    have halike := alike_of_edit values s hedit
    refine ⟨after, ?_, halike.typed htyped, halike.shown⟩
    rw [Json.field?_replace_self, hfield, Option.map_some]

/-- **Rules can be resolved in the document.** A document that compiles is rendered as the same
view, or as nothing, after any number of edits that take out what its rules have decided. -/
theorem edits_keep_view (document document' : Json) (component? : Option (Component σ View))
    (h : ((standardWith σ values).compile document).outcome s = .ok component?)
    (hedits : Relation.ReflTransGen (DocumentEdit ((standardWith σ values).verdict s))
      document document') :
    ∃ view?, ((standardWith σ values).render document).outcome s = .ok view? ∧
      ((standardWith σ values).render document').outcome s = .ok view? := by
  obtain ⟨root, hroot, htyped, hrender⟩ := render_of_compiles values h
  have hinvariant : ∃ root', document'.field? structureKey = some root' ∧ Node.Typed root' ∧
      (standardWith σ values).shown s (.ofJson root') =
        (standardWith σ values).shown s (.ofJson root) := by
    -- What is preserved is the view, and that the document compiles, which dropping nodes cannot
    -- spoil.
    induction hedits with
    | refl => exact ⟨root, hroot, htyped, rfl⟩
    | tail _ hedit ih =>
      obtain ⟨before, hbefore, htyped, hshown⟩ := ih
      obtain ⟨after, hafter, htyped, hstep⟩ := shown_of_documentEdit values s hedit hbefore htyped
      exact ⟨after, hafter, htyped, hstep.trans hshown⟩
  obtain ⟨root', hroot', htyped', hshown⟩ := hinvariant
  exact ⟨_, hrender, (render_of_typed values hroot' htyped' s).trans (congrArg _ hshown)⟩

/-- A document with a tab bar that selects its first tab. -/
def barDocument (children : List Json) : Json :=
  .obj [("structure", .obj [("type", .str "tabbar"),
    ("meta", .obj [("selected_index", .ofUInt64 0)]), ("children", .arr children)])]

/-- A label that is a tab, with further fields. -/
def homeTab (more : List (String × Json)) : Json :=
  .obj ([("type", .str "label"), ("meta", .obj [("icon_name", .str "home"), ("text", .str "Hello"),
    ("title", .str "Home")])] ++ more)

/-- A tab behind a rule. -/
def secretTab : Json :=
  .obj [("type", .str "stack"), ("rule", .str "hidden"),
    ("meta", .obj [("icon_name", .str "lock"), ("title", .str "Secret")])]

/-- A tab behind the opposite rule. -/
def gatedTab : Json := homeTab [("rule", .obj [("NOT", .str "hidden")])]

theorem edits_keep_view_bar :
    ∃ c, ((standardWith Unit [("hidden", false)]).compile
        (barDocument [secretTab, gatedTab])).outcome () = .ok (some c) ∧
      Relation.ReflTransGen (DocumentEdit ((standardWith Unit [("hidden", false)]).verdict ()))
        (barDocument [secretTab, gatedTab]) (barDocument [homeTab []]) ∧
      ∃ view,
        ((standardWith Unit [("hidden", false)]).render
          (barDocument [secretTab, gatedTab])).outcome () = .ok (some view) ∧
        ((standardWith Unit [("hidden", false)]).render
          (barDocument [homeTab []])).outcome () = .ok (some view) ∧
        view.kind = "tabbar" ∧ view.properties.get? "selected_index" = some (.ofUInt64 0) ∧
        view.children.map (fun tab => (tab.kind, tab.title, tab.properties.get? "icon_name")) =
          [("label", some "Home", some (.str "home"))] := by
  have hentry : DocumentEdit ((standardWith Unit [("hidden", false)]).verdict ())
      (barDocument [secretTab, gatedTab]) (barDocument [gatedTab]) :=
    .root rfl (@Edit.entry _ _ secretTab _ [] _ (.inr rfl) rfl rfl rfl)
  have hrule : DocumentEdit ((standardWith Unit [("hidden", false)]).verdict ())
      (barDocument [gatedTab]) (barDocument [homeTab []]) :=
    .root rfl (@Edit.inside _ _ gatedTab _ [] [] rfl (.rule rfl (.inr rfl)))
  have hedits := Relation.ReflTransGen.tail (.single hentry) hrule
  obtain ⟨view?, hgated, hedited⟩ := edits_keep_view [("hidden", false)] () _ _ _ rfl hedits
  cases hgated
  exact ⟨_, rfl, hedits, _, rfl, hedited, rfl, rfl, rfl⟩

/-- A scrolling container. -/
def feed (entries : List Json) : Json := .obj [("type", .str "scroll"), ("children", .arr entries)]

/-- From a scrolling container an entry cannot be taken out: the next one comes into view. -/
example :
    (((standardWith Unit [("hidden", false)]).shown ()
        (.ofJson (feed [secretTab, homeTab []]))).map View.count,
      ((standardWith Unit [("hidden", false)]).shown ()
        (.ofJson (feed [homeTab []]))).map View.count) = (some 1, some 2) := by
  rfl

end Factory

end ViewTree
