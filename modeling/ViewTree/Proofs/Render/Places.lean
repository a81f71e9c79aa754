import Mathlib.Data.Set.Card
import ViewTree.Proofs.Tree.Preorder
import ViewTree.View.Basic

/-!
# The places of a view

The widgets of a view, by where they stand. The list of all places ascends, so it has every place
once, and it is as long as the view counts widgets. So a view that corresponds to a set of places
elsewhere counts that set (`Correspondence.count_eq`).
-/

set_option autoImplicit false

namespace ViewTree

namespace View

/-! ## Induction -/

@[induction_eliminator]
theorem induct {motive : View → Prop}
    (step : ∀ kind title properties children, (∀ v ∈ children, motive v) →
      motive ⟨kind, title, properties, children⟩) (v : View) : motive v := by
  refine @View.rec motive (fun children => ∀ v ∈ children, motive v) step ?_ ?_ v
  · intro v hv
    exact absurd hv (by simp)
  · intro head rest hhead hrest v hv
    rcases List.mem_cons.mp hv with rfl | hv
    · exact hhead
    · exact hrest v hv

/-! ## The list -/

mutual

/-- The places of all widgets of a view. -/
def places : View → List Place
  | ⟨_, _, _, children⟩ => [] :: placesFrom 0 children

/-- The places of the widgets of several views, which stand side by side from a position on. -/
def placesFrom (start : Nat) : List View → List Place
  | [] => []
  | v :: rest => (places v).map (start :: ·) ++ placesFrom (start + 1) rest

end

theorem length_placesFrom {children : List View}
    (h : ∀ v ∈ children, v.places.length = v.count) (start : Nat) :
    (placesFrom start children).length = countAll children := by
  induction children generalizing start with
  | nil => rfl
  | cons v rest ih =>
    rw [placesFrom, List.length_append, List.length_map, h v List.mem_cons_self,
      ih (fun w hw => h w (List.mem_cons_of_mem _ hw)), countAll]

theorem length_places (v : View) : v.places.length = v.count := by
  induction v with
  | step kind title properties children ih =>
    rw [places, List.length_cons, length_placesFrom ih, count, Nat.add_comm]

theorem placesFrom_eq (start : Nat) (children : List View) :
    placesFrom start children = placesBeside start (children.map places) := by
  induction children generalizing start with
  | nil => rfl
  | cons v rest ih => rw [placesFrom, ih, List.map_cons, placesBeside]

theorem lists_places : Lists children places where
  eq v := by
    obtain ⟨kind, title, properties, children⟩ := v
    rw [places, placesFrom_eq]

theorem mem_places {p : Place} {v : View} :
    p ∈ v.places ↔ ∃ w, follow View.children v p = some w := lists_places.mem_iff

/-- **The places ascend**, so the list has them from top to bottom. -/
theorem pairwise_places (v : View) : v.places.Pairwise (· < ·) := lists_places.pairwise v

theorem nodup_places (v : View) : v.places.Nodup := by
  refine v.pairwise_places.imp ?_
  rintro p q hpq rfl
  exact List.lt_irrefl p hpq

end View

/-! ## Counting -/

/-- A bijection counts: as many widgets as places to be shown. -/
theorem Correspondence.count_eq {v : View} {target : Place → Prop} {origin : Place → Place}
    (h : Correspondence View.children v target origin) :
    v.count = Set.ncard {q | target q} := by
  have hinjective : ∀ p ∈ v.places, ∀ p' ∈ v.places, origin p = origin p' → p = p' := by
    intro p hp p' hp' heq
    obtain ⟨w, hw⟩ := View.mem_places.mp hp
    obtain ⟨w', hw'⟩ := View.mem_places.mp hp'
    exact h.injective p p' w w' hw hw' heq
  have hnodup : (v.places.map origin).Nodup := v.nodup_places.map_on hinjective
  have htarget : {q | target q} = ((v.places.map origin).toFinset : Set Place) := by
    ext q
    rw [Set.mem_ofPred_eq, List.coe_toFinset, Set.mem_ofPred_eq, List.mem_map]
    constructor
    · intro hq
      obtain ⟨p, w, hw, hp⟩ := h.onto q hq
      exact ⟨p, View.mem_places.mpr ⟨w, hw⟩, hp⟩
    · rintro ⟨p, hp, rfl⟩
      obtain ⟨w, hw⟩ := View.mem_places.mp hp
      exact h.into p w hw
  rw [htarget, Set.ncard_coe_finset, List.toFinset_card_of_nodup hnodup, List.length_map,
    v.length_places]

end ViewTree
