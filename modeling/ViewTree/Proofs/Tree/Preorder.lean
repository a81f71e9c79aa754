import ViewTree.Proofs.Tree.Place

/-!
# Trees from top to bottom

A tree is read from top to bottom by taking a node first and then, in order, what is below it. Two
lists come about in this way, the list of all **places** and the **lines** of a text that gives one
line to each node. Both are determined by their equation at a node (`Lists`, `Walks`), whatever the
type of the tree is and however the functions are written down; so what is said of them is said here
once, for views, for components and for documents.

The list of places has every place once, because it ascends (`Lists.pairwise`) and has exactly the
places that can be followed (`Lists.mem_iff`). And the lines are those of the nodes at the places,
one by one (`Walks.lines_places`).

Nothing but the equation is known of a tree here, so there is no induction on it. The lists take its
part: what is below a node has a shorter list of places.
-/

set_option autoImplicit false

namespace ViewTree

variable {α β γ : Type} {below : α → List α}

/-! ## The same tree in another type -/

theorem follow_map {f : α → γ} {below' : γ → List γ} (h : ∀ a, below' (f a) = (below a).map f)
    (a : α) (p : Place) : follow below' (f a) p = (follow below a p).map f := by
  induction p generalizing a with
  | nil => rfl
  | cons i p ih =>
    rw [follow, follow, h, List.getElem?_map, Option.bind_map, Option.map_bind]
    exact congrArg _ (funext ih)

/-! ## Places -/

/-- The places of trees that stand side by side from a position on. -/
def placesBeside (start : Nat) : List (List Place) → List Place
  | [] => []
  | ps :: rest => ps.map (start :: ·) ++ placesBeside (start + 1) rest

theorem mem_placesBeside {q : Place} {lists : List (List Place)} {start : Nat} :
    q ∈ placesBeside start lists ↔
      ∃ i ps p, lists[i]? = some ps ∧ p ∈ ps ∧ q = (start + i) :: p := by
  induction lists generalizing start with
  | nil => simp [placesBeside]
  | cons ps rest ih =>
    rw [placesBeside, List.mem_append, List.mem_map, ih]
    constructor
    · rintro (⟨p, hp, rfl⟩ | ⟨i, ps', p, hps', hp, rfl⟩)
      · exact ⟨0, ps, p, rfl, hp, rfl⟩
      · exact ⟨i + 1, ps', p, hps', hp, by rw [Nat.add_right_comm, Nat.add_assoc]⟩
    · rintro ⟨i, ps', p, hps', hp, rfl⟩
      cases i with
      | zero =>
        obtain rfl := Option.some.inj hps'
        exact .inl ⟨p, hp, rfl⟩
      | succ i => exact .inr ⟨i, ps', p, hps', hp, by rw [Nat.add_right_comm, Nat.add_assoc]⟩

/-- A place comes before those on its right. -/
theorem pairwise_placesBeside {lists : List (List Place)}
    (h : ∀ ps ∈ lists, ps.Pairwise (· < ·)) (start : Nat) :
    (placesBeside start lists).Pairwise (· < ·) := by
  induction lists generalizing start with
  | nil => exact .nil
  | cons ps rest ih =>
    rw [placesBeside, List.pairwise_append]
    refine ⟨?_, ih (fun qs hqs => h qs (List.mem_cons_of_mem _ hqs)) (start + 1), ?_⟩
    · refine (h ps List.mem_cons_self).map _ fun p q hpq => ?_
      exact List.cons_lt_cons_iff.mpr (.inr ⟨rfl, hpq⟩)
    -- A place in the first tree is smaller than one in a later tree by its first step.
    · intro p hp q hq
      obtain ⟨p, -, rfl⟩ := List.mem_map.mp hp
      obtain ⟨i, qs, q, -, -, rfl⟩ := mem_placesBeside.mp hq
      exact List.cons_lt_cons_iff.mpr (.inl (by omega))

theorem length_le_of_mem {lists : List (List Place)} {ps : List Place} (h : ps ∈ lists)
    (start : Nat) : ps.length ≤ (placesBeside start lists).length := by
  induction lists generalizing start with
  | nil => exact absurd h List.not_mem_nil
  | cons head rest ih =>
    rw [placesBeside, List.length_append, List.length_map]
    rcases List.mem_cons.mp h with rfl | h
    · exact Nat.le_add_right _ _
    · exact Nat.le_add_left_of_le (ih h (start + 1))

/-- **A list of places, from top to bottom**: that of the node itself, then those below it. -/
structure Lists (below : α → List α) (places : α → List Place) : Prop where
  eq : ∀ a, places a = [] :: placesBeside 0 ((below a).map places)

namespace Lists

variable {places : α → List Place} (h : Lists below places)

include h

/-- There are fewer places below a node than from it on. -/
theorem length_lt {a b : α} (hb : b ∈ below a) : (places b).length < (places a).length := by
  rw [h.eq a, List.length_cons]
  exact Nat.lt_succ_of_le (length_le_of_mem (List.mem_map_of_mem hb) 0)

/-- What holds of a node when it holds of all that is below it holds of every node. -/
theorem induct {motive : α → Prop} (step : ∀ a, (∀ b ∈ below a, motive b) → motive a) (a : α) :
    motive a := by
  induction hn : (places a).length using Nat.strongRecOn generalizing a with
  | ind n ih =>
    subst hn
    exact step a fun b hb => ih _ (h.length_lt hb) b rfl

/-- **The places are those that can be followed.** -/
theorem mem_iff {a : α} {p : Place} : p ∈ places a ↔ ∃ b, follow below a p = some b := by
  induction p generalizing a with
  | nil =>
    rw [h.eq a]
    exact ⟨fun _ => ⟨a, rfl⟩, fun _ => List.mem_cons_self⟩
  | cons i p ih =>
    rw [h.eq a, List.mem_cons, mem_placesBeside]
    constructor
    · rintro (hnil | ⟨j, ps, q, hps, hq, heq⟩)
      · exact absurd hnil (List.cons_ne_nil _ _)
      · obtain ⟨rfl, rfl⟩ := List.cons.inj heq
        rw [List.getElem?_map, Option.map_eq_some_iff] at hps
        obtain ⟨b, hb, rfl⟩ := hps
        obtain ⟨c, hc⟩ := ih.mp hq
        exact ⟨c, follow_cons_eq_some.mpr ⟨b, by rw [Nat.zero_add]; exact hb, hc⟩⟩
    · rintro ⟨c, hc⟩
      obtain ⟨b, hb, hc⟩ := follow_cons_eq_some.mp hc
      refine .inr ⟨i, places b, p, ?_, ih.mpr ⟨c, hc⟩, by rw [Nat.zero_add]⟩
      rw [List.getElem?_map, hb, Option.map_some]

/-- **The places ascend**, so the list has them from top to bottom and each of them once. -/
theorem pairwise (a : α) : (places a).Pairwise (· < ·) := by
  induction a using h.induct with
  | step a ih =>
    rw [h.eq a, List.pairwise_cons]
    refine ⟨?_, pairwise_placesBeside ?_ 0⟩
    · intro p hp
      obtain ⟨i, ps, q, -, -, rfl⟩ := mem_placesBeside.mp hp
      exact List.nil_lt_cons _ _
    · intro ps hps
      obtain ⟨b, hb, rfl⟩ := List.mem_map.mp hps
      exact ih b hb

end Lists

/-! ## Lines -/

/-- Where each entry of a list comes from something, so does the list. -/
theorem exists_map_of_forall₂ {δ : Type} {f : γ → β} {R : γ → δ → Prop} {bs : List β}
    {ds : List δ} (h : List.Forall₂ (fun b d => ∃ c, b = f c ∧ R c d) bs ds) :
    ∃ cs, bs = cs.map f ∧ List.Forall₂ R cs ds := by
  induction h with
  | nil => exact ⟨[], rfl, .nil⟩
  | cons hb _ ih =>
    obtain ⟨c, rfl, hc⟩ := hb
    obtain ⟨cs, rfl, hcs⟩ := ih
    exact ⟨c :: cs, rfl, .cons hc hcs⟩

/-- **A walk from top to bottom** that gives a line to each node at its depth. -/
structure Walks (below : α → List α) (line : Nat → α → β) (lines : Nat → α → List β) : Prop where
  eq : ∀ depth a, lines depth a = line depth a :: (below a).flatMap (lines (depth + 1))

namespace Walks

variable {line : Nat → α → β} {lines : Nat → α → List β} {places : α → List Place}

theorem linesBeside_places {nodes : List α} {depth : Nat}
    (h : ∀ a ∈ nodes, List.Forall₂ (fun l p => ∃ b, follow below a p = some b ∧
      l = line (depth + p.length) b) (lines depth a) (places a)) (start : Nat) :
    List.Forall₂ (fun l p => ∃ i q a b, p = (start + i) :: q ∧ nodes[i]? = some a ∧
        follow below a q = some b ∧ l = line (depth + q.length) b)
      (nodes.flatMap (lines depth)) (placesBeside start (nodes.map places)) := by
  induction nodes generalizing start with
  | nil => exact .nil
  | cons a rest ih =>
    rw [List.flatMap_cons, List.map_cons, placesBeside]
    refine List.rel_append ?_ ?_
    · rw [List.forall₂_map_right_iff]
      refine (h a List.mem_cons_self).imp ?_
      rintro l q ⟨b, hb, hl⟩
      exact ⟨0, q, a, b, rfl, rfl, hb, hl⟩
    · refine (ih (fun b hb => h b (List.mem_cons_of_mem _ hb)) (start + 1)).imp ?_
      rintro l p ⟨i, q, c, b, rfl, hc, hb, hl⟩
      exact ⟨i + 1, q, c, b, by rw [Nat.add_right_comm, Nat.add_assoc], hc, hb, hl⟩

/-- **The lines are those of the nodes at the places**, one by one. -/
theorem lines_places (hwalk : Walks below line lines) (hplaces : Lists below places) (a : α)
    (depth : Nat) :
    List.Forall₂ (fun l p => ∃ b, follow below a p = some b ∧ l = line (depth + p.length) b)
      (lines depth a) (places a) := by
  induction a using hplaces.induct generalizing depth with
  | step a ih =>
    rw [hwalk.eq depth a, hplaces.eq a]
    refine .cons ⟨a, rfl, rfl⟩ ?_
    refine (linesBeside_places (fun b hb => ih b hb (depth + 1)) 0).imp ?_
    rintro l p ⟨i, q, b, c, rfl, hb, hc, rfl⟩
    refine ⟨c, follow_cons_eq_some.mpr ⟨b, by rw [Nat.zero_add]; exact hb, hc⟩, ?_⟩
    rw [List.length_cons, Nat.add_assoc, Nat.add_comm 1]

end Walks

end ViewTree
