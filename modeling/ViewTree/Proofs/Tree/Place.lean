import Mathlib.Data.List.Forall2
import Mathlib.Tactic.Choose

/-!
# Places in a tree

A document, a component and a view are three different types, but all three are trees through a
list of what is below a node. A **place** is the way from a root down to a node: the position to
take at each step. It says which node is meant where two nodes are equal, and it carries the two
things a picture of one tree in another has to keep — who is whose parent, and the order of
siblings.

## Selections

A component pictures its document by leaving nodes out, and a view pictures it by leaving out more.
Both times the nodes that stay are given by a **selection**: for each node, those of its entries
that are kept, each with its position among all entries. What can be reached from the root through
the selection (`Reached`) is the set of places that the picture has to show.

## The theorem

`Mirrors` says that a tree shows a selection: the nodes below each node are, one by one and in
order, those that were selected. It is how an induction over the data proves it. `Correspondence` is
what it means: a map from the places of the picture to places of the original that keeps parents and
the order of siblings, that hits every place to be shown, and hits none twice.
`Mirrors.correspondence` is the way from the first to the second, and the only induction on places
that components and views need.
-/

set_option autoImplicit false

namespace ViewTree

variable {α β : Type}

/-- The way from a root to a node: a position for each step down. -/
abbrev Place : Type := List Nat

/-! ## Following a place -/

/-- The node at a place, if the tree has it. -/
def follow (below : α → List α) : α → Place → Option α
  | a, [] => some a
  | a, i :: p => (below a)[i]?.bind fun b => follow below b p

theorem follow_cons_eq_some {below : α → List α} {a c : α} {i : Nat} {p : Place} :
    follow below a (i :: p) = some c ↔ ∃ b, (below a)[i]? = some b ∧ follow below b p = some c := by
  rw [follow, Option.bind_eq_some_iff]

/-! ## Places through a selection -/

/-- The nodes that can be reached from a node through a selection, with their places. -/
inductive Reached (keep : α → List (α × Nat)) : α → Place → α → Prop
  | here {a : α} : Reached keep a [] a
  | down {a b c : α} {i : Nat} {p : Place} :
      (b, i) ∈ keep a → Reached keep b p c → Reached keep a (i :: p) c

variable {keep : α → List (α × Nat)}

/-- What is reached along two ways one after the other is reached by way of what is in between. -/
theorem reached_append {a c : α} {p q : Place} :
    Reached keep a (p ++ q) c ↔ ∃ b, Reached keep a p b ∧ Reached keep b q c := by
  constructor
  · intro h
    induction p generalizing a with
    | nil => exact ⟨a, .here, h⟩
    | cons i p ih =>
      cases h with
      | down hb h =>
        obtain ⟨b, hfirst, hsecond⟩ := ih h
        exact ⟨b, .down hb hfirst, hsecond⟩
  · rintro ⟨b, hfirst, hsecond⟩
    induction hfirst with
    | here => exact hsecond
    | down hb _ ih => exact .down hb (ih hsecond)

theorem reached_singleton {a c : α} {i : Nat} : Reached keep a [i] c ↔ (c, i) ∈ keep a := by
  constructor
  · intro h
    cases h with
    | down hc h =>
      cases h
      exact hc
  · exact fun hc => .down hc .here

/-- A selection of what is below a node, each at its position, only reaches what is at the place. -/
theorem Reached.follow_eq {entries : α → List α}
    (hkeep : ∀ a, ∀ e ∈ keep a, (entries a)[e.2]? = some e.1) {a b : α} {p : Place}
    (h : Reached keep a p b) : follow entries a p = some b := by
  induction h with
  | here => rfl
  | down he _ ih => exact follow_cons_eq_some.mpr ⟨_, hkeep _ _ he, ih⟩

/-! ## Pictures -/

/-- **A tree shows a selection.** What is below a node of the picture is, one by one, what was
selected below the node that it shows, and each is related to its original by `R`. -/
inductive Mirrors (keep : α → List (α × Nat)) (below : β → List β) (R : α → β → Prop) :
    α → β → Prop
  | intro {a : α} {b : β} (label : R a b) (length : (keep a).length = (below b).length)
      (step : ∀ (i : Nat) (e : α × Nat) (c : β), (keep a)[i]? = some e →
        (below b)[i]? = some c → Mirrors keep below R e.1 c) : Mirrors keep below R a b

theorem Mirrors.of_forall₂ {below : β → List β} {R : α → β → Prop} {a : α} {b : β}
    (label : R a b)
    (h : List.Forall₂ (fun e c => Mirrors keep below R e.1 c) (keep a) (below b)) :
    Mirrors keep below R a b := by
  refine .intro label h.length_eq ?_
  intro i e c he hc
  obtain ⟨hlt, rfl⟩ := List.getElem?_eq_some_iff.mp he
  obtain ⟨hlt', rfl⟩ := List.getElem?_eq_some_iff.mp hc
  exact h.get hlt hlt'

/-- A picture is a picture still when its root is replaced by one with the same nodes below. -/
theorem Mirrors.congr {below : β → List β} {R : α → β → Prop} {a : α} {b b' : β}
    (h : Mirrors keep below R a b) (hlabel : R a b → R a b') (hbelow : below b = below b') :
    Mirrors keep below R a b' := by
  obtain ⟨label, length, step⟩ := h
  exact .intro (hlabel label) (hbelow ▸ length) (hbelow ▸ step)

/-- **An order- and parent-preserving bijection** from the places of a tree onto a set of places of
another. -/
structure Correspondence (below : β → List β) (b : β) (target : Place → Prop)
    (origin : Place → Place) : Prop where
  root : origin [] = []
  /-- A child stays a child of the same parent, behind those that it was behind. -/
  step : ∀ p i c, follow below b (p ++ [i]) = some c →
    ∃ j, origin (p ++ [i]) = origin p ++ [j] ∧
      ∀ i' < i, ∃ j' < j, origin (p ++ [i']) = origin p ++ [j']
  /-- Only places of the set are shown. -/
  into : ∀ p c, follow below b p = some c → target (origin p)
  /-- All places of the set are shown. -/
  onto : ∀ q, target q → ∃ p c, follow below b p = some c ∧ origin p = q
  /-- No place is shown twice. -/
  injective : ∀ p p' c c', follow below b p = some c → follow below b p' = some c' →
    origin p = origin p' → p = p'

/-- Where a place of a picture comes from, put together from the selection at its root and the
origins in each of its children. -/
def originOf (kept : List (α × Nat)) (inside : Nat → Place → Place) : Place → Place
  | [] => []
  | i :: p =>
    match kept[i]? with
    | some e => e.2 :: inside i p
    | none => []

theorem originOf_cons {kept : List (α × Nat)} {inside : Nat → Place → Place} {i : Nat} {p : Place}
    {e : α × Nat} (h : kept[i]? = some e) : originOf kept inside (i :: p) = e.2 :: inside i p := by
  rw [originOf, h]

/-- Selected entries whose positions ascend are told apart by their positions. -/
theorem getElem?_lt_of_ascending {kept : List (α × Nat)} (hkept : kept.Pairwise (·.2 < ·.2))
    {i i' : Nat} {e e' : α × Nat} (hi : kept[i]? = some e) (hi' : kept[i']? = some e')
    (h : i < i') : e.2 < e'.2 := by
  obtain ⟨hlt, rfl⟩ := List.getElem?_eq_some_iff.mp hi
  obtain ⟨hlt', rfl⟩ := List.getElem?_eq_some_iff.mp hi'
  exact List.pairwise_iff_getElem.mp hkept i i' hlt hlt' h

theorem index_eq_of_ascending {kept : List (α × Nat)} (hkept : kept.Pairwise (·.2 < ·.2))
    {i i' : Nat} {e e' : α × Nat} (hi : kept[i]? = some e) (hi' : kept[i']? = some e')
    (h : e.2 = e'.2) : i = i' := by
  rcases Nat.lt_trichotomy i i' with hlt | heq | hgt
  · exact absurd h (Nat.ne_of_lt (getElem?_lt_of_ascending hkept hi hi' hlt))
  · exact heq
  · exact absurd h.symm (Nat.ne_of_lt (getElem?_lt_of_ascending hkept hi' hi hgt))

theorem exists_getElem?_of_length_eq {as : List α} {bs : List β} (h : as.length = bs.length)
    {i : Nat} {b : β} (hb : bs[i]? = some b) : ∃ a, as[i]? = some a := by
  obtain ⟨hlt, -⟩ := List.getElem?_eq_some_iff.mp hb
  exact ⟨_, List.getElem?_eq_getElem (by rw [h]; exact hlt)⟩

/-- What the correspondence of a root is put together from: as many children as selected entries,
and a correspondence between each child and its entry. -/
structure Pieces (keep : α → List (α × Nat)) (below : β → List β) (a : α) (b : β)
    (inside : Nat → Place → Place) : Prop where
  ascending : (keep a).Pairwise (·.2 < ·.2)
  length : (keep a).length = (below b).length
  child : ∀ (i : Nat) (e : α × Nat) (c : β), (keep a)[i]? = some e → (below b)[i]? = some c →
    Correspondence below c (fun q => ∃ x, Reached keep e.1 q x) (inside i)

namespace Pieces

variable {below : β → List β} {a : α} {b : β} {inside : Nat → Place → Place}

/-- Below the root a place goes on in a child, which stands for an entry. -/
theorem enter (h : Pieces keep below a b inside) {i : Nat} {p : Place} {c : β}
    (hp : follow below b (i :: p) = some c) :
    ∃ e d, (keep a)[i]? = some e ∧ follow below d p = some c ∧
      Correspondence below d (fun q => ∃ x, Reached keep e.1 q x) (inside i) := by
  obtain ⟨d, hd, hp⟩ := follow_cons_eq_some.mp hp
  obtain ⟨e, he⟩ := exists_getElem?_of_length_eq h.length hd
  exact ⟨e, d, he, hp, h.child i e d he hd⟩

theorem originOf_child (h : Pieces keep below a b inside) {i : Nat} {e : α × Nat}
    (he : (keep a)[i]? = some e) : originOf (keep a) inside [i] = [e.2] := by
  obtain ⟨d, hd⟩ := exists_getElem?_of_length_eq h.length.symm he
  rw [originOf_cons he, (h.child i e d he hd).root]

theorem step (h : Pieces keep below a b inside) (p : Place) (i : Nat) (c : β)
    (hp : follow below b (p ++ [i]) = some c) :
    ∃ j, originOf (keep a) inside (p ++ [i]) = originOf (keep a) inside p ++ [j] ∧
      ∀ i' < i, ∃ j' < j,
        originOf (keep a) inside (p ++ [i']) = originOf (keep a) inside p ++ [j'] := by
  cases p with
  | nil =>
    obtain ⟨e, -, he, -, -⟩ := h.enter hp
    refine ⟨e.2, h.originOf_child he, ?_⟩
    intro i' hi'
    obtain ⟨hlt, -⟩ := List.getElem?_eq_some_iff.mp he
    obtain ⟨e', he'⟩ : ∃ e', (keep a)[i']? = some e' :=
      ⟨_, List.getElem?_eq_getElem (Nat.lt_trans hi' hlt)⟩
    exact ⟨e'.2, getElem?_lt_of_ascending h.ascending he' he hi', h.originOf_child he'⟩
  | cons k p =>
    obtain ⟨e, d, he, hp, hchild⟩ := h.enter hp
    obtain ⟨j, hj, hsiblings⟩ := hchild.step p i c hp
    refine ⟨j, ?_, ?_⟩
    · rw [List.cons_append, originOf_cons he, originOf_cons he, hj, List.cons_append]
    · intro i' hi'
      obtain ⟨j', hlt, hj'⟩ := hsiblings i' hi'
      refine ⟨j', hlt, ?_⟩
      rw [List.cons_append, originOf_cons he, originOf_cons he, hj', List.cons_append]

theorem into (h : Pieces keep below a b inside) (p : Place) (c : β)
    (hp : follow below b p = some c) : ∃ x, Reached keep a (originOf (keep a) inside p) x := by
  cases p with
  | nil => exact ⟨a, .here⟩
  | cons k p =>
    obtain ⟨e, d, he, hp, hchild⟩ := h.enter hp
    obtain ⟨x, hx⟩ := hchild.into p c hp
    rw [originOf_cons he]
    exact ⟨x, .down (List.mem_of_getElem? he) hx⟩

theorem onto (h : Pieces keep below a b inside) (q : Place) (hq : ∃ x, Reached keep a q x) :
    ∃ p c, follow below b p = some c ∧ originOf (keep a) inside p = q := by
  obtain ⟨x, hx⟩ := hq
  cases hx with
  | here => exact ⟨[], b, rfl, rfl⟩
  | down he hx =>
    obtain ⟨k, hk⟩ := List.mem_iff_getElem?.mp he
    obtain ⟨d, hd⟩ := exists_getElem?_of_length_eq h.length.symm hk
    obtain ⟨p, c, hp, horigin⟩ := (h.child k _ d hk hd).onto _ ⟨x, hx⟩
    refine ⟨k :: p, c, follow_cons_eq_some.mpr ⟨d, hd, hp⟩, ?_⟩
    rw [originOf_cons hk, horigin]

theorem injective (h : Pieces keep below a b inside) (p p' : Place) (c c' : β)
    (hp : follow below b p = some c) (hp' : follow below b p' = some c')
    (heq : originOf (keep a) inside p = originOf (keep a) inside p') : p = p' := by
  cases p with
  | nil =>
    cases p' with
    | nil => rfl
    | cons k' p' =>
      obtain ⟨e', -, he', -, -⟩ := h.enter hp'
      rw [originOf_cons he'] at heq
      exact absurd heq (List.cons_ne_nil _ _).symm
  | cons k p =>
    obtain ⟨e, he⟩ : ∃ e, (keep a)[k]? = some e := by
      obtain ⟨e, -, he, -, -⟩ := h.enter hp
      exact ⟨e, he⟩
    rw [originOf_cons he] at heq
    cases p' with
    | nil => exact absurd heq (List.cons_ne_nil _ _)
    | cons k' p' =>
      obtain ⟨e', -, he', -, -⟩ := h.enter hp'
      rw [originOf_cons he'] at heq
      obtain ⟨hposition, hinside⟩ := List.cons.inj heq
      -- Siblings ascend, so that one position is one child.
      obtain rfl := index_eq_of_ascending h.ascending he he' hposition
      obtain ⟨d, hd, hp⟩ := follow_cons_eq_some.mp hp
      obtain ⟨d', hd', hp'⟩ := follow_cons_eq_some.mp hp'
      obtain rfl : d = d' := Option.some.inj (hd.symm.trans hd')
      rw [(h.child k e d he hd).injective p p' c c' hp hp' hinside]

/-- **A correspondence of the root, from correspondences of all its children.** -/
theorem correspondence (h : Pieces keep below a b inside) :
    Correspondence below b (fun q => ∃ x, Reached keep a q x) (originOf (keep a) inside) where
  root := rfl
  step := h.step
  into := h.into
  onto := h.onto
  injective := h.injective

end Pieces

/-- **A tree that shows a selection corresponds to it**, and every node of the picture is related to
the node that stands at its origin. -/
theorem Mirrors.correspondence {below : β → List β} {R : α → β → Prop} {a : α} {b : β}
    (hkeep : ∀ a, (keep a).Pairwise (·.2 < ·.2)) (h : Mirrors keep below R a b) :
    ∃ origin, Correspondence below b (fun q => ∃ x, Reached keep a q x) origin ∧
      ∀ p c, follow below b p = some c → ∃ x, Reached keep a (origin p) x ∧ R x c := by
  induction h with
  | @intro a b label hlength hstep ih =>
    have hchoice : ∀ i : Nat, ∃ origin, ∀ (e : α × Nat) (c : β), (keep a)[i]? = some e →
        (below b)[i]? = some c →
        Correspondence below c (fun q => ∃ x, Reached keep e.1 q x) origin ∧
          ∀ p d, follow below c p = some d → ∃ x, Reached keep e.1 (origin p) x ∧ R x d := by
      intro i
      cases he : (keep a)[i]? with
      | none => exact ⟨id, fun e c he' => absurd he' (by simp)⟩
      | some e =>
        cases hc : (below b)[i]? with
        | none => exact ⟨id, fun e c _ hc' => absurd hc' (by simp)⟩
        | some c =>
          obtain ⟨origin, horigin⟩ := ih i e c he hc
          refine ⟨origin, ?_⟩
          intro e' c' he' hc'
          obtain rfl := Option.some.inj he'
          obtain rfl := Option.some.inj hc'
          exact horigin
    choose inside hinside using hchoice
    have hpieces : Pieces keep below a b inside :=
      ⟨hkeep a, hlength, fun i e c he hc => (hinside i e c he hc).1⟩
    refine ⟨originOf (keep a) inside, hpieces.correspondence, ?_⟩
    intro p c hp
    cases p with
    | nil =>
      obtain rfl := Option.some.inj hp
      exact ⟨a, .here, label⟩
    | cons k p =>
      obtain ⟨d, hd, hp⟩ := follow_cons_eq_some.mp hp
      obtain ⟨e, he⟩ := exists_getElem?_of_length_eq hlength hd
      obtain ⟨x, hx, hlabel⟩ := (hinside k e d he hd).2 p c hp
      rw [originOf_cons he]
      exact ⟨x, .down (List.mem_of_getElem? he) hx, hlabel⟩

end ViewTree
