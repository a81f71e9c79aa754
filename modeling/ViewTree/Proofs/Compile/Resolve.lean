import ViewTree.Proofs.Compile.Run
import ViewTree.Proofs.Document.Reachable

/-!
# What resolves, and what is kept below it

A type can be registered as several kinds at once. The kind that counts is the first of leaf,
wrapper and cluster (`kindOf?`), and with it everything about the *shape* of a compiled tree can be
said on the document alone:

* a node **resolves** when its type is a leaf or a cluster, or a wrapper and one of its entries that
  are objects resolves;
* of the entries of a node, a cluster **keeps** all that resolve, a wrapper the first of them, a
  leaf none.

No component, no builder and no state of the host occurs in these two. That compiling agrees with
them is `ViewTree.Proofs.Compile.Induction`.
-/

set_option autoImplicit false

namespace ViewTree.Factory

variable {σ N : Type}

/-! ## Kinds -/

/-- The kind of component that a type becomes. -/
def kindOf? (f : Factory σ N) (type : String) : Option Kind :=
  if f.singles.contains type then some .single
  else if f.wrappers.contains type then some .wrapper
  else if f.clusters.contains type then some .cluster
  else none

/-- The kind of component that a node becomes, going by its type. -/
def nodeKind? (f : Factory σ N) (source : Json) : Option Kind :=
  (Node.typeOf? source).bind f.kindOf?

/-! ## Resolving -/

mutual

/-- Whether there is a component for a node. -/
def resolves (f : Factory σ N) : Node → Bool
  | ⟨source, entries⟩ =>
    match f.nodeKind? source with
    | some .single => true
    | some .wrapper => resolvesAny f entries
    | some .cluster => true
    | _ => false

/-- Whether some entry is an object and resolves. -/
def resolvesAny (f : Factory σ N) : List Node → Bool
  | [] => false
  | entry :: rest => (entry.source.isObject && resolves f entry) || resolvesAny f rest

end

/-- The entries that are objects and resolve, each with its position, counted from a number. -/
def resolvingFrom (f : Factory σ N) (start : Nat) (entries : List Node) : List (Node × Nat) :=
  (entries.zipIdx start).filter fun e => e.1.source.isObject && f.resolves e.1

/-- How many of some children a kind of component has: a cluster all of them, a wrapper only the
first, a leaf none. -/
def childrenOf {α : Type} (kind : Option Kind) (children : List α) : List α :=
  match kind with
  | some .cluster => children
  | some .wrapper => children.take 1
  | _ => []

/-- **The entries of a node for which its component has a child**, with their positions. -/
def kept (f : Factory σ N) (n : Node) : List (Node × Nat) :=
  childrenOf (f.nodeKind? n.source) (f.resolvingFrom 0 n.entries)

@[simp] theorem childrenOf_single {α : Type} (as : List α) :
    childrenOf (some .single) as = [] := rfl

@[simp] theorem childrenOf_wrapper {α : Type} (as : List α) :
    childrenOf (some .wrapper) as = as.take 1 := rfl

@[simp] theorem childrenOf_cluster {α : Type} (as : List α) :
    childrenOf (some .cluster) as = as := rfl

theorem childrenOf_map {α β : Type} (kind : Option Kind) (g : α → β) (as : List α) :
    childrenOf kind (as.map g) = (childrenOf kind as).map g := by
  unfold childrenOf
  split
  · rfl
  · exact List.map_take.symm
  · rfl

theorem mem_of_mem_childrenOf {α : Type} {kind : Option Kind} {as : List α} {a : α}
    (h : a ∈ childrenOf kind as) : a ∈ as := by
  unfold childrenOf at h
  split at h
  · exact h
  · exact List.mem_of_mem_take h
  · exact absurd h (by simp)

theorem resolvingFrom_cons (f : Factory σ N) (start : Nat) (entry : Node) (rest : List Node) :
    f.resolvingFrom start (entry :: rest) =
      if entry.source.isObject && f.resolves entry then
        (entry, start) :: f.resolvingFrom (start + 1) rest
      else f.resolvingFrom (start + 1) rest := by
  rw [resolvingFrom, List.zipIdx_cons, List.filter_cons]
  rfl

theorem mem_resolvingFrom {f : Factory σ N} {start : Nat} {entries : List Node} {e : Node × Nat} :
    e ∈ f.resolvingFrom start entries ↔
      e ∈ entries.zipIdx start ∧ e.1.source.isObject = true ∧ f.resolves e.1 = true := by
  rw [resolvingFrom, List.mem_filter, Bool.and_eq_true]

theorem resolvesAny_eq {f : Factory σ N} {entries : List Node} (start : Nat) :
    f.resolvesAny entries = !(f.resolvingFrom start entries).isEmpty := by
  induction entries generalizing start with
  | nil => rfl
  | cons entry rest ih =>
    rw [resolvesAny, resolvingFrom_cons]
    by_cases h : (entry.source.isObject && f.resolves entry) = true
    · rw [h, if_pos rfl]
      rfl
    · rw [if_neg h, Bool.eq_false_iff.mpr h, Bool.false_or]
      exact ih (start + 1)

/-- No type becomes a gate. -/
theorem kindOf?_ne_rule (f : Factory σ N) (type : String) : f.kindOf? type ≠ some .rule := by
  unfold kindOf?
  repeat' split
  all_goals simp

theorem resolves_eq_false_iff {f : Factory σ N} {source : Json} {entries : List Node} :
    f.resolves ⟨source, entries⟩ = false ↔
      f.nodeKind? source = none ∨
        f.nodeKind? source = some .wrapper ∧ f.resolvingFrom 0 entries = [] := by
  rw [resolves]
  cases hkind : f.nodeKind? source with
  | none => simp
  | some kind =>
    cases kind with
    | single => simp
    | wrapper => simp [resolvesAny_eq 0]
    | cluster => simp
    | rule =>
      obtain ⟨type, -, htype⟩ := Option.bind_eq_some_iff.mp hkind
      exact absurd htype (f.kindOf?_ne_rule type)

/-! ## Positions ascend -/

theorem pairwise_zipIdx {α : Type} :
    ∀ (entries : List α) (start : Nat), (entries.zipIdx start).Pairwise (·.2 < ·.2)
  | [], _ => List.Pairwise.nil
  | entry :: rest, start => by
    rw [List.zipIdx_cons]
    refine List.Pairwise.cons ?_ (pairwise_zipIdx rest (start + 1))
    intro e he
    exact List.le_snd_of_mem_zipIdx he

theorem pairwise_resolvingFrom (f : Factory σ N) (start : Nat) (entries : List Node) :
    (f.resolvingFrom start entries).Pairwise (·.2 < ·.2) :=
  (pairwise_zipIdx entries start).filter _

/-- What is kept is kept in the order of the document. -/
theorem pairwise_kept (f : Factory σ N) (n : Node) : (f.kept n).Pairwise (·.2 < ·.2) := by
  unfold kept childrenOf
  split
  · exact f.pairwise_resolvingFrom 0 n.entries
  · exact (f.pairwise_resolvingFrom 0 n.entries).take
  · exact List.Pairwise.nil

theorem mem_resolvingFrom_of_mem_kept {f : Factory σ N} {n : Node} {e : Node × Nat}
    (h : e ∈ f.kept n) : e ∈ f.resolvingFrom 0 n.entries :=
  mem_of_mem_childrenOf h

/-- What is kept resolves, is an object, and stands where its position says. -/
theorem getElem?_of_mem_kept {f : Factory σ N} {n : Node} {e : Node × Nat} (h : e ∈ f.kept n) :
    n.entries[e.2]? = some e.1 := by
  obtain ⟨hmem, -⟩ := mem_resolvingFrom.mp (mem_resolvingFrom_of_mem_kept h)
  obtain ⟨entry, i⟩ := e
  simpa [List.mem_zipIdx_iff_getElem?] using hmem

theorem resolves_of_mem_kept {f : Factory σ N} {n : Node} {e : Node × Nat} (h : e ∈ f.kept n) :
    f.resolves e.1 = true :=
  (mem_resolvingFrom.mp (mem_resolvingFrom_of_mem_kept h)).2.2

end ViewTree.Factory
