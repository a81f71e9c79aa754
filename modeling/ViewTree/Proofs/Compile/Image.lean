import ViewTree.Proofs.Compile.Induction
import ViewTree.Proofs.Tree.Place

/-!
# The compiled tree is an image of its document

> A node has a component exactly when it resolves, and the children of a component are the
> components of the entries that its node keeps, in their order.

Which is to say: nothing that resolves is lost, nothing is there twice, nothing moves. The two sides
of the statement have nothing in common but the registries' keys — `resolves` and `kept` are
computed on the document, and the right-hand side is what running the factories left.

The compilation of a node drops what does not resolve *before* a wrapper takes its first child, and
puts a component behind its rule *after* its kind is settled. Both orders are visible in the
statement: the first in `kept`, which takes the first of the entries that resolve, the second in
`Depicts`, where the rule is outside of everything else.
-/

set_option autoImplicit false

namespace ViewTree.Factory

variable {σ N : Type}

/-- **What a component has of its node**: the kind that its type is first registered as, its
metadata as it stands, and its rule, if it is one, around all of that. -/
def Depicts (f : Factory σ N) (n : Node) (c : Component σ N) : Prop :=
  ∃ bare : Component σ N, f.nodeKind? n.source = some bare.kind ∧
    bare.metadata = Node.metadataOf? n.source ∧ c = f.behindRule (Node.ruleOf? n.source) bare

/-! ## From lists to lists -/

theorem forall₂_childrenOf {α β : Type} {R : α → β → Prop} (kind : Option Kind) {as : List α}
    {bs : List β} (h : List.Forall₂ R as bs) :
    List.Forall₂ R (childrenOf kind as) (childrenOf kind bs) := by
  unfold childrenOf
  split
  · exact h
  · cases h with
    | nil => exact .nil
    | cons hab _ => exact .cons hab .nil
  · exact .nil

/-! ## The image -/

theorem compileNode_mirrors {f : Factory σ N} (hf : f.Faithful) (n : Node) (s : σ)
    (component? : Option (Component σ N)) (h : (f.compileNode n).outcome s = .ok component?) :
    (component? = none ↔ f.resolves n = false) ∧
      ∀ c, component? = some c → Mirrors f.kept Component.children f.Depicts n c := by
  refine compile_induction hf ?_ n s component? h
  -- The rule is put around a component that has its kind, metadata and children already.
  intro source entries type children s bare htype hbelow hbare
  obtain ⟨hsome, -⟩ := result_resolve hf type children (Node.metadataOf? source) s
  obtain ⟨hkind, hmetadata, hchildren⟩ := hsome bare hbare
  have hnode : f.nodeKind? source = f.kindOf? type := by
    rw [nodeKind?, htype, Option.bind_some]
  have hkept : List.Forall₂ (fun e c => Mirrors f.kept Component.children f.Depicts e.1 c)
      (f.kept ⟨source, entries⟩) (f.behindRule (Node.ruleOf? source) bare).children := by
    rw [children_behindRule, hchildren, kept, hnode]
    exact forall₂_childrenOf _ hbelow
  refine .of_forall₂ ⟨bare, ?_, hmetadata, rfl⟩ hkept
  rw [hnode, hkind]

/-- **The compiled tree is an ordered, duplicate-free image of the document.** There is one exactly
when the root resolves. Its components stand for the root and, from there on, for every entry that
is kept below a node that they stand for; each comes from one place, siblings in the order of the
document, and each has the kind, the metadata and the rule of its node. -/
theorem compiled_tree_corresponds (f : Factory σ N) (hf : f.Faithful) (n : Json) (s : σ)
    (component? : Option (Component σ N))
    (h : (f.compileNode (.ofJson n)).outcome s = .ok component?) :
    (component? = none ↔ f.resolves (.ofJson n) = false) ∧
    ∀ c, component? = some c → ∃ origin,
      Correspondence Component.children c (fun q => ∃ m, Reached f.kept (.ofJson n) q m) origin ∧
      ∀ p d, follow Component.children c p = some d →
        ∃ m, Reached f.kept (.ofJson n) (origin p) m ∧ f.Depicts m d := by
  obtain ⟨hnone, hmirrors⟩ := compileNode_mirrors hf (.ofJson n) s component? h
  exact ⟨hnone, fun c hc => (hmirrors c hc).correspondence f.pairwise_kept⟩

/-- A type registered as two kinds, and a leaf. -/
def twofold : Factory Unit Unit where
  singles := Dictionary.empty.insert "leaf" fun metadata =>
    pure (.single (fun _ => pure none) metadata)
  wrappers := Dictionary.empty.insert "box" fun child metadata =>
    pure (.wrapper (fun _ _ => pure none) child metadata)
  clusters := Dictionary.empty.insert "box" fun children metadata =>
    pure (.cluster (fun _ _ => pure none) children metadata)
  rules := Dictionary.empty.insert "shown" (pure true)

theorem twofold_faithful : twofold.Faithful := by
  refine ⟨?_, ?_, ?_⟩
  · intro type factory h metadata s
    simp only [twofold, Dictionary.get?_insert] at h
    split at h
    · obtain rfl := Option.some.inj h
      exact ⟨_, rfl⟩
    · exact absurd h (by simp)
  · intro type factory h child metadata s
    simp only [twofold, Dictionary.get?_insert] at h
    split at h
    · obtain rfl := Option.some.inj h
      exact ⟨_, rfl⟩
    · exact absurd h (by simp)
  · intro type factory h children metadata s
    simp only [twofold, Dictionary.get?_insert] at h
    split at h
    · obtain rfl := Option.some.inj h
      exact ⟨_, rfl⟩
    · exact absurd h (by simp)

/-- A box with an unknown node, a value that is no node, and two leaves, the first behind a rule. -/
def boxOfTwo : Json :=
  .obj [("type", .str "box"), ("children", .arr [.obj [("type", .str "unknown")], .bool true,
    .obj [("type", .str "leaf"), ("meta", .obj [("key", .null)]), ("rule", .str "shown")],
    .obj [("type", .str "leaf")]])]

theorem compiled_tree_corresponds_box :
    twofold.Faithful ∧ ∃ c, (twofold.compileNode (.ofJson boxOfTwo)).outcome () = .ok (some c) ∧
      ∃ origin,
        Correspondence Component.children c
          (fun q => ∃ m, Reached twofold.kept (.ofJson boxOfTwo) q m) origin ∧
        ∀ p d, follow Component.children c p = some d →
          ∃ m, Reached twofold.kept (.ofJson boxOfTwo) (origin p) m ∧ twofold.Depicts m d :=
  ⟨twofold_faithful, _, rfl,
    (compiled_tree_corresponds twofold twofold_faithful boxOfTwo () _ rfl).2 _ rfl⟩

end ViewTree.Factory
