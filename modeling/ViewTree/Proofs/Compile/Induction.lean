import Mathlib.Data.List.Forall2
import ViewTree.Proofs.Compile.Resolve

/-!
# Induction on a successful compilation

A compilation that succeeds has made a component for every node that resolves. To show something of
all these components it is enough to show it of one, given that it holds of those it was made from:
that is `compile_induction`, and what is said of compiled components anywhere is said by it. The
order of events, the threading of the host's state and the entries that are passed over are dealt
with here and do not come up again.

What is known of the children in the induction step is that they are, one by one and in order, the
components of the entries that resolve. This is already the point at which a wrapper has *not* yet
taken its first child, so the step can tell a child that was dropped from one that was not chosen.

The host's factories could of course return anything. The induction is for **faithful** ones, which
make a component of the kind they are registered as, of exactly the children and the metadata they
are given; the builders in it are theirs to choose, and may depend on the state of the host.
-/

set_option autoImplicit false

namespace ViewTree.Factory

variable {σ N : Type}

/-! ## Faithful factories -/

/-- Every registered factory makes a component of its own kind, of exactly what it is given. -/
structure Faithful (f : Factory σ N) : Prop where
  single : ∀ {type factory}, f.singles.get? type = some factory →
    ∀ metadata s, ∃ builder, ((factory metadata).run s).1 = .single builder metadata
  wrapper : ∀ {type factory}, f.wrappers.get? type = some factory →
    ∀ child metadata s, ∃ builder, ((factory child metadata).run s).1 =
      .wrapper builder child metadata
  cluster : ∀ {type factory}, f.clusters.get? type = some factory →
    ∀ children metadata s, ∃ builder, ((factory children metadata).run s).1 =
      .cluster builder children metadata

/-! ## One node -/

/-- A component behind the rule of a specification, if there is one that is a rule. -/
def behindRule (f : Factory σ N) (spec : Option Json) (component : Component σ N) :
    Component σ N :=
  match spec.bind fun spec => (f.parseRule spec).value with
  | some rule => .gated rule component
  | none => component

theorem value_gate (f : Factory σ N) (type : String) (spec : Option Json)
    (component : Component σ N) :
    (f.gate type spec component).value = f.behindRule spec component := by
  unfold gate behindRule
  cases spec with
  | none => rfl
  | some spec =>
    simp only [Logged.value_bind, Option.bind_some]
    cases (f.parseRule spec).value <;> rfl

@[simp] theorem children_behindRule (f : Factory σ N) (spec : Option Json)
    (component : Component σ N) : (f.behindRule spec component).children = component.children := by
  unfold behindRule
  cases spec.bind fun spec => (f.parseRule spec).value <;> rfl

/-- A successful compilation, taken apart. -/
theorem compileNode_eq_ok {f : Factory σ N} {source : Json} {entries : List Node} {s : σ}
    {component? : Option (Component σ N)}
    (h : (f.compileNode ⟨source, entries⟩).outcome s = .ok component?) :
    ∃ type children, Node.typeOf? source = some type ∧
      (f.compileEntries entries).outcome s = .ok children ∧
      component? = ((f.resolve type children (Node.metadataOf? source)).result
        ((f.compileEntries entries).after s)).map (f.behindRule (Node.ruleOf? source)) := by
  rw [compileNode] at h
  cases htype : Node.typeOf? source with
  | none => rw [htype] at h; exact absurd h (by simp)
  | some type =>
    rw [htype] at h
    obtain ⟨-, -, h⟩ := Compilation.outcome_bind_eq_ok.mp h
    obtain ⟨children, hchildren, h⟩ := Compilation.outcome_bind_eq_ok.mp h
    rw [Compilation.after_logged] at hchildren h
    obtain ⟨resolved, hresolved, h⟩ := Compilation.outcome_bind_eq_ok.mp h
    rw [Compilation.outcome_action] at hresolved
    obtain rfl := Except.ok.inj hresolved
    refine ⟨type, children, rfl, hchildren, ?_⟩
    cases hbare : (f.resolve type children (Node.metadataOf? source)).result
        ((f.compileEntries entries).after s) with
    | none =>
      rw [hbare] at h
      exact (Except.ok.inj h).symm
    | some bare =>
      rw [hbare] at h
      obtain ⟨gated, hgated, h⟩ := Compilation.outcome_bind_eq_ok.mp h
      rw [Compilation.outcome_logged] at hgated
      obtain rfl := Except.ok.inj hgated
      rw [Option.map_some, ← f.value_gate type]
      exact (Except.ok.inj h).symm

/-- **What the registries make of a node with compiled children**: a component of its kind, with as
many of the children as the kind has, or nothing, where there is no kind or nothing to wrap. -/
theorem result_resolve {f : Factory σ N} (hf : f.Faithful) (type : String)
    (children : List (Component σ N)) (metadata : Option (Metadata σ)) (s : σ) :
    (∀ c, (f.resolve type children metadata).result s = some c →
      f.kindOf? type = some c.kind ∧ c.metadata = metadata ∧
        c.children = childrenOf (f.kindOf? type) children) ∧
    ((f.resolve type children metadata).result s = none ↔
      f.kindOf? type = none ∨ f.kindOf? type = some .wrapper ∧ children = []) := by
  unfold kindOf? resolve Dictionary.contains
  cases hsingle : f.singles.get? type with
  | some factory =>
    obtain ⟨builder, hmade⟩ := hf.single hsingle metadata s
    simp [hmade, Component.kind, Component.metadata, Component.children, childrenOf]
  | none =>
    cases hwrapper : f.wrappers.get? type with
    | some factory =>
      cases children with
      | nil => simp
      | cons child more =>
        obtain ⟨builder, hmade⟩ := hf.wrapper hwrapper child metadata s
        cases more <;>
          simp [hmade, Component.kind, Component.metadata, Component.children, childrenOf]
    | none =>
      cases hcluster : f.clusters.get? type with
      | some factory =>
        obtain ⟨builder, hmade⟩ := hf.cluster hcluster children metadata s
        simp [hmade, Component.kind, Component.metadata, Component.children, childrenOf]
      | none => simp

/-! ## All nodes -/

/-- What is known of each second member of related lists holds of all of them. -/
theorem forall_mem_right {α β : Type} {P : β → Prop} {as : List α} {bs : List β}
    (h : List.Forall₂ (fun _ b => P b) as bs) : ∀ b ∈ bs, P b := by
  induction h with
  | nil => exact fun b hb => absurd hb List.not_mem_nil
  | cons hb _ ih => exact List.forall_mem_cons.mpr ⟨hb, ih⟩

/-- The components of entries are those of the entries that resolve, one for each. -/
theorem compileEntries_eq_ok {f : Factory σ N} {Q : Node → Component σ N → Prop}
    {entries : List Node} (start : Nat)
    (h : ∀ e ∈ entries, ∀ s component?, (f.compileNode e).outcome s = .ok component? →
      (component? = none ↔ f.resolves e = false) ∧ ∀ c, component? = some c → Q e c)
    {s : σ} {children : List (Component σ N)}
    (hs : (f.compileEntries entries).outcome s = .ok children) :
    List.Forall₂ (fun e c => Q e.1 c) (f.resolvingFrom start entries) children := by
  induction entries generalizing s start children with
  | nil =>
    rw [compileEntries] at hs
    obtain rfl := Except.ok.inj hs
    exact .nil
  | cons entry rest ih =>
    have hrest : ∀ e ∈ rest, ∀ s component?, (f.compileNode e).outcome s = .ok component? →
        (component? = none ↔ f.resolves e = false) ∧ ∀ c, component? = some c → Q e c :=
      fun e he => h e (List.mem_cons_of_mem _ he)
    rw [compileEntries] at hs
    rw [resolvingFrom_cons]
    by_cases hobject : entry.source.isObject
    -- An entry that is no object has no component, and none is expected: it does not resolve.
    · rw [if_pos hobject] at hs
      obtain ⟨child?, hchild, hs⟩ := Compilation.outcome_bind_eq_ok.mp hs
      obtain ⟨others, hothers, hs⟩ := Compilation.outcome_bind_eq_ok.mp hs
      obtain rfl := Except.ok.inj hs
      obtain ⟨hnone, hsome⟩ := h entry List.mem_cons_self s child? hchild
      have hothers := ih (start + 1) hrest hothers
      cases child? with
      | none =>
        rw [hnone.mp rfl, Bool.and_false, if_neg Bool.false_ne_true]
        exact hothers
      | some child =>
        have hresolves : f.resolves entry = true := by
          by_contra hcon
          exact absurd (hnone.mpr (by simpa using hcon)) (by simp)
        rw [hobject, hresolves, Bool.and_true, if_pos rfl]
        exact .cons (hsome child rfl) hothers
    · rw [if_neg hobject] at hs
      obtain ⟨-, -, hs⟩ := Compilation.outcome_bind_eq_ok.mp hs
      rw [Bool.eq_false_iff.mpr hobject, Bool.false_and, if_neg Bool.false_ne_true]
      exact ih (start + 1) hrest hs

/-- **Induction on a successful compilation.** A node has a component exactly when it resolves, and
what holds of every component, given that it holds of those of the entries that resolve, holds of
the component of every node. -/
theorem compile_induction {f : Factory σ N} (hf : f.Faithful) {Q : Node → Component σ N → Prop}
    (step : ∀ source entries type children s bare, Node.typeOf? source = some type →
      List.Forall₂ (fun e c => Q e.1 c) (f.resolvingFrom 0 entries) children →
      (f.resolve type children (Node.metadataOf? source)).result s = some bare →
      Q ⟨source, entries⟩ (f.behindRule (Node.ruleOf? source) bare)) (n : Node) :
    ∀ s component?, (f.compileNode n).outcome s = .ok component? →
      (component? = none ↔ f.resolves n = false) ∧ ∀ c, component? = some c → Q n c := by
  induction n with
  | step source entries ih =>
    intro s component? h
    obtain ⟨type, children, htype, hchildren, rfl⟩ := compileNode_eq_ok h
    have hbelow := compileEntries_eq_ok 0 ih hchildren
    obtain ⟨-, hnone⟩ := result_resolve hf type children (Node.metadataOf? source)
      ((f.compileEntries entries).after s)
    constructor
    · rw [Option.map_eq_none_iff, hnone, resolves_eq_false_iff, nodeKind?, htype,
        Option.bind_some]
      apply or_congr_right
      apply and_congr_right
      intro _
      rw [← List.length_eq_zero_iff, ← List.length_eq_zero_iff, hbelow.length_eq]
    · intro c hc
      obtain ⟨bare, hbare, rfl⟩ := Option.map_eq_some_iff.mp hc
      exact step source entries type children _ bare htype hbelow hbare

end ViewTree.Factory
