import ViewTree.Proofs.Compile.Failure
import ViewTree.Proofs.Render.Standard

/-!
# What a document is rendered as

Rendering is two runs: compiling, which fails or drops or puts behind rules, and realizing, which
asks the rules and lets six builders decline. With constant rules the two come down to one recursion
over the document, `shown`, in which neither a component nor a builder is left:

> A node whose rule is false is nothing. Any other node of a standard type is what the type makes of
> the node's dictionary and of those of its entries that resolve.

`outcome_render` says so, the failures included. It is the only statement about rendering in this
library that looks at runs; which nodes are shown, and what can be done to a document without its
being seen, is then a matter of `shown` alone.

An entry that does not resolve is not among what is below a node, though an entry that resolves and
is shown as nothing is. The difference matters to a scrolling container: it takes the first entry
that *resolves*, and stays empty when that one is not shown.
-/

set_option autoImplicit false

namespace ViewTree.Factory

variable {σ : Type}

/-! ## Compiling, then realizing -/

/-- Compiles a document and realizes its component, if there is one. -/
def render {N : Type} (f : Factory σ N) (document : Json) : Compilation σ (Option N) := do
  match ← f.compile document with
  | none => pure none
  | some component => liftM component.realize

/-! ## The recursion -/

mutual

/-- **What a node is shown as**, in a state of the host. -/
def shown (f : Factory σ View) (s : σ) : Node → Option View
  | ⟨source, entries⟩ =>
    if (Node.ruleOf? source).bind (f.verdict s) = some false then none
    else
      (Standard.ofNode? source).bind
        (Standard.view (Node.settings? source) (shownBelow f s entries))

/-- The dictionary and the view of each entry that is an object and resolves. -/
def shownBelow (f : Factory σ View) (s : σ) :
    List Node → List (Option (Dictionary Json) × Option View)
  | [] => []
  | entry :: rest =>
    if entry.source.isObject && f.resolves entry then
      (Node.settings? entry.source, shown f s entry) :: shownBelow f s rest
    else shownBelow f s rest

end

theorem shownBelow_eq (f : Factory σ View) (s : σ) (start : Nat) (entries : List Node) :
    f.shownBelow s entries =
      (f.resolvingFrom start entries).map fun e => (Node.settings? e.1.source, f.shown s e.1) := by
  induction entries generalizing start with
  | nil => rfl
  | cons entry rest ih =>
    rw [shownBelow, resolvingFrom_cons, ih (start + 1)]
    by_cases h : (entry.source.isObject && f.resolves entry) = true
    · rw [if_pos h, if_pos h, List.map_cons]
    · rw [if_neg h, if_neg h]

/-! ## The components show it -/

variable (values : List (String × Bool))

/-- Of the standard types only a scrolling container can fail to resolve. -/
theorem resolves_standardWith (s : σ) (source : Json) (entries : List Node) :
    (standardWith σ values).resolves ⟨source, entries⟩ =
      match Standard.ofNode? source with
      | some .scroll => !((standardWith σ values).shownBelow s entries).isEmpty
      | some _ => true
      | none => false := by
  rw [resolves, nodeKind?_standardWith]
  cases Standard.ofNode? source with
  | none => rfl
  | some k =>
    cases k with
    | scroll => rw [shownBelow_eq _ s 0, List.isEmpty_map, ← resolvesAny_eq 0]; rfl
    | _ => rfl

theorem shown_eq_none_of_not_resolves (s : σ) {n : Node}
    (h : (standardWith σ values).resolves n = false) :
    (standardWith σ values).shown s n = none := by
  obtain ⟨source, entries⟩ := n
  rw [resolves_standardWith values s] at h
  rw [shown]
  split
  · rfl
  cases hk : Standard.ofNode? source with
  | none => rfl
  | some k =>
    rw [hk] at h
    cases k with
    | scroll =>
      have hbelow : (standardWith σ values).shownBelow s entries = [] := by simpa using h
      rw [hbelow]
      rfl
    | _ => exact absurd h (by simp)

/-- **Every compiled component shows what its node is shown as**, in any state: it was compiled in
one state of the host and may be realized in another. -/
theorem compileNode_shows (s : σ) (n : Node) (t : σ) (component? : Option (Component σ View))
    (h : ((standardWith σ values).compileNode n).outcome t =
      .ok component?) :
    (component? = none ↔
      (standardWith σ values).resolves n = false) ∧
    ∀ c, component? = some c → c.Shows (Node.settings? n.source)
      ((standardWith σ values).shown s n) := by
  refine compile_induction (standardWith_faithful values)
    (Q := fun n c => c.Shows (Node.settings? n.source)
      ((standardWith σ values).shown s n)) ?_ n t component? h
  intro source entries type children u bare htype hbelow hbare
  rw [result_resolve_standardWith, Node.metadataOf?_eq] at hbare
  obtain ⟨k, hk, hbare⟩ := Option.bind_eq_some_iff.mp hbare
  have hview : bare.Shows (Node.settings? source)
      (k.view (Node.settings? source)
        ((standardWith σ values).shownBelow s entries)) := by
    refine Component.shows_of_component? ?_ hbare
    rw [shownBelow_eq _ s 0]
    exact List.forall₂_map_left_iff.mpr hbelow
  rw [shown, Standard.ofNode?, htype, Option.bind_some, hk, Option.bind_some]
  unfold behindRule
  cases hspec : Node.ruleOf? source with
  | none => exact hview
  | some spec =>
    -- A specification that is no rule gates nothing, and has no verdict.
    rw [Option.bind_some, Option.bind_some]
    cases hrule : ((standardWith σ values).parseRule spec).value with
    | none =>
      rw [verdict, hrule, Option.map_none, if_neg (by simp)]
      exact hview
    | some rule =>
      obtain ⟨holds, hverdict, hholds⟩ := (standardWith_constant values).evaluate_eq s hrule
      have hgated := hview.gated hholds
      rw [hverdict]
      cases holds with
      | false => exact hgated
      | true => exact hgated

/-! ## The rendering -/

/-- **What a document is rendered as.** With constant rules rendering fails where a document has no
`structure`, and otherwise at the first node without a type; apart from that it gives what the node
under `structure` is shown as. -/
theorem outcome_render (document : Json) (s : σ) :
    ((standardWith σ values).render document).outcome s =
      match document.field? structureKey with
      | none => .error (.missingKey structureKey document)
      | some root =>
        match Node.firstUntyped? (Node.ofJson root).reachable with
        | some untyped => .error (.missingKey Node.typeKey untyped)
        | none => .ok ((standardWith σ values).shown s (.ofJson root)) := by
  rw [render, Compilation.outcome_bind, compile]
  cases document.field? structureKey with
  | none => rfl
  | some root =>
    have hfailure := ((standardWith σ values).compileNode_visits (.ofJson root)).failure s
    simp only
    cases hout : ((standardWith σ values).compileNode (.ofJson root)).outcome s with
    | error e =>
      rw [hout] at hfailure
      obtain ⟨untyped, huntyped, rfl⟩ := Option.map_eq_some_iff.mp hfailure.symm
      rw [huntyped]
    | ok component? =>
      -- Where nothing was compiled nothing is shown, so the two cases have one answer.
      rw [hout] at hfailure
      rw [Option.map_eq_none_iff.mp hfailure.symm]
      obtain ⟨hnone, hshows⟩ := compileNode_shows values s _ s component? hout
      cases component? with
      | none => rw [shown_eq_none_of_not_resolves values s (hnone.mp rfl)]; rfl
      | some c => exact congrArg Except.ok ((hshows c rfl).realize _).1

theorem render_of_typed {document root : Json} (hroot : document.field? structureKey = some root)
    (htyped : Node.Typed root) (s : σ) :
    ((standardWith σ values).render document).outcome s =
      .ok ((standardWith σ values).shown s (.ofJson root)) := by
  rw [outcome_render, hroot]
  simp only [show Node.firstUntyped? (Node.ofJson root).reachable = none from htyped]

/-- A document that compiles is rendered as what the node under `structure` is shown as. -/
theorem render_of_compiles {document : Json} {s : σ} {component? : Option (Component σ View)}
    (h : ((standardWith σ values).compile document).outcome s = .ok component?) :
    ∃ root, document.field? structureKey = some root ∧ Node.Typed root ∧
      ((standardWith σ values).render document).outcome s =
        .ok ((standardWith σ values).shown s (.ofJson root)) := by
  obtain ⟨root, hroot, htyped⟩ := (compiles_iff _ document s).mp ⟨component?, h⟩
  exact ⟨root, hroot, htyped, render_of_typed values hroot htyped s⟩

/-- A rendered view is what the node under `structure` is shown as. -/
theorem shown_of_render {document : Json} {s : σ} {v : View}
    (h : ((standardWith σ values).render document).outcome s = .ok (some v)) :
    ∃ root, document.field? structureKey = some root ∧
      (standardWith σ values).shown s (.ofJson root) = some v := by
  rw [outcome_render] at h
  cases hroot : document.field? structureKey with
  | none =>
    rw [hroot] at h
    exact absurd h (by simp)
  | some root =>
    rw [hroot] at h
    cases huntyped : Node.firstUntyped? (Node.ofJson root).reachable with
    | some untyped =>
      simp only [huntyped] at h
      exact absurd h (by simp)
    | none =>
      simp only [huntyped] at h
      exact ⟨root, rfl, Except.ok.inj h⟩

end ViewTree.Factory
