import ViewTree.Metadata.Basic
import ViewTree.Rule.Basic

/-!
# Components

A **component** describes a node of a hierarchy without building it. It is a leaf, a wrapper around
one child, a cluster of any number of children, or a component behind a rule. What a component
becomes is up to its **builder**, a function of the host, which may decline and make nothing.

**Realizing** runs the builders. Nothing is kept from one realization to the next. A builder of a
wrapper or a cluster is not given its children themselves but a `Child` for each: what can be asked
of it, and the action that realizes it. The builder decides whether, when and how often it runs
that action.

**Gates are transparent.** A component behind a rule shows the metadata and the children of what is
behind, whatever the rule says; only realizing asks the rule.
-/

set_option autoImplicit false

namespace ViewTree

/-- The kinds of components. -/
inductive Kind where
  | single
  | wrapper
  | cluster
  | rule
deriving DecidableEq

/-- The name of a kind. -/
def Kind.name : Kind → String
  | .single => "single"
  | .wrapper => "wrapper"
  | .cluster => "cluster"
  | .rule => "rule"

/-- **What a builder is given of a child**: its kind, its metadata and the action that realizes it.

This narrows builders. One that holds the child itself could ask for the child's own children and
its rule as well; but a type of components whose constructors take functions of components is not
well founded, since it stands to the left of an arrow in its own definition. The standard builders
ask for no more than what is given here. -/
structure Child (σ N : Type) where
  kind : Kind
  metadata : Option (Metadata σ)
  realize : Action σ (Option N)

/-- A node of a hierarchy that realizes to values of type `N`, for a host with state `σ`. -/
inductive Component (σ N : Type) where
  /-- A leaf. -/
  | single (builder : Option (Metadata σ) → Action σ (Option N)) (metadata : Option (Metadata σ))
  /-- A node with exactly one child. -/
  | wrapper (builder : Child σ N → Option (Metadata σ) → Action σ (Option N))
    (child : Component σ N) (metadata : Option (Metadata σ))
  /-- A node with any number of children. -/
  | cluster (builder : List (Child σ N) → Option (Metadata σ) → Action σ (Option N))
    (children : List (Component σ N)) (metadata : Option (Metadata σ))
  /-- A component that is shown only while a rule holds. -/
  | gated (rule : Rule (Effect σ Bool)) (component : Component σ N)

namespace Component

variable {σ N : Type}

/-! ## What can be asked of a component -/

/-- The kind of a component. -/
def kind : Component σ N → Kind
  | .single .. => .single
  | .wrapper .. => .wrapper
  | .cluster .. => .cluster
  | .gated .. => .rule

/-- The metadata; behind a gate, that of the component there. -/
def metadata : Component σ N → Option (Metadata σ)
  | .single _ metadata => metadata
  | .wrapper _ _ metadata => metadata
  | .cluster _ _ metadata => metadata
  | .gated _ component => component.metadata

/-- The direct children; behind a gate, those of the component there. -/
def children : Component σ N → List (Component σ N)
  | .single .. => []
  | .wrapper _ child _ => [child]
  | .cluster _ children _ => children
  | .gated _ component => component.children

/-- The component behind a gate. -/
def gatedComponent? : Component σ N → Option (Component σ N)
  | .gated _ component => some component
  | _ => none

/-- The rule of a gate. -/
def rule? : Component σ N → Option (Rule (Effect σ Bool))
  | .gated rule _ => some rule
  | _ => none

/-! ## Realizing -/

mutual

/-- Builds what a component stands for. There is nothing where a builder declines and where a gate
is closed. -/
def realize : Component σ N → Action σ (Option N)
  | .single builder metadata => builder metadata
  | .wrapper builder child metadata =>
    builder ⟨child.kind, child.metadata, realize child⟩ metadata
  | .cluster builder children metadata => builder (offerAll children) metadata
  | .gated rule component => do
    let holds ← rule.evaluate
    if holds then realize component else pure none

/-- What a builder is given of several children. -/
def offerAll : List (Component σ N) → List (Child σ N)
  | [] => []
  | child :: rest => ⟨child.kind, child.metadata, realize child⟩ :: offerAll rest

end

/-- What a builder is given of a child. -/
def offer (c : Component σ N) : Child σ N := ⟨c.kind, c.metadata, c.realize⟩

/-! ## Diagnostics -/

/-- The diagnostic text of metadata that may be missing. -/
def metadataText (metadata : Option (Metadata σ)) : String :=
  Text.optional (metadata.map Metadata.debug)

mutual

/-- The diagnostic text of a component. Builders do not show. -/
def debug : Component σ N → String
  | .single _ metadata => Text.record "Single" [("meta", metadataText metadata)]
  | .wrapper _ child metadata =>
    Text.record "Wrapper" [("child", debug child), ("meta", metadataText metadata)]
  | .cluster _ children metadata =>
    Text.record "Cluster"
      [("children", Text.bracketed (debugAll children)), ("meta", metadataText metadata)]
  | .gated rule component =>
    Text.record "Rule" [("rule", rule.debug), ("component", debug component)]

/-- The diagnostic texts of several components. -/
def debugAll : List (Component σ N) → List String
  | [] => []
  | c :: rest => debug c :: debugAll rest

end

end Component

namespace Child

variable {σ N : Type}

/-- Realizes children one after the other and keeps what there is. -/
def realizeAll : List (Child σ N) → Action σ (List N)
  | [] => pure []
  | child :: rest => do
    let built ← child.realize
    let others ← realizeAll rest
    pure (built.toList ++ others)

end Child

end ViewTree
