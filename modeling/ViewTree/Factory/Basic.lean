import ViewTree.Component.Basic
import ViewTree.Rule.Spec

/-!
# Factories

A **factory** knows what to make of the types and the rule names in a document. It is four
dictionaries: how to make leaves, wrappers and clusters, by type, and evaluators, by rule name.
Registering under a tag replaces what the same dictionary had under it, with an event, and leaves
the other three alone; so a type can be registered as several kinds at once.
-/

set_option autoImplicit false

namespace ViewTree

/-- Makes a leaf of a node's metadata. -/
abbrev SingleFactory (σ N : Type) : Type :=
  Option (Metadata σ) → Effect σ (Component σ N)

/-- Makes a wrapper of the first child and a node's metadata. -/
abbrev WrapperFactory (σ N : Type) : Type :=
  Component σ N → Option (Metadata σ) → Effect σ (Component σ N)

/-- Makes a cluster of all children and a node's metadata. -/
abbrev ClusterFactory (σ N : Type) : Type :=
  List (Component σ N) → Option (Metadata σ) → Effect σ (Component σ N)

/-- Anything that can be registered. -/
inductive Builder (σ N : Type) where
  | single (factory : SingleFactory σ N)
  | wrapper (factory : WrapperFactory σ N)
  | cluster (factory : ClusterFactory σ N)
  | rule (evaluator : Effect σ Bool)

/-- The diagnostic text of a builder shows its kind. -/
def Builder.debug {σ N : Type} : Builder σ N → String
  | .single _ => "FactoryBuilder::Single(..)"
  | .wrapper _ => "FactoryBuilder::Wrapper(..)"
  | .cluster _ => "FactoryBuilder::Cluster(..)"
  | .rule _ => "FactoryBuilder::Rule(..)"

/-- What is registered. -/
structure Factory (σ N : Type) where
  singles : Dictionary (SingleFactory σ N)
  wrappers : Dictionary (WrapperFactory σ N)
  clusters : Dictionary (ClusterFactory σ N)
  rules : Dictionary (Effect σ Bool)

namespace Factory

variable {σ N : Type}

/-- The factory that knows nothing. -/
def empty : Factory σ N := ⟨.empty, .empty, .empty, .empty⟩

instance : Inhabited (Factory σ N) := ⟨empty⟩

/-! ## Registering -/

/-- The factory with a builder under a tag. -/
def insert (f : Factory σ N) (tag : String) : Builder σ N → Factory σ N
  | .single factory => { f with singles := f.singles.insert tag factory }
  | .wrapper factory => { f with wrappers := f.wrappers.insert tag factory }
  | .cluster factory => { f with clusters := f.clusters.insert tag factory }
  | .rule evaluator => { f with rules := f.rules.insert tag evaluator }

/-- Whether a tag is taken by a builder of the same kind. -/
def has (f : Factory σ N) (tag : String) : Builder σ N → Bool
  | .single _ => f.singles.contains tag
  | .wrapper _ => f.wrappers.contains tag
  | .cluster _ => f.clusters.contains tag
  | .rule _ => f.rules.contains tag

/-- Registers a builder under a tag. -/
def register (f : Factory σ N) (tag : String) (builder : Builder σ N) :
    Logged (Factory σ N) := do
  if f.has tag builder then Logged.tell (.replaced tag)
  pure (f.insert tag builder)

/-- Registers builders one after the other. -/
def registerAll (f : Factory σ N) : List (String × Builder σ N) → Logged (Factory σ N)
  | [] => pure f
  | (tag, builder) :: rest => do
    let f ← f.register tag builder
    f.registerAll rest

/-! ## What is registered -/

/-- The number of registrations of all kinds. -/
def size (f : Factory σ N) : Nat :=
  f.singles.size + f.wrappers.size + f.clusters.size + f.rules.size

/-- Whether nothing is registered. -/
def isEmpty (f : Factory σ N) : Bool := f.size = 0

/-- Whether some component is registered for a type. -/
def containsType (f : Factory σ N) (type : String) : Bool :=
  f.singles.contains type || f.wrappers.contains type || f.clusters.contains type

/-- Whether an evaluator is registered for a rule name. -/
def containsRule (f : Factory σ N) (name : String) : Bool := f.rules.contains name

/-- The types in ascending order, each once. -/
def types (f : Factory σ N) : List String :=
  (Dictionary.ofList ((f.singles.keys ++ f.wrappers.keys ++ f.clusters.keys).map
    fun type => (type, ()))).keys

/-- The rule names in ascending order. -/
def ruleNames (f : Factory σ N) : List String := f.rules.keys

/-- The diagnostic text of a factory: its types and its rule names. -/
def debug (f : Factory σ N) : String :=
  Text.record "JsonFactory"
    [("types", Text.bracketed (f.types.map Text.quoted)),
      ("rules", Text.bracketed (f.ruleNames.map Text.quoted))]

/-- The rule of a specification, over the evaluators that are registered. -/
def parseRule (f : Factory σ N) (spec : Json) : Logged (Option (Rule (Effect σ Bool))) :=
  Rule.ofSpec? f.rules.get? spec

end Factory

end ViewTree
