import ViewTree.Factory.Basic
import ViewTree.Json.Tree
import ViewTree.Node

/-!
# Compiling documents

Compiling turns the nodes of a document into components, the children of a node before the node
itself.

**Two things are mandatory:** a document has a `structure`, and every node has a type. Where one is
missing the whole document fails, also where the node would not have been used.

**Everything else is dropped where it does not resolve,** with an event: an entry that is no object,
a type that nothing is registered for, a wrapper without a child, a rule that is none. A type is
looked for among the leaves, then among the wrappers, then among the clusters.
-/

set_option autoImplicit false

namespace ViewTree

/-- Why a document cannot be compiled. -/
inductive CompileError where
  /-- A mandatory key is absent, or what stands under it is of the wrong type. -/
  | missingKey (key : String) (object : Json)
  /-- The text of the document is no JSON. -/
  | invalidJson (error : Json.Error)

/-- The message about a document that cannot be compiled, with values as a writer has them. -/
def CompileError.messageWith (write : Json → String) : CompileError → String
  | .missingKey key object => "missing mandatory key '" ++ key ++ "' in " ++ write object
  | .invalidJson error => "invalid JSON document: " ++ error.words

/-- The message about a document that cannot be compiled. -/
def CompileError.message (e : CompileError) : String := e.messageWith Json.text

/-- A computation that may fail to compile. What was told and done before a failure stays. -/
abbrev Compilation (σ : Type) : Type → Type := ExceptT CompileError (Action σ)

namespace Factory

variable {σ N : Type}

/-- The key of a document's outermost node. -/
def structureKey : String := "structure"

/-- Makes the component of a type, before any gate. -/
def resolve (f : Factory σ N) (type : String) (children : List (Component σ N))
    (metadata : Option (Metadata σ)) : Action σ (Option (Component σ N)) :=
  match f.singles.get? type with
  | some factory => do
    let component ← factory metadata
    pure (some component)
  | none =>
    match f.wrappers.get? type with
    | some factory =>
      match children with
      | [] => do
        Logged.tell (.noChild type)
        pure none
      | child :: more => do
        if !more.isEmpty then Logged.tell (.extraChildren type children.length)
        let component ← factory child metadata
        pure (some component)
    | none =>
      match f.clusters.get? type with
      | some factory => do
        let component ← factory children metadata
        pure (some component)
      | none => do
        Logged.tell (.unregistered type)
        pure none

/-- Puts a component behind the rule of its node, if it has one that is a rule. -/
def gate (f : Factory σ N) (type : String) (spec : Option Json) (component : Component σ N) :
    Logged (Component σ N) :=
  match spec with
  | none => pure component
  | some spec => do
    match ← f.parseRule spec with
    | some rule => pure (.gated rule component)
    | none =>
      Logged.tell (.notGated type spec)
      pure component

mutual

/-- Compiles a node. There is no component where it does not resolve. -/
def compileNode (f : Factory σ N) : Node → Compilation σ (Option (Component σ N))
  | ⟨source, entries⟩ =>
    match Node.typeOf? source with
    | none => throw (.missingKey Node.typeKey source)
    | some type => do
      Logged.tell (.compiling type)
      let children ← compileEntries f entries
      match ← f.resolve type children (Node.metadataOf? source) with
      | none => pure none
      | some component =>
        let component ← f.gate type (Node.ruleOf? source) component
        pure (some component)

/-- Compiles entries one after the other and keeps the components there are. -/
def compileEntries (f : Factory σ N) : List Node → Compilation σ (List (Component σ N))
  | [] => pure []
  | entry :: rest =>
    if entry.source.isObject then do
      let child ← compileNode f entry
      let others ← compileEntries f rest
      pure (child.toList ++ others)
    else do
      Logged.tell (.skippedChild entry.source)
      compileEntries f rest

end

/-- Compiles a document, that is the node under its `structure`. -/
def compile (f : Factory σ N) (document : Json) : Compilation σ (Option (Component σ N)) :=
  match document.field? structureKey with
  | none => throw (.missingKey structureKey document)
  | some root => f.compileNode (Node.ofJson root)

/-- Compiles the text of a document. -/
def compileText (f : Factory σ N) (text : String) : Compilation σ (Option (Component σ N)) :=
  match Json.parse text with
  | .error error => throw (.invalidJson error)
  | .ok document => f.compile document

end Factory

end ViewTree
