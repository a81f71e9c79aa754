import Mathlib.Logic.Relation
import ViewTree.Proofs.Compile.Follow
import ViewTree.Proofs.Compile.Image

/-!
# Content that is unknown

> What is not known to a factory can be added to a document, and the document compiles to the same.

There are two things to add. A node can be given a **field** under a key that it is not read by. And
in its array of children an **entry** can be put at any position, if there is no component of it: a
value that is no object, or a node that does not resolve. `Adds` is one addition, at the node itself
or at a node below.

An entry that does not resolve is compiled like any other, though, and registered functions may be
run for the nodes below it. If these functions have a state in common with the others, adding the
entry can change what the others make: the document is no longer alone. So the theorem has several
parts. In each of them the additions are any number of additions anywhere.

* Whatever the registered functions do, whether the document compiles, and whether there is a
  component, does not change.
* Where what is added leaves the state of the host alone, nothing changes, whatever the registered
  functions do. Fields, and values that are no objects, always do.
* Where what the registered functions make depends on their arguments only, the component is the
  same one, also if they do leave something behind.
* Where they make what they are registered as, the component has the same frame: the same kinds,
  metadata, rules and children in the same order.

All of these are one theorem, `outcome_of_adds`, for different views of the host and of components.
-/

set_option autoImplicit false

namespace ViewTree

variable {σ N γ δ : Type}

open Compilation (Follows)
open Relation (ReflTransGen)

/-! ## Objects with another field -/

namespace Json

/-- An object with a value under a key, in the place of one that is there. -/
def withField (j : Json) (key : String) (value : Json) : Json :=
  match j with
  | .obj fields => .obj (Dictionary.insertEntry key value fields)
  | j => j

theorem field?_withField_of_ne (j : Json) {key other : String} (value : Json) (h : other ≠ key) :
    (j.withField key value).field? other = j.field? other := by
  cases j with
  | obj fields => exact (Dictionary.lookup_insertEntry key other value fields).trans (if_neg h)
  | _ => rfl

theorem field?_withField_self {j : Json} (key : String) (value : Json) (h : j.isObject = true) :
    (j.withField key value).field? key = some value := by
  cases j with
  | obj fields => exact (Dictionary.lookup_insertEntry key key value fields).trans (if_pos rfl)
  | _ => exact absurd h (by simp [isObject])

@[simp] theorem isObject_withField (j : Json) (key : String) (value : Json) :
    (j.withField key value).isObject = j.isObject := by
  cases j <;> rfl

end Json

namespace Node

/-- The keys that a node is read by. -/
def keys : List String := [typeKey, metadataKey, childrenKey, ruleKey]

theorem entriesOf_eq {j : Json} {items : List Json}
    (h : j.field? childrenKey = some (.arr items)) : entriesOf j = items := by
  rw [entriesOf, h]
  rfl

theorem entriesOf_withField {j : Json} {items : List Json}
    (h : j.field? childrenKey = some (.arr items)) (items' : List Json) :
    entriesOf (j.withField childrenKey (.arr items')) = items' := by
  have hobject : j.isObject = true := by
    cases j with
    | obj fields => rfl
    | _ => exact absurd h (by simp [Json.field?])
  exact entriesOf_eq (Json.field?_withField_self childrenKey _ hobject)

end Node

/-! ## Additions -/

/-- **An addition to a node**, of a field or of an entry that may be added, at the node itself or at
one of its entries. -/
inductive Adds (addable : Json → Prop) : Json → Json → Prop
  /-- A field under a key that nodes are not read by. -/
  | field {j : Json} {key : String} (value : Json) :
      key ∉ Node.keys → Adds addable j (j.withField key value)
  /-- An entry anywhere in the array of children. -/
  | entry {j extra : Json} {before after : List Json} :
      j.field? Node.childrenKey = some (.arr (before ++ after)) → addable extra →
      Adds addable j (j.withField Node.childrenKey (.arr (before ++ extra :: after)))
  /-- An addition to an entry. -/
  | inside {j entry entry' : Json} {before after : List Json} :
      j.field? Node.childrenKey = some (.arr (before ++ entry :: after)) →
      Adds addable entry entry' →
      Adds addable j (j.withField Node.childrenKey (.arr (before ++ entry' :: after)))

theorem Adds.isObject_eq {addable : Json → Prop} {j j' : Json} (h : Adds addable j j') :
    j'.isObject = j.isObject := by
  cases h <;> exact Json.isObject_withField _ _ _

namespace Factory

/-- **A value of which there is no component**: it is no object, or a node that comes to nothing. -/
def Unknown (f : Factory σ N) (extra : Json) : Prop :=
  extra.isObject = false ∨ ∃ s, (f.compileNode (.ofJson extra)).outcome s = .ok none

/-- Compiling a value leaves the state of the host as it was. -/
def Idle (f : Factory σ N) (extra : Json) : Prop :=
  ∀ s, (f.compileNode (.ofJson extra)).after s = s

variable {f : Factory σ N} {seen : σ → δ} {look : Component σ N → γ}

/-! ## Entries that follow -/

theorem compileEntries_append (f : Factory σ N) (first second : List Node) :
    f.compileEntries (first ++ second) = (do
      let children ← f.compileEntries first
      let others ← f.compileEntries second
      pure (children ++ others)) := by
  induction first with
  | nil =>
    rw [List.nil_append, compileEntries, pure_bind]
    simp only [List.nil_append, bind_pure]
  | cons entry rest ih =>
    rw [List.cons_append, compileEntries, compileEntries, ih]
    by_cases hobject : entry.source.isObject = true
    · simp only [if_pos hobject, bind_assoc, pure_bind, List.append_assoc]
    · simp only [if_neg hobject, bind_assoc]

theorem follows_append {first first' second second' : List Node}
    (hfirst : Follows seen (List.map look) (f.compileEntries first') (f.compileEntries first))
    (hsecond : Follows seen (List.map look) (f.compileEntries second') (f.compileEntries second)) :
    Follows seen (List.map look) (f.compileEntries (first' ++ second'))
      (f.compileEntries (first ++ second)) := by
  rw [compileEntries_append, compileEntries_append]
  refine hfirst.bind fun children children' hchildren => ?_
  refine hsecond.bind fun others others' hothers => .pure ?_
  rw [List.map_append, List.map_append, hchildren, hothers]

theorem compileEntries_single (f : Factory σ N) (entry : Node) :
    f.compileEntries [entry] =
      if entry.source.isObject then (do
        let child ← f.compileNode entry
        pure child.toList)
      else (do
        Logged.tell (.skippedChild entry.source)
        pure []) := by
  simp only [compileEntries, pure_bind, List.append_nil]

theorem follows_single {entry entry' : Node}
    (hobject : entry'.source.isObject = entry.source.isObject)
    (h : Follows seen (Option.map look) (f.compileNode entry') (f.compileNode entry)) :
    Follows seen (List.map look) (f.compileEntries [entry']) (f.compileEntries [entry]) := by
  rw [compileEntries_single, compileEntries_single, hobject]
  by_cases hentry : entry.source.isObject = true
  · rw [if_pos hentry, if_pos hentry]
    refine h.bind fun child? child?' hchild => .pure ?_
    rw [← Option.toList_map, ← Option.toList_map, hchild]
  · rw [if_neg hentry, if_neg hentry]
    exact Follows.bind (.logged rfl : Follows seen id _ _) fun _ _ _ => .pure rfl

/-- **A node follows itself**, which compares its runs in two states of the host. -/
theorem follows_self (hf : f.Respects seen look) (n : Node) :
    Follows seen (Option.map look) (f.compileNode n) (f.compileNode n) := by
  induction n with
  | step source entries ih =>
    refine compileNode_follows hf rfl rfl rfl ?_
    induction entries with
    | nil => exact .pure rfl
    | cons entry rest ihrest =>
      have hentry := follows_single rfl (ih entry List.mem_cons_self)
      exact follows_append hentry (ihrest fun e he => ih e (List.mem_cons_of_mem _ he))

theorem follows_entries_self (hf : f.Respects seen look) (entries : List Node) :
    Follows seen (List.map look) (f.compileEntries entries) (f.compileEntries entries) := by
  induction entries with
  | nil => exact .pure rfl
  | cons entry rest ih => exact follows_append (follows_single rfl (follows_self hf entry)) ih

/-- Entries follow when something in their middle does. -/
theorem follows_middle (hf : f.Respects seen look) (before after middle middle' : List Json)
    (h : Follows seen (List.map look) (f.compileEntries (middle'.map Node.ofJson))
      (f.compileEntries (middle.map Node.ofJson))) :
    Follows seen (List.map look)
      (f.compileEntries ((before ++ (middle' ++ after)).map Node.ofJson))
      (f.compileEntries ((before ++ (middle ++ after)).map Node.ofJson)) := by
  rw [List.map_append, List.map_append, List.map_append, List.map_append]
  exact follows_append (follows_entries_self hf _) (follows_append h (follows_entries_self hf _))

/-! ## What is unknown -/

/-- Whether there is a component of a value does not depend on the state of the host. -/
theorem Unknown.outcome_eq {extra : Json} (h : f.Unknown extra) (hobject : extra.isObject = true)
    (t : σ) : (f.compileNode (.ofJson extra)).outcome t = .ok none := by
  rcases h with h | ⟨s, h⟩
  · rw [hobject] at h
    exact absurd h (by simp)
  · obtain ⟨made, hmade, hlook, -⟩ := follows_self f.respects_nothing (.ofJson extra) s t rfl none h
    rw [Option.map_none, Option.map_eq_none_iff] at hlook
    rw [hmade, hlook]

/-- Entries without a component are passed over. -/
theorem follows_without {extra : Json} (hextra : f.Unknown extra)
    (hseen : ∀ t, seen ((f.compileNode (.ofJson extra)).after t) = seen t) :
    Follows seen (List.map look) (f.compileEntries [.ofJson extra]) (f.compileEntries []) := by
  intro s t hst made hmade
  rw [compileEntries] at hmade
  obtain rfl := Except.ok.inj hmade
  refine ⟨[], ?_⟩
  rw [compileEntries_single, Node.source_ofJson]
  by_cases hobject : extra.isObject = true
  · have hnone := hextra.outcome_eq hobject t
    rw [if_pos hobject, Compilation.outcome_bind, Compilation.after_bind, hnone]
    exact ⟨rfl, rfl, (hseen t).trans hst⟩
  · rw [if_neg hobject]
    exact ⟨rfl, rfl, hst⟩

/-- Putting other children into a node changes nothing of it but its entries. -/
theorem follows_withChildren (hf : f.Respects seen look) {j : Json} {items items' : List Json}
    (hfield : j.field? Node.childrenKey = some (.arr items))
    (hitems : Follows seen (List.map look) (f.compileEntries (items'.map Node.ofJson))
      (f.compileEntries (items.map Node.ofJson))) :
    Follows seen (Option.map look)
      (f.compileNode (.ofJson (j.withField Node.childrenKey (.arr items'))))
      (f.compileNode (.ofJson j)) := by
  have hother : ∀ other, other ≠ Node.childrenKey →
      (j.withField Node.childrenKey (.arr items')).field? other = j.field? other := fun other hne =>
    Json.field?_withField_of_ne j _ hne
  rw [Node.ofJson_eq, Node.ofJson_eq j]
  apply compileNode_follows hf
  · rw [Node.typeOf?, Node.typeOf?, hother _ (by decide)]
  · rw [Node.metadataOf?, Node.metadataOf?, hother _ (by decide)]
  · rw [Node.ruleOf?, Node.ruleOf?, hother _ (by decide)]
  · rw [Node.entriesOf_withField hfield, Node.entriesOf_eq hfield]
    exact hitems

/-- A field that a node is not read by changes nothing of it. -/
theorem follows_withField (hf : f.Respects seen look) (j : Json) {key : String} (value : Json)
    (hkey : key ∉ Node.keys) :
    Follows seen (Option.map look) (f.compileNode (.ofJson (j.withField key value)))
      (f.compileNode (.ofJson j)) := by
  have hother : ∀ other ∈ Node.keys, (j.withField key value).field? other = j.field? other := by
    intro other hmem
    apply Json.field?_withField_of_ne j value
    rintro rfl
    exact hkey hmem
  rw [Node.ofJson_eq, Node.ofJson_eq j]
  apply compileNode_follows hf
  · rw [Node.typeOf?, Node.typeOf?, hother _ (by simp [Node.keys])]
  · rw [Node.metadataOf?, Node.metadataOf?, hother _ (by simp [Node.keys])]
  · rw [Node.ruleOf?, Node.ruleOf?, hother _ (by simp [Node.keys])]
  · rw [Node.entriesOf, Node.entriesOf, hother _ (by simp [Node.keys])]
    exact follows_entries_self hf _

/-- **A node follows the one that something is added to.** -/
theorem follows_of_adds (hf : f.Respects seen look) {addable : Json → Prop}
    (haddable : ∀ extra, addable extra → f.Unknown extra ∧
      ∀ t, seen ((f.compileNode (.ofJson extra)).after t) = seen t)
    {j j' : Json} (h : Adds addable j j') :
    Follows seen (Option.map look) (f.compileNode (.ofJson j')) (f.compileNode (.ofJson j)) := by
  induction h with
  | @field j key value hkey => exact follows_withField hf j value hkey
  | @entry j extra before after hfield hextra =>
    obtain ⟨hunknown, hseen⟩ := haddable extra hextra
    apply follows_withChildren hf hfield
    exact follows_middle hf before after [] [extra] (follows_without hunknown hseen)
  | @inside j entry entry' before after hfield hadds ih =>
    apply follows_withChildren hf hfield
    apply follows_middle hf before after [entry] [entry']
    refine follows_single ?_ ih
    rw [Node.source_ofJson, Node.source_ofJson, hadds.isObject_eq]

/-- **What is added cannot be told through views that the factory respects**, as long as compiling
it cannot be told from the state of the host. -/
theorem outcome_of_adds (hf : f.Respects seen look) {addable : Json → Prop}
    (haddable : ∀ extra, addable extra → f.Unknown extra ∧
      ∀ t, seen ((f.compileNode (.ofJson extra)).after t) = seen t)
    {j j' : Json} (h : ReflTransGen (Adds addable) j j') {s : σ}
    {component? : Option (Component σ N)}
    (hs : (f.compileNode (.ofJson j)).outcome s = .ok component?) {t : σ} (hst : seen t = seen s) :
    ∃ other?, (f.compileNode (.ofJson j')).outcome t = .ok other? ∧
      other?.map look = component?.map look ∧
      seen ((f.compileNode (.ofJson j')).after t) =
        seen ((f.compileNode (.ofJson j)).after s) := by
  induction h with
  | refl => exact follows_self hf _ s t hst component? hs
  | tail _ hadds ih =>
    obtain ⟨before?, hbefore, hlook, hseen⟩ := ih
    obtain ⟨after?, hafter, hlook', hseen'⟩ :=
      follows_of_adds hf haddable hadds t t rfl before? hbefore
    exact ⟨after?, hafter, hlook'.trans hlook, hseen'.trans hseen⟩

/-! ## Nothing changes -/

/-- **Content that is unknown is inert.** After any number of additions of fields that nodes are not
read by, and of entries of which there is no component, wherever they are made, a node that compiled
compiles, in every state of the host, and there is a component if there was one. It is the same one,
and the host is left as it was left before, if what is added leaves the host alone; it is the same
one in any case if the registered functions make of the same arguments the same; and it has the same
kinds, metadata, rules and children in the same order if they make what they are registered as. -/
theorem unknown_content_is_inert (f : Factory σ N) (j j' : Json) (s : σ)
    (component? : Option (Component σ N))
    (h : (f.compileNode (.ofJson j)).outcome s = .ok component?) :
    (ReflTransGen (Adds f.Unknown) j j' → ∀ t,
      (∃ other?, (f.compileNode (.ofJson j')).outcome t = .ok other? ∧
        (other? = none ↔ component? = none)) ∧
      (f.Functional → (f.compileNode (.ofJson j')).outcome t = .ok component?) ∧
      (f.Faithful → ∃ other?, (f.compileNode (.ofJson j')).outcome t = .ok other? ∧
        other?.map Component.frame = component?.map Component.frame)) ∧
    (ReflTransGen (Adds fun extra => f.Unknown extra ∧ f.Idle extra) j j' →
      (f.compileNode (.ofJson j')).outcome s = .ok component? ∧
        (f.compileNode (.ofJson j')).after s = (f.compileNode (.ofJson j)).after s) := by
  refine ⟨fun hadds t => ⟨?_, fun hfunctional => ?_, fun hfaithful => ?_⟩, fun hadds => ?_⟩
  · obtain ⟨other?, hother, hlook, -⟩ :=
      outcome_of_adds f.respects_nothing (fun _ hextra => ⟨hextra, fun _ => rfl⟩) hadds h rfl
    refine ⟨other?, hother, ?_⟩
    rw [← Option.map_eq_none_iff, hlook, Option.map_eq_none_iff]
  · obtain ⟨other?, hother, hlook, -⟩ :=
      outcome_of_adds hfunctional.respects (fun _ hextra => ⟨hextra, fun _ => rfl⟩) hadds h rfl
    rw [Option.map_id] at hlook
    obtain rfl : other? = component? := hlook
    exact hother
  · obtain ⟨other?, hother, hlook, -⟩ :=
      outcome_of_adds hfaithful.respects (fun _ hextra => ⟨hextra, fun _ => rfl⟩) hadds h rfl
    exact ⟨other?, hother, hlook⟩
  · obtain ⟨other?, hother, hlook, hafter⟩ :=
      outcome_of_adds f.respects_everything (fun _ hextra => hextra) hadds h rfl
    rw [Option.map_id] at hlook
    obtain rfl : other? = component? := hlook
    exact ⟨hother, hafter⟩

theorem twofold_functional : twofold.Functional := by
  refine ⟨?_, ?_, ?_⟩
  · intro type factory _ metadata
    exact ⟨((factory metadata).run ()).1, fun _ => rfl⟩
  · intro type factory _ child metadata
    exact ⟨((factory child metadata).run ()).1, fun _ => rfl⟩
  · intro type factory _ children metadata
    exact ⟨((factory children metadata).run ()).1, fun _ => rfl⟩

/-- A box with entries, and with more fields than it needs. -/
def boxOf (more : List (String × Json)) (entries : List Json) : Json :=
  .obj (("children", .arr entries) :: more ++ [("type", .str "box")])

/-- A leaf with a rule, for a box to take. -/
def knownLeaf : Json := .obj [("type", .str "leaf"), ("rule", .str "shown")]

/-- A node of a type that nothing is registered for, with a leaf below it. -/
def strangeNode : Json :=
  .obj [("type", .str "odd"), ("children", .arr [.obj [("type", .str "leaf")]])]

theorem unknown_content_is_inert_box :
    let j := boxOf [] [boxOf [] [knownLeaf]]
    let j' := boxOf []
      [.num (.integer (.ofUInt64 7)), boxOf [("note", .null)] [strangeNode, knownLeaf]]
    ∃ c, (twofold.compileNode (.ofJson j)).outcome () = .ok (some c) ∧
      ReflTransGen (Adds twofold.Unknown) j j' ∧
      ReflTransGen (Adds fun extra => twofold.Unknown extra ∧ twofold.Idle extra) j j' ∧
      twofold.Functional ∧ twofold.Faithful ∧
      (twofold.compileNode (.ofJson j')).outcome () = .ok (some c) ∧
      (twofold.compileNode (.ofJson j')).after () = (twofold.compileNode (.ofJson j)).after () ∧
      ∃ other?, (twofold.compileNode (.ofJson j')).outcome () = .ok other? ∧
        other?.map Component.frame = some c.frame := by
  intro j j'
  have hchain : ∀ addable : Json → Prop, addable (.num (.integer (.ofUInt64 7))) →
      addable strangeNode → ReflTransGen (Adds addable) j j' := by
    intro addable hnumber hnode
    have hfield : Adds addable j (boxOf [] [boxOf [("note", .null)] [knownLeaf]]) :=
      @Adds.inside _ _ (boxOf [] [knownLeaf]) _ [] [] rfl (@Adds.field _ _ "note" .null (by decide))
    have hentry : Adds addable (boxOf [] [boxOf [("note", .null)] [knownLeaf]])
        (boxOf [] [boxOf [("note", .null)] [strangeNode, knownLeaf]]) :=
      @Adds.inside _ _ (boxOf [("note", .null)] [knownLeaf]) _ [] [] rfl
        (@Adds.entry _ _ strangeNode [] [knownLeaf] rfl hnode)
    have hvalue : Adds addable (boxOf [] [boxOf [("note", .null)] [strangeNode, knownLeaf]]) j' :=
      @Adds.entry _ _ (.num (.integer (.ofUInt64 7))) [] _ rfl hnumber
    exact .tail (.tail (.single hfield) hentry) hvalue
  have hnode : twofold.Unknown strangeNode := .inr ⟨(), rfl⟩
  have hadds := hchain twofold.Unknown (.inl rfl) hnode
  have hidle := hchain (fun extra => twofold.Unknown extra ∧ twofold.Idle extra)
    ⟨.inl rfl, fun _ => rfl⟩ ⟨hnode, fun _ => rfl⟩
  obtain ⟨hinert, hsame⟩ := unknown_content_is_inert twofold j j' () _ rfl
  obtain ⟨-, hfunctional, hfaithful⟩ := hinert hadds ()
  obtain ⟨-, hafter⟩ := hsame hidle
  exact ⟨_, rfl, hadds, hidle, twofold_functional, twofold_faithful, hfunctional twofold_functional,
    hafter, hfaithful twofold_faithful⟩

/-- A factory with lamps, which are leaves the first time one is made and clusters from then on. -/
def flickering : Factory Nat Unit where
  singles := Dictionary.empty.insert "lamp" fun metadata made =>
    (if made = 0 then .single (fun _ => pure none) metadata
      else .cluster (fun _ _ => pure none) [] metadata, made + 1)
  wrappers := .empty
  clusters := Dictionary.empty.insert "box" fun children metadata =>
    pure (.cluster (fun _ _ => pure none) children metadata)
  rules := .empty

/-- A node that is a lamp. -/
def lamp : Json := .obj [("type", .str "lamp")]

/-- A node of a type that nothing is registered for, with a lamp below it. -/
def ghost : Json := .obj [("type", .str "ghost"), ("children", .arr [lamp])]

/-- A registered function that remembers its runs **can tell** content that is unknown: a lamp in it
is made and dropped, and the lamp that is kept is no longer the first one. -/
theorem unknown_content_is_told_flickering :
    flickering.Unknown ghost ∧
    Adds flickering.Unknown (boxOf [] [lamp]) (boxOf [] [ghost, lamp]) ∧
    ∃ c c', (flickering.compileNode (.ofJson (boxOf [] [lamp]))).outcome 0 = .ok (some c) ∧
      (flickering.compileNode (.ofJson (boxOf [] [ghost, lamp]))).outcome 0 = .ok (some c') ∧
      c.children.map Component.kind = [.single] ∧
      c'.children.map Component.kind = [.cluster] := by
  have hghost : flickering.Unknown ghost := .inr ⟨0, rfl⟩
  have hadds : Adds flickering.Unknown (boxOf [] [lamp]) (boxOf [] [ghost, lamp]) :=
    @Adds.entry _ _ ghost [] [lamp] rfl hghost
  exact ⟨hghost, hadds, _, _, rfl, rfl, rfl, rfl⟩

end Factory

end ViewTree
