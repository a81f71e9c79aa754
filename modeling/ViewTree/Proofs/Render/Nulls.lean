import Mathlib.Logic.Relation
import ViewTree.Proofs.Compile.Addition
import ViewTree.Proofs.Component.Aspect
import ViewTree.Proofs.Render.Meaning

/-!
# Null means absent, up to the view

A null in the metadata of a node is what an absent entry is. It is not found, in whatever layer it
lies it does not cover what is below, and an entry that is null can be **taken out of a document**
without a change to what is rendered.

Both halves of that are one fact about reading: a dictionary with a null and the one without it are
read alike, and so are layers and the dictionary that they are merged into. From there it is a
matter of what a component shows of its metadata, which is its aspect.

For a document this has to hold under any rules, rules with effects included. A gate runs its rule
when the component is realized and not when it is compiled, so it is not enough that the views are
the same; the components have to ask the host for the same in the same order. Aspects are programs,
and two nodes with the same aspect do.
-/

set_option autoImplicit false

namespace ViewTree

variable {σ : Type}

open Compilation (Follows)
open Relation (ReflTransGen)

/-! ## Taking a null out -/

/-- **A null entry is taken out** of the metadata of a node, or of a node below. -/
inductive DropsNull : Json → Json → Prop
  /-- At the node itself. -/
  | settings {j : Json} {d : Dictionary Json} {key : String} :
      Node.settings? j = some d → d.get? key = some .null →
      DropsNull j (j.withField Node.metadataKey (.ofDictionary (d.erase key)))
  /-- At an entry. -/
  | inside {j entry entry' : Json} {before after : List Json} :
      j.field? Node.childrenKey = some (.arr (before ++ entry :: after)) → DropsNull entry entry' →
      DropsNull j (j.withField Node.childrenKey (.arr (before ++ entry' :: after)))

/-- In a document, it is taken out of the node under `structure`. -/
inductive DocumentDropsNull : Json → Json → Prop
  | root {document root root' : Json} :
      document.field? Factory.structureKey = some root → DropsNull root root' →
      DocumentDropsNull document (document.withField Factory.structureKey root')

theorem DropsNull.isObject_eq {j j' : Json} (h : DropsNull j j') : j'.isObject = j.isObject := by
  cases h <;> exact Json.isObject_withField _ _ _

theorem Json.isObject_of_field? {j value : Json} {key : String} (h : j.field? key = some value) :
    j.isObject = true := by
  cases j with
  | obj fields => rfl
  | _ => exact absurd h (by simp [Json.field?])

/-- A node with other metadata in the place of its own. -/
theorem Node.settings?_withField {j : Json} {d : Dictionary Json} (h : Node.settings? j = some d)
    (e : Dictionary Json) :
    Node.settings? (j.withField Node.metadataKey (.ofDictionary e)) = some e := by
  obtain ⟨value, hvalue, -⟩ := Option.bind_eq_some_iff.mp h
  rw [Node.settings?, Json.field?_withField_self _ _ (Json.isObject_of_field? hvalue)]
  exact congrArg some (Dictionary.ofList_entries e)

/-- What metadata is read alike with and without a null. -/
theorem Node.alike_of_erase {j : Json} {d : Dictionary Json} {key : String}
    (hd : Node.settings? j = some d) (hnull : d.get? key = some .null) :
    Option.Rel Metadata.Alike (Node.metadataOf? j : Option (Metadata σ))
      (Node.metadataOf? (j.withField Node.metadataKey (.ofDictionary (d.erase key)))) := by
  rw [Node.metadataOf?_eq, Node.metadataOf?_eq, Node.settings?_withField hd, hd]
  exact .some (Metadata.map_alike_erase hnull)

namespace Factory

variable (rules : Dictionary (Effect σ Bool))

/-- Entries follow when one among them does. -/
theorem follows_at {entry entry' : Json} (before after : List Json)
    (hobject : entry'.isObject = entry.isObject)
    (h : Follows id (Option.map Component.aspect)
      ((standard.withRules rules).compileNode (.ofJson entry'))
      ((standard.withRules rules).compileNode (.ofJson entry))) :
    Follows id (List.map Component.aspect)
      ((standard.withRules rules).compileEntries ((before ++ entry' :: after).map Node.ofJson))
      ((standard.withRules rules).compileEntries ((before ++ entry :: after).map Node.ofJson)) := by
  have hone : Follows id (List.map Component.aspect)
      ((standard.withRules rules).compileEntries [Node.ofJson entry'])
      ((standard.withRules rules).compileEntries [Node.ofJson entry]) :=
    follows_single (by rw [Node.source_ofJson, Node.source_ofJson, hobject]) h
  rw [List.map_append, List.map_append, List.map_cons, List.map_cons]
  exact follows_append (.same _ _) (follows_append hone (.same _ _))

/-- **A node with a null and the node without it follow each other.** -/
theorem follows_of_dropsNull {j j' : Json} (h : DropsNull j j') :
    Follows id (Option.map Component.aspect)
      ((standard.withRules rules).compileNode (.ofJson j'))
      ((standard.withRules rules).compileNode (.ofJson j)) ∧
    Follows id (Option.map Component.aspect)
      ((standard.withRules rules).compileNode (.ofJson j))
      ((standard.withRules rules).compileNode (.ofJson j')) := by
  induction h with
  | @settings j d key hd hnull =>
    have hother : ∀ other, other ≠ Node.metadataKey →
        (j.withField Node.metadataKey (.ofDictionary (d.erase key))).field? other =
          j.field? other := fun other hne => Json.field?_withField_of_ne j _ hne
    have htype := congrArg (·.bind Json.str?) (hother Node.typeKey (by decide))
    have hrule := hother Node.ruleKey (by decide)
    have halike := Node.alike_of_erase (σ := σ) hd hnull
    have hentries : Node.entriesOf (j.withField Node.metadataKey (.ofDictionary (d.erase key))) =
        Node.entriesOf j := by
      rw [Node.entriesOf, Node.entriesOf, hother _ (by decide)]
    rw [Node.ofJson_eq, Node.ofJson_eq j, hentries]
    exact ⟨compileNode_follows_of_alike rules htype halike hrule (.same _ _),
      compileNode_follows_of_alike rules htype.symm (Metadata.alike_symm halike) hrule.symm
        (.same _ _)⟩
  | @inside j entry entry' before after hfield hdrops ih =>
    have hother : ∀ other, other ≠ Node.childrenKey →
        (j.withField Node.childrenKey (.arr (before ++ entry' :: after))).field? other =
          j.field? other := fun other hne => Json.field?_withField_of_ne j _ hne
    have htype := congrArg (·.bind Json.str?) (hother Node.typeKey (by decide))
    have hrule := hother Node.ruleKey (by decide)
    have halike : Option.Rel Metadata.Alike (Node.metadataOf? j : Option (Metadata σ))
        (Node.metadataOf? (j.withField Node.childrenKey (.arr (before ++ entry' :: after)))) := by
      rw [Node.metadataOf?, Node.metadataOf?, hother _ (by decide)]
      exact Metadata.alike_refl _
    rw [Node.ofJson_eq, Node.ofJson_eq j, Node.entriesOf_withField hfield, Node.entriesOf_eq hfield]
    exact ⟨compileNode_follows_of_alike rules htype halike hrule
        (follows_at rules before after hdrops.isObject_eq ih.1),
      compileNode_follows_of_alike rules htype.symm (Metadata.alike_symm halike) hrule.symm
        (follows_at rules before after hdrops.isObject_eq.symm ih.2)⟩

/-- What compiles to the same aspect is rendered as the same. -/
theorem render_follows {document document' : Json} {f : Factory σ View}
    (h : Follows id (Option.map Component.aspect) (f.compile document') (f.compile document)) :
    Follows id id (f.render document') (f.render document) := by
  rw [render, render]
  refine h.bind fun component? component?' hcomponent => ?_
  cases component? with
  | none =>
    cases component?' with
    | none => exact .same _ _
    | some c' => exact absurd hcomponent (by simp)
  | some c =>
    cases component?' with
    | none => exact absurd hcomponent (by simp)
    | some c' =>
      simp only [Component.realize_eq_of_aspect (Option.some.inj hcomponent)]
      exact .same _ _

theorem render_follows_of_drops {document document' : Json}
    (h : DocumentDropsNull document document') :
    Follows id id ((standard.withRules rules).render document')
      ((standard.withRules rules).render document) ∧
    Follows id id ((standard.withRules rules).render document)
      ((standard.withRules rules).render document') := by
  obtain ⟨hroot, hdrops⟩ := h
  rename_i root root'
  have hroot' : (document.withField structureKey root').field? structureKey = some root' :=
    Json.field?_withField_self _ _ (Json.isObject_of_field? hroot)
  obtain ⟨hthere, hback⟩ := follows_of_dropsNull rules hdrops
  constructor
  · apply render_follows
    rw [compile, compile, hroot, hroot']
    exact hthere
  · apply render_follows
    rw [compile, compile, hroot, hroot']
    exact hback

/-- **Nulls can be taken out of a document** without a change to what it is rendered as and to what
the host is left as. -/
theorem render_eq_of_drops {document document' : Json}
    (h : ReflTransGen DocumentDropsNull document document') (s t : σ) (view? : Option View) :
    ((standard.withRules rules).render document').outcome s = .ok view? ∧
        ((standard.withRules rules).render document').after s = t ↔
      ((standard.withRules rules).render document).outcome s = .ok view? ∧
        ((standard.withRules rules).render document).after s = t := by
  induction h with
  | refl => exact Iff.rfl
  | tail _ hdrops ih =>
    obtain ⟨hthere, hback⟩ := render_follows_of_drops rules hdrops
    rw [← ih]
    constructor
    · rintro ⟨hview, hafter⟩
      obtain ⟨_, hother, rfl, hstate⟩ := hback s s rfl view? hview
      exact ⟨hother, hstate.trans hafter⟩
    · rintro ⟨hview, hafter⟩
      obtain ⟨_, hother, rfl, hstate⟩ := hthere s s rfl view? hview
      exact ⟨hother, hstate.trans hafter⟩

/-! ## Layers -/

/-- A standard component is realized to the same with metadata that is read alike. -/
theorem realize_component?_congr {m m' : Option (Metadata σ)} (h : Option.Rel Metadata.Alike m m')
    (k : Standard) (children : List (Component σ View)) :
    (k.component? children m').map Component.realize =
      (k.component? children m).map Component.realize := by
  have hchildren : children.map Component.aspect = children.map Component.aspect := rfl
  have hrealize := congrArg (Option.map Prod.fst) (Component.component?_congr h k hchildren)
  rw [Option.map_map, Option.map_map] at hrealize
  exact hrealize

/-- A tab bar is told of a child by its aspect only, wherever the child is among the others. -/
theorem realize_tabBar_congr {child child' : Component σ View} (h : child'.aspect = child.aspect)
    (before after : List (Component σ View)) (metadata : Option (Metadata σ)) :
    (Layout.tabBar (before ++ child' :: after) metadata).realize =
      (Layout.tabBar (before ++ child :: after) metadata).realize := by
  have hchildren : (before ++ child' :: after).map Component.aspect =
      (before ++ child :: after).map Component.aspect := by
    rw [List.map_append, List.map_append, List.map_cons, List.map_cons, h]
  have haspect := Component.component?_congr (Metadata.alike_refl metadata) .tabBar hchildren
  exact Component.realize_eq_of_aspect (Option.some.inj haspect)

/-- **Null means absent, and layers are the dictionary they are merged into.** Merging keeps the
first value under each key that is not null. Layers and their merge answer every look-up the same,
never with null, and so does every typed accessor; the same configurations are materialized of them;
and of whatever standard component they are the metadata, or of whatever child of a tab bar, the
realized view is the same. And however many nulls are taken out of the metadata of a document, at
whatever nodes, it is rendered as the same under any rules. -/
theorem layers_render_as_merged (rules : Dictionary (Effect σ Bool)) (layers : List Layer) :
    let merged : Dictionary Json := Layer.merged layers
    let top : Metadata σ := .zip (layers.map Layer.metadata)
    (∀ key, merged.get? key =
      layers.findSome? fun layer => (layer.content.get? key).bind Json.present?) ∧
    (∀ key, top.lookup key = (Metadata.map merged).lookup key ∧
      top.lookup key = pure (merged.get? key) ∧
      top.getStr key = (Metadata.map merged).getStr key ∧
      top.getBool key = (Metadata.map merged).getBool key ∧
      top.getDouble key = (Metadata.map merged).getDouble key ∧
      top.getUInt64 key = (Metadata.map merged).getUInt64 key) ∧
    (∀ m ∈ top :: .map merged :: layers.map Layer.metadata, ∀ key s,
      ((m.lookup key).run s).1 ≠ some .null) ∧
    (materialize StackConfig (some top) = materialize StackConfig (some (.map merged)) ∧
      materialize TabConfig (some top) = materialize TabConfig (some (.map merged)) ∧
      materialize TabBarConfig (some top) = materialize TabBarConfig (some (.map merged))) ∧
    (∀ (k : Standard) (children : List (Component σ View)),
      (k.component? children (some top)).map Component.realize =
        (k.component? children (some (.map merged))).map Component.realize) ∧
    (∀ child child' : Component σ View, child.metadata = some top →
      child'.metadata = some (.map merged) → child.realize = child'.realize →
      ∀ before after metadata, (Layout.tabBar (before ++ child :: after) metadata).realize =
        (Layout.tabBar (before ++ child' :: after) metadata).realize) ∧
    ∀ document document', ReflTransGen DocumentDropsNull document document' → ∀ s t view?,
      ((standard.withRules rules).render document').outcome s = .ok view? ∧
          ((standard.withRules rules).render document').after s = t ↔
        ((standard.withRules rules).render document).outcome s = .ok view? ∧
          ((standard.withRules rules).render document).after s = t := by
  intro merged top
  have halike : Metadata.Alike top (.map merged) := Metadata.zip_alike_merged layers
  have hsome : Option.Rel Metadata.Alike (some (Metadata.map merged)) (some top) :=
    .some halike.symm
  have htop : ∀ key, top.lookup key = pure (merged.get? key) := fun key => by
    show Metadata.lookup (.zip _) key = _
    rw [Metadata.lookup, Layer.lookupFirst_metadata]
  refine ⟨Layer.get?_merged layers, fun key => ⟨halike.lookup key, htop key, halike.getStr key,
    halike.getBool key, halike.getDouble key, halike.getUInt64 key⟩,
    Metadata.lookup_layers_ne_null layers,
    ⟨halike.materialize_stack, halike.materialize_tab, halike.materialize_tabBar⟩,
    realize_component?_congr hsome, ?_,
    fun document document' h s t view? => render_eq_of_drops rules h s t view?⟩
  intro child child' hchild hchild' hrealize before after metadata
  refine realize_tabBar_congr (Prod.ext hrealize ?_) before after metadata
  show materialize TabConfig child.metadata = materialize TabConfig child'.metadata
  rw [hchild, hchild']
  exact halike.materialize_tab

/-- A document with one label. -/
def labelled (metadata : Dictionary Json) : Json :=
  .obj [("structure", .obj [("meta", .ofDictionary metadata), ("type", .str "label")])]

/-- In the upper layer the title is null, so it is that of the lower layer. -/
theorem layers_render_as_merged_home :
    let layers : List Layer :=
      [.map (.ofList [("icon_name", .str "house"), ("title", .null)]),
        .reflect "Config" (.ofList [("icon_name", .null), ("title", .str "Home")])]
    let top : Metadata Unit := .zip (layers.map Layer.metadata)
    let merged : Dictionary Json := Layer.merged layers
    let full := labelled (.ofList [("color", .null), ("text", .str "Hi")])
    let bare := labelled (.ofList [("text", .str "Hi")])
    merged.get? "title" = some (.str "Home") ∧
    materialize TabConfig (some top) = pure (some ⟨"Home", "house"⟩) ∧
    materialize TabConfig (some (.map merged) : Option (Metadata Unit)) =
      pure (some ⟨"Home", "house"⟩) ∧
    (Layout.tabBar [Widget.label (some top)] none).realize =
      (Layout.tabBar [Widget.label (some (.map merged))] none).realize ∧
    ReflTransGen DocumentDropsNull full bare ∧
    ∀ t view?, ((standard.withRules .empty).render bare).outcome () = .ok view? ∧
          ((standard.withRules .empty).render bare).after () = t ↔
        ((standard.withRules .empty).render full).outcome () = .ok view? ∧
          ((standard.withRules .empty).render full).after () = t := by
  intro layers top merged full bare
  obtain ⟨-, -, -, ⟨-, htab, -⟩, hstandard, htabBar, hdocuments⟩ :=
    layers_render_as_merged (.empty : Dictionary (Effect Unit Bool)) layers
  have hlabel : (Widget.label (some top)).realize = (Widget.label (some (.map merged))).realize :=
    Option.some.inj (hstandard .label [])
  have hdrops : ReflTransGen DocumentDropsNull full bare :=
    .single (.root rfl (@DropsNull.settings _ (.ofList [("color", .null), ("text", .str "Hi")])
      "color" rfl rfl))
  exact ⟨rfl, rfl, htab.symm.trans rfl, htabBar _ _ rfl rfl hlabel [] [] none, hdrops,
    hdocuments full bare hdrops ()⟩

end Factory

end ViewTree
