import ViewTree.Metadata.Materialize
import ViewTree.Proofs.View.Document

/-!
# Typed configurations under layers

A typed configuration is read in one of **two ways**. Where a component wants just that type it is
taken as it is. As soon as something lies above it, it is read like any other metadata, field by
field through look-ups in its serialized form. So it matters that the two ways agree, and they do:
what is serialized under a name is what is read under that name, and every value is read as what it
was written from.

The **one exception** is a spacing that is not finite. JSON has no such number, it is serialized as
null, and null is absent; so a look-up finds no spacing, and the default takes its place.

Below other metadata, a typed configuration supplies the fields that nothing is found for above.
That is said field by field, and it is not the same as to say that it supplies what the other one
*fails* to configure. A value of the wrong type above is found, and covers what is below.
-/

set_option autoImplicit false

namespace ViewTree

variable {σ α : Type}

/-! ## Look-ups that are a function of the key -/

namespace Metadata

/-- **What metadata answers**: every look-up finds what a function says, and asks nobody. -/
def Answers (m : Metadata σ) (found : String → Option Json) : Prop :=
  ∀ key, m.lookup key = pure (found key)

namespace Answers

variable {m below : Metadata σ} {found under : String → Option Json}

theorem map (d : Dictionary Json) :
    Answers (.map d : Metadata σ) fun key => (d.get? key).bind Json.present? :=
  lookup_map d

theorem typed (config : Config) :
    Answers (.typed config : Metadata σ) (presentField? config.toJson) := fun key => by
  rw [lookup]

theorem overlay (h : Answers m found) (hbelow : Answers below under) :
    Answers (.zip [m, below]) fun key => (found key).or (under key) := by
  intro key
  show _ = pure ((found key).or (under key))
  rw [lookup, lookupFirst, h key, pure_bind]
  cases found key with
  | some value => rfl
  | none =>
    show lookupFirst [below] key = pure (under key)
    rw [lookupFirst, hbelow key, pure_bind]
    cases under key <;> rfl

theorem getStr (h : Answers m found) (key : String) :
    m.getStr key = pure ((found key).bind Json.str?) := by
  rw [Metadata.getStr, h key, pure_bind]

theorem getBool (h : Answers m found) (key : String) :
    m.getBool key = pure ((found key).bind Json.bool?) := by
  rw [Metadata.getBool, h key, pure_bind]

theorem getDouble (h : Answers m found) (key : String) :
    m.getDouble key = pure (((found key).bind Json.num?).map Number.toDouble) := by
  rw [Metadata.getDouble, h key, pure_bind]

theorem getUInt64 (h : Answers m found) (key : String) :
    m.getUInt64 key = pure (((found key).bind Json.num?).bind Number.toUInt64?) := by
  rw [Metadata.getUInt64, h key, pure_bind]

end Answers

/-- What is found above is converted, well or badly; only where nothing is found, what is below is.
-/
theorem bind_or (above below : Option Json) (read : Json → Option α) :
    (above.or below).bind read = if above.isSome then above.bind read else below.bind read := by
  cases above <;> rfl

end Metadata

open Metadata (Answers presentField? bind_or)

variable {m : Metadata σ} {found : String → Option Json}

/-! ## Stacks -/

namespace StackConfig

/-- The configuration of a stack in what is found. -/
def ofFound (found : String → Option Json) : StackConfig where
  title := (found "title").bind Json.str?
  spacing := ((((found "spacing").bind Json.num?).map Number.toDouble).map .finite).getD
    default.spacing
  orientation := (((found "orientation").bind Json.str?).bind Orientation.ofName?).getD
    default.orientation
  preserveParentWidth := ((found "preserve_parent_width").bind Json.bool?).getD
    default.preserveParentWidth
  backgroundColor := ((found "background_color").bind Json.str?).getD default.backgroundColor

theorem ofMetadata_eq (h : m.Answers found) : StackConfig.ofMetadata m = pure (ofFound found) := by
  simp only [StackConfig.ofMetadata, h.getStr, h.getDouble, h.getBool, pure_bind, ofFound]

/-- The fields of a configuration under the names that are taken, and those of the one below. -/
def overlay (taken : String → Bool) (above below : StackConfig) : StackConfig where
  title := if taken "title" then above.title else below.title
  spacing := if taken "spacing" then above.spacing else below.spacing
  orientation := if taken "orientation" then above.orientation else below.orientation
  preserveParentWidth :=
    if taken "preserve_parent_width" then above.preserveParentWidth else below.preserveParentWidth
  backgroundColor :=
    if taken "background_color" then above.backgroundColor else below.backgroundColor

/-- What is found above takes its field whole, the default included that it may come to. -/
theorem ofFound_or (found under : String → Option Json) :
    ofFound (fun key => (found key).or (under key)) =
      overlay (fun key => (found key).isSome) (ofFound found) (ofFound under) := by
  simp only [ofFound, overlay, bind_or, mk.injEq]
  refine ⟨trivial, ?_, ?_, ?_, ?_⟩
  · split <;> rfl
  · split <;> rfl
  · split <;> rfl
  · split <;> rfl

/-- **What is read of a serialized stack configuration**: itself, but for a spacing that is not
finite. -/
theorem ofFound_toJson (d : StackConfig) :
    ofFound (presentField? d.toJson) =
      { d with spacing := .finite (d.spacing.finite?.getD defaultSpacing) } := by
  obtain ⟨title, spacing, orientation, preserve, background⟩ := d
  have horientation : (presentField?
      (toJson ⟨title, spacing, orientation, preserve, background⟩) "orientation").bind Json.str? =
        some orientation.name := rfl
  have htitle : (presentField?
      (toJson ⟨title, spacing, orientation, preserve, background⟩) "title").bind Json.str? =
        title := by
    cases title <;> rfl
  have hspacing : (presentField?
      (toJson ⟨title, spacing, orientation, preserve, background⟩) "spacing").bind Json.num? =
        spacing.finite?.map .float := by
    cases spacing <;> rfl
  rw [ofFound, htitle, hspacing, horientation, Option.bind_some, Orientation.ofName?_name]
  cases spacing <;> rfl

theorem finite_iff (d : StackConfig) :
    { d with spacing := .finite (d.spacing.finite?.getD defaultSpacing) } = d ↔
      ∃ x, d.spacing = .finite x := by
  obtain ⟨title, spacing, orientation, preserve, background⟩ := d
  cases spacing <;> simp [Double.Extended.finite?]

theorem ofMetadata_typed (d : StackConfig) :
    StackConfig.ofMetadata (.typed (.stack d) : Metadata σ) =
      pure { d with spacing := .finite (d.spacing.finite?.getD defaultSpacing) } := by
  rw [ofMetadata_eq (.typed (.stack d))]
  exact congrArg pure d.ofFound_toJson

/-- **Below other metadata a stack configuration gives the fields that nothing is found for.** -/
theorem materialize_above (hm : m.Answers found) {d : StackConfig}
    (hd : ∃ x, d.spacing = .finite x) :
    materialize StackConfig (some (.zip [m, .typed (.stack d)])) =
      pure (some (overlay (fun key => (found key).isSome) (ofFound found) d)) := by
  obtain ⟨x, hx⟩ := hd
  have hread : ofFound (presentField? d.toJson) = d := by
    rw [ofFound_toJson, hx]
    exact congrArg (fun spacing => { d with spacing }) hx.symm
  have hzip : (Metadata.zip [m, .typed (.stack d)]).Answers
      fun key => (found key).or (presentField? d.toJson key) := hm.overlay (.typed (.stack d))
  show (StackConfig.ofMetadata _ >>= fun config => pure (some config)) = _
  rw [ofMetadata_eq hzip, pure_bind, ofFound_or, hread]

end StackConfig

/-! ## Tabs -/

namespace TabConfig

/-- The configuration of a tab in what is found. -/
def ofFound? (found : String → Option Json) : Option TabConfig :=
  ((found "title").bind Json.str?).bind fun title =>
    ((found "icon_name").bind Json.str?).map fun iconName => ⟨title, iconName⟩

theorem ofMetadata_eq (h : m.Answers found) : TabConfig.ofMetadata m = pure (ofFound? found) := by
  simp only [TabConfig.ofMetadata, h.getStr, pure_bind, ofFound?]
  cases (found "title").bind Json.str? <;> rfl

theorem ofFound?_toJson (d : TabConfig) : ofFound? (presentField? d.toJson) = some d := rfl

theorem isSome_ofFound?_iff (found : String → Option Json) :
    (ofFound? found).isSome ↔ ((found "title").bind Json.str?).isSome ∧
      ((found "icon_name").bind Json.str?).isSome := by
  unfold ofFound?
  cases (found "title").bind Json.str? <;> cases (found "icon_name").bind Json.str? <;> simp

theorem eq_of_ofFound? {d : TabConfig} (h : ofFound? found = some d) :
    (found "title").bind Json.str? = some d.title ∧
      (found "icon_name").bind Json.str? = some d.iconName := by
  obtain ⟨title, htitle, h⟩ := Option.bind_eq_some_iff.mp h
  obtain ⟨iconName, hicon, rfl⟩ := Option.map_eq_some_iff.mp h
  exact ⟨htitle, hicon⟩

/-- A text that may be covered, by another text or by something that is none. -/
theorem isSome_or_str_iff (above? : Option Json) (text : String) :
    ((above?.or (some (.str text))).bind Json.str?).isSome ↔
      above? = none ∨ ∃ other, above? = some (.str other) := by
  cases above? with
  | none => simp [Json.str?]
  | some j => cases j <;> simp [Json.str?]

/-- A text that is not covered by something else is the upper one, if there is one. -/
theorem eq_getD_of_or_str {above? : Option Json} {text result : String}
    (h : (above?.or (some (.str text))).bind Json.str? = some result) :
    result = (above?.bind Json.str?).getD text := by
  cases above? with
  | none => exact (Option.some.inj h).symm
  | some j =>
    have hresult : j.str? = some result := h
    rw [Option.bind_some, hresult, Option.getD_some]

/-- **Below other metadata a tab configuration gives the texts that nothing is found for**, and
there is no tab where something else than a text is found. -/
theorem materialize_above (hm : m.Answers found) (d : TabConfig) : ∃ tab?,
    materialize TabConfig (some (.zip [m, .typed (.tab d)])) = pure tab? ∧
    (tab?.isSome ↔ ∀ key ∈ ["title", "icon_name"],
      found key = none ∨ ∃ text, found key = some (.str text)) ∧
    ∀ tab ∈ tab?, tab.title = ((found "title").bind Json.str?).getD d.title ∧
      tab.iconName = ((found "icon_name").bind Json.str?).getD d.iconName := by
  have hzip : (Metadata.zip [m, .typed (.tab d)]).Answers
      fun key => (found key).or (presentField? d.toJson key) := hm.overlay (.typed (.tab d))
  refine ⟨_, ofMetadata_eq hzip, ?_, ?_⟩
  · rw [List.forall_mem_cons, List.forall_mem_singleton, ← isSome_or_str_iff _ d.title,
      ← isSome_or_str_iff _ d.iconName]
    exact isSome_ofFound?_iff _
  · intro tab htab
    obtain ⟨htitle, hicon⟩ := eq_of_ofFound? htab
    exact ⟨eq_getD_of_or_str htitle, eq_getD_of_or_str hicon⟩

end TabConfig

/-! ## Tab bars -/

namespace TabBarConfig

/-- The configuration of a tab bar in what is found. -/
def ofFound? (found : String → Option Json) : Option TabBarConfig :=
  (((found "selected_index").bind Json.num?).bind Number.toUInt64?).map fun index => ⟨index⟩

theorem ofMetadata_eq (h : m.Answers found) :
    TabBarConfig.ofMetadata m = pure (ofFound? found) := by
  simp only [TabBarConfig.ofMetadata, h.getUInt64, pure_bind, ofFound?]

theorem ofFound?_toJson (d : TabBarConfig) : ofFound? (presentField? d.toJson) = some d := by
  have hindex : (presentField? d.toJson "selected_index").bind Json.num? =
      some (.integer (.ofUInt64 d.selectedIndex)) := rfl
  rw [ofFound?, hindex, Option.bind_some, Number.toUInt64?_ofUInt64]
  rfl

theorem ofMetadata_typed (d : TabBarConfig) :
    TabBarConfig.ofMetadata (.typed (.tabBar d) : Metadata σ) = pure (some d) := by
  rw [ofMetadata_eq (.typed (.tabBar d))]
  exact congrArg pure d.ofFound?_toJson

/-- **Below other metadata a tab bar configuration is read where no selection is found**, and then
as it is. -/
theorem materialize_above (hm : m.Answers found) (d : TabBarConfig) :
    materialize TabBarConfig (some (.zip [m, .typed (.tabBar d)])) =
      if (found "selected_index").isSome then TabBarConfig.ofMetadata m else pure (some d) := by
  have hzip : (Metadata.zip [m, .typed (.tabBar d)]).Answers
      fun key => (found key).or (presentField? d.toJson key) := hm.overlay (.typed (.tabBar d))
  rw [ofMetadata_eq hm]
  refine (ofMetadata_eq hzip).trans ?_
  cases hfound : found "selected_index" with
  | some value => rw [ofFound?, ofFound?, hfound]; rfl
  | none =>
    rw [ofFound?, hfound, Option.none_or]
    exact congrArg pure d.ofFound?_toJson

end TabBarConfig

/-! ## Both ways -/

/-- **Typed configurations are read through look-ups as what they are.** Below metadata whose
look-ups are a function of the key, a stack configuration that is finite supplies the fields that
nothing is found for, and the other fields are as they would be without it; a tab configuration
supplies the texts that nothing is found for, and there is none where something else than a text is
found; a tab bar configuration is what there is unless a selected index is found. On its own, a
configuration is read as itself, as it also is taken, with the one exception of a stack's spacing
that is not finite. -/
theorem typed_configurations_read_as_themselves (m : Metadata σ) (found : String → Option Json)
    (hm : m.Answers found) :
    (∀ d : StackConfig, (∃ x, d.spacing = .finite x) → ∃ own,
      StackConfig.ofMetadata m = pure own ∧
      materialize StackConfig (some (.zip [m, .typed (.stack d)])) =
        pure (some (own.overlay (fun key => (found key).isSome) d))) ∧
    (∀ d : TabConfig, ∃ tab?,
      materialize TabConfig (some (.zip [m, .typed (.tab d)])) = pure tab? ∧
      (tab?.isSome ↔ ∀ key ∈ ["title", "icon_name"],
        found key = none ∨ ∃ text, found key = some (.str text)) ∧
      ∀ tab ∈ tab?, tab.title = ((found "title").bind Json.str?).getD d.title ∧
        tab.iconName = ((found "icon_name").bind Json.str?).getD d.iconName) ∧
    (∀ d : TabBarConfig, materialize TabBarConfig (some (.zip [m, .typed (.tabBar d)])) =
      if (found "selected_index").isSome then TabBarConfig.ofMetadata m else pure (some d)) ∧
    (∀ d : TabConfig, TabConfig.ofMetadata (.typed (.tab d) : Metadata σ) = pure (some d) ∧
      materialize TabConfig (some (.typed (.tab d) : Metadata σ)) = pure (some d)) ∧
    (∀ d : TabBarConfig, TabBarConfig.ofMetadata (.typed (.tabBar d) : Metadata σ) = pure (some d) ∧
      materialize TabBarConfig (some (.typed (.tabBar d) : Metadata σ)) = pure (some d)) ∧
    ∀ d : StackConfig,
      StackConfig.ofMetadata (.typed (.stack d) : Metadata σ) =
        pure { d with spacing := .finite (d.spacing.finite?.getD StackConfig.defaultSpacing) } ∧
      materialize StackConfig (some (.typed (.stack d) : Metadata σ)) = pure (some d) ∧
      ∀ s : σ, ((StackConfig.ofMetadata (.typed (.stack d) : Metadata σ)).run s).1 = d ↔
        ∃ x, d.spacing = .finite x := by
  refine ⟨?_, TabConfig.materialize_above hm, TabBarConfig.materialize_above hm, ?_, ?_, ?_⟩
  · intro d hd
    exact ⟨_, StackConfig.ofMetadata_eq hm, StackConfig.materialize_above hm hd⟩
  · intro d
    exact ⟨TabConfig.ofMetadata_eq (.typed (.tab d)), rfl⟩
  · intro d
    exact ⟨d.ofMetadata_typed, rfl⟩
  · intro d
    refine ⟨d.ofMetadata_typed, rfl, fun s => ?_⟩
    rw [d.ofMetadata_typed]
    exact d.finite_iff

/-- A title that is no text covers the one below: a stack has none then, and there is no tab. An
icon that is null covers nothing. -/
theorem typed_configurations_read_as_themselves_covered :
    let d : Dictionary Json :=
      .ofList [("icon_name", .null), ("orientation", .str "horizontal"), ("title", .bool true)]
    let m : Metadata Unit := .map d
    let below : StackConfig := ⟨some "Below", .finite default, .vertical, true, "#000000"⟩
    m.Answers (fun key => (d.get? key).bind Json.present?) ∧
    (∃ x, below.spacing = .finite x) ∧
    materialize StackConfig (some (.zip [m, .typed (.stack below)])) =
      pure (some ⟨none, .finite default, .horizontal, true, "#000000"⟩) ∧
    (∃ tab?, materialize TabConfig (some (.zip [m, .typed (.tab ⟨"Home", "house"⟩)])) = pure tab? ∧
      tab?.isSome = false) ∧
    materialize TabBarConfig (some (.zip [m, .typed (.tabBar ⟨3⟩)])) = pure (some ⟨3⟩) := by
  intro d m below
  have hm : m.Answers fun key => (d.get? key).bind Json.present? := .map d
  obtain ⟨hstack, htab, htabBar, -⟩ := typed_configurations_read_as_themselves m _ hm
  have hfinite : ∃ x, below.spacing = .finite x := ⟨default, rfl⟩
  obtain ⟨own, hown, hstack⟩ := hstack below hfinite
  obtain rfl : own = _ := congrArg Prod.fst (congrFun (hown.symm.trans rfl) ())
  obtain ⟨tab?, htab, hiff, -⟩ := htab ⟨"Home", "house"⟩
  refine ⟨hm, hfinite, hstack.trans rfl, ⟨tab?, htab, ?_⟩, (htabBar ⟨3⟩).trans rfl⟩
  rw [Bool.eq_false_iff, Ne, hiff]
  have htitle : (d.get? "title").bind Json.present? = some (.bool true) := rfl
  exact fun h => absurd (h "title" (by simp)) (by simp [htitle])

end ViewTree
