import Mathlib.Data.Option.Basic
import ViewTree.Metadata.Materialize

/-!
# Merging layers

Layers whose content is at hand, dictionaries and objects seen through their fields, need not be
searched one after the other: they can be **merged** into one dictionary beforehand. Under each key
it has the first value that is not null.

Null is where this could go wrong. A layer with a null under a key is passed over by a look-up, so
the null must not get into the merged dictionary, where it would cover what a layer further down
has. That is why a layer is stripped of its nulls before it is put over the others.

**Nothing that reads metadata can tell the difference**, and `Alike` says what that takes. All
reading is looking up, with one exception: metadata that is a typed configuration already is taken
as it is. So two metadata are alike when every look-up is the same effect and they are, as typed
configurations, the same or none.
-/

set_option autoImplicit false

namespace ViewTree

/-! ## Dictionaries over one another -/

namespace Dictionary

variable {α : Type}

theorem lookup_filter {entries : List (String × α)}
    (h : entries.Pairwise fun a b => a.1 < b.1) (p : α → Bool) (key : String) :
    (entries.filter fun entry => p entry.2).lookup key = (entries.lookup key).filter p := by
  induction entries with
  | nil => rfl
  | cons head rest ih =>
    obtain ⟨hhead, hrest⟩ := List.pairwise_cons.mp h
    rw [List.filter_cons, lookup_cons]
    by_cases hkey : key = head.1
    · -- The key does not occur again, so where its entry is left out nothing is found.
      have hnone : rest.lookup key = none := lookup_eq_none_of_lt (by rw [hkey]; exact hhead)
      rw [if_pos hkey, Option.filter_some]
      by_cases hp : p head.2 = true
      · rw [if_pos hp, if_pos hp, lookup_cons, if_pos hkey]
      · rw [if_neg hp, if_neg hp, ih hrest, hnone, Option.filter_none]
    · rw [if_neg hkey]
      by_cases hp : p head.2 = true
      · rw [if_pos hp, lookup_cons, if_neg hkey, ih hrest]
      · rw [if_neg hp, ih hrest]

/-- The entries whose values satisfy a condition. -/
def filter (p : α → Bool) (d : Dictionary α) : Dictionary α :=
  ⟨d.entries.filter fun entry => p entry.2, d.ordered.filter _⟩

theorem get?_filter (p : α → Bool) (d : Dictionary α) (key : String) :
    (d.filter p).get? key = (d.get? key).filter p :=
  lookup_filter d.ordered p key

theorem get?_insertAll {pairs : List (String × α)}
    (h : pairs.Pairwise fun a b => a.1 < b.1) (d : Dictionary α) (key : String) :
    (d.insertAll pairs).get? key = (pairs.lookup key).or (d.get? key) := by
  induction pairs generalizing d with
  | nil => rfl
  | cons pair rest ih =>
    obtain ⟨hpair, hrest⟩ := List.pairwise_cons.mp h
    show ((d.insert pair.1 pair.2).insertAll rest).get? key = _
    rw [ih hrest, get?_insert, lookup_cons]
    by_cases hkey : key = pair.1
    · have hnone : rest.lookup key = none := lookup_eq_none_of_lt (by rw [hkey]; exact hpair)
      rw [if_pos hkey, if_pos hkey, hnone]
      rfl
    · rw [if_neg hkey, if_neg hkey]

/-- The entries of two dictionaries, those of the first one where they have a key in common. -/
def overlay (above below : Dictionary α) : Dictionary α := below.insertAll above.entries

theorem get?_overlay (above below : Dictionary α) (key : String) :
    (above.overlay below).get? key = (above.get? key).or (below.get? key) :=
  get?_insertAll above.ordered below key

/-- A dictionary without the entry under a key. -/
def erase (d : Dictionary α) (key : String) : Dictionary α :=
  ⟨d.entries.filter fun entry => entry.1 ≠ key, d.ordered.filter _⟩

theorem get?_erase (d : Dictionary α) (key other : String) :
    (d.erase key).get? other = if other = key then none else d.get? other := by
  show (d.entries.filter fun entry => entry.1 ≠ key).lookup other = _
  rw [get?]
  induction d.entries with
  | nil => rw [List.filter_nil, List.lookup_nil, ite_self]
  | cons head rest ih =>
    rw [List.filter_cons, lookup_cons]
    by_cases hhead : head.1 = key
    · rw [if_neg (by simp [hhead]), ih]
      by_cases hother : other = key
      · rw [if_pos hother, if_pos hother]
      · rw [if_neg hother, if_neg hother, if_neg (by rw [hhead]; exact hother)]
    · rw [if_pos (by simp [hhead]), lookup_cons, ih]
      by_cases hother : other = head.1
      · rw [if_pos hother, if_pos hother, if_neg (by rw [hother]; exact hhead)]
      · rw [if_neg hother, if_neg hother]

end Dictionary

/-! ## Layers -/

theorem Json.filter_present? (value? : Option Json) :
    (value?.filter fun j => j.present?.isSome) = value?.bind Json.present? := by
  cases value? with
  | none => rfl
  | some j => cases j <;> rfl

theorem Json.bind_present?_ne_null (value? : Option Json) :
    value?.bind Json.present? ≠ some .null := by
  cases value? with
  | none => simp
  | some j => cases j <;> simp [present?]

/-- Metadata whose content is at hand. -/
inductive Layer where
  /-- A dictionary. -/
  | map (entries : Dictionary Json)
  /-- A value, by its diagnostic text, that is serialized as an object. -/
  | reflect (shown : String) (fields : Dictionary Json)

namespace Layer

variable {σ : Type}

/-- What is under the keys of a layer. -/
def content : Layer → Dictionary Json
  | map entries => entries
  | reflect _ fields => fields

/-- A layer as metadata. -/
def metadata : Layer → Metadata σ
  | map entries => .map entries
  | reflect shown fields => .reflect shown (some (.ofDictionary fields))

theorem lookup_metadata (layer : Layer) (key : String) :
    (layer.metadata : Metadata σ).lookup key =
      pure ((layer.content.get? key).bind Json.present?) := by
  cases layer with
  | map entries => rfl
  | reflect shown fields => rfl

/-- A null is not found. -/
theorem lookup_metadata_ne_null (layer : Layer) (key : String) (s : σ) :
    (((layer.metadata : Metadata σ).lookup key).run s).1 ≠ some .null := by
  rw [lookup_metadata]
  exact Json.bind_present?_ne_null _

/-- **One dictionary for several layers**, the first one on top. -/
def merged : List Layer → Dictionary Json
  | [] => .empty
  | layer :: rest => (layer.content.filter fun j => j.present?.isSome).overlay (merged rest)

/-- Merging keeps the first value that is not null. -/
theorem get?_merged (layers : List Layer) (key : String) :
    (merged layers).get? key =
      layers.findSome? fun layer => (layer.content.get? key).bind Json.present? := by
  induction layers with
  | nil => rfl
  | cons layer rest ih =>
    rw [merged, Dictionary.get?_overlay, Dictionary.get?_filter, Json.filter_present?, ih,
      List.findSome?_cons]
    cases (layer.content.get? key).bind Json.present? with
    | none => rfl
    | some value => rfl

theorem lookupFirst_metadata (layers : List Layer) (key : String) :
    Metadata.lookupFirst (layers.map (metadata : Layer → Metadata σ)) key =
      pure ((merged layers).get? key) := by
  induction layers with
  | nil => rfl
  | cons layer rest ih =>
    rw [List.map_cons, Metadata.lookupFirst, lookup_metadata, pure_bind, ih, get?_merged,
      get?_merged, List.findSome?_cons]
    cases (layer.content.get? key).bind Json.present? with
    | none => rfl
    | some value => rfl

/-- There are no nulls in a merged dictionary. -/
theorem get?_merged_ne_null (layers : List Layer) (key : String) :
    (merged layers).get? key ≠ some .null := by
  intro h
  rw [get?_merged] at h
  obtain ⟨layer, -, hlayer⟩ := List.exists_of_findSome?_eq_some h
  exact Json.bind_present?_ne_null _ hlayer

end Layer

/-! ## Metadata that are read alike -/

namespace Metadata

variable {σ : Type}

/-- The typed configuration that metadata is. -/
def config? : Metadata σ → Option Config
  | .typed config => some config
  | _ => none

theorem materialize_eq (T : Type) [Configuration T] (m : Metadata σ) :
    materialize T (some m) =
      match m.config?.bind Configuration.ofConfig? with
      | some configuration => pure (some configuration)
      | none => Configuration.ofMetadata m := by
  cases m with
  | typed config =>
    cases hconfig : (Configuration.ofConfig? config : Option T) <;>
      simp only [materialize, config?, Option.bind_some, hconfig]
  | map | reflect | zip | host => rfl

/-- **Two metadata are read alike**: whatever is looked up, and as what they are taken. -/
structure Alike (m m' : Metadata σ) : Prop where
  lookup : ∀ key, m.lookup key = m'.lookup key
  config : m.config? = m'.config?

namespace Alike

variable {m m' : Metadata σ}

theorem refl (m : Metadata σ) : Alike m m := ⟨fun _ => rfl, rfl⟩

theorem symm (h : Alike m m') : Alike m' m := ⟨fun key => (h.lookup key).symm, h.config.symm⟩

theorem getStr (h : Alike m m') (key : String) : m.getStr key = m'.getStr key := by
  rw [Metadata.getStr, Metadata.getStr, h.lookup]

theorem getBool (h : Alike m m') (key : String) : m.getBool key = m'.getBool key := by
  rw [Metadata.getBool, Metadata.getBool, h.lookup]

theorem getDouble (h : Alike m m') (key : String) : m.getDouble key = m'.getDouble key := by
  rw [Metadata.getDouble, Metadata.getDouble, h.lookup]

theorem getUInt64 (h : Alike m m') (key : String) : m.getUInt64 key = m'.getUInt64 key := by
  rw [Metadata.getUInt64, Metadata.getUInt64, h.lookup]

theorem materialize {T : Type} [Configuration T] (h : Alike m m')
    (hread : (Configuration.ofMetadata m : Effect σ (Option T)) = Configuration.ofMetadata m') :
    materialize T (some m) = materialize T (some m') := by
  rw [materialize_eq, materialize_eq, h.config, hread]

theorem materialize_stack (h : Alike m m') :
    ViewTree.materialize StackConfig (some m) = ViewTree.materialize StackConfig (some m') := by
  have hread : StackConfig.ofMetadata m = StackConfig.ofMetadata m' := by
    rw [StackConfig.ofMetadata, StackConfig.ofMetadata]
    simp only [h.getStr, h.getDouble, h.getBool]
  refine h.materialize ?_
  show (StackConfig.ofMetadata m >>= fun config => pure (some config)) = _
  rw [hread]
  rfl

theorem materialize_tab (h : Alike m m') :
    ViewTree.materialize TabConfig (some m) = ViewTree.materialize TabConfig (some m') := by
  refine h.materialize ?_
  show TabConfig.ofMetadata m = TabConfig.ofMetadata m'
  rw [TabConfig.ofMetadata, TabConfig.ofMetadata]
  simp only [h.getStr]

theorem materialize_tabBar (h : Alike m m') :
    ViewTree.materialize TabBarConfig (some m) = ViewTree.materialize TabBarConfig (some m') := by
  refine h.materialize ?_
  show TabBarConfig.ofMetadata m = TabBarConfig.ofMetadata m'
  rw [TabBarConfig.ofMetadata, TabBarConfig.ofMetadata, h.getUInt64]

end Alike

theorem alike_refl (m : Option (Metadata σ)) : Option.Rel Alike m m := by
  cases m with
  | none => exact .none
  | some m => exact .some (.refl m)

theorem alike_symm {m m' : Option (Metadata σ)} (h : Option.Rel Alike m m') :
    Option.Rel Alike m' m := by
  cases h with
  | none => exact .none
  | some h => exact .some h.symm

/-- **Layers are read like the dictionary they are merged into.** -/
theorem zip_alike_merged (layers : List Layer) :
    Alike (.zip (layers.map Layer.metadata) : Metadata σ) (.map (Layer.merged layers)) := by
  refine ⟨fun key => ?_, rfl⟩
  rw [lookup, lookup, Layer.lookupFirst_metadata]
  refine congrArg pure ?_
  -- What the merged dictionary has is not null, so nothing of it is passed over.
  cases h : (Layer.merged layers).get? key with
  | none => rfl
  | some j =>
    cases j with
    | null => exact absurd h (Layer.get?_merged_ne_null layers key)
    | bool | num | str | arr | obj => rfl

/-- **No look-up gives null**, whether in layers, in their merge or in one of them. -/
theorem lookup_layers_ne_null (layers : List Layer) :
    ∀ m ∈ (.zip (layers.map Layer.metadata) : Metadata σ) :: .map (Layer.merged layers) ::
      layers.map Layer.metadata, ∀ key s, ((m.lookup key).run s).1 ≠ some .null := by
  intro m hm key s
  have htop : ((lookup (.zip (layers.map Layer.metadata)) key).run s).1 ≠ some .null := by
    rw [lookup, Layer.lookupFirst_metadata]
    exact Layer.get?_merged_ne_null layers key
  rcases List.mem_cons.mp hm with rfl | hm
  · exact htop
  · rcases List.mem_cons.mp hm with rfl | hm
    · rw [← (zip_alike_merged layers).lookup]
      exact htop
    · obtain ⟨layer, -, rfl⟩ := List.mem_map.mp hm
      exact layer.lookup_metadata_ne_null key s

/-- A dictionary is read alike with and without an entry that is null. -/
theorem map_alike_erase {d : Dictionary Json} {key : String} (h : d.get? key = some .null) :
    Alike (.map d : Metadata σ) (.map (d.erase key)) := by
  refine ⟨fun other => ?_, rfl⟩
  rw [lookup, lookup, Dictionary.get?_erase]
  by_cases hother : other = key
  · rw [if_pos hother, hother, h]
    rfl
  · rw [if_neg hother]

end Metadata

end ViewTree
