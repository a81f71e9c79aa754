import Mathlib.Data.Finset.Card
import Mathlib.Data.List.Induction
import ViewTree.Factory.Compile
import ViewTree.Proofs.Text.Bytes

/-!
# The registry

> Whatever is registered in whatever order, the factory is one map from kinds and tags to builders.

A factory has four dictionaries, three of which are listed as one. What holds them together is the
**key** of a registration, its kind with its tag: `builder?` looks a key up in the dictionary for
its kind, and says all there is to know of a factory (`ext_builder?`). One registration changes it
at one key (`builder?_insert`), so a run of them is a map in which the last one for a key stands
(`Records`). All else is a question to this map: how many keys there are, whether a tag occurs in
some key with one of three kinds, whether a key has occurred before.

Two registrations with different keys can trade places, and no document is compiled differently
then.
-/

set_option autoImplicit false

namespace ViewTree

variable {σ N : Type}

/-! ## Keys -/

/-- The kind that a builder is registered as. -/
def Builder.kind : Builder σ N → Kind
  | .single _ => .single
  | .wrapper _ => .wrapper
  | .cluster _ => .cluster
  | .rule _ => .rule

namespace Factory

/-- What a registration is filed under. -/
def keyOf (call : String × Builder σ N) : Kind × String := (call.2.kind, call.1)

/-- The builder that is filed under a kind and a tag. -/
def builder? (f : Factory σ N) : Kind × String → Option (Builder σ N)
  | (.single, tag) => (f.singles.get? tag).map .single
  | (.wrapper, tag) => (f.wrappers.get? tag).map .wrapper
  | (.cluster, tag) => (f.clusters.get? tag).map .cluster
  | (.rule, tag) => (f.rules.get? tag).map .rule

/-- **A factory is its builders by key.** -/
theorem ext_builder? {f g : Factory σ N} (h : ∀ key, f.builder? key = g.builder? key) : f = g := by
  obtain ⟨singles, wrappers, clusters, rules⟩ := f
  obtain ⟨singles', wrappers', clusters', rules'⟩ := g
  have hsingles : singles = singles' := Dictionary.ext_get? fun tag =>
    Option.map_injective (fun _ _ => Builder.single.inj) (h (.single, tag))
  have hwrappers : wrappers = wrappers' := Dictionary.ext_get? fun tag =>
    Option.map_injective (fun _ _ => Builder.wrapper.inj) (h (.wrapper, tag))
  have hclusters : clusters = clusters' := Dictionary.ext_get? fun tag =>
    Option.map_injective (fun _ _ => Builder.cluster.inj) (h (.cluster, tag))
  have hrules : rules = rules' := Dictionary.ext_get? fun tag =>
    Option.map_injective (fun _ _ => Builder.rule.inj) (h (.rule, tag))
  rw [hsingles, hwrappers, hclusters, hrules]

theorem builder?_empty (key : Kind × String) : (empty : Factory σ N).builder? key = none := by
  obtain ⟨kind, tag⟩ := key
  cases kind <;> rfl

/-! ## One registration -/

/-- **A registration sets the builder under its key** and leaves every other key alone. -/
theorem builder?_insert (f : Factory σ N) (call : String × Builder σ N) (key : Kind × String) :
    (f.insert call.1 call.2).builder? key =
      if key = keyOf call then some call.2 else f.builder? key := by
  obtain ⟨tag, builder⟩ := call
  obtain ⟨kind, other⟩ := key
  cases builder <;> cases kind <;> simp only [insert, builder?, keyOf, Builder.kind,
    Prod.mk.injEq, reduceCtorEq, true_and, false_and, if_false, Dictionary.get?_insert] <;>
    split <;> rfl

theorem has_eq (f : Factory σ N) (call : String × Builder σ N) :
    f.has call.1 call.2 = (f.builder? (keyOf call)).isSome := by
  obtain ⟨tag, builder⟩ := call
  cases builder <;> exact Option.isSome_map.symm

/-- A registration counts unless it replaces one. -/
theorem size_insert (f : Factory σ N) (call : String × Builder σ N) :
    (f.insert call.1 call.2).size =
      f.size + (if f.has call.1 call.2 = true then 0 else 1) := by
  obtain ⟨tag, builder⟩ := call
  cases hhas : f.has tag builder <;> cases builder <;> simp only [has] at hhas <;>
    simp only [size, insert, Dictionary.size_insert, hhas, Bool.false_eq_true, if_true,
      if_false] <;> omega

/-- Registrations with different keys can trade places. -/
theorem insert_comm (f : Factory σ N) {first second : String × Builder σ N}
    (h : keyOf first ≠ keyOf second) :
    (f.insert first.1 first.2).insert second.1 second.2 =
      (f.insert second.1 second.2).insert first.1 first.2 := by
  refine ext_builder? fun key => ?_
  rw [builder?_insert, builder?_insert, builder?_insert, builder?_insert]
  by_cases hfirst : key = keyOf first
  · rw [if_pos hfirst, if_neg (hfirst ▸ h), if_pos hfirst]
  · rw [if_neg hfirst, if_neg hfirst]

theorem value_register (f : Factory σ N) (tag : String) (builder : Builder σ N) :
    (f.register tag builder).value = f.insert tag builder := by
  unfold register
  split <;> rfl

theorem events_register (f : Factory σ N) (tag : String) (builder : Builder σ N) :
    (f.register tag builder).events = if f.has tag builder = true then [.replaced tag] else [] := by
  unfold register
  split <;> rfl

/-! ## A run of registrations -/

theorem value_registerAll (f : Factory σ N) (builders : List (String × Builder σ N)) :
    (f.registerAll builders).value = builders.foldl (fun f b => f.insert b.1 b.2) f := by
  induction builders generalizing f with
  | nil => rfl
  | cons builder rest ih =>
    rw [registerAll, Logged.value_bind, value_register, ih, List.foldl_cons]

/-- The factory after registering builders one after the other, from nothing. -/
def registered (calls : List (String × Builder σ N)) : Factory σ N :=
  ((empty : Factory σ N).registerAll calls).value

theorem registered_concat (calls : List (String × Builder σ N)) (call : String × Builder σ N) :
    registered (calls ++ [call]) = (registered calls).insert call.1 call.2 := by
  rw [registered, registered, value_registerAll, value_registerAll, List.foldl_append]
  rfl

/-- The factory is the map that registrations make: the last one for a key stands, and the keys are
counted once each. -/
structure Records (f : Factory σ N) (calls : List (String × Builder σ N)) : Prop where
  builder? : ∀ key, f.builder? key = ((calls.filter (keyOf · = key)).getLast?).map (·.2)
  size : f.size = (calls.map keyOf).toFinset.card

theorem records_empty : (empty : Factory σ N).Records [] where
  builder? key := builder?_empty key
  size := rfl

/-- There is a builder under the keys that have occurred. -/
theorem Records.isSome_iff {f : Factory σ N} {calls : List (String × Builder σ N)}
    (h : f.Records calls) (key : Kind × String) :
    (f.builder? key).isSome = true ↔ key ∈ calls.map keyOf := by
  rw [h.builder?, Option.isSome_map, List.getLast?_isSome, ne_eq, List.filter_eq_nil_iff]
  simp

theorem Records.has_iff {f : Factory σ N} {calls : List (String × Builder σ N)}
    (h : f.Records calls) (call : String × Builder σ N) :
    f.has call.1 call.2 = true ↔ keyOf call ∈ calls.map keyOf := by
  rw [has_eq]
  exact h.isSome_iff (keyOf call)

/-- **One more registration** is recorded. -/
theorem Records.insert {f : Factory σ N} {calls : List (String × Builder σ N)}
    (h : f.Records calls) (call : String × Builder σ N) :
    (f.insert call.1 call.2).Records (calls ++ [call]) where
  builder? key := by
    rw [builder?_insert, List.filter_append]
    by_cases hkey : key = keyOf call
    · have hlast : [call].filter (keyOf · = key) = [call] := by simp [hkey]
      rw [if_pos hkey, hlast, List.getLast?_concat, Option.map_some]
    · have hlast : [call].filter (keyOf · = key) = [] := by simp [Ne.symm hkey]
      rw [if_neg hkey, hlast, List.append_nil, h.builder?]
  size := by
    have hkeys : ((calls ++ [call]).map keyOf).toFinset =
        Insert.insert (keyOf call) (calls.map keyOf).toFinset := by
      ext key
      simp [eq_comm]
    rw [size_insert, hkeys, h.size]
    split
    · rename_i hhas
      have hmem := List.mem_toFinset.mpr ((h.has_iff call).mp hhas)
      rw [Finset.insert_eq_of_mem hmem, Nat.add_zero]
    · rename_i hhas
      have hmem := fun hmem => hhas ((h.has_iff call).mpr (List.mem_toFinset.mp hmem))
      rw [Finset.card_insert_of_notMem hmem]

/-- **A run of registrations** is recorded as a whole. -/
theorem records_registered (calls : List (String × Builder σ N)) :
    (registered calls).Records calls := by
  induction calls using List.reverseRecOn with
  | nil => exact records_empty
  | append_singleton calls call ih =>
    rw [registered_concat]
    exact ih.insert call

/-- **The events of a run**: one for each registration whose key has occurred before, in order. -/
theorem events_registerAll (before calls : List (String × Builder σ N)) :
    ((registered before).registerAll calls).events =
      ((calls.zipIdx before.length).filter fun entry =>
        keyOf entry.1 ∈ ((before ++ calls).take entry.2).map keyOf).map fun entry =>
          .replaced entry.1.1 := by
  -- What came before grows by one call a step: it has the keys that the next call is asked about.
  induction calls generalizing before with
  | nil => rfl
  | cons call rest ih =>
    have hrest := ih (before ++ [call])
    rw [registered_concat, List.append_assoc, List.length_append] at hrest
    have hhas := (records_registered before).has_iff call
    have hmove : before ++ call :: rest = before ++ ([call] ++ rest) := rfl
    rw [registerAll, Logged.events_bind, events_register, value_register, hrest, hmove,
      List.zipIdx_cons, List.filter_cons, List.take_left]
    by_cases hmem : keyOf call ∈ before.map keyOf
    · rw [if_pos (hhas.mpr hmem), if_pos (decide_eq_true hmem)]
      rfl
    · rw [if_neg fun h => hmem (hhas.mp h), if_neg (by simpa using hmem)]
      rfl

/-! ## What is listed -/

theorem containsType_iff (f : Factory σ N) (type : String) :
    f.containsType type = true ↔
      ∃ kind, kind ≠ .rule ∧ (f.builder? (kind, type)).isSome = true := by
  unfold containsType Dictionary.contains
  rw [Bool.or_eq_true, Bool.or_eq_true]
  constructor
  · rintro ((h | h) | h)
    · exact ⟨.single, by decide, by rwa [builder?, Option.isSome_map]⟩
    · exact ⟨.wrapper, by decide, by rwa [builder?, Option.isSome_map]⟩
    · exact ⟨.cluster, by decide, by rwa [builder?, Option.isSome_map]⟩
  · rintro ⟨kind, hkind, h⟩
    cases kind with
    | single => exact .inl (.inl (by rwa [builder?, Option.isSome_map] at h))
    | wrapper => exact .inl (.inr (by rwa [builder?, Option.isSome_map] at h))
    | cluster => exact .inr (by rwa [builder?, Option.isSome_map] at h)
    | rule => exact absurd rfl hkind

theorem containsRule_iff (f : Factory σ N) (name : String) :
    f.containsRule name = true ↔ (f.builder? (.rule, name)).isSome = true := by
  rw [builder?, Option.isSome_map]
  rfl

theorem mem_types (f : Factory σ N) (type : String) :
    type ∈ f.types ↔ f.containsType type = true := by
  have hkeys : ∀ keys : List String, (keys.map fun key => (key, ())).map (·.1) = keys := by
    intro keys
    rw [List.map_map]
    exact List.map_id keys
  rw [types, Dictionary.mem_keys, Dictionary.contains_ofList, hkeys, List.mem_append,
    List.mem_append, Dictionary.mem_keys, Dictionary.mem_keys, Dictionary.mem_keys, containsType,
    Bool.or_eq_true, Bool.or_eq_true]

theorem mem_ruleNames (f : Factory σ N) (name : String) :
    name ∈ f.ruleNames ↔ f.containsRule name = true := Dictionary.mem_keys

/-- Keys are listed in the order of their bytes. -/
theorem pairwise_bytes_keys {α : Type} (d : Dictionary α) :
    d.keys.Pairwise fun s t => Text.bytes s < Text.bytes t :=
  d.pairwise_keys.imp fun h => Text.lt_iff_bytes_lt.mp h

/-- **A factory is one map from kinds and tags, whatever is registered in whatever order.** Under
each key is the builder of the last registration with that key. The size is the number of keys, and
there are none where nothing was registered. A type is there if something other than an evaluator
was registered for it, and a rule name if an evaluator was; both are listed in strictly ascending
order of bytes. A replacement is told at each registration whose key has occurred before, and at no
other. And where two neighbours with different keys trade places, it is the same factory, so every
text compiles to the same. -/
theorem registered_is_one_map (calls : List (String × Builder σ N)) :
    (∀ key, (registered calls).builder? key =
      ((calls.filter (keyOf · = key)).getLast?).map (·.2)) ∧
    (registered calls).size = (calls.map keyOf).toFinset.card ∧
    ((registered calls).isEmpty = true ↔ calls = []) ∧
    (∀ type, (registered calls).containsType type = true ↔
      ∃ call ∈ calls, call.1 = type ∧ call.2.kind ≠ .rule) ∧
    (∀ name, (registered calls).containsRule name = true ↔
      ∃ call ∈ calls, call.1 = name ∧ call.2.kind = .rule) ∧
    ((registered calls).types.Pairwise fun s t => Text.bytes s < Text.bytes t) ∧
    (∀ type, type ∈ (registered calls).types ↔ (registered calls).containsType type = true) ∧
    ((registered calls).ruleNames.Pairwise fun s t => Text.bytes s < Text.bytes t) ∧
    (∀ name, name ∈ (registered calls).ruleNames ↔ (registered calls).containsRule name = true) ∧
    ((empty : Factory σ N).registerAll calls).events =
      ((calls.zipIdx.filter fun entry => keyOf entry.1 ∈ (calls.take entry.2).map keyOf).map
        fun entry => .replaced entry.1.1) ∧
    ∀ before first second after, calls = before ++ first :: second :: after →
      keyOf first ≠ keyOf second →
      registered calls = registered (before ++ second :: first :: after) ∧
      (∀ document, (registered calls).compile document =
        (registered (before ++ second :: first :: after)).compile document) ∧
      ∀ text, (registered calls).compileText text =
        (registered (before ++ second :: first :: after)).compileText text := by
  have hrecords := records_registered calls
  refine ⟨hrecords.builder?, hrecords.size, ?_, fun type => ?_, fun name => ?_,
    pairwise_bytes_keys _, mem_types _, pairwise_bytes_keys _, mem_ruleNames _,
    events_registerAll [] calls, ?_⟩
  · rw [isEmpty, decide_eq_true_iff, hrecords.size, Finset.card_eq_zero, List.toFinset_eq_empty_iff,
      List.map_eq_nil_iff]
  · rw [containsType_iff]
    constructor
    · rintro ⟨kind, hkind, h⟩
      obtain ⟨call, hcall, hkey⟩ := List.mem_map.mp ((hrecords.isSome_iff _).mp h)
      exact ⟨call, hcall, congrArg Prod.snd hkey, fun hrule =>
        hkind ((congrArg Prod.fst hkey).symm.trans hrule)⟩
    · rintro ⟨call, hcall, rfl, hkind⟩
      exact ⟨call.2.kind, hkind, (hrecords.isSome_iff _).mpr (List.mem_map_of_mem hcall)⟩
  · rw [containsRule_iff, hrecords.isSome_iff, List.mem_map]
    simp only [keyOf, Prod.mk.injEq, and_comm]
  · rintro before first second after rfl hkeys
    have hsame : registered (before ++ first :: second :: after) =
        registered (before ++ second :: first :: after) := by
      unfold registered
      rw [value_registerAll, value_registerAll, List.foldl_append, List.foldl_append]
      simp only [List.foldl_cons]
      rw [insert_comm _ hkeys]
    exact ⟨hsame, fun document => congrArg (·.compile document) hsame,
      fun text => congrArg (·.compileText text) hsame⟩

/-- A leaf and an evaluator under one tag, and the evaluator twice. -/
def nightCalls : List (String × Builder Unit Unit) :=
  [("night", .single fun metadata => pure (.single (fun _ => pure none) metadata)),
    ("night", .rule (pure true)), ("night", .rule (pure false))]

theorem registered_is_one_map_night :
    keyOf nightCalls[0] ≠ keyOf nightCalls[1] ∧
      (registered nightCalls).size = (nightCalls.map keyOf).toFinset.card ∧
      registered nightCalls = registered [nightCalls[1], nightCalls[0], nightCalls[2]] := by
  have hkeys : keyOf nightCalls[0] ≠ keyOf nightCalls[1] := by decide
  obtain ⟨-, hsize, -, -, -, -, -, -, -, -, hswap⟩ := registered_is_one_map nightCalls
  exact ⟨hkeys, hsize, (hswap [] nightCalls[0] nightCalls[1] [nightCalls[2]] rfl hkeys).1⟩

end Factory

end ViewTree
