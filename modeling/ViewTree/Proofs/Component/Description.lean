import Mathlib.Data.List.Forall2
import Mathlib.Data.Option.Basic
import ViewTree.Proofs.Component.Aspect
import ViewTree.Proofs.Component.Inside
import ViewTree.Proofs.Component.Skeleton
import ViewTree.Proofs.Rule.Shape

/-!
# What a description leaves out

> Nothing of a compiled component but the host: its builders, and who its evaluators are.

A description leaves a field out where there is nothing to say, the children where there are none
and the metadata where there is none, and it uses one key for two things, the children of a
component and what is behind a gate. It is unambiguous all the same. The kind is always there and
says whether the children are what is behind a gate; what is left out is told from what is empty,
since metadata without entries is an empty object; and a rule is a text that says its shape
(`Rule.debug_eq_iff`).

Two descriptions can be compared as they are or as values, where `0.0` is `-0.0`. So the comparison
is a parameter: all that is used of it is that it takes arrays and objects apart
(`Json.Comparison`). Whichever it is, two descriptions compare equal exactly when the components
are the same but for the host, with metadata that compares equal (`compare_describe_iff`).

Metadata is asked to be **documented**, that is, to come from a document or not to be there. Other
metadata is shown by a diagnostic text, which the host may choose as it likes.
-/

set_option autoImplicit false

namespace ViewTree

/-! ## Comparing values -/

namespace Json

/-- A way to compare values that takes arrays and objects apart and does not confuse texts. -/
structure Comparison (E : Json → Json → Prop) : Prop where
  str : ∀ {s t : String}, E (.str s) (.str t) ↔ s = t
  arr : ∀ {xs ys : List Json}, E (.arr xs) (.arr ys) ↔ List.Forall₂ E xs ys
  obj : ∀ {fs gs : List (String × Json)},
    E (.obj fs) (.obj gs) ↔ List.Forall₂ (fun f g => f.1 = g.1 ∧ E f.2 g.2) fs gs

theorem comparison_eq : Comparison (· = ·) where
  str := ⟨Json.str.inj, congrArg _⟩
  arr := ⟨fun h => List.forall₂_eq_eq_eq ▸ Json.arr.inj h,
    fun h => congrArg _ (List.forall₂_eq_eq_eq ▸ h)⟩
  obj {fs gs} := by
    have hfields : (fun f g : String × Json => f.1 = g.1 ∧ f.2 = g.2) = (· = ·) := by
      funext f g
      exact propext Prod.ext_iff.symm
    rw [hfields, List.forall₂_eq_eq_eq]
    exact ⟨Json.obj.inj, congrArg _⟩

theorem equalItems_iff {xs ys : List Json} :
    equalItems xs ys = true ↔ List.Forall₂ (fun i j => i.equal j = true) xs ys := by
  induction xs generalizing ys with
  | nil => cases ys <;> simp [equalItems]
  | cons x xs ih => cases ys <;> simp [equalItems, ih]

theorem equalFields_iff {fs gs : List (String × Json)} :
    equalFields fs gs = true ↔
      List.Forall₂ (fun f g => f.1 = g.1 ∧ f.2.equal g.2 = true) fs gs := by
  induction fs generalizing gs with
  | nil => cases gs <;> simp [equalFields]
  | cons f fs ih => cases gs <;> simp [equalFields, ih]

theorem comparison_equal : Comparison fun i j => i.equal j = true where
  str := by simp [equal]
  arr := by simp [equal, equalItems_iff]
  obj := by simp [equal, equalFields_iff]

end Json

open Json (Comparison)

variable {σ N : Type}

/-- Metadata from documents with entries that compare equal. -/
def Metadata.SameEntries (E : Json → Json → Prop) : Metadata σ → Metadata σ → Prop
  | .map entries, .map entries' => E (.ofDictionary entries) (.ofDictionary entries')
  | _, _ => False

namespace Component

/-! ## Documented components and their skeletons -/

/-- **A component whose metadata comes from documents**, everywhere inside, where there is any. -/
inductive Documented : Component σ N → Prop
  | intro {c : Component σ N} (own : ∀ m ∈ c.metadata, ∃ entries, m = .map entries)
      (inside : ∀ d ∈ c.inside, Documented d) : Documented c

theorem Documented.own {c : Component σ N} (h : c.Documented) :
    ∀ m ∈ c.metadata, ∃ entries, m = .map entries := by
  obtain ⟨hown, -⟩ := h
  exact hown

theorem Documented.inside {c : Component σ N} (h : c.Documented) :
    ∀ d ∈ c.inside, d.Documented := by
  obtain ⟨-, hinside⟩ := h
  exact hinside

/-- **Components that are the same but for the host**: the same kinds, the same shape of rule at
each gate, metadata that compares equal or is missing in both, and the same below each, one by one.
-/
inductive SameSkeleton (E : Json → Json → Prop) : Component σ N → Component σ N → Prop
  | single {builder builder' : Option (Metadata σ) → Action σ (Option N)}
      {m m' : Option (Metadata σ)} (metadata : Option.Rel (Metadata.SameEntries E) m m') :
      SameSkeleton E (.single builder m) (.single builder' m')
  | wrapper {builder builder' : Child σ N → Option (Metadata σ) → Action σ (Option N)}
      {child child' : Component σ N} {m m' : Option (Metadata σ)}
      (below : SameSkeleton E child child')
      (metadata : Option.Rel (Metadata.SameEntries E) m m') :
      SameSkeleton E (.wrapper builder child m) (.wrapper builder' child' m')
  | cluster {builder builder' : List (Child σ N) → Option (Metadata σ) → Action σ (Option N)}
      {children children' : List (Component σ N)} {m m' : Option (Metadata σ)}
      (below : List.Forall₂ (SameSkeleton E) children children')
      (metadata : Option.Rel (Metadata.SameEntries E) m m') :
      SameSkeleton E (.cluster builder children m) (.cluster builder' children' m')
  | gated {rule rule' : Rule (Effect σ Bool)} {behind behind' : Component σ N}
      (shape : rule.shape = rule'.shape) (below : SameSkeleton E behind behind') :
      SameSkeleton E (.gated rule behind) (.gated rule' behind')

variable {E : Json → Json → Prop} {a b : Component σ N}

theorem SameSkeleton.kind_eq (h : SameSkeleton E a b) : a.kind = b.kind := by
  cases h <;> rfl

/-! ## Comparing descriptions -/

theorem Kind.name_inj {k k' : Kind} : k.name = k'.name ↔ k = k' := by
  cases k <;> cases k' <;> decide

/-- Two descriptions are compared part by part, what is left out included. -/
theorem compare_fields (hE : Comparison E) {ds ds' : List Json} {k k' : Kind}
    {fields fields' : List (String × Json)} :
    E (.obj (childrenField ds ++ kindField k :: fields))
        (.obj (childrenField ds' ++ kindField k' :: fields')) ↔
      List.Forall₂ E ds ds' ∧ k = k' ∧ E (.obj fields) (.obj fields') := by
  have hrest : E (.obj (kindField k :: fields)) (.obj (kindField k' :: fields')) ↔
      k = k' ∧ E (.obj fields) (.obj fields') := by
    rw [hE.obj, List.forall₂_cons, ← hE.obj, kindField, kindField, hE.str, Kind.name_inj]
    simp
  cases ds with
  | nil =>
    cases ds' with
    | nil =>
      rw [childrenField_nil, List.nil_append, List.nil_append, hrest]
      simp
    | cons d' ds' =>
      rw [hE.obj, childrenField_nil, childrenField_cons, List.nil_append, List.cons_append,
        List.forall₂_cons]
      simp [kindField]
  | cons d ds =>
    cases ds' with
    | nil =>
      rw [hE.obj, childrenField_nil, childrenField_cons, List.nil_append, List.cons_append,
        List.forall₂_cons]
      simp [kindField]
    | cons d' ds' =>
      rw [hE.obj, childrenField_cons, childrenField_cons, List.cons_append, List.cons_append,
        List.forall₂_cons, List.nil_append, List.nil_append, ← hE.obj, hrest, hE.arr]
      simp

theorem compare_metadataField (hE : Comparison E) {m m' : Option (Metadata σ)}
    (h : ∀ n ∈ m, ∃ entries, n = .map entries) (h' : ∀ n ∈ m', ∃ entries, n = .map entries) :
    E (.obj (metadataField m)) (.obj (metadataField m')) ↔
      Option.Rel (Metadata.SameEntries E) m m' := by
  rw [hE.obj]
  cases m with
  | none =>
    cases m' with
    | none => exact ⟨fun _ => .none, fun _ => .nil⟩
    | some n' =>
      constructor
      · intro hfields
        cases hfields
      · intro hrel
        cases hrel
  | some n =>
    cases m' with
    | none =>
      constructor
      · intro hfields
        cases hfields
      · intro hrel
        cases hrel
    | some n' =>
      obtain ⟨entries, rfl⟩ := h n rfl
      obtain ⟨entries', rfl⟩ := h' n' rfl
      rw [metadataField, metadataField, List.forall₂_cons, Option.rel_some_some]
      simp [metadataValue, Metadata.SameEntries]

theorem compare_rule (hE : Comparison E) (rule rule' : Rule (Effect σ Bool)) :
    E (.obj [("rule", .str rule.debug)]) (.obj [("rule", .str rule'.debug)]) ↔
      rule.shape = rule'.shape := by
  rw [hE.obj, List.forall₂_cons, hE.str, Rule.debug_eq_iff]
  simp

theorem compare_describe_all {cs ds : List (Component σ N)}
    (ih : ∀ c ∈ cs, ∀ d : Component σ N, c.Documented → d.Documented →
      (E c.describe d.describe ↔ SameSkeleton E c d))
    (hcs : ∀ c ∈ cs, c.Documented) (hds : ∀ d ∈ ds, d.Documented) :
    List.Forall₂ E (cs.map describe) (ds.map describe) ↔ List.Forall₂ (SameSkeleton E) cs ds := by
  induction cs generalizing ds with
  | nil => cases ds <;> simp
  | cons c cs ihcs =>
    cases ds with
    | nil => simp
    | cons d ds =>
      have hrest := ihcs (fun c hc => ih c (List.mem_cons_of_mem _ hc))
        (fun c hc => hcs c (List.mem_cons_of_mem _ hc))
        (fun d hd => hds d (List.mem_cons_of_mem _ hd))
      rw [List.map_cons, List.map_cons, List.forall₂_cons, List.forall₂_cons, hrest,
        ih c List.mem_cons_self d (hcs c List.mem_cons_self) (hds d List.mem_cons_self)]

/-- **Descriptions compare equal exactly when the components are the same but for the host.** -/
theorem compare_describe_iff (hE : Comparison E) (ha : a.Documented) (hb : b.Documented) :
    E a.describe b.describe ↔ SameSkeleton E a b := by
  induction a using induct generalizing b with
  | step a ih =>
    have hinside := compare_describe_all ih ha.inside hb.inside
    rw [describe_eq, describe_eq, compare_fields hE, hinside]
    by_cases hkind : a.kind = b.kind
    · -- The kinds agree, so both components are made by the same constructor.
      cases a with
      | single builder m =>
        cases b with
        | single builder' m' =>
          have hmetadata := compare_metadataField hE ha.own hb.own
          constructor
          · rintro ⟨-, -, hm⟩
            exact .single (hmetadata.mp hm)
          · intro h
            cases h with
            | single hm => exact ⟨.nil, rfl, hmetadata.mpr hm⟩
        | _ => exact absurd hkind (by simp [kind])
      | wrapper builder child m =>
        cases b with
        | wrapper builder' child' m' =>
          have hmetadata := compare_metadataField hE ha.own hb.own
          constructor
          · rintro ⟨_ | ⟨hchild, -⟩, -, hm⟩
            exact .wrapper hchild (hmetadata.mp hm)
          · intro h
            cases h with
            | wrapper hchild hm => exact ⟨.cons hchild .nil, rfl, hmetadata.mpr hm⟩
        | _ => exact absurd hkind (by simp [kind])
      | cluster builder children m =>
        cases b with
        | cluster builder' children' m' =>
          have hmetadata := compare_metadataField hE ha.own hb.own
          constructor
          · rintro ⟨hchildren, -, hm⟩
            exact .cluster hchildren (hmetadata.mp hm)
          · intro h
            cases h with
            | cluster hchildren hm => exact ⟨hchildren, rfl, hmetadata.mpr hm⟩
        | _ => exact absurd hkind (by simp [kind])
      | gated rule behind =>
        cases b with
        | gated rule' behind' =>
          have hrule := compare_rule hE rule rule'
          constructor
          · rintro ⟨_ | ⟨hbehind, -⟩, -, hshape⟩
            exact .gated (hrule.mp hshape) hbehind
          · intro h
            cases h with
            | gated hshape hbehind => exact ⟨.cons hbehind .nil, rfl, hrule.mpr hshape⟩
        | _ => exact absurd hkind (by simp [kind])
    · exact ⟨fun h => absurd h.2.1 hkind, fun h => absurd h.kind_eq hkind⟩

/-! ## Skeletons -/

/-- Components that are the same but for the host have the same skeleton. -/
theorem SameSkeleton.skeleton_eq (h : SameSkeleton (· = ·) a b) : a.skeleton = b.skeleton := by
  have hmetadata {m m' : Option (Metadata σ)}
      (hm : Option.Rel (Metadata.SameEntries (· = ·)) m m') : m = m' := by
    cases hm with
    | none => rfl
    | @some n n' hn =>
      cases n with
      | map entries =>
        cases n' with
        | map entries' =>
          obtain ⟨es, hes⟩ := entries
          obtain ⟨es', hes'⟩ := entries'
          obtain rfl : es = es' := Json.obj.inj hn
          rfl
        | _ => exact hn.elim
      | _ => exact hn.elim
  induction a using induct generalizing b with
  | step a ih =>
    cases h with
    | single hm =>
      obtain rfl := hmetadata hm
      rfl
    | wrapper hchild hm =>
      obtain rfl := hmetadata hm
      rw [skeleton, skeleton, ih _ (List.mem_singleton_self _) hchild]
    | @cluster _ _ children children' _ _ hchildren hm =>
      obtain rfl := hmetadata hm
      have heach : children.map skeleton = children'.map skeleton := by
        have hall : ∀ c ∈ children, ∀ d, SameSkeleton (· = ·) c d → c.skeleton = d.skeleton :=
          fun c hc d hd => ih c hc hd
        clear ih
        induction hchildren with
        | nil => rfl
        | @cons c d cs ds hcd _ ihcs =>
          rw [List.map_cons, List.map_cons, hall c List.mem_cons_self d hcd,
            ihcs fun c hc => hall c (List.mem_cons_of_mem _ hc)]
      rw [skeleton, skeleton, skeletonAll_eq_map, skeletonAll_eq_map, heach]
    | gated hshape hbehind =>
      rw [skeleton, skeleton, Rule.map_const_eq hshape, ih _ (List.mem_singleton_self _) hbehind]

end Component

/-! ## Compiled components -/

theorem Component.documented_of_parts {c : Component σ N} (hkind : c.kind ≠ .rule)
    (hmetadata : ∀ m ∈ c.metadata, ∃ entries, m = .map entries)
    (hchildren : ∀ d ∈ c.children, d.Documented) : c.Documented := by
  refine .intro hmetadata ?_
  cases c with
  | gated rule component => exact absurd rfl hkind
  | _ => exact hchildren

theorem Component.Documented.gated (rule : Rule (Effect σ Bool)) {c : Component σ N}
    (h : c.Documented) : Documented (.gated rule c) :=
  .intro h.own (List.forall_mem_singleton.mpr h)

theorem Node.exists_entries {source : Json} {m : Metadata σ}
    (h : m ∈ (metadataOf? source : Option (Metadata σ))) : ∃ entries, m = .map entries := by
  obtain ⟨j, -, hj⟩ := Option.bind_eq_some_iff.mp h
  obtain ⟨entries, -, rfl⟩ := Option.map_eq_some_iff.mp hj
  exact ⟨entries, rfl⟩

namespace Factory

theorem documented_behindRule (f : Factory σ N) (spec : Option Json) {c : Component σ N}
    (h : c.Documented) : (f.behindRule spec c).Documented := by
  unfold behindRule
  cases spec.bind fun spec => (f.parseRule spec).value with
  | none => exact h
  | some rule => exact h.gated rule

/-- **What is compiled from a document is documented.** -/
theorem Faithful.documented {f : Factory σ N} (hf : f.Faithful) {document : Json} {s : σ}
    {c : Component σ N} (h : (f.compile document).outcome s = .ok (some c)) : c.Documented := by
  rw [compile] at h
  cases hroot : document.field? structureKey with
  | none =>
    rw [hroot] at h
    exact absurd h (by simp)
  | some root =>
    rw [hroot] at h
    refine (compile_induction (Q := fun _ c => c.Documented) hf ?_ _ s _ h).2 c rfl
    intro source entries type children s bare _ hentries hbare
    obtain ⟨hkind, hmetadata, hchildren⟩ := (result_resolve hf type children _ s).1 bare hbare
    refine f.documented_behindRule _ (Component.documented_of_parts ?_ ?_ ?_)
    · intro hrule
      rw [hrule] at hkind
      exact f.kindOf?_ne_rule type hkind
    · rw [hmetadata]
      exact fun m hm => Node.exists_entries hm
    · intro d hd
      rw [hchildren] at hd
      exact forall_mem_right hentries d (mem_of_mem_childrenOf hd)

end Factory

namespace Component

/-! ## What descriptions tell apart -/

/-- **A description loses nothing but the host.** Documented components have the same description
exactly when they have the same skeleton, and descriptions that are equal as values exactly when
their skeletons are the same up to metadata that is equal as values. The text of a rule says its
shape. Whatever is compiled with the standard types is documented. -/
theorem description_loses_nothing (a b : Component σ N) (ha : a.Documented) (hb : b.Documented) :
    (a.describe = b.describe ↔ SameSkeleton (· = ·) a b) ∧
    (a.describe = b.describe ↔ a.skeleton = b.skeleton) ∧
    (a.describe.equal b.describe = true ↔ SameSkeleton (fun i j => i.equal j = true) a b) ∧
    (∀ rule rule' : Rule (Effect σ Bool), rule.debug = rule'.debug ↔ rule.shape = rule'.shape) ∧
    ∀ (rules : Dictionary (Effect σ Bool)) (document : Json) (s : σ) (c : Component σ View),
      ((Factory.standard.withRules rules).compile document).outcome s = .ok (some c) →
      c.Documented := by
  have hsame := compare_describe_iff Json.comparison_eq ha hb
  refine ⟨hsame, ⟨fun h => (hsame.mp h).skeleton_eq, fun h => ?_⟩,
    compare_describe_iff Json.comparison_equal ha hb, fun rule rule' => Rule.debug_eq_iff, ?_⟩
  · rw [← describe_skeleton a, h, describe_skeleton b]
  · intro rules document s c h
    exact (Factory.standard_faithful.withRules rules).documented h

/-- A leaf without metadata, or with metadata that has no entries, behind a rule. -/
def closedLeaf (rule : Rule (Effect Unit Bool)) (metadata : Option (Metadata Unit)) :
    Component Unit View :=
  .gated rule (.single (fun _ => pure none) metadata)

theorem documented_closedLeaf (rule : Rule (Effect Unit Bool)) {metadata : Option (Metadata Unit)}
    (h : ∀ m ∈ metadata, ∃ entries, m = .map entries) : (closedLeaf rule metadata).Documented :=
  Documented.gated rule (.intro h fun _ hd => absurd hd List.not_mem_nil)

theorem same_closedLeaf {E : Json → Json → Prop} {rule rule' : Rule (Effect Unit Bool)}
    {metadata metadata' : Option (Metadata Unit)}
    (h : SameSkeleton E (closedLeaf rule metadata) (closedLeaf rule' metadata')) :
    rule.shape = rule'.shape ∧ Option.Rel (Metadata.SameEntries E) metadata metadata' := by
  unfold closedLeaf at h
  cases h with
  | gated hshape hleaf =>
    cases hleaf with
    | single hmetadata => exact ⟨hshape, hmetadata⟩

theorem description_loses_nothing_closed :
    let bare := closedLeaf (.and [.or []]) none
    let empty := closedLeaf (.and [.or []]) (some (.map .empty))
    let other := closedLeaf (.and [.or [.simple (pure true)]]) none
    let document : Json := .obj [("structure", .obj [("type", .str "label")])]
    bare.Documented ∧ empty.Documented ∧ other.Documented ∧
    bare.describe ≠ empty.describe ∧ bare.describe ≠ other.describe ∧
    ∃ c, ((Factory.standard.withRules .empty).compile document).outcome () = .ok (some c) ∧
      c.Documented := by
  intro bare empty other document
  have hbare : bare.Documented := documented_closedLeaf _ fun m hm => absurd hm (by simp)
  have hempty : empty.Documented := documented_closedLeaf _ fun m hm => ⟨_, Option.some.inj hm.symm⟩
  have hother : other.Documented := documented_closedLeaf _ fun m hm => absurd hm (by simp)
  obtain ⟨-, -, -, -, hcompiled⟩ := description_loses_nothing bare other hbare hother
  refine ⟨hbare, hempty, hother, fun h => ?_, fun h => ?_, _, rfl,
    hcompiled .empty document () _ rfl⟩
  · obtain ⟨-, hmetadata⟩ :=
      same_closedLeaf ((description_loses_nothing bare empty hbare hempty).1.mp h)
    exact nomatch hmetadata
  · obtain ⟨hshape, -⟩ :=
      same_closedLeaf ((description_loses_nothing bare other hbare hother).1.mp h)
    exact absurd hshape (by simp [Rule.shape, Rule.map, Rule.mapAll])

end Component

end ViewTree
