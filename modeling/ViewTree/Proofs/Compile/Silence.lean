import ViewTree.Proofs.Compile.Failure
import ViewTree.Proofs.Compile.Image
import ViewTree.Proofs.Rule.Subspec

/-!
# Nothing is dropped in silence

> No event at the coarser level is told exactly when nothing of the document is dropped.

There are ten ways to lose a part of a document, in two recursions that run into each other, and
each has its own event. `Clean` lists what must be true of a node for none of the ten to happen
there. It speaks of the document and of what is registered, and not of the run. The theorem is an
equivalence, and the two directions catch different mistakes: an event that is missing, or one that
is told where nothing is lost.

A node below a leaf is a case of its own. It is compiled like any other, and what is dropped of it
is told, although no component of it would have been used. So it is asked to be clean too.

What is gained is `Whole`. Where nothing is told, the components stand at the *same* places as their
nodes, with all entries below them in order, and with a leaf in their rule for every string of its
specification. And the places without a component are the ones below leaves, no others.
-/

set_option autoImplicit false

namespace ViewTree

variable {σ N : Type}

/-! ## Quiet runs -/

/-- No event is told at the coarser level. -/
def Event.Quiet (events : List Event) : Prop := ∀ e ∈ events, e.level ≠ .debug

namespace Event

@[simp] theorem quiet_nil : Quiet [] := fun _ he => absurd he (by simp)

@[simp] theorem quiet_singleton {e : Event} : Quiet [e] ↔ e.level ≠ .debug := by
  simp [Quiet]

@[simp] theorem quiet_append {first second : List Event} :
    Quiet (first ++ second) ↔ Quiet first ∧ Quiet second := by
  simp only [Quiet, List.mem_append, or_imp, forall_and]

/-- Where all that can be told is at the coarser level, being quiet is being silent. -/
theorem Coarse.quiet_iff {events : List Event} (h : Coarse events) :
    Quiet events ↔ events = [] := by
  constructor
  · intro hquiet
    rw [List.eq_nil_iff_forall_not_mem]
    exact fun e he => hquiet e he (h e he)
  · rintro rfl
    exact quiet_nil

end Event

open Event (Quiet)

namespace Factory

variable {f : Factory σ N}

/-! ## Clean nodes -/

/-- **There is nothing to drop of a node itself**: it resolves, its entries are objects, as a
wrapper it has one of them, and all parts of its rule are rules. -/
structure Clean (f : Factory σ N) (m : Json) : Prop where
  resolves : f.resolves (.ofJson m) = true
  objects : ∀ e ∈ Node.entriesOf m, e.isObject = true
  only : f.nodeKind? m = some .wrapper → (Node.entriesOf m).length = 1
  rule : ∀ spec, Node.ruleOf? m = some spec →
    ∀ part ∈ Rule.parts spec, Rule.parses f.rules.get? part = true

/-- All nodes that can be reached are clean. -/
def Spotless (f : Factory σ N) (n : Json) : Prop := ∀ m ∈ (Node.ofJson n).reachable, f.Clean m

theorem spotless_iff {n : Json} :
    f.Spotless n ↔ f.Clean n ∧ ∀ e ∈ Node.entriesOf n, f.Spotless e := by
  unfold Spotless
  rw [Node.reachable_ofJson, List.forall_mem_cons]
  apply and_congr_right
  intro hclean
  constructor
  · intro h e he m hm
    have hfilter := List.mem_filter.mpr ⟨he, hclean.objects e he⟩
    exact h m (List.mem_flatMap.mpr ⟨e, hfilter, hm⟩)
  · intro h m hm
    obtain ⟨e, he, hm⟩ := List.mem_flatMap.mp hm
    exact h e (List.mem_filter.mp he).1 m hm

theorem Spotless.resolves {n : Json} (h : f.Spotless n) : f.resolves (.ofJson n) = true :=
  (spotless_iff.mp h).1.resolves

/-- The entries of a node are objects that resolve. -/
def InOrder (f : Factory σ N) (n : Json) : Prop :=
  ∀ e ∈ Node.entriesOf n, e.isObject = true ∧ f.resolves (.ofJson e) = true

theorem Spotless.inOrder {n : Json} (h : f.Spotless n) : f.InOrder n := by
  obtain ⟨hclean, hbelow⟩ := spotless_iff.mp h
  exact fun e he => ⟨hclean.objects e he, (hbelow e he).resolves⟩

/-! ## What is told at a node -/

theorem told_resolve_eq_nil_iff (f : Factory σ N) (type : String) (children : List (Component σ N))
    (metadata : Option (Metadata σ)) (s : σ) :
    (f.resolve type children metadata).told s = [] ↔
      ∃ kind, f.kindOf? type = some kind ∧ (kind = .wrapper → children.length = 1) := by
  unfold kindOf? resolve Dictionary.contains
  cases f.singles.get? type with
  | some factory => simp
  | none =>
    cases f.wrappers.get? type with
    | some factory =>
      cases children with
      | nil => simp
      | cons child more => cases more <;> simp
    | none => cases f.clusters.get? type <;> simp

theorem events_gate_eq_nil_iff (f : Factory σ N) (type : String) (spec? : Option Json)
    (component : Component σ N) :
    (f.gate type spec? component).events = [] ↔
      ∀ spec, spec? = some spec →
        ∀ part ∈ Rule.parts spec, Rule.parses f.rules.get? part = true := by
  cases spec? with
  | none => simp [gate]
  | some spec =>
    rw [gate, Logged.events_bind, List.append_eq_nil_iff, parseRule, Rule.events_eq_nil_iff]
    constructor
    · rintro ⟨hparts, -⟩ other hother
      rw [← Option.some.inj hother]
      exact hparts
    · intro h
      have hparts := h spec rfl
      obtain ⟨rule, hrule⟩ := Option.isSome_iff_exists.mp (hparts spec (Rule.mem_parts_self spec))
      refine ⟨hparts, ?_⟩
      rw [hrule]
      rfl

/-- The events of a node: those of its entries, and on top those of its type and its rule. -/
theorem quiet_compileNode_iff (hf : f.Faithful) {source : Json} {entries : List Node}
    {type : String} {s : σ} {children : List (Component σ N)}
    (htype : Node.typeOf? source = some type)
    (hchildren : (f.compileEntries entries).outcome s = .ok children) :
    Quiet ((f.compileNode ⟨source, entries⟩).told s) ↔
      Quiet ((f.compileEntries entries).told s) ∧
        (∃ kind, f.kindOf? type = some kind ∧ (kind = .wrapper → children.length = 1)) ∧
        ∀ spec, Node.ruleOf? source = some spec →
          ∀ part ∈ Rule.parts spec, Rule.parses f.rules.get? part = true := by
  generalize hafter : (f.compileEntries entries).after s = s'
  have hresolve := f.told_resolve_eq_nil_iff type children (Node.metadataOf? source) s'
  have hcoarse := f.coarse_resolve type children (Node.metadataOf? source) s'
  obtain ⟨-, hnone⟩ := result_resolve hf type children (Node.metadataOf? source) s'
  rw [compileNode, htype]
  simp only [Compilation.told_bind, Compilation.told_logged, Compilation.outcome_logged,
    Compilation.after_logged, Logged.events_tell, Event.quiet_append, Event.quiet_singleton,
    hchildren, hafter, Compilation.told_action, Compilation.outcome_action, hcoarse.quiet_iff,
    hresolve]
  rw [and_iff_right (by simp [Event.level])]
  apply and_congr_right
  intro _
  apply and_congr_right
  rintro ⟨kind, hkind, honly⟩
  -- A type that is told nothing of has a component, so that its rule is looked at.
  cases hresult : (f.resolve type children (Node.metadataOf? source)).result s' with
  | none =>
    rcases hnone.mp hresult with hno | ⟨hwrapper, hempty⟩
    · rw [hkind] at hno
      exact absurd hno (by simp)
    · have hlength := honly (Option.some.inj (hkind.symm.trans hwrapper))
      rw [hempty] at hlength
      exact absurd hlength (by simp)
  | some bare =>
    simp only [Compilation.told_bind, Compilation.told_logged, Compilation.outcome_logged,
      Compilation.told_pure, List.append_nil]
    rw [(f.coarse_gate type (Node.ruleOf? source) bare).quiet_iff, events_gate_eq_nil_iff]

/-! ## What is told at all nodes -/

theorem quiet_compileEntries_iff {items : List Json}
    (h : ∀ e ∈ items, ∀ s component?, (f.compileNode (.ofJson e)).outcome s = .ok component? →
      (Quiet ((f.compileNode (.ofJson e)).told s) ↔ f.Spotless e))
    {s : σ} {children : List (Component σ N)}
    (hs : (f.compileEntries (items.map .ofJson)).outcome s = .ok children) :
    Quiet ((f.compileEntries (items.map .ofJson)).told s) ↔
      ∀ e ∈ items, e.isObject = true ∧ f.Spotless e := by
  induction items generalizing s children with
  | nil => simp [compileEntries]
  | cons entry rest ih =>
    have hrest : ∀ e ∈ rest, ∀ s component?,
        (f.compileNode (.ofJson e)).outcome s = .ok component? →
        (Quiet ((f.compileNode (.ofJson e)).told s) ↔ f.Spotless e) :=
      fun e he => h e (List.mem_cons_of_mem _ he)
    rw [List.map_cons, compileEntries, Node.source_ofJson] at hs ⊢
    rw [List.forall_mem_cons]
    by_cases hobject : entry.isObject = true
    · rw [if_pos hobject] at hs ⊢
      obtain ⟨child?, hchild, hs⟩ := Compilation.outcome_bind_eq_ok.mp hs
      obtain ⟨others, hothers, -⟩ := Compilation.outcome_bind_eq_ok.mp hs
      simp only [Compilation.told_bind, hchild, hothers, Compilation.told_pure, List.append_nil,
        Event.quiet_append]
      rw [h entry List.mem_cons_self s child? hchild, ih hrest hothers, and_iff_right hobject]
    · rw [if_neg hobject, Compilation.told_bind, Event.quiet_append]
      apply iff_of_false
      · rintro ⟨htold, -⟩
        rw [Compilation.told_logged, Logged.events_tell, Event.quiet_singleton] at htold
        exact htold rfl
      · rintro ⟨⟨hcon, -⟩, -⟩
        exact hobject hcon

namespace InOrder

variable {n : Json}

/-- None of the entries is left out. -/
theorem resolvingFrom_eq (h : f.InOrder n) :
    f.resolvingFrom 0 ((Node.entriesOf n).map .ofJson) =
      ((Node.entriesOf n).map Node.ofJson).zipIdx := by
  rw [resolvingFrom, List.filter_eq_self]
  rintro ⟨e, i⟩ he
  obtain ⟨entry, hentry, rfl⟩ := List.mem_map.mp (List.fst_mem_of_mem_zipIdx he)
  obtain ⟨hobject, hresolves⟩ := h entry hentry
  rw [Node.source_ofJson, hobject, hresolves]
  rfl

theorem length_children (hf : f.Faithful) (h : f.InOrder n) {s : σ}
    {children : List (Component σ N)}
    (hs : (f.compileEntries ((Node.entriesOf n).map .ofJson)).outcome s = .ok children) :
    children.length = (Node.entriesOf n).length := by
  have hresolves : ∀ e ∈ (Node.entriesOf n).map Node.ofJson, ∀ s component?,
      (f.compileNode e).outcome s = .ok component? →
      (component? = none ↔ f.resolves e = false) ∧ ∀ c, component? = some c → True :=
    fun e _ s component? hok => ⟨(compileNode_mirrors hf e s component? hok).1, fun _ _ => trivial⟩
  have hbelow := compileEntries_eq_ok (Q := fun _ _ => True) 0 hresolves hs
  rw [← hbelow.length_eq, h.resolvingFrom_eq, List.length_zipIdx, List.length_map]

/-- The node resolves when its type is registered and there is something to wrap. -/
theorem resolves_iff (h : f.InOrder n) {type : String} (htype : Node.typeOf? n = some type) :
    f.resolves (.ofJson n) = true ↔
      ∃ kind, f.kindOf? type = some kind ∧ (kind = .wrapper → Node.entriesOf n ≠ []) := by
  rw [← Bool.not_eq_false, Node.ofJson_eq, resolves_eq_false_iff, nodeKind?, htype,
    Option.bind_some, h.resolvingFrom_eq]
  cases f.kindOf? type with
  | none => simp
  | some kind => simp

/-- What a clean node has to have besides is what it tells of. -/
theorem clean_iff (h : f.InOrder n) {type : String} (htype : Node.typeOf? n = some type) :
    f.Clean n ↔
      (∃ kind, f.kindOf? type = some kind ∧
        (kind = .wrapper → (Node.entriesOf n).length = 1)) ∧
      ∀ spec, Node.ruleOf? n = some spec →
        ∀ part ∈ Rule.parts spec, Rule.parses f.rules.get? part = true := by
  have hnode : f.nodeKind? n = f.kindOf? type := by
    rw [nodeKind?, htype, Option.bind_some]
  constructor
  · rintro ⟨hresolves, -, honly, hrule⟩
    obtain ⟨kind, hkind, -⟩ := (h.resolves_iff htype).mp hresolves
    refine ⟨⟨kind, hkind, ?_⟩, hrule⟩
    rintro rfl
    exact honly (hnode.trans hkind)
  · rintro ⟨⟨kind, hkind, honly⟩, hrule⟩
    refine ⟨?_, fun e he => (h e he).1, ?_, hrule⟩
    · refine (h.resolves_iff htype).mpr ⟨kind, hkind, ?_⟩
      intro hwrapper hempty
      have hone := honly hwrapper
      rw [hempty] at hone
      exact absurd hone (by simp)
    · intro hwrapper
      rw [hnode, hkind] at hwrapper
      exact honly (Option.some.inj hwrapper)

end InOrder

/-- **A compilation is quiet exactly when every node that it reaches is clean.** -/
theorem quiet_iff_spotless (hf : f.Faithful) (n : Json) :
    ∀ s component?, (f.compileNode (.ofJson n)).outcome s = .ok component? →
      (Quiet ((f.compileNode (.ofJson n)).told s) ↔ f.Spotless n) := by
  induction n using Node.induct_ofJson with
  | step n ih =>
    intro s component? h
    rw [Node.ofJson_eq] at h ⊢
    obtain ⟨type, children, htype, hchildren, -⟩ := compileNode_eq_ok h
    rw [quiet_compileNode_iff hf htype hchildren, quiet_compileEntries_iff ih hchildren,
      spotless_iff]
    -- Either side says that the entries are in order, and then they have all become children.
    constructor
    · rintro ⟨hentries, hown⟩
      have horder : f.InOrder n := fun e he => ⟨(hentries e he).1, (hentries e he).2.resolves⟩
      rw [horder.length_children hf hchildren] at hown
      exact ⟨(horder.clean_iff htype).mpr hown, fun e he => (hentries e he).2⟩
    · rintro ⟨hclean, hbelow⟩
      have horder : f.InOrder n := fun e he => ⟨hclean.objects e he, (hbelow e he).resolves⟩
      rw [horder.length_children hf hchildren]
      exact ⟨fun e he => ⟨hclean.objects e he, hbelow e he⟩, (horder.clean_iff htype).mp hclean⟩

/-! ## What is gained -/

/-- **A component has all of its node**: its kind, metadata and rule; as a cluster or a wrapper, a
child for each entry; and in its rule, a leaf for each string of the specification. -/
structure Whole (f : Factory σ N) (m : Node) (d : Component σ N) : Prop where
  depicts : f.Depicts m d
  cluster : f.nodeKind? m.source = some .cluster → d.children.length = m.entries.length
  wrapper : f.nodeKind? m.source = some .wrapper →
    m.entries.length = 1 ∧ d.children.length = 1
  rule : ∀ spec, Node.ruleOf? m.source = some spec → ∃ rule bare, d = .gated rule bare ∧
    rule.leaves.map some = spec.strings.map f.rules.get?

/-- The place is strictly below a node that is a leaf by its type. -/
def BelowLeaf (f : Factory σ N) (n : Node) (p : Place) : Prop :=
  ∃ q m, q <+: p ∧ q ≠ p ∧ follow Node.entries n q = some m ∧
    f.nodeKind? m.source = some .single

theorem belowLeaf_cons {n : Node} {i : Nat} {p : Place} :
    f.BelowLeaf n (i :: p) ↔ f.nodeKind? n.source = some .single ∨
      ∃ e, n.entries[i]? = some e ∧ f.BelowLeaf e p := by
  constructor
  · rintro ⟨q, m, hprefix, hne, hm, hkind⟩
    rcases List.prefix_cons_iff.mp hprefix with rfl | ⟨q, rfl, hrest⟩
    · obtain rfl := Option.some.inj hm
      exact .inl hkind
    · obtain ⟨e, he, hm⟩ := follow_cons_eq_some.mp hm
      exact .inr ⟨e, he, q, m, hrest, fun h => hne (congrArg _ h), hm, hkind⟩
  · rintro (hkind | ⟨e, he, q, m, hprefix, hne, hm, hkind⟩)
    · exact ⟨[], n, List.nil_prefix, by simp, rfl, hkind⟩
    · refine ⟨i :: q, m, (List.prefix_cons_inj i).mpr hprefix, by simpa using hne, ?_, hkind⟩
      exact follow_cons_eq_some.mpr ⟨e, he, hm⟩

namespace Spotless

variable {n : Json}

/-- The kinds that there are. -/
theorem nodeKind?_eq (h : f.Spotless n) :
    f.nodeKind? n = some .single ∨ f.nodeKind? n = some .wrapper ∨
      f.nodeKind? n = some .cluster := by
  have hresolves := h.resolves
  rw [Node.ofJson_eq, Factory.resolves] at hresolves
  split at hresolves
  · exact .inl ‹_›
  · exact .inr (.inl ‹_›)
  · exact .inr (.inr ‹_›)
  · exact absurd hresolves (by simp)

/-- Everything is kept, unless the node is a leaf. -/
theorem kept_eq (h : f.Spotless n) (hkind : f.nodeKind? n ≠ some .single) :
    f.kept (.ofJson n) = ((Node.entriesOf n).map Node.ofJson).zipIdx := by
  rw [kept, Node.source_ofJson, Node.entries_ofJson, h.inOrder.resolvingFrom_eq]
  rcases h.nodeKind?_eq with hsingle | hwrapper | hcluster
  · exact absurd hsingle hkind
  · have hone := (spotless_iff.mp h).1.only hwrapper
    rw [hwrapper, childrenOf_wrapper, List.take_of_length_le]
    simp [hone]
  · rw [hcluster, childrenOf_cluster]

/-- What is kept at a position is the entry there. -/
theorem kept_getElem? (h : f.Spotless n) {i : Nat} {e : Node × Nat}
    (he : (f.kept (.ofJson n))[i]? = some e) :
    ∃ entry, (Node.ofJson n).entries[i]? = some (.ofJson entry) ∧ e.1 = .ofJson entry ∧
      f.Spotless entry := by
  by_cases hkind : f.nodeKind? n = some .single
  · rw [kept, Node.source_ofJson, hkind, childrenOf_single] at he
    exact absurd he (by simp)
  · rw [h.kept_eq hkind, List.getElem?_zipIdx, List.getElem?_map, Option.map_map,
      Option.map_eq_some_iff] at he
    obtain ⟨entry, hentry, rfl⟩ := he
    refine ⟨entry, ?_, rfl, (spotless_iff.mp h).2 entry (List.mem_of_getElem? hentry)⟩
    rw [Node.entries_ofJson, List.getElem?_map, hentry, Option.map_some]

theorem whole_of_mirrors (h : f.Spotless n) {c : Component σ N}
    (hmirrors : Mirrors f.kept Component.children f.Depicts (.ofJson n) c) :
    f.Whole (.ofJson n) c := by
  obtain ⟨hdepicts, hlength, -⟩ := hmirrors
  have hclean := (spotless_iff.mp h).1
  have hall (hkind : f.nodeKind? n ≠ some .single) :
      c.children.length = (Node.ofJson n).entries.length := by
    rw [← hlength, h.kept_eq hkind, List.length_zipIdx, Node.entries_ofJson]
  refine ⟨hdepicts, ?_, ?_, ?_⟩
  · intro hcluster
    rw [Node.source_ofJson] at hcluster
    exact hall (by simp [hcluster])
  · intro hwrapper
    rw [Node.source_ofJson] at hwrapper
    have hone : (Node.ofJson n).entries.length = 1 := by
      rw [Node.entries_ofJson, List.length_map, hclean.only hwrapper]
    exact ⟨hone, by rw [hall (by simp [hwrapper]), hone]⟩
  · intro spec hspec
    obtain ⟨bare, -, -, hc⟩ := hdepicts
    rw [Node.source_ofJson] at hspec hc
    obtain ⟨rule, hrule, hleaves⟩ := Rule.leaves_eq_of_parses (hclean.rule spec hspec)
    refine ⟨rule, bare, ?_, hleaves⟩
    rw [hc, behindRule, hspec, Option.bind_some, parseRule, hrule]

/-- Every component stands at the place of its node. -/
theorem exists_whole (h : f.Spotless n) {c : Component σ N}
    (hmirrors : Mirrors f.kept Component.children f.Depicts (.ofJson n) c) {p : Place}
    {d : Component σ N} (hp : follow Component.children c p = some d) :
    ∃ m, follow Node.entries (.ofJson n) p = some m ∧ f.Whole m d := by
  induction p generalizing n c with
  | nil =>
    obtain rfl := Option.some.inj hp
    exact ⟨_, rfl, h.whole_of_mirrors hmirrors⟩
  | cons i p ih =>
    obtain ⟨b, hb, hp⟩ := follow_cons_eq_some.mp hp
    obtain ⟨-, hlength, hstep⟩ := hmirrors
    obtain ⟨e, he⟩ := exists_getElem?_of_length_eq hlength hb
    obtain ⟨entry, hentry, hsource, hspotless⟩ := h.kept_getElem? he
    have hbelow := hstep i e b he hb
    rw [hsource] at hbelow
    obtain ⟨m, hm, hwhole⟩ := ih hspotless hbelow hp
    exact ⟨m, follow_cons_eq_some.mpr ⟨_, hentry, hm⟩, hwhole⟩

/-- Every node has a component at its place, unless the place is below a leaf. -/
theorem exists_component_iff (h : f.Spotless n) {c : Component σ N}
    (hmirrors : Mirrors f.kept Component.children f.Depicts (.ofJson n) c) {p : Place} {m : Node}
    (hm : follow Node.entries (.ofJson n) p = some m) :
    (∃ d, follow Component.children c p = some d) ↔ ¬ f.BelowLeaf (.ofJson n) p := by
  induction p generalizing n c with
  | nil =>
    refine iff_of_true ⟨c, rfl⟩ ?_
    rintro ⟨q, -, hprefix, hne, -, -⟩
    exact hne (List.prefix_nil.mp hprefix)
  | cons i p ih =>
    obtain ⟨e, he, hm⟩ := follow_cons_eq_some.mp hm
    obtain ⟨-, hlength, hstep⟩ := hmirrors
    rw [belowLeaf_cons, Node.source_ofJson]
    by_cases hkind : f.nodeKind? n = some .single
    · refine iff_of_false ?_ (not_not.mpr (.inl hkind))
      rw [kept, Node.source_ofJson, hkind, childrenOf_single] at hlength
      rintro ⟨d, hd⟩
      obtain ⟨b, hb, -⟩ := follow_cons_eq_some.mp hd
      rw [List.length_eq_zero_iff.mp hlength.symm] at hb
      exact absurd hb (by simp)
    · -- Above the leaves, what is kept is all there is.
      have hkept : (f.kept (.ofJson n))[i]? = some (e, i) := by
        rw [Node.entries_ofJson] at he
        rw [h.kept_eq hkind, List.getElem?_zipIdx, he]
        simp
      obtain ⟨entry, hentry, rfl, hspotless⟩ := h.kept_getElem? hkept
      obtain ⟨b, hb⟩ := exists_getElem?_of_length_eq hlength.symm hkept
      have hbelow := ih hspotless (hstep i _ b hkept hb) hm
      simp only [follow, hb, he, Option.bind_some, hkind, false_or, Option.some.injEq,
        exists_eq_left']
      exact hbelow

end Spotless

/-- **Nothing is dropped in silence.** A compilation that succeeds is quiet exactly when every node
that can be reached is clean. Then there is a component, every component stands at the place of its
node and has all of it, and only the places below leaves have none. -/
theorem quiet_iff_nothing_dropped (f : Factory σ N) (hf : f.Faithful) (n : Json) (s : σ)
    (component? : Option (Component σ N))
    (h : (f.compileNode (.ofJson n)).outcome s = .ok component?) :
    (Quiet ((f.compileNode (.ofJson n)).told s) ↔
      ∀ m ∈ (Node.ofJson n).reachable, f.Clean m) ∧
    (Quiet ((f.compileNode (.ofJson n)).told s) → ∃ c, component? = some c ∧
      (∀ p d, follow Component.children c p = some d →
        ∃ m, follow Node.entries (.ofJson n) p = some m ∧ f.Whole m d) ∧
      ∀ p m, follow Node.entries (.ofJson n) p = some m →
        ((∃ d, follow Component.children c p = some d) ↔ ¬ f.BelowLeaf (.ofJson n) p)) := by
  have hiff := quiet_iff_spotless hf n s component? h
  refine ⟨hiff, fun hquiet => ?_⟩
  have hspotless := hiff.mp hquiet
  obtain ⟨hnone, hmirrors⟩ := compileNode_mirrors hf (.ofJson n) s component? h
  cases component? with
  | none =>
    have hnot := hnone.mp rfl
    rw [hspotless.resolves] at hnot
    exact absurd hnot (by simp)
  | some c =>
    refine ⟨c, rfl, fun p d hp => ?_, fun p m hm => ?_⟩
    · exact hspotless.exists_whole (hmirrors c rfl) hp
    · exact hspotless.exists_component_iff (hmirrors c rfl) hm

/-- A box with the one leaf that it can hold, behind a rule over two names. -/
def boxOfOne : Json :=
  .obj [("type", .str "box"), ("children", .arr [.obj [("type", .str "leaf"),
    ("rule", .obj [("AND", .arr [.str "shown", .obj [("NOT", .str "shown")]])])]])]

theorem quiet_iff_nothing_dropped_box :
    twofold.Faithful ∧ (∀ m ∈ (Node.ofJson boxOfOne).reachable, twofold.Clean m) ∧
      ∃ c, (twofold.compileNode (.ofJson boxOfOne)).outcome () = .ok (some c) ∧
        (∀ p d, follow Component.children c p = some d →
          ∃ m, follow Node.entries (.ofJson boxOfOne) p = some m ∧ twofold.Whole m d) ∧
        ∀ p m, follow Node.entries (.ofJson boxOfOne) p = some m →
          ((∃ d, follow Component.children c p = some d) ↔
            ¬ twofold.BelowLeaf (.ofJson boxOfOne) p) := by
  have htold : (twofold.compileNode (.ofJson boxOfOne)).told () =
      [.compiling "box", .compiling "leaf"] := rfl
  have hquiet : Quiet ((twofold.compileNode (.ofJson boxOfOne)).told ()) := by
    rw [htold]
    simp [Quiet, Event.level]
  obtain ⟨hiff, hwhole⟩ :=
    quiet_iff_nothing_dropped twofold twofold_faithful boxOfOne () _ rfl
  obtain ⟨c, hc, hplaces⟩ := hwhole hquiet
  exact ⟨twofold_faithful, hiff.mp hquiet, c, congrArg Except.ok hc, hplaces⟩

end Factory

end ViewTree
