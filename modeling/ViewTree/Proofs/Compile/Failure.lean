import ViewTree.Proofs.Compile.Run
import ViewTree.Proofs.Document.Reachable
import ViewTree.Proofs.Rule.Subspec

/-!
# Which documents fail

> A compilation fails at the **first untyped node**, in the order of the document, and until then
> it has told the types of the nodes in front of it.

Neither half mentions a registry, and that is the content. A node is compiled after its children,
then looked up in three dictionaries, possibly dropped, possibly put behind a rule; any of these
could hide a child that has no type, or report another one first. None does, since the children are
compiled before the type of their parent is looked at by anything but the log.

The proof does not follow a run. `Visits x nodes` says what a compilation `x` does *as far as
failing and tracing go*: it behaves like a walk over `nodes` that stops at the first untyped one.
Walks compose like lists (`Visits.bind`), steps that neither fail nor trace are walks over the empty
list, and so the walk of a node is read off the text of `compileNode`.
-/

set_option autoImplicit false

namespace ViewTree

variable {σ N α β : Type}

open Node (firstUntyped? typesUntilUntyped)

/-! ## Traces -/

/-- The events at the finer level. -/
def Event.traces (events : List Event) : List Event := events.filter (·.level = .trace)

/-- Some events are all at the coarser level. -/
def Event.Coarse (events : List Event) : Prop := ∀ e ∈ events, e.level = .debug

namespace Event

theorem traces_append (first second : List Event) :
    traces (first ++ second) = traces first ++ traces second := by
  simp [traces]

theorem Coarse.traces_eq {events : List Event} (h : Coarse events) : traces events = [] := by
  unfold traces
  rw [List.filter_eq_nil_iff]
  intro e he
  rw [h e he]
  decide

@[simp] theorem coarse_nil : Coarse [] := fun _ he => absurd he (by simp)

@[simp] theorem coarse_singleton {e : Event} : Coarse [e] ↔ e.level = .debug := by
  simp [Coarse]

@[simp] theorem coarse_append {first second : List Event} :
    Coarse (first ++ second) ↔ Coarse first ∧ Coarse second := by
  simp only [Coarse, List.mem_append, or_imp, forall_and]

end Event

/-! ## What neither fails nor traces

Rules are parsed and types are resolved under the coarser level only. -/

theorem Operator.coarse_combine (op : Operator) (operands : List (Rule α)) :
    Event.Coarse (op.combine operands).events := by
  unfold Operator.combine
  split <;> simp [Event.level]

theorem Rule.coarse_ofSpec? (leaf? : String → Option α) (spec : Json) :
    Event.Coarse (Rule.ofSpec? leaf? spec).events := by
  induction spec using Rule.spec_induct with
  | name text =>
    rw [Rule.ofSpec?]
    cases leaf? text <;> simp [Event.level]
  | operator key op operand hop ih =>
    rw [Rule.ofSpec?_operator hop, Logged.events_bind, Event.coarse_append, Rule.events_ofSpecs]
    refine ⟨fun e he => ?_, op.coarse_combine _⟩
    obtain ⟨spec, hspec, he⟩ := List.mem_flatMap.mp he
    exact ih spec hspec e he
  | alien spec halien =>
    obtain ⟨e, he, hdropped⟩ := halien.dropped
    rw [hdropped leaf?]
    simp [he]

namespace Factory

theorem coarse_gate (f : Factory σ N) (type : String) (spec : Option Json)
    (component : Component σ N) : Event.Coarse (f.gate type spec component).events := by
  unfold gate
  cases spec with
  | none => simp
  | some spec =>
    simp only [Logged.events_bind, Event.coarse_append]
    refine ⟨Rule.coarse_ofSpec? _ spec, ?_⟩
    cases (f.parseRule spec).value <;> simp [Event.level]

theorem coarse_resolve (f : Factory σ N) (type : String) (children : List (Component σ N))
    (metadata : Option (Metadata σ)) (s : σ) :
    Event.Coarse (Action.told (f.resolve type children metadata) s) := by
  unfold resolve
  cases f.singles.get? type with
  | some factory => simp
  | none =>
    cases f.wrappers.get? type with
    | some factory =>
      cases children with
      | nil => simp [Event.level]
      | cons child more => cases more <;> simp [Event.level]
    | none => cases f.clusters.get? type <;> simp [Event.level]

end Factory

/-! ## Walks -/

/-- The reason for which a compilation failed, if it did. -/
def failure? : Except CompileError α → Option CompileError
  | .ok _ => none
  | .error e => some e

/-- As far as failing and tracing go, a compilation is a walk over nodes up to the first that has no
type. -/
structure Visits (x : Compilation σ α) (nodes : List Json) : Prop where
  failure : ∀ s, failure? (x.outcome s) = (firstUntyped? nodes).map (.missingKey Node.typeKey)
  traces : ∀ s, Event.traces (x.told s) = (typesUntilUntyped nodes).map .compiling

namespace Visits

theorem pure (a : α) : Visits (pure a : Compilation σ α) [] :=
  ⟨fun _ => rfl, fun _ => rfl⟩

theorem action {x : Action σ α} (hx : ∀ s, Event.Coarse (x.told s)) :
    Visits (liftM x : Compilation σ α) [] :=
  ⟨fun _ => rfl, fun s => by rw [Compilation.told_action]; exact (hx s).traces_eq⟩

theorem logged {x : Logged α} (hx : Event.Coarse x.events) :
    Visits (liftM x : Compilation σ α) [] :=
  ⟨fun _ => rfl, fun s => by rw [Compilation.told_logged]; exact hx.traces_eq⟩

/-- A node without a type stops the walk. -/
theorem untyped {source : Json} (rest : List Json) (h : Node.typeOf? source = none) :
    Visits (throw (.missingKey Node.typeKey source) : Compilation σ α) (source :: rest) :=
  ⟨fun _ => by simp [failure?, firstUntyped?, h], fun _ => by
    simp [Event.traces, typesUntilUntyped, h]⟩

/-- A node with a type is told and passed. -/
theorem typed {source : Json} {type : String} (h : Node.typeOf? source = some type) :
    Visits (liftM (Logged.tell (.compiling type)) : Compilation σ Unit) [source] :=
  ⟨fun _ => by simp [failure?, firstUntyped?, h], fun _ => by
    simp [Event.traces, typesUntilUntyped, h, Event.level]⟩

/-- **Walks compose like the lists they are over.** -/
theorem bind {x : Compilation σ α} {k : α → Compilation σ β} {first second : List Json}
    (hx : Visits x first) (hk : ∀ a, Visits (k a) second) : Visits (x >>= k) (first ++ second) := by
  constructor
  · intro s
    have hfail := hx.failure s
    rw [Compilation.outcome_bind, Node.firstUntyped?_append]
    cases hout : x.outcome s with
    | error e =>
      rw [hout] at hfail
      obtain ⟨node, hnode, he⟩ := Option.map_eq_some_iff.mp hfail.symm
      rw [hnode]
      simp [failure?, he]
    | ok a =>
      rw [hout] at hfail
      rw [Option.map_eq_none_iff.mp hfail.symm, Option.none_or]
      exact (hk a).failure _
  · intro s
    have hfail := hx.failure s
    rw [Compilation.told_bind, Event.traces_append, hx.traces s, Node.typesUntilUntyped_append,
      List.map_append]
    cases hout : x.outcome s with
    | error e =>
      rw [hout] at hfail
      obtain ⟨node, hnode, -⟩ := Option.map_eq_some_iff.mp hfail.symm
      simp [hnode, Event.traces]
    | ok a =>
      rw [hout] at hfail
      rw [if_pos (Option.map_eq_none_iff.mp hfail.symm), (hk a).traces _]

end Visits

/-! ## The walk of a document -/

namespace Factory

theorem compileEntries_visits (f : Factory σ N) {entries : List Node}
    (h : ∀ e ∈ entries, Visits (f.compileNode e) e.reachable) :
    Visits (f.compileEntries entries) (Node.reachableAll entries) := by
  induction entries with
  | nil => exact Visits.pure []
  | cons entry rest ih =>
    have hrest := ih fun e he => h e (List.mem_cons_of_mem _ he)
    rw [compileEntries, Node.reachableAll]
    by_cases hobject : entry.source.isObject
    · rw [if_pos hobject, if_pos hobject]
      refine Visits.bind (h entry List.mem_cons_self) fun child => ?_
      rw [← List.append_nil (Node.reachableAll rest)]
      exact Visits.bind hrest fun others => Visits.pure _
    · rw [if_neg hobject, if_neg hobject]
      exact Visits.bind (Visits.logged (by simp [Event.level])) fun _ => hrest

/-- **Compiling a node is a walk over the nodes that can be reached from it**, whatever is
registered. -/
theorem compileNode_visits (f : Factory σ N) (n : Node) :
    Visits (f.compileNode n) n.reachable := by
  induction n with
  | step source entries ih =>
    rw [compileNode, Node.reachable]
    cases htype : Node.typeOf? source with
    | none => exact Visits.untyped _ htype
    | some type =>
      refine Visits.bind (Visits.typed htype) fun _ => ?_
      rw [← List.append_nil (Node.reachableAll entries)]
      refine Visits.bind (compileEntries_visits f ih) fun children => ?_
      -- From here on the walk is over: what is left resolves, gates and drops.
      refine Visits.bind (Visits.action (f.coarse_resolve type children _)) fun component? => ?_
      cases component? with
      | none => exact Visits.pure none
      | some component =>
        exact Visits.bind (Visits.logged (f.coarse_gate type _ component)) fun _ => Visits.pure _

theorem failure?_eq_some {x : Except CompileError α} {e : CompileError} :
    failure? x = some e ↔ x = .error e := by
  cases x <;> simp [failure?]

/-- A document compiles when it has a `structure` in which every node has a type. -/
theorem compiles_iff (f : Factory σ N) (document : Json) (s : σ) :
    (∃ component?, (f.compile document).outcome s = .ok component?) ↔
      ∃ root, document.field? structureKey = some root ∧ Node.Typed root := by
  rw [compile]
  cases document.field? structureKey with
  | none => simp
  | some root =>
    have hfailure := (f.compileNode_visits (.ofJson root)).failure s
    constructor
    · rintro ⟨component?, h⟩
      rw [show (f.compileNode (.ofJson root)).outcome s = .ok component? from h] at hfailure
      exact ⟨root, rfl, Option.map_eq_none_iff.mp hfailure.symm⟩
    · rintro ⟨_, heq, htyped⟩
      obtain rfl := Option.some.inj heq
      rw [htyped] at hfailure
      cases hout : (f.compileNode (.ofJson root)).outcome s with
      | ok component? => exact ⟨component?, rfl⟩
      | error e =>
        rw [hout] at hfailure
        exact absurd hfailure (by simp [failure?])

/-- **A document fails at its first untyped node, whatever is registered.** Compiling a value fails
exactly when a node without a type can be reached from it, the error names the first such node, and
the types told at the finer level are those in front of it. So factories, and hosts, never differ in
any of this. A document adds one error of its own, before anything is told: that it has no
`structure`. -/
theorem compile_fails_at_first_untyped (f : Factory σ N) (n : Json) (s : σ) :
    ((∃ e, (f.compileNode (.ofJson n)).outcome s = .error e) ↔
      ∃ m ∈ (Node.ofJson n).reachable, Node.typeOf? m = none) ∧
    (∀ e, (f.compileNode (.ofJson n)).outcome s = .error e ↔
      ∃ m, firstUntyped? (Node.ofJson n).reachable = some m ∧ e = .missingKey "type" m) ∧
    Event.traces ((f.compileNode (.ofJson n)).told s) =
      (typesUntilUntyped (Node.ofJson n).reachable).map .compiling ∧
    (∀ {τ M : Type} (g : Factory τ M) (t : τ),
      failure? ((g.compileNode (.ofJson n)).outcome t) =
        failure? ((f.compileNode (.ofJson n)).outcome s) ∧
      Event.traces ((g.compileNode (.ofJson n)).told t) =
        Event.traces ((f.compileNode (.ofJson n)).told s)) ∧
    (∀ document root, document.field? "structure" = some root →
      f.compile document = f.compileNode (.ofJson root)) ∧
    (∀ document, document.field? "structure" = none →
      (f.compile document).outcome s = .error (.missingKey "structure" document) ∧
        (f.compile document).told s = []) := by
  have hvisits := f.compileNode_visits (.ofJson n)
  have herror : ∀ e, (f.compileNode (.ofJson n)).outcome s = .error e ↔
      ∃ m, firstUntyped? (Node.ofJson n).reachable = some m ∧ e = .missingKey "type" m := by
    intro e
    rw [← failure?_eq_some, hvisits.failure s, Option.map_eq_some_iff]
    apply exists_congr
    intro m
    exact and_congr_right fun _ => eq_comm
  refine ⟨?_, herror, hvisits.traces s, ?_, ?_, ?_⟩
  · constructor
    · rintro ⟨e, he⟩
      obtain ⟨m, hm, -⟩ := (herror e).mp he
      exact ⟨m, List.mem_of_find?_eq_some hm, by simpa using List.find?_some hm⟩
    · rintro ⟨m, hm, huntyped⟩
      cases hfirst : firstUntyped? (Node.ofJson n).reachable with
      | none =>
        have htyped := Node.firstUntyped?_eq_none_iff.mp hfirst m hm
        rw [huntyped] at htyped
        exact absurd htyped (by simp)
      | some first => exact ⟨_, (herror _).mpr ⟨first, hfirst, rfl⟩⟩
  · intro τ M g t
    have hother := g.compileNode_visits (.ofJson n)
    exact ⟨by rw [hother.failure t, hvisits.failure s], by rw [hother.traces t, hvisits.traces s]⟩
  · intro document root hroot
    rw [compile, show document.field? structureKey = some root from hroot]
  · intro document hroot
    rw [compile, show document.field? structureKey = none from hroot]
    exact ⟨rfl, rfl⟩

end Factory

end ViewTree
