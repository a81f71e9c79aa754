import ViewTree.Node

/-!
# The nodes that compiling visits

A document is a tree through the `children` of its nodes, but not every value in such an array
is a node: an entry that is no object is passed over. What is left, in the order in which a reader
meets it, is the list of **reachable** nodes, and everything that can be said about a failing
compilation is said about that list. It does not depend on any registry: which types are known, and
which nodes end up in a component, plays no part here.

Two notions go with it. A node is **typed** when a text stands under its type key. The **first
untyped** node is the one that stops a compilation, and the types in front of it are all that was
told until then.

The induction on nodes is stated here once. A node is a rose tree through a list, for which the
recursor has two motives; every proof below this point wants only one, with the list cases left to
an ordinary induction on the entries.
-/

set_option autoImplicit false

namespace ViewTree.Node

/-! ## Induction -/

/-- **Induction on nodes**: a property holds of a node when it holds of all its entries. -/
@[induction_eliminator]
theorem induct {motive : Node → Prop}
    (step : ∀ source entries, (∀ e ∈ entries, motive e) → motive ⟨source, entries⟩)
    (n : Node) : motive n := by
  refine @Node.rec motive (fun entries => ∀ e ∈ entries, motive e) step ?_ ?_ n
  · intro e he
    exact absurd he (by simp)
  · intro head rest hhead hrest e he
    rcases List.mem_cons.mp he with rfl | he
    · exact hhead
    · exact hrest e he

/-! ## The list -/

mutual

/-- A node and all that can be reached below it, in the order of the document. -/
def reachable : Node → List Json
  | ⟨source, entries⟩ => source :: reachableAll entries

/-- What can be reached in entries: those that are objects, each with what is below it. -/
def reachableAll : List Node → List Json
  | [] => []
  | entry :: rest =>
    if entry.source.isObject then reachable entry ++ reachableAll rest else reachableAll rest

end

theorem reachableAll_eq (entries : List Node) :
    reachableAll entries = (entries.filter (·.source.isObject)).flatMap reachable := by
  induction entries with
  | nil => rfl
  | cons entry rest ih =>
    rw [reachableAll]
    by_cases h : entry.source.isObject
    · rw [if_pos h, ih, List.filter_cons_of_pos (by exact h), List.flatMap_cons]
    · rw [if_neg h, ih, List.filter_cons_of_neg (by exact h)]

@[simp] theorem source_ofJson (j : Json) : (ofJson j).source = j := by
  rw [ofJson_eq]

theorem entries_ofJson (j : Json) : (ofJson j).entries = (entriesOf j).map ofJson := by
  rw [ofJson_eq]

/-- The nodes that can be reached from a value: itself, then those of each object among the
entries of its children. -/
theorem reachable_ofJson (j : Json) :
    (ofJson j).reachable =
      j :: ((entriesOf j).filter Json.isObject).flatMap fun entry => (ofJson entry).reachable := by
  rw [ofJson_eq, reachable, reachableAll_eq, List.filter_map, List.flatMap_map]
  simp only [Function.comp_def, source_ofJson]

/-- **Induction on values as nodes**: a property holds of a value when it holds of all the entries
of its children. -/
theorem induct_ofJson {motive : Json → Prop}
    (step : ∀ j, (∀ e ∈ entriesOf j, motive e) → motive j) (j : Json) : motive j := by
  suffices h : ∀ (n : Node) (j : Json), n = ofJson j → motive j from h _ j rfl
  intro n
  induction n with
  | step source entries ih =>
    intro j hj
    rw [ofJson_eq] at hj
    injection hj with _ hentries
    refine step j fun e he => ih (ofJson e) ?_ e rfl
    rw [hentries]
    exact List.mem_map_of_mem he

/-! ## The first node without a type -/

/-- The first of some nodes that has no type. -/
def firstUntyped? (nodes : List Json) : Option Json :=
  nodes.find? fun source => (typeOf? source).isNone

/-- The types of some nodes up to the first that has none. -/
def typesUntilUntyped (nodes : List Json) : List String :=
  (nodes.takeWhile fun source => (typeOf? source).isSome).filterMap typeOf?

theorem firstUntyped?_eq_none_iff {nodes : List Json} :
    firstUntyped? nodes = none ↔ ∀ source ∈ nodes, (typeOf? source).isSome := by
  simp [firstUntyped?, List.find?_eq_none, Option.isSome_iff_ne_none]

/-- Every node that can be reached from a value has a type. -/
def Typed (j : Json) : Prop := firstUntyped? (ofJson j).reachable = none

theorem typed_iff {j : Json} :
    Typed j ↔ (typeOf? j).isSome ∧ ∀ entry ∈ entriesOf j, entry.isObject → Typed entry := by
  simp only [Typed, firstUntyped?_eq_none_iff]
  rw [reachable_ofJson, List.forall_mem_cons]
  apply and_congr_right
  intro _
  constructor
  · intro h entry he hobject source hsource
    exact h source (List.mem_flatMap.mpr ⟨entry, List.mem_filter.mpr ⟨he, hobject⟩, hsource⟩)
  · intro h source hsource
    obtain ⟨entry, he, hsource⟩ := List.mem_flatMap.mp hsource
    obtain ⟨he, hobject⟩ := List.mem_filter.mp he
    exact h entry he hobject source hsource

theorem firstUntyped?_append (first second : List Json) :
    firstUntyped? (first ++ second) = (firstUntyped? first).or (firstUntyped? second) :=
  List.find?_append

theorem typesUntilUntyped_append (first second : List Json) :
    typesUntilUntyped (first ++ second) =
      typesUntilUntyped first ++
        if firstUntyped? first = none then typesUntilUntyped second else [] := by
  induction first with
  | nil => rfl
  | cons source rest ih =>
    cases htype : typeOf? source with
    | none => simp [typesUntilUntyped, firstUntyped?, htype]
    | some type =>
      have hfind : firstUntyped? (source :: rest) = firstUntyped? rest := by
        simp [firstUntyped?, htype]
      rw [hfind]
      simp only [typesUntilUntyped, List.cons_append, List.takeWhile_cons, htype,
        Option.isSome_some, if_true, List.filterMap_cons] at ih ⊢
      rw [ih]

end ViewTree.Node
