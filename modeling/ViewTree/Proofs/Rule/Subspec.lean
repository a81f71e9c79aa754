import ViewTree.Proofs.Compile.Run

/-!
# The parts of a rule specification

A specification is read part by part: itself, and below an operator each of its operands. What is
said of the reader goes by three cases (`spec_cases`) — a name, an operator over operands, and an
**alien**, which is of no shape that rules have and is dropped without being looked into. An operand
stands in an array or bare; `operandsOf` is where that stops to matter.

## Failures are counted

`length_events` is the book-keeping of the reader: it tells one event for each part that is no rule,
neither more nor less. Two things could break it. An operator could be told of twice, once for its
operand and once for itself, and is: but then both parts are no rules. And an operand could be
dropped while the operator above still is a rule, with enough operands left; then there is an event
for the operand only. So a reader who is told nothing knows that *all* parts are rules, and not just
that the specification is one.
-/

set_option autoImplicit false

namespace ViewTree

variable {α : Type}

/-! ## Strings -/

mutual

/-- The strings in a value, without the keys of objects, in the order of the text. -/
def Json.strings : Json → List String
  | .str text => [text]
  | .arr items => stringsAll items
  | .obj fields => stringsFields fields
  | _ => []

/-- The strings in several values. -/
def Json.stringsAll : List Json → List String
  | [] => []
  | item :: rest => strings item ++ stringsAll rest

/-- The strings in the values of fields. -/
def Json.stringsFields : List (String × Json) → List String
  | [] => []
  | (_, value) :: rest => strings value ++ stringsFields rest

end

namespace Rule

/-! ## Operands -/

/-- The operands under an operator: those in an array, or the only one. -/
def operandsOf : Json → List Json
  | .arr specs => specs
  | spec => [spec]

theorem stringsAll_operandsOf (operand : Json) :
    Json.stringsAll (operandsOf operand) = operand.strings := by
  cases operand with
  | arr specs => rw [operandsOf, Json.strings]
  | _ => exact List.append_nil _

theorem sizeOf_lt_of_mem_operandsOf {key : String} {operand spec : Json}
    (h : spec ∈ operandsOf operand) : sizeOf spec < sizeOf (Json.obj [(key, operand)]) := by
  have hoperand : sizeOf operand < sizeOf (Json.obj [(key, operand)]) := by
    simp only [Json.obj.sizeOf_spec, List.cons.sizeOf_spec, Prod.mk.sizeOf_spec]
    omega
  cases operand with
  | arr specs =>
    have hlt := List.sizeOf_lt_of_mem (show spec ∈ specs from h)
    rw [Json.arr.sizeOf_spec] at hoperand
    omega
  | _ =>
    rw [List.mem_singleton.mp h]
    exact hoperand

theorem ofSpec?_operator {key : String} {op : Operator} (hop : Operator.ofKey? key = some op)
    (leaf? : String → Option α) (operand : Json) :
    ofSpec? leaf? (.obj [(key, operand)]) = (do
      let operands ← ofSpecs leaf? (operandsOf operand)
      op.combine operands) := by
  rw [ofSpec?, hop]
  cases operand with
  | arr specs => rfl
  | _ => simp only [operandsOf, ofSpecs, bind_assoc, pure_bind, List.append_nil]

/-! ## The parts -/

mutual

/-- A specification and all parts of it that the reader visits, in the order of the text. -/
def parts : Json → List Json
  | .obj [(key, operand)] =>
    .obj [(key, operand)] ::
      match Operator.ofKey? key with
      | some _ =>
        match operand with
        | .arr specs => partsAll specs
        | spec => parts spec
      | none => []
  | spec => [spec]

/-- The parts of several specifications. -/
def partsAll : List Json → List Json
  | [] => []
  | spec :: rest => parts spec ++ partsAll rest

end

theorem partsAll_eq (specs : List Json) : partsAll specs = specs.flatMap parts := by
  induction specs with
  | nil => rfl
  | cons spec rest ih => rw [partsAll, ih, List.flatMap_cons]

theorem parts_operator {key : String} {op : Operator} (hop : Operator.ofKey? key = some op)
    (operand : Json) :
    parts (.obj [(key, operand)]) =
      .obj [(key, operand)] :: (operandsOf operand).flatMap parts := by
  cases operand with
  | arr specs => simp [parts, hop, operandsOf, partsAll_eq]
  | _ => simp [parts, hop, operandsOf]

/-! ## The three cases -/

/-- A value of a shape that no rule has: it is the only part of itself, and dropped with one event
whatever the names stand for. -/
structure Alien (spec : Json) : Prop where
  alone : parts spec = [spec]
  dropped : ∃ e : Event, e.level = .debug ∧ ∀ {α : Type} (leaf? : String → Option α),
    ofSpec? leaf? spec = do
      Logged.tell e
      pure none

theorem spec_cases (spec : Json) :
    (∃ name, spec = .str name) ∨
      (∃ key op operand, Operator.ofKey? key = some op ∧ spec = .obj [(key, operand)]) ∨
      Alien spec := by
  cases spec with
  | str name => exact .inl ⟨name, rfl⟩
  | obj fields =>
    rcases fields with _ | ⟨⟨key, operand⟩, _ | ⟨second, rest⟩⟩
    · exact .inr (.inr ⟨rfl, _, rfl, fun _ => rfl⟩)
    · cases hop : Operator.ofKey? key with
      | some op => exact .inr (.inl ⟨key, op, operand, hop, rfl⟩)
      | none =>
        refine .inr (.inr ⟨?_, .unknownOperator key, rfl, fun leaf? => ?_⟩)
        · cases operand <;> simp [parts, hop]
        · rw [ofSpec?, hop]
    · refine .inr (.inr ⟨?_, .keyCount (rest.length + 2), rfl, fun leaf? => ?_⟩)
      · simp [parts]
      · simp [ofSpec?]
  | _ => exact .inr (.inr ⟨rfl, _, rfl, fun _ => rfl⟩)

/-- **Induction on specifications**, with one case for each way in which the reader takes one. -/
theorem spec_induct {motive : Json → Prop} (name : ∀ name, motive (.str name))
    (operator : ∀ key op operand, Operator.ofKey? key = some op →
      (∀ spec ∈ operandsOf operand, motive spec) → motive (.obj [(key, operand)]))
    (alien : ∀ spec, Alien spec → motive spec) (spec : Json) : motive spec := by
  rcases spec_cases spec with ⟨text, rfl⟩ | ⟨key, op, operand, hop, hspec⟩ | halien
  · exact name text
  · rw [hspec]
    refine operator key op operand hop fun below hbelow => ?_
    have hlt : sizeOf below < sizeOf spec := hspec ▸ sizeOf_lt_of_mem_operandsOf hbelow
    exact spec_induct name operator alien below
  · exact alien spec halien
termination_by sizeOf spec

/-! ## Parsing -/

/-- Whether a specification is a rule. -/
def parses (leaf? : String → Option α) (spec : Json) : Bool := (ofSpec? leaf? spec).value.isSome

theorem Alien.parses_eq_false {spec : Json} (h : Alien spec) (leaf? : String → Option α) :
    parses leaf? spec = false := by
  obtain ⟨e, -, hdropped⟩ := h.dropped
  rw [parses, hdropped leaf?]
  rfl

theorem value_ofSpecs (leaf? : String → Option α) (specs : List Json) :
    (ofSpecs leaf? specs).value = specs.filterMap fun spec => (ofSpec? leaf? spec).value := by
  induction specs with
  | nil => rfl
  | cons spec rest ih =>
    simp only [ofSpecs, Logged.value_bind, Logged.value_pure, ih, List.filterMap_cons]
    cases (ofSpec? leaf? spec).value <;> rfl

/-- **Induction on the rules that specifications are.** An operator is made of the operands that are
rules, and those that are none do not come up. -/
theorem ofSpec?_induct {leaf? : String → Option α} {motive : Json → Rule α → Prop}
    (name : ∀ text leaf, leaf? text = some leaf → motive (.str text) (.simple leaf))
    (operator : ∀ key op operand rule, Operator.ofKey? key = some op →
      (op.combine ((operandsOf operand).filterMap fun spec => (ofSpec? leaf? spec).value)).value =
        some rule →
      (∀ spec ∈ operandsOf operand, ∀ below, (ofSpec? leaf? spec).value = some below →
        motive spec below) →
      motive (.obj [(key, operand)]) rule)
    {spec : Json} {rule : Rule α} (h : (ofSpec? leaf? spec).value = some rule) :
    motive spec rule := by
  induction spec using spec_induct generalizing rule with
  | name text =>
    rw [ofSpec?] at h
    cases hleaf : leaf? text with
    | none =>
      rw [hleaf] at h
      exact absurd h (by simp)
    | some leaf =>
      rw [hleaf] at h
      obtain rfl := Option.some.inj h
      exact name text leaf hleaf
  | operator key op operand hop ih =>
    rw [ofSpec?_operator hop, Logged.value_bind, value_ofSpecs] at h
    exact operator key op operand rule hop h fun spec hspec below => ih spec hspec
  | alien spec halien =>
    have hnone := halien.parses_eq_false leaf?
    rw [parses, h] at hnone
    exact absurd hnone (by simp)

theorem events_ofSpecs (leaf? : String → Option α) (specs : List Json) :
    (ofSpecs leaf? specs).events = specs.flatMap fun spec => (ofSpec? leaf? spec).events := by
  induction specs with
  | nil => rfl
  | cons spec rest ih =>
    simp only [ofSpecs, Logged.events_bind, Logged.events_pure, ih, List.flatMap_cons,
      List.append_nil]

end Rule

/-- An operator tells one event when it takes no rule from its operands, and none when it does. -/
theorem Operator.length_events_combine (op : Operator) (operands : List (Rule α)) :
    (op.combine operands).events.length = if (op.combine operands).value.isSome then 0 else 1 := by
  unfold combine
  split <;> rfl

namespace Rule

/-- The parts of a specification that are no rules. -/
def failures (leaf? : String → Option α) (spec : Json) : List Json :=
  (parts spec).filter fun part => !parses leaf? part

/-- **The reader tells one event for each part that is no rule.** -/
theorem length_events (leaf? : String → Option α) (spec : Json) :
    (ofSpec? leaf? spec).events.length = (failures leaf? spec).length := by
  induction spec using spec_induct with
  | name text =>
    have halone : parts (.str text) = [.str text] := rfl
    rw [failures, halone, List.filter_cons, parses, ofSpec?]
    cases leaf? text <;> rfl
  | alien spec halien =>
    rw [failures, halien.alone, List.filter_cons, halien.parses_eq_false]
    obtain ⟨e, -, hdropped⟩ := halien.dropped
    rw [hdropped leaf?]
    rfl
  | operator key op operand hop ih =>
    have hbelow : ((operandsOf operand).flatMap fun spec => (ofSpec? leaf? spec).events).length =
        (((operandsOf operand).flatMap parts).filter fun part => !parses leaf? part).length := by
      rw [List.length_flatMap, List.filter_flatMap, List.length_flatMap]
      exact congrArg List.sum (List.map_congr_left ih)
    rw [failures, parts_operator hop, List.filter_cons]
    -- On top of its operands, the operator is told of exactly when it is no rule itself.
    have hvalue : parses leaf? (.obj [(key, operand)]) =
        (op.combine (ofSpecs leaf? (operandsOf operand)).value).value.isSome := by
      rw [parses, ofSpec?_operator hop]
      rfl
    rw [hvalue, ofSpec?_operator hop, Logged.events_bind, List.length_append, events_ofSpecs,
      hbelow, op.length_events_combine]
    cases (op.combine (ofSpecs leaf? (operandsOf operand)).value).value.isSome <;> simp

/-- The reader is silent when all parts are rules. -/
theorem events_eq_nil_iff {leaf? : String → Option α} {spec : Json} :
    (ofSpec? leaf? spec).events = [] ↔ ∀ part ∈ parts spec, parses leaf? part := by
  rw [← List.length_eq_zero_iff, length_events, List.length_eq_zero_iff, failures,
    List.filter_eq_nil_iff]
  simp

theorem mem_parts_self (spec : Json) : spec ∈ parts spec := by
  rcases spec_cases spec with ⟨text, rfl⟩ | ⟨key, op, operand, hop, rfl⟩ | halien
  · exact List.mem_singleton_self _
  · rw [parts_operator hop]
    exact List.mem_cons_self
  · rw [halien.alone]
    exact List.mem_singleton_self _

/-! ## Leaves -/

theorem leavesAll_eq (rules : List (Rule α)) : leavesAll rules = rules.flatMap leaves := by
  induction rules with
  | nil => rfl
  | cons rule rest ih => rw [leavesAll, ih, List.flatMap_cons]

/-- A rule that an operator makes has the leaves of its operands. -/
theorem leaves_combine {op : Operator} {operands : List (Rule α)} {rule : Rule α}
    (h : (op.combine operands).value = some rule) : rule.leaves = operands.flatMap leaves := by
  unfold Operator.combine at h
  split at h
  · obtain rfl := Option.some.inj h
    exact leavesAll_eq _
  · obtain rfl := Option.some.inj h
    exact leavesAll_eq _
  · obtain rfl := Option.some.inj h
    exact (List.append_nil _).symm
  · exact absurd h (by simp)

theorem leaves_filterMap {leaf? : String → Option α} {specs : List Json}
    (h : ∀ spec ∈ specs, ∃ rule, (ofSpec? leaf? spec).value = some rule ∧
      rule.leaves.map some = spec.strings.map leaf?) :
    ((specs.filterMap fun spec => (ofSpec? leaf? spec).value).flatMap leaves).map some =
      (Json.stringsAll specs).map leaf? := by
  induction specs with
  | nil => rfl
  | cons spec rest ih =>
    obtain ⟨rule, hrule, hleaves⟩ := h spec List.mem_cons_self
    have hrest := ih fun spec hspec => h spec (List.mem_cons_of_mem _ hspec)
    simp only [List.filterMap_cons, hrule]
    rw [List.flatMap_cons, Json.stringsAll, List.map_append, List.map_append, hleaves, hrest]

/-- **Where all parts are rules, no string is lost**: the leaves are what the strings name, one for
each, in order. -/
theorem leaves_eq_of_parses {leaf? : String → Option α} {spec : Json}
    (hparts : ∀ part ∈ parts spec, parses leaf? part) :
    ∃ rule, (ofSpec? leaf? spec).value = some rule ∧
      rule.leaves.map some = spec.strings.map leaf? := by
  obtain ⟨rule, hrule⟩ := Option.isSome_iff_exists.mp (hparts spec (mem_parts_self spec))
  refine ⟨rule, hrule, ?_⟩
  revert hparts
  refine ofSpec?_induct (motive := fun spec rule => (∀ part ∈ parts spec, parses leaf? part) →
    rule.leaves.map some = spec.strings.map leaf?) ?_ ?_ hrule
  · intro text leaf hleaf _
    rw [leaves, Json.strings, List.map_singleton, List.map_singleton, hleaf]
  · intro key op operand rule hop hrule ih hparts
    rw [parts_operator hop] at hparts
    rw [leaves_combine hrule, leaves_filterMap, stringsAll_operandsOf, Json.strings,
      Json.stringsFields, Json.stringsFields, List.append_nil]
    intro spec hspec
    have hbelow : ∀ part ∈ parts spec, parses leaf? part := fun part hpart =>
      hparts part (List.mem_cons_of_mem _ (List.mem_flatMap.mpr ⟨spec, hspec, hpart⟩))
    obtain ⟨made, hmade⟩ := Option.isSome_iff_exists.mp (hbelow spec (mem_parts_self spec))
    exact ⟨made, hmade, ih spec hspec made hmade hbelow⟩

end Rule

end ViewTree
