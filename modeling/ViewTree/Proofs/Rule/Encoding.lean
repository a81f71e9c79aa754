import Mathlib.Data.List.Forall2
import ViewTree.Factory.Basic
import ViewTree.Proofs.Rule.Renaming

/-!
# Which rules can be written down

> A rule can be written down exactly when it is **wide**: when each of its conjunctions and
> disjunctions has at least two operands.

A rule over evaluators has no text, since an evaluator has none. What is written down is a rule over
*names*, and `Names` says which rule it stands for where there is a table of evaluators: the same
formula, each name replaced by what stands under it. Two names may stand for one evaluator, so a
rule can have several namings. They have the same shape, and that is all that matters here.

The reader makes nothing but wide rules, because it counts operands, and it makes all of them. The
second half is the round trip: `Encodes` lists the ways to write a rule over names, of which there
are several, since the operand of a negation may stand bare or in an array of its own, and reading
any of them gives back the rule. There is no converse to it. A specification can have parts that
are no rules, of which the rule keeps nothing, so what is left in the other direction is that the
names in the rule are *some* of the strings in the specification, in their order.
-/

set_option autoImplicit false

namespace ViewTree

variable {σ N α β γ : Type}

namespace Rule

/-! ## Wide rules -/

mutual

/-- Every conjunction and every disjunction has at least two operands. -/
def Wide : Rule α → Prop
  | .simple _ => True
  | .and operands => 2 ≤ operands.length ∧ WideAll operands
  | .or operands => 2 ≤ operands.length ∧ WideAll operands
  | .not operand => Wide operand

/-- All of several rules are wide. -/
def WideAll : List (Rule α) → Prop
  | [] => True
  | rule :: rest => Wide rule ∧ WideAll rest

end

theorem wideAll_iff {rules : List (Rule α)} : WideAll rules ↔ ∀ rule ∈ rules, rule.Wide := by
  induction rules with
  | nil => simp [WideAll]
  | cons rule rest ih => rw [WideAll, ih, List.forall_mem_cons]

mutual

/-- Being wide is a matter of shape. -/
theorem wide_map (f : α → β) (rule : Rule α) : (rule.map f).Wide ↔ rule.Wide := by
  match rule with
  | .simple leaf => rfl
  | .and operands =>
    rw [map, Wide, Wide, wideAll_mapAll f operands, mapAll_eq, List.length_map]
  | .or operands =>
    rw [map, Wide, Wide, wideAll_mapAll f operands, mapAll_eq, List.length_map]
  | .not operand => exact wide_map f operand

theorem wideAll_mapAll (f : α → β) (rules : List (Rule α)) :
    WideAll (mapAll f rules) ↔ WideAll rules := by
  match rules with
  | [] => rfl
  | rule :: rest => rw [mapAll, WideAll, WideAll, wide_map f rule, wideAll_mapAll f rest]

end

/-- An operator makes a wide rule of wide operands. -/
theorem wide_combine {op : Operator} {operands : List (Rule α)} {rule : Rule α}
    (h : ∀ operand ∈ operands, operand.Wide) (hrule : (op.combine operands).value = some rule) :
    rule.Wide := by
  unfold Operator.combine at hrule
  split at hrule
  · obtain rfl := Option.some.inj hrule
    exact ⟨by simp, wideAll_iff.mpr h⟩
  · obtain rfl := Option.some.inj hrule
    exact ⟨by simp, wideAll_iff.mpr h⟩
  · obtain rfl := Option.some.inj hrule
    rw [Wide]
    exact h _ (List.mem_singleton_self _)
  · exact absurd hrule (by simp)

/-- **The reader makes nothing but wide rules.** -/
theorem wide_of_ofSpec? {leaf? : String → Option α} {spec : Json} {rule : Rule α}
    (h : (ofSpec? leaf? spec).value = some rule) : rule.Wide := by
  refine ofSpec?_induct (motive := fun _ rule => rule.Wide) ?_ ?_ h
  · intro text leaf _
    trivial
  · intro key op operand rule _ hrule ih
    refine wide_combine (fun below hbelow => ?_) hrule
    obtain ⟨spec, hspec, hvalue⟩ := List.mem_filterMap.mp hbelow
    exact ih spec hspec below hvalue

/-! ## Names -/

mutual

/-- Replacing leaves depends on what is put for the leaves there are. -/
theorem map_congr {f g : α → β} (rule : Rule α) (h : ∀ leaf ∈ rule.leaves, f leaf = g leaf) :
    rule.map f = rule.map g := by
  match rule with
  | .simple leaf => rw [map, map, h leaf (List.mem_singleton_self leaf)]
  | .and operands => rw [map, map, mapAll_congr operands h]
  | .or operands => rw [map, map, mapAll_congr operands h]
  | .not operand => rw [map, map, map_congr operand h]

theorem mapAll_congr {f g : α → β} (rules : List (Rule α))
    (h : ∀ leaf ∈ leavesAll rules, f leaf = g leaf) : mapAll f rules = mapAll g rules := by
  match rules with
  | [] => rfl
  | rule :: rest =>
    rw [leavesAll] at h
    rw [mapAll, mapAll, map_congr rule fun leaf hleaf => h leaf (List.mem_append_left _ hleaf),
      mapAll_congr rest fun leaf hleaf => h leaf (List.mem_append_right _ hleaf)]

end

/-- **A rule over names stands for a rule**: the same formula, with what a table has under a name in
the place of each name. -/
def Names (leaf? : String → Option α) (named : Rule String) (rule : Rule α) : Prop :=
  named.map leaf? = rule.map some

variable {leaf? : String → Option α} {named : Rule String} {rule : Rule α}

namespace Names

theorem wide_iff (h : Names leaf? named rule) : named.Wide ↔ rule.Wide := by
  rw [← wide_map leaf? named, ← wide_map some rule, show named.map leaf? = rule.map some from h]

theorem leaves_eq (h : Names leaf? named rule) :
    named.leaves.map leaf? = rule.leaves.map some := by
  rw [← leaves_map, ← leaves_map, show named.map leaf? = rule.map some from h]

theorem exists_leaf {text : String} (h : Names leaf? (.simple text) rule) :
    ∃ leaf, leaf? text = some leaf ∧ rule = .simple leaf := by
  cases rule with
  | simple leaf => exact ⟨leaf, Rule.simple.inj h, rfl⟩
  | _ => exact absurd h (by simp [Names, map])

theorem exists_and {below : List (Rule String)} (h : Names leaf? (.and below) rule) :
    ∃ operands, rule = .and operands ∧ mapAll leaf? below = mapAll some operands := by
  cases rule with
  | and operands => exact ⟨operands, rfl, Rule.and.inj h⟩
  | _ => exact absurd h (by simp [Names, map])

theorem exists_or {below : List (Rule String)} (h : Names leaf? (.or below) rule) :
    ∃ operands, rule = .or operands ∧ mapAll leaf? below = mapAll some operands := by
  cases rule with
  | or operands => exact ⟨operands, rfl, Rule.or.inj h⟩
  | _ => exact absurd h (by simp [Names, map])

theorem exists_not {below : Rule String} (h : Names leaf? (.not below) rule) :
    ∃ operand, rule = .not operand ∧ Names leaf? below operand := by
  cases rule with
  | not operand => exact ⟨operand, rfl, Rule.not.inj h⟩
  | _ => exact absurd h (by simp [Names, map])

end Names

/-! ## The names in a rule that was read -/

/-- What is left of the strings in specifications when each rule among them keeps some of its own.
-/
theorem leaves_filterMap_sublist {nameOf : α → String} {specs : List Json}
    (h : ∀ spec ∈ specs, ∀ rule, (ofSpec? leaf? spec).value = some rule →
      (rule.leaves.map nameOf).Sublist spec.strings) :
    (((specs.filterMap fun spec => (ofSpec? leaf? spec).value).flatMap leaves).map nameOf).Sublist
      (Json.stringsAll specs) := by
  induction specs with
  | nil => exact .slnil
  | cons spec rest ih =>
    have hrest := ih fun spec hspec => h spec (List.mem_cons_of_mem _ hspec)
    rw [Json.stringsAll, List.filterMap_cons]
    cases hvalue : (ofSpec? leaf? spec).value with
    | none => exact hrest.trans (List.sublist_append_right _ _)
    | some rule =>
      rw [List.flatMap_cons, List.map_append]
      exact (h spec List.mem_cons_self rule hvalue).append hrest

/-- Where leaves know their names, these are some of the strings in the specification. -/
theorem leaves_sublist {nameOf : α → String}
    (hname : ∀ text leaf, leaf? text = some leaf → nameOf leaf = text) {spec : Json}
    (h : (ofSpec? leaf? spec).value = some rule) :
    (rule.leaves.map nameOf).Sublist spec.strings := by
  refine ofSpec?_induct (motive := fun spec rule =>
    (rule.leaves.map nameOf).Sublist spec.strings) ?_ ?_ h
  · intro text leaf hleaf
    rw [leaves, List.map_singleton, hname text leaf hleaf, Json.strings]
  · intro key op operand rule _ hrule ih
    rw [leaves_combine hrule, Json.strings, Json.stringsFields, Json.stringsFields,
      List.append_nil, ← stringsAll_operandsOf]
    exact leaves_filterMap_sublist ih

theorem leaf?_of_mem_leaves {spec : Json} (h : (ofSpec? leaf? spec).value = some rule) :
    ∀ leaf ∈ rule.leaves, ∃ text, leaf? text = some leaf := by
  refine ofSpec?_induct (motive := fun _ rule => ∀ leaf ∈ rule.leaves, ∃ text,
    leaf? text = some leaf) ?_ ?_ h
  · intro text leaf hleaf other hother
    obtain rfl := List.mem_singleton.mp hother
    exact ⟨text, hleaf⟩
  · intro key op operand rule _ hrule ih leaf hleaf
    rw [leaves_combine hrule] at hleaf
    obtain ⟨below, hbelow, hleaf⟩ := List.mem_flatMap.mp hleaf
    obtain ⟨spec, hspec, hvalue⟩ := List.mem_filterMap.mp hbelow
    exact ih spec hspec below hvalue leaf hleaf

/-- **What was read has a naming** by some of the strings in the specification, in their order. -/
theorem exists_names {spec : Json} (h : (ofSpec? leaf? spec).value = some rule) :
    ∃ named, Names leaf? named rule ∧ named.leaves.Sublist spec.strings := by
  -- Read again, against a table that keeps each name beside what it stands for.
  let table : String → Option (String × α) := fun name => (leaf? name).map fun leaf => (name, leaf)
  have htable : ∀ name entry, table name = some entry →
      entry.1 = name ∧ leaf? name = some entry.2 := by
    intro name entry hentry
    obtain ⟨leaf, hleaf, rfl⟩ := Option.map_eq_some_iff.mp hentry
    exact ⟨rfl, hleaf⟩
  have hleaf? : leaf? = fun name => (table name).map Prod.snd := by
    funext name
    show leaf? name = ((leaf? name).map fun leaf => (name, leaf)).map Prod.snd
    cases leaf? name <;> rfl
  rw [hleaf?, ofSpec?_map, Logged.value_map, Option.map_eq_some_iff] at h
  obtain ⟨paired, hpaired, rfl⟩ := h
  refine ⟨paired.map Prod.fst, ?_, ?_⟩
  · rw [Names, map_map, map_map]
    refine map_congr paired fun entry hentry => ?_
    obtain ⟨name, hname⟩ := leaf?_of_mem_leaves hpaired entry hentry
    obtain ⟨rfl, hvalue⟩ := htable name entry hname
    exact hvalue
  · rw [leaves_map]
    exact leaves_sublist (fun name entry hentry => (htable name entry hentry).1) hpaired

/-! ## Writing rules down -/

/-- **The ways to write down a rule over names.** -/
inductive Encodes : Rule String → Json → Prop
  | name (text : String) : Encodes (.simple text) (.str text)
  | and {operands : List (Rule String)} {specs : List Json}
      (each : List.Forall₂ Encodes operands specs) :
      Encodes (.and operands) (.obj [(Operator.and.key, .arr specs)])
  | or {operands : List (Rule String)} {specs : List Json}
      (each : List.Forall₂ Encodes operands specs) :
      Encodes (.or operands) (.obj [(Operator.or.key, .arr specs)])
  /-- The operand of a negation, bare. -/
  | not {operand : Rule String} {spec : Json} (inside : Encodes operand spec) :
      Encodes (.not operand) (.obj [(Operator.not.key, spec)])
  /-- The operand of a negation, in an array. -/
  | notListed {operand : Rule String} {spec : Json} (inside : Encodes operand spec) :
      Encodes (.not operand) (.obj [(Operator.not.key, .arr [spec])])

mutual

/-- A rule over names written down, with the operands of negations bare. -/
def encode : Rule String → Json
  | .simple text => .str text
  | .and operands => .obj [(Operator.and.key, .arr (encodeAll operands))]
  | .or operands => .obj [(Operator.or.key, .arr (encodeAll operands))]
  | .not operand => .obj [(Operator.not.key, encode operand)]

/-- Several rules over names written down. -/
def encodeAll : List (Rule String) → List Json
  | [] => []
  | rule :: rest => encode rule :: encodeAll rest

end

mutual

theorem encodes_encode (named : Rule String) : named.Encodes named.encode := by
  match named with
  | .simple text => exact .name text
  | .and operands => exact .and (encodes_encodeAll operands)
  | .or operands => exact .or (encodes_encodeAll operands)
  | .not operand => exact .not (encodes_encode operand)

theorem encodes_encodeAll (nameds : List (Rule String)) :
    List.Forall₂ Encodes nameds (encodeAll nameds) := by
  match nameds with
  | [] => exact .nil
  | named :: rest => exact .cons (encodes_encode named) (encodes_encodeAll rest)

end

/-- A rule is never written as an array, so written bare it is the one operand that it is. -/
theorem Encodes.operandsOf_eq {spec : Json} (h : named.Encodes spec) :
    operandsOf spec = [spec] := by
  cases h <;> rfl

theorem value_ofSpec?_operator (op : Operator) (leaf? : String → Option α) (operand : Json) :
    (ofSpec? leaf? (.obj [(op.key, operand)])).value =
      (op.combine (ofSpecs leaf? (operandsOf operand)).value).value := by
  rw [ofSpec?_operator (Operator.ofKey?_eq_some_iff.mpr rfl), Logged.value_bind]

/-- Two operands are enough for a conjunction and for a disjunction. -/
theorem value_combine_of_le {operands : List (Rule α)} (h : 2 ≤ operands.length) :
    (Operator.and.combine operands).value = some (.and operands) ∧
      (Operator.or.combine operands).value = some (.or operands) := by
  rcases operands with _ | ⟨first, _ | ⟨second, rest⟩⟩
  · exact absurd h (by simp)
  · exact absurd h (by simp)
  · exact ⟨rfl, rfl⟩

mutual

/-- **What is written down is read back.** -/
theorem value_ofSpec?_of_encodes (named : Rule String) {rule : Rule α} (hwide : rule.Wide)
    (hnames : Names leaf? named rule) {spec : Json} (h : named.Encodes spec) :
    (ofSpec? leaf? spec).value = some rule := by
  match named, h with
  | .simple text, .name _ =>
    obtain ⟨leaf, hleaf, rfl⟩ := hnames.exists_leaf
    rw [ofSpec?, hleaf]
    rfl
  | .and below, .and each =>
    obtain ⟨operands, rfl, hbelow⟩ := hnames.exists_and
    rw [value_ofSpec?_operator, operandsOf, value_ofSpecs_of_encodes below hwide.2 hbelow each]
    exact (value_combine_of_le hwide.1).1
  | .or below, .or each =>
    obtain ⟨operands, rfl, hbelow⟩ := hnames.exists_or
    rw [value_ofSpec?_operator, operandsOf, value_ofSpecs_of_encodes below hwide.2 hbelow each]
    exact (value_combine_of_le hwide.1).2
  | .not below, .not inside =>
    obtain ⟨operand, rfl, hbelow⟩ := hnames.exists_not
    have hoperand : operand.Wide := hwide
    have hread := value_ofSpec?_of_encodes below hoperand hbelow inside
    rw [value_ofSpec?_operator, inside.operandsOf_eq, value_ofSpecs, List.filterMap_cons, hread]
    rfl
  | .not below, .notListed inside =>
    obtain ⟨operand, rfl, hbelow⟩ := hnames.exists_not
    have hoperand : operand.Wide := hwide
    have hread := value_ofSpec?_of_encodes below hoperand hbelow inside
    rw [value_ofSpec?_operator, operandsOf, value_ofSpecs, List.filterMap_cons, hread]
    rfl

theorem value_ofSpecs_of_encodes (nameds : List (Rule String)) {rules : List (Rule α)}
    (hwide : WideAll rules) (hnames : mapAll leaf? nameds = mapAll some rules) {specs : List Json}
    (h : List.Forall₂ Encodes nameds specs) : (ofSpecs leaf? specs).value = rules := by
  match nameds, rules, h with
  | [], [], .nil => rfl
  | [], _ :: _, _ => exact absurd hnames (by simp [mapAll])
  | _ :: _, [], _ => exact absurd hnames (by simp [mapAll])
  | named :: nameds, rule :: rules, .cons hfirst hrest =>
    obtain ⟨hnamed, hnameds⟩ := List.cons.inj hnames
    rw [ofSpecs, Logged.value_bind, Logged.value_bind, Logged.value_pure,
      value_ofSpec?_of_encodes named hwide.1 hnamed hfirst,
      value_ofSpecs_of_encodes nameds hwide.2 hnameds hrest]
    rfl

end

end Rule

namespace Factory

open Rule (Names)

/-- A rule over registered names stands for a rule over their evaluators. -/
theorem exists_rule_of_names (f : Factory σ N) {named : Rule String}
    (h : ∀ name ∈ named.leaves, f.containsRule name = true) :
    ∃ rule, Names f.rules.get? named rule := by
  refine ⟨named.map fun name => (f.rules.get? name).getD (pure false), ?_⟩
  rw [Names, Rule.map_map]
  refine Rule.map_congr named fun name hname => ?_
  obtain ⟨evaluator, hevaluator⟩ := Option.isSome_iff_exists.mp (h name hname)
  rw [Function.comp_apply, hevaluator, Option.getD_some]

/-- **The rule language has exactly the wide rules.** A rule that is read is wide, its leaves are
registered under strings of the specification, and the names of the leaves are some of these strings
in their order. Conversely each wide rule over registered names can be written down, and however it
is, it is what is read. So writing down a rule that was read and reading it again changes nothing,
whichever names its evaluators are given. -/
theorem rules_read_are_the_wide_ones (f : Factory σ N) :
    (∀ spec rule, (f.parseRule spec).value = some rule →
      rule.Wide ∧
      (∀ leaf ∈ rule.leaves, ∃ name ∈ spec.strings, f.rules.get? name = some leaf) ∧
      ∃ named, Names f.rules.get? named rule ∧ named.leaves.Sublist spec.strings) ∧
    (∀ named : Rule String, named.Wide → (∀ name ∈ named.leaves, f.containsRule name = true) →
      (∃ spec, named.Encodes spec) ∧
      ∃ rule, Names f.rules.get? named rule ∧
        ∀ spec, named.Encodes spec → (f.parseRule spec).value = some rule) ∧
    (∀ spec rule, (f.parseRule spec).value = some rule →
      ∀ named, Names f.rules.get? named rule →
        ∀ again, named.Encodes again → (f.parseRule again).value = some rule) := by
  refine ⟨fun spec rule h => ?_, fun named hwide hregistered => ?_, ?_⟩
  · obtain ⟨named, hnames, hsublist⟩ := Rule.exists_names h
    refine ⟨Rule.wide_of_ofSpec? h, fun leaf hleaf => ?_, named, hnames, hsublist⟩
    have hmem : some leaf ∈ named.leaves.map f.rules.get? := by
      rw [hnames.leaves_eq]
      exact List.mem_map_of_mem hleaf
    obtain ⟨name, hname, hvalue⟩ := List.mem_map.mp hmem
    exact ⟨name, hsublist.subset hname, hvalue⟩
  · obtain ⟨rule, hnames⟩ := f.exists_rule_of_names hregistered
    refine ⟨⟨named.encode, named.encodes_encode⟩, rule, hnames, fun spec hspec => ?_⟩
    exact Rule.value_ofSpec?_of_encodes named (hnames.wide_iff.mp hwide) hnames hspec
  · intro spec rule h named hnames again hagain
    exact Rule.value_ofSpec?_of_encodes named (Rule.wide_of_ofSpec? h) hnames hagain

/-- A host with two evaluators. -/
def twoRules : Factory Unit Unit where
  singles := .empty
  wrappers := .empty
  clusters := .empty
  rules := (Dictionary.empty.insert "admin" (pure true)).insert "trial" (pure false)

/-- A specification with parts that are no rules. -/
def untidySpec : Json :=
  .obj [("AND", .arr [.num (.integer (.ofUInt64 7)), .str "admin",
    .obj [("NOT", .arr [.str "unknown", .str "trial"])], .str "other"])]

/-- What it says. -/
def untidyNames : Rule String := .and [.simple "admin", .not (.simple "trial")]

theorem rules_read_are_the_wide_ones_untidy :
    ∃ rule, (twoRules.parseRule untidySpec).value = some rule ∧ rule.Wide ∧
      (∃ named, Names twoRules.rules.get? named rule ∧
        named.leaves.Sublist ["admin", "unknown", "trial", "other"]) ∧
      (twoRules.parseRule untidyNames.encode).value = some rule ∧
      ∃ rule', Names twoRules.rules.get? untidyNames rule' ∧
        (twoRules.parseRule (.obj [("AND", .arr [.str "admin",
          .obj [("NOT", .arr [.str "trial"])]])])).value = some rule' := by
  obtain ⟨hread, hwritten, hagain⟩ := rules_read_are_the_wide_ones twoRules
  have hspec : (twoRules.parseRule untidySpec).value =
      some (.and [.simple (pure true), .not (.simple (pure false))]) := by rfl
  obtain ⟨hwide, -, hnames⟩ := hread untidySpec _ hspec
  obtain ⟨-, rule', hnames', hencodes⟩ :=
    hwritten untidyNames ⟨by decide, trivial, trivial, trivial⟩ (by decide +kernel)
  have hnot : (Rule.not (.simple "trial")).Encodes (.obj [("NOT", .arr [.str "trial"])]) :=
    .notListed (.name "trial")
  exact ⟨_, hspec, hwide, hnames,
    hagain untidySpec _ hspec untidyNames rfl _ untidyNames.encodes_encode,
    rule', hnames', hencodes _ (.and (.cons (.name "admin") (.cons hnot .nil)))⟩

end Factory

end ViewTree
