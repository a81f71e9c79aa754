import Mathlib.Logic.Relation
import ViewTree.Factory.Basic
import ViewTree.Proofs.Compile.Failure

/-!
# Operands that are no rules

> An operand that is no rule might as well not be there.

An operator counts the operands that are rules, after those that are none have been passed over. So
taking one of the others out of its array, or putting one in, anywhere and at any depth, changes
neither whether the specification is a rule nor which. This is not obvious from the count alone:
what is taken out far below could turn an operand there into a rule, or a rule into none, and then
every operator above it would count differently. It does not, since the operands that an operator
gets are the *rules* of the specifications in its array (`value_single_congr`), and a step of
`Drops` leaves that list as it is, at the place where something is taken out and hence above it.

A specification from which nothing more can be taken out is **pruned**, and there is one to be had
from each specification by taking out alone.

What was passed over is told, though, and once each. The events of the reader are as many as the
parts that are no rules, so pruning is also what makes a specification quiet.
-/

set_option autoImplicit false

namespace ViewTree

variable {σ N α : Type}

namespace Rule

/-! ## Taking operands out -/

/-- **Takes an element that is no rule out of an array of operands**, here or in an operand. -/
inductive Drops (leaf? : String → Option α) : Json → Json → Prop
  | here {key : String} {before after : List Json} {spec : Json} :
      parses leaf? spec = false →
      Drops leaf? (.obj [(key, .arr (before ++ spec :: after))])
        (.obj [(key, .arr (before ++ after))])
  /-- In an operand among others. -/
  | listed {key : String} {before after : List Json} {spec spec' : Json} :
      Drops leaf? spec spec' →
      Drops leaf? (.obj [(key, .arr (before ++ spec :: after))])
        (.obj [(key, .arr (before ++ spec' :: after))])
  /-- In an operand that stands bare. -/
  | bare {key : String} {spec spec' : Json} :
      Drops leaf? spec spec' → Drops leaf? (.obj [(key, spec)]) (.obj [(key, spec')])

variable {leaf? : String → Option α}

/-- Only objects lose operands, and objects they stay, so either side is one operand. -/
theorem Drops.operandsOf_eq {spec spec' : Json} (h : Drops leaf? spec spec') :
    operandsOf spec = [spec] ∧ operandsOf spec' = [spec'] := by
  cases h <;> exact ⟨rfl, rfl⟩

/-- **What an operator makes depends on the rules among its operands.** Under any other key there is
nothing to depend on. -/
theorem value_single_congr {key : String} {operand operand' : Json}
    (h : ((operandsOf operand).filterMap fun spec => (ofSpec? leaf? spec).value) =
      (operandsOf operand').filterMap fun spec => (ofSpec? leaf? spec).value) :
    (ofSpec? leaf? (.obj [(key, operand)])).value =
      (ofSpec? leaf? (.obj [(key, operand')])).value := by
  cases hop : Operator.ofKey? key with
  | some op =>
    rw [ofSpec?_operator hop, ofSpec?_operator hop, Logged.value_bind, Logged.value_bind,
      value_ofSpecs, value_ofSpecs, h]
  | none =>
    rw [ofSpec?, ofSpec?, hop]

theorem value_eq_none_of_parses {spec : Json} (h : parses leaf? spec = false) :
    (ofSpec? leaf? spec).value = none := by
  rw [parses] at h
  simpa using h

/-- **Taking out an operand that is no rule changes nothing.** -/
theorem Drops.value_eq {spec spec' : Json} (h : Drops leaf? spec spec') :
    (ofSpec? leaf? spec).value = (ofSpec? leaf? spec').value := by
  induction h with
  | here hspec =>
    refine value_single_congr ?_
    rw [operandsOf, operandsOf, List.filterMap_append, List.filterMap_append, List.filterMap_cons,
      value_eq_none_of_parses hspec]
  | listed _ ih =>
    refine value_single_congr ?_
    rw [operandsOf, operandsOf, List.filterMap_append, List.filterMap_append, List.filterMap_cons,
      List.filterMap_cons, ih]
  | bare hdrops ih =>
    refine value_single_congr ?_
    rw [hdrops.operandsOf_eq.1, hdrops.operandsOf_eq.2, List.filterMap_cons, List.filterMap_cons,
      ih]

/-- Taking such operands out and putting them in changes nothing, in whatever order it is done. -/
theorem value_eq_of_eqvGen {spec spec' : Json} (h : Relation.EqvGen (Drops leaf?) spec spec') :
    (ofSpec? leaf? spec).value = (ofSpec? leaf? spec').value := by
  induction h with
  | rel _ _ hdrops => exact hdrops.value_eq
  | refl _ => rfl
  | symm _ _ _ ih => exact ih.symm
  | trans _ _ _ _ _ hfirst hsecond => exact hfirst.trans hsecond

/-! ## Pruning -/

mutual

/-- A specification without the operands that are no rules, at any depth. -/
def pruned (leaf? : String → Option α) : Json → Json
  | .obj [(key, .arr specs)] => .obj [(key, .arr (prunedAll leaf? specs))]
  | .obj [(key, spec)] => .obj [(key, pruned leaf? spec)]
  | spec => spec

/-- The rules among specifications, pruned. -/
def prunedAll (leaf? : String → Option α) : List Json → List Json
  | [] => []
  | spec :: rest =>
    if parses leaf? spec then pruned leaf? spec :: prunedAll leaf? rest else prunedAll leaf? rest

end

theorem prunedAll_eq (specs : List Json) :
    prunedAll leaf? specs = (specs.filter (parses leaf?)).map (pruned leaf?) := by
  induction specs with
  | nil => rfl
  | cons spec rest ih =>
    rw [prunedAll, ih, List.filter_cons]
    split <;> rfl

theorem pruned_bare {key : String} {operand : Json} (h : ∀ specs, operand ≠ .arr specs) :
    pruned leaf? (.obj [(key, operand)]) = .obj [(key, pruned leaf? operand)] := by
  cases operand with
  | arr specs => exact absurd rfl (h specs)
  | _ => rfl

theorem pruned_of_not_single {spec : Json} (h : ∀ key operand, spec ≠ .obj [(key, operand)]) :
    pruned leaf? spec = spec := by
  cases spec with
  | obj fields =>
    rcases fields with _ | ⟨⟨key, operand⟩, _ | ⟨second, rest⟩⟩
    · rfl
    · exact absurd rfl (h key operand)
    · simp [pruned]
  | _ => rfl

theorem pruned_ne_arr {spec : Json} (h : ∀ specs, spec ≠ .arr specs) (specs : List Json) :
    pruned leaf? spec ≠ .arr specs := by
  by_cases hsingle : ∃ key operand, spec = .obj [(key, operand)]
  · obtain ⟨key, operand, rfl⟩ := hsingle
    cases operand <;> simp [pruned]
  · rw [pruned_of_not_single fun key operand hspec => hsingle ⟨key, operand, hspec⟩]
    exact h specs

/-- **Induction on what stands under a single key**, whether the key is an operator or not. -/
theorem single_induct {motive : Json → Prop}
    (listed : ∀ key specs, (∀ spec ∈ specs, motive spec) → motive (.obj [(key, .arr specs)]))
    (bare : ∀ key operand, (∀ specs, operand ≠ .arr specs) → motive operand →
      motive (.obj [(key, operand)]))
    (other : ∀ spec, (∀ key operand, spec ≠ .obj [(key, operand)]) → motive spec) (spec : Json) :
    motive spec := by
  by_cases hsingle : ∃ key operand, spec = .obj [(key, operand)]
  · obtain ⟨key, operand, hspec⟩ := hsingle
    have hbelow : ∀ below ∈ operandsOf operand, motive below := by
      intro below hbelow
      have hlt : sizeOf below < sizeOf spec := hspec ▸ sizeOf_lt_of_mem_operandsOf hbelow
      exact single_induct listed bare other below
    rw [hspec]
    cases operand with
    | arr specs => exact listed key specs hbelow
    | _ => exact bare key _ (by simp) (hbelow _ (List.mem_singleton_self _))
  · exact other spec fun key operand hspec => hsingle ⟨key, operand, hspec⟩
termination_by sizeOf spec

open Relation (ReflTransGen)

/-- The elements behind some of an array can be pruned one after the other. -/
theorem drops_prunedAll {key : String} {specs : List Json}
    (h : ∀ spec ∈ specs, ReflTransGen (Drops leaf?) spec (pruned leaf? spec)) (front : List Json) :
    ReflTransGen (Drops leaf?) (.obj [(key, .arr (front ++ specs))])
      (.obj [(key, .arr (front ++ prunedAll leaf? specs))]) := by
  induction specs generalizing front with
  | nil => exact .refl
  | cons spec rest ih =>
    have hrest := ih fun other hother => h other (List.mem_cons_of_mem _ hother)
    rw [prunedAll]
    by_cases hspec : parses leaf? spec = true
    · rw [if_pos hspec]
      have hhead : ReflTransGen (Drops leaf?) (.obj [(key, .arr (front ++ spec :: rest))])
          (.obj [(key, .arr (front ++ pruned leaf? spec :: rest))]) :=
        ReflTransGen.lift (fun other => Json.obj [(key, .arr (front ++ other :: rest))])
          (fun _ _ hdrops => Drops.listed hdrops) _ _ (h spec List.mem_cons_self)
      have htail := hrest (front ++ [pruned leaf? spec])
      rw [List.append_assoc, List.append_assoc] at htail
      exact hhead.trans htail
    · rw [if_neg hspec]
      exact .head (.here (Bool.eq_false_iff.mpr hspec)) (hrest front)

/-- **The pruned form is reached by taking out alone.** -/
theorem drops_pruned (spec : Json) : ReflTransGen (Drops leaf?) spec (pruned leaf? spec) := by
  induction spec using single_induct with
  | listed key specs ih => exact drops_prunedAll ih []
  | bare key operand hoperand ih =>
    rw [pruned_bare hoperand]
    exact ReflTransGen.lift (fun spec => Json.obj [(key, spec)])
      (fun _ _ hdrops => Drops.bare hdrops) _ _ ih
  | other spec hspec =>
    rw [pruned_of_not_single hspec]

theorem value_pruned (spec : Json) :
    (ofSpec? leaf? (pruned leaf? spec)).value = (ofSpec? leaf? spec).value :=
  (value_eq_of_eqvGen (Relation.EqvGen.reflTransGen_le_eqvGen _ _ _ (drops_pruned spec))).symm

/-! What can be taken out of an operand is known by its form. -/

theorem Drops.exists_of_listed {key : String} {specs : List Json} {spec' : Json}
    (h : Drops leaf? (.obj [(key, .arr specs)]) spec') :
    ∃ spec ∈ specs, parses leaf? spec = false ∨ ∃ smaller, Drops leaf? spec smaller := by
  cases h with
  | here hspec => exact ⟨_, List.mem_append_right _ List.mem_cons_self, .inl hspec⟩
  | listed hdrops => exact ⟨_, List.mem_append_right _ List.mem_cons_self, .inr ⟨_, hdrops⟩⟩
  | bare hdrops => cases hdrops

theorem Drops.exists_of_bare {key : String} {operand spec' : Json}
    (hoperand : ∀ specs, operand ≠ .arr specs) (h : Drops leaf? (.obj [(key, operand)]) spec') :
    ∃ smaller, Drops leaf? operand smaller := by
  cases h with
  | here _ => exact absurd rfl (hoperand _)
  | listed _ => exact absurd rfl (hoperand _)
  | bare hdrops => exact ⟨_, hdrops⟩

/-- **From a pruned form nothing more can be taken out.** -/
theorem not_drops_pruned (spec : Json) : ∀ smaller, ¬ Drops leaf? (pruned leaf? spec) smaller := by
  induction spec using single_induct with
  | listed key specs ih =>
    intro smaller h
    rw [pruned, prunedAll_eq] at h
    obtain ⟨below, hbelow, hdrops⟩ := h.exists_of_listed
    obtain ⟨spec, hspec, rfl⟩ := List.mem_map.mp hbelow
    obtain ⟨hmem, hparses⟩ := List.mem_filter.mp hspec
    rcases hdrops with hnone | ⟨smaller, hdrops⟩
    -- What was kept is a rule, and so it is in its pruned form.
    · rw [parses, value_pruned, ← parses, hparses] at hnone
      exact absurd hnone (by simp)
    · exact ih spec hmem smaller hdrops
  | bare key operand hoperand ih =>
    intro smaller h
    rw [pruned_bare hoperand] at h
    obtain ⟨below, hbelow⟩ := h.exists_of_bare (pruned_ne_arr hoperand)
    exact ih below hbelow
  | other spec hspec =>
    intro smaller h
    rw [pruned_of_not_single hspec] at h
    cases h <;> exact absurd rfl (hspec _ _)

end Rule

/-! ## What is told -/

/-- Where all that can be told is at the coarser level, all of it is found there. -/
theorem Event.Coarse.filter_eq {events : List Event} (h : Event.Coarse events) :
    events.filter (·.level = .debug) = events := by
  rw [List.filter_eq_self]
  intro e he
  rw [h e he]
  decide

namespace Factory

open Rule (Drops pruned parts parses)

/-- **Operands that are no rules are inert, and each is told once.** Taking them out of their arrays
and putting them in, at any depth and however often, leaves the rule of a specification as it is, or
leaves it none. Taking them all out gives the pruned form, which is read as the same. And the events
at the coarser level are as many as the parts of the specification that are no rules, so there are
none exactly when all parts are rules. -/
theorem operands_that_are_no_rules_are_inert (f : Factory σ N) (spec : Json) :
    (∀ spec', Relation.EqvGen (Drops f.rules.get?) spec spec' →
      (f.parseRule spec').value = (f.parseRule spec).value) ∧
    (Relation.ReflTransGen (Drops f.rules.get?) spec (pruned f.rules.get? spec) ∧
      (∀ smaller, ¬ Drops f.rules.get? (pruned f.rules.get? spec) smaller) ∧
      (f.parseRule (pruned f.rules.get? spec)).value = (f.parseRule spec).value) ∧
    ((f.parseRule spec).events.filter (·.level = .debug)).length =
      ((parts spec).filter fun part => (f.parseRule part).value = none).length ∧
    ((f.parseRule spec).events.filter (·.level = .debug) = [] ↔
      ∀ part ∈ parts spec, ∃ rule, (f.parseRule part).value = some rule) := by
  have htold := (Rule.coarse_ofSpec? f.rules.get? spec).filter_eq
  have hnone : ∀ part, decide ((f.parseRule part).value = none) = !parses f.rules.get? part := by
    intro part
    rw [parses, parseRule]
    cases (Rule.ofSpec? f.rules.get? part).value <;> rfl
  have hsome : ∀ part, (∃ rule, (f.parseRule part).value = some rule) ↔
      parses f.rules.get? part = true := fun part => Option.isSome_iff_exists.symm
  refine ⟨fun spec' h => (Rule.value_eq_of_eqvGen h).symm,
    ⟨Rule.drops_pruned spec, Rule.not_drops_pruned spec, Rule.value_pruned spec⟩, ?_, ?_⟩
  · simp only [hnone]
    rw [parseRule, htold, Rule.length_events, Rule.failures]
  · simp only [hsome]
    rw [parseRule, htold, Rule.events_eq_nil_iff]

/-- A host with an evaluator, of which a specification asks twice. -/
def oneRule : Factory Unit Unit where
  singles := .empty
  wrappers := .empty
  clusters := .empty
  rules := Dictionary.empty.insert "admin" (pure true)

/-- The negation of a disjunction. -/
def noneOf (specs : List Json) : Json := .obj [("NOT", .obj [("OR", .arr specs)])]

theorem operands_that_are_no_rules_are_inert_noneOf :
    Relation.EqvGen (Drops oneRule.rules.get?)
        (noneOf
          [.null, .str "admin", .obj [("AND", .arr [.str "admin", .str "other"])], .str "admin"])
        (noneOf [.str "admin", .str "admin", .arr []]) ∧
      (oneRule.parseRule (noneOf [.str "admin", .str "admin", .arr []])).value =
        (oneRule.parseRule (noneOf [.null, .str "admin",
          .obj [("AND", .arr [.str "admin", .str "other"])], .str "admin"])).value := by
  have hfirst : Drops oneRule.rules.get?
      (noneOf
        [.null, .str "admin", .obj [("AND", .arr [.str "admin", .str "other"])], .str "admin"])
      (noneOf [.str "admin", .obj [("AND", .arr [.str "admin", .str "other"])], .str "admin"]) :=
    .bare (@Drops.here _ _ _ [] _ .null rfl)
  have hsecond : Drops oneRule.rules.get?
      (noneOf [.str "admin", .obj [("AND", .arr [.str "admin", .str "other"])], .str "admin"])
      (noneOf [.str "admin", .str "admin"]) :=
    .bare (@Drops.here _ _ _ [.str "admin"] _ _ rfl)
  have hthird : Drops oneRule.rules.get? (noneOf [.str "admin", .str "admin", .arr []])
      (noneOf [.str "admin", .str "admin"]) :=
    .bare (@Drops.here _ _ _ [.str "admin", .str "admin"] [] (.arr []) rfl)
  have hedits : Relation.EqvGen (Drops oneRule.rules.get?)
      (noneOf
        [.null, .str "admin", .obj [("AND", .arr [.str "admin", .str "other"])], .str "admin"])
      (noneOf [.str "admin", .str "admin", .arr []]) :=
    .trans _ _ _ (.rel _ _ hfirst) (.trans _ _ _ (.rel _ _ hsecond) (.symm _ _ (.rel _ _ hthird)))
  exact ⟨hedits, (operands_that_are_no_rules_are_inert oneRule _).1 _ hedits⟩

end Factory

end ViewTree
