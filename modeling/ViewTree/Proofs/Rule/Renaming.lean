import ViewTree.Proofs.Rule.Evaluation
import ViewTree.Proofs.Rule.Subspec

/-!
# What a rule takes from the names in its specification

A specification is read against a table of names. Of this table the reader uses little:

* only the names that **occur** in the specification, as its strings (`ofSpec?_congr`);
* of what a name stands for, only **that** it stands for something: the leaf is put where the name
  was, and not looked at (`ofSpec?_map`).

The second says more than that the shape of the rule is the same for any two tables with the same
names. Parsing with leaves replaced is replacing leaves in what was parsed, the events included. So
what holds for one table holds for all of its size, and a leaf cannot matter before it is run.
-/

set_option autoImplicit false

namespace ViewTree

variable {α β γ : Type}

/-! ## The names that occur -/

theorem Json.mem_stringsAll {name : String} {items : List Json} :
    name ∈ Json.stringsAll items ↔ ∃ item ∈ items, name ∈ item.strings := by
  induction items with
  | nil => simp [Json.stringsAll]
  | cons item rest ih => simp [Json.stringsAll, ih]

namespace Rule

theorem mem_strings_of_operand {key name : String} {operand spec : Json}
    (hspec : spec ∈ operandsOf operand) (hname : name ∈ spec.strings) :
    name ∈ (Json.obj [(key, operand)]).strings := by
  have hall : name ∈ Json.stringsAll (operandsOf operand) :=
    Json.mem_stringsAll.mpr ⟨spec, hspec, hname⟩
  rw [stringsAll_operandsOf] at hall
  rwa [Json.strings, Json.stringsFields, Json.stringsFields, List.append_nil]

theorem ofSpecs_congr {leaf? leaf?' : String → Option α} {specs : List Json}
    (h : ∀ spec ∈ specs, ofSpec? leaf? spec = ofSpec? leaf?' spec) :
    ofSpecs leaf? specs = ofSpecs leaf?' specs := by
  induction specs with
  | nil => rfl
  | cons spec rest ih =>
    rw [ofSpecs, ofSpecs, h spec List.mem_cons_self,
      ih fun spec hspec => h spec (List.mem_cons_of_mem _ hspec)]

/-- **A specification is read by the names in it** and by no others. -/
theorem ofSpec?_congr {leaf? leaf?' : String → Option α} {spec : Json}
    (h : ∀ name ∈ spec.strings, leaf? name = leaf?' name) :
    ofSpec? leaf? spec = ofSpec? leaf?' spec := by
  induction spec using spec_induct with
  | name text =>
    have htext : leaf? text = leaf?' text := h text (List.mem_singleton_self text)
    rw [ofSpec?, ofSpec?, htext]
  | operator key op operand hop ih =>
    have hbelow : ∀ spec ∈ operandsOf operand, ofSpec? leaf? spec = ofSpec? leaf?' spec :=
      fun spec hspec =>
        ih spec hspec fun name hname => h name (mem_strings_of_operand hspec hname)
    rw [ofSpec?_operator hop, ofSpec?_operator hop, ofSpecs_congr hbelow]
  | alien spec halien =>
    obtain ⟨e, -, hdropped⟩ := halien.dropped
    rw [hdropped leaf?, hdropped leaf?']

/-! ## What they stand for -/

theorem mapAll_eq (f : α → β) (rules : List (Rule α)) : mapAll f rules = rules.map (map f) := by
  induction rules with
  | nil => rfl
  | cons rule rest ih => rw [mapAll, ih, List.map_cons]

mutual

theorem map_map (f : α → β) (g : β → γ) (rule : Rule α) :
    (rule.map f).map g = rule.map (g ∘ f) := by
  match rule with
  | .simple leaf => rfl
  | .and operands => rw [map, map, map, mapAll_mapAll f g operands]
  | .or operands => rw [map, map, map, mapAll_mapAll f g operands]
  | .not operand => rw [map, map, map, map_map f g operand]

theorem mapAll_mapAll (f : α → β) (g : β → γ) (rules : List (Rule α)) :
    mapAll g (mapAll f rules) = mapAll (g ∘ f) rules := by
  match rules with
  | [] => rfl
  | rule :: rest => rw [mapAll, mapAll, mapAll, map_map f g rule, mapAll_mapAll f g rest]

end

end Rule

theorem Operator.combine_map (f : α → β) (op : Operator) (operands : List (Rule α)) :
    op.combine (operands.map (Rule.map f)) = Option.map (Rule.map f) <$> op.combine operands := by
  rcases operands with _ | ⟨first, _ | ⟨second, rest⟩⟩
  · cases op <;> rfl
  · cases op <;> rfl
  · have hall := Rule.mapAll_eq f (first :: second :: rest)
    cases op with
    | and =>
      show _ = pure (some (Rule.and (Rule.mapAll f (first :: second :: rest))))
      rw [hall]
      rfl
    | or =>
      show _ = pure (some (Rule.or (Rule.mapAll f (first :: second :: rest))))
      rw [hall]
      rfl
    | not =>
      simp only [combine, List.map_cons, List.length_cons, List.length_map]
      rfl

namespace Rule

theorem ofSpecs_map (f : α → β) {leaf? : String → Option α} {specs : List Json}
    (h : ∀ spec ∈ specs, ofSpec? (fun name => (leaf? name).map f) spec =
      Option.map (map f) <$> ofSpec? leaf? spec) :
    ofSpecs (fun name => (leaf? name).map f) specs = List.map (map f) <$> ofSpecs leaf? specs := by
  induction specs with
  | nil => rfl
  | cons spec rest ih =>
    rw [ofSpecs, ofSpecs, h spec List.mem_cons_self,
      ih fun spec hspec => h spec (List.mem_cons_of_mem _ hspec)]
    ext
    · simp only [Logged.value_bind, Logged.value_map, Logged.value_pure, List.map_append]
      cases (ofSpec? leaf? spec).value <;> rfl
    · simp only [Logged.events_bind, Logged.events_map, Logged.events_pure]

/-- **Replacing what the names stand for replaces the leaves**, and changes nothing else: neither
whether the specification is a rule, nor its shape, nor what is told. -/
theorem ofSpec?_map (f : α → β) (leaf? : String → Option α) (spec : Json) :
    ofSpec? (fun name => (leaf? name).map f) spec = Option.map (map f) <$> ofSpec? leaf? spec := by
  induction spec using spec_induct with
  | name text =>
    rw [ofSpec?, ofSpec?]
    cases leaf? text <;> rfl
  | operator key op operand hop ih =>
    rw [ofSpec?_operator hop, ofSpec?_operator hop, ofSpecs_map f ih, map_bind, bind_map_left]
    exact congrArg _ (funext fun operands => op.combine_map f operands)
  | alien spec halien =>
    obtain ⟨e, -, hdropped⟩ := halien.dropped
    rw [hdropped, hdropped leaf?]
    rfl

/-! ## The shape -/

mutual

/-- The diagnostic text of a rule is the text of its shape. -/
theorem debug_map (f : α → β) (rule : Rule α) : (rule.map f).debug = rule.debug := by
  match rule with
  | .simple leaf => rfl
  | .and operands => rw [map, debug, debug, debugAll_mapAll f operands]
  | .or operands => rw [map, debug, debug, debugAll_mapAll f operands]
  | .not operand => rw [map, debug, debug, debug_map f operand]

theorem debugAll_mapAll (f : α → β) (rules : List (Rule α)) :
    debugAll (mapAll f rules) = debugAll rules := by
  match rules with
  | [] => rfl
  | rule :: rest => rw [mapAll, debugAll, debugAll, debug_map f rule, debugAll_mapAll f rest]

end

end Rule

end ViewTree
