import ViewTree.Proofs.Command.Outcome
import ViewTree.Proofs.Render.Visible
import ViewTree.Proofs.View.Format
import ViewTree.Proofs.View.Schema

/-!
# What is printed can be read

The reader refuses a text with more than 127 containers open at once, and the writer knows no such
limit. So a program may well print what nobody can read. Rendering does not: **a view is nested no
deeper than its document** (`nesting_of_render`), and the view of any document that could be read is
read back from what is printed of it.

There is nothing to spare. From a node to an entry of its children a document opens two containers,
and from a widget to one inside it so does a view. A view begins one container further out, for a
document has an object around its structure; and it ends one further in, for a widget has properties
that its node need not have, a stack even where there is no metadata at all. So the bound would fail
with one more container for each node, and with a single property that is not a scalar. That none
is, whatever the metadata hold, is known from the schema.

The induction is along the picture of the visible nodes (`shown_mirrors`), where rules, tabs and
what scrolling containers leave out are already dealt with.
-/

set_option autoImplicit false

namespace ViewTree

variable {σ : Type}

/-! ## Nesting in a document -/

namespace Json

theorem nesting_field? {j value : Json} {key : String} (h : j.field? key = some value) :
    value.nesting < j.nesting := by
  cases j with
  | obj fields =>
    obtain ⟨first, second, rfl, -⟩ := List.lookup_eq_some_iff.mp h
    exact Nat.lt_succ_of_le (nestingFields_le_iff.mp le_rfl (key, value) (by simp))
  | _ => exact absurd h (by simp [field?])

/-- Between a node and an entry of its children there are an object and an array. -/
theorem nesting_entriesOf {j entry : Json} (h : entry ∈ Node.entriesOf j) :
    entry.nesting + 2 ≤ j.nesting := by
  rw [Node.entriesOf] at h
  cases hfield : j.field? Node.childrenKey with
  | none =>
    rw [hfield] at h
    exact absurd h (by simp)
  | some children =>
    rw [hfield] at h
    cases children with
    | arr items =>
      have hitem : entry.nesting ≤ nestingAll items := nestingAll_le_iff.mp le_rfl entry h
      have hchildren := nesting_field? hfield
      rw [nesting] at hchildren
      omega
    | _ => exact absurd h (by simp [items?])

theorem nesting_of_typeOf? {j : Json} {type : String} (h : Node.typeOf? j = some type) :
    0 < j.nesting := by
  obtain ⟨value, hvalue, -⟩ := Option.bind_eq_some_iff.mp h
  exact Nat.zero_lt_of_lt (nesting_field? hvalue)

end Json

/-! ## Nesting in a view -/

theorem Shape.nesting_of_admits {shape : Shape} {value : Json} (h : shape.admits value = true) :
    value.nesting = 0 := by
  cases value with
  | arr items => cases shape <;> exact absurd h (by simp [admits])
  | obj fields => cases shape <;> exact absurd h (by simp [admits])
  | _ => rfl

theorem Slot.nesting_of_admits {slot : Slot} {value : Json} (h : slot.admits (some value) = true) :
    value.nesting = 0 := by
  cases slot with
  | absent => exact absurd h (by simp [admits])
  | optional shape => exact Shape.nesting_of_admits h
  | required shape => exact Shape.nesting_of_admits h

/-- All properties of a widget are scalars. -/
theorem Conforms.nesting_property {k : Standard} {tab : Bool} {v : View} (h : Conforms k tab v) :
    ∀ entry ∈ v.properties.entries, entry.2.nesting = 0 := by
  intro entry hentry
  have hadmits := h.property entry.1
  rw [View.property?, Dictionary.get?_of_mem hentry] at hadmits
  exact Slot.nesting_of_admits hadmits

/-- The objects in a view that obeys the schema have their keys in order. -/
theorem Obeys.ordered {tab : Bool} {v : View} (h : Obeys tab v) : v.Ordered := by
  induction h with
  | @widget k tab v hconforms _ ih =>
    obtain ⟨kind, title, properties, children⟩ := v
    refine ⟨Json.orderedFields_of_forall fun entry hentry => ?_, View.orderedAll_of_forall ih⟩
    exact Json.ordered_of_nesting_eq_zero (hconforms.nesting_property entry hentry)

/-! ## The bound -/

namespace Factory

/-- **A widget is nested at most one deeper than its node.** -/
theorem nesting_of_mirrors {f : Factory σ View} {s : σ} {n : Node} {v : View}
    (h : Mirrors (f.visibleBelow s) View.children
      (fun m w => Node.typeOf? m.source = some w.kind) n v) :
    ∀ j tab, n = .ofJson j → Obeys tab v → v.toJson.nesting ≤ j.nesting + 1 := by
  induction h with
  | @intro n v hlabel hlength _ ih =>
    rintro j tab rfl ⟨hconforms, hinside⟩
    rw [Node.source_ofJson] at hlabel
    obtain ⟨depth, hdepth⟩ := Nat.exists_eq_succ_of_ne_zero (Json.nesting_of_typeOf? hlabel).ne'
    rw [hdepth]
    refine View.nesting_toJson_le_iff.mpr ⟨fun entry hentry => ?_, fun c hc => ?_⟩
    · rw [hconforms.nesting_property entry hentry]
      exact Nat.zero_le depth
    · -- A widget inside shows an entry, which is two containers further in than the node.
      obtain ⟨i, hi, hc'⟩ := List.mem_iff_getElem.mp hc
      have he : (f.visibleBelow s (.ofJson j))[i]? = some (f.visibleBelow s (.ofJson j))[i] :=
        List.getElem?_eq_getElem (hlength ▸ hi)
      generalize (f.visibleBelow s (.ofJson j))[i] = e at he
      have hkept := (mem_visibleBelow.mp (List.mem_of_getElem? he)).1
      have hentry := List.mem_of_getElem? (getElem?_of_mem_kept hkept)
      rw [Node.entries_ofJson] at hentry
      obtain ⟨entry, hmem, hsource⟩ := List.mem_map.mp hentry
      have hbound := ih i e c he (List.getElem?_eq_some_iff.mpr ⟨hi, hc'⟩) entry _ hsource.symm
        (hinside c hc)
      have hfurther := Json.nesting_entriesOf hmem
      omega

variable (values : List (String × Bool)) (s : σ)

/-- **A view is nested no deeper than its document.** -/
theorem nesting_of_render {document : Json} {v : View}
    (h : ((standardWith σ values).render document).outcome s = .ok (some v)) :
    v.toJson.nesting ≤ document.nesting := by
  obtain ⟨root, hroot, hshown⟩ := shown_of_render values h
  have hmirrors := shown_mirrors values s (.ofJson root) v hshown
  have hobeys := shown_obeys (standardWith σ values) s (.ofJson root) v hshown
  exact (nesting_of_mirrors hmirrors root false rfl hobeys).trans (Json.nesting_field? hroot)

/-- A stack and no more: the document opens two containers, and so does the view. -/
def bare : Json := .obj [("structure", .obj [("type", .str "stack")])]

example : ∃ v, ((standardWith Unit []).render bare).outcome () = .ok (some v) ∧
    v.toJson.nesting = bare.nesting :=
  ⟨_, rfl, rfl⟩

/-- The objects in a view have their keys in order. -/
theorem ordered_of_render {document : Json} {v : View}
    (h : ((standardWith σ values).render document).outcome s = .ok (some v)) : v.Ordered := by
  obtain ⟨root, -, hshown⟩ := shown_of_render values h
  exact (shown_obeys (standardWith σ values) s (.ofJson root) v hshown).ordered

end Factory

/-! ## What is printed -/

/-- **A reader is limited** when it refuses every text in which more than 127 containers are open at
once. -/
def View.Reader.Limited (reader : View.Reader) : Prop :=
  ∀ text value, reader.value text = .ok value → value.nesting ≤ 127

theorem View.Reader.limited_ofConversion (convert : Json.Conversion) :
    (View.Reader.ofConversion convert).Limited := by
  intro text value h
  exact Json.nesting_of_parseWith (mapError_eq_ok_iff.mp h)

namespace Command

open Factory (standardWith bare)

section

variable {tools : Tools} {files : Files} {options : Options} {document text : String}
  {rules : RuleSource} {value : Json} {ruleValues : RuleValues} {v : View}

/-- A component that is rendered as a view has compiled, and realizes as the view. -/
theorem realize_of_render
    (h : ((standardWith Unit ruleValues.entries).render value).outcome () = .ok (some v)) :
    ∃ component, compiled ruleValues value = .ok (some component) ∧
      component.realize.result () = some v := by
  obtain ⟨compiled, hcompiled, h⟩ := Compilation.outcome_bind_eq_ok.mp h
  cases compiled with
  | none => exact absurd h (by simp)
  | some component =>
    refine ⟨component, hcompiled, ?_⟩
    rw [Compilation.outcome_action] at h
    exact Except.ok.inj h

/-- A document that is rendered as a view is printed as the view. -/
theorem output_of_render (hformat : options.format = .json) (htext : files document = .ok text)
    (hvalue : tools.readJson text = .ok value)
    (hrules : RuleValues.resolveWith tools.readRules files rules.file rules.assignments =
      .ok ruleValues)
    (h : ((standardWith Unit ruleValues.entries).render value).outcome () = .ok (some v)) :
    (answer tools files options (.render document rules)).output =
      tools.pretty v.toJson ++ "\n" := by
  obtain ⟨component, hcompiled, hrealize⟩ := realize_of_render h
  have hload : (load tools files document rules).value = .ok (some component) := by
    simp only [load, readDocument, htext, hvalue, readRules, hrules]
    rw [value_compileWith, hcompiled]
    rfl
  obtain ⟨events, hevents⟩ := answer_request tools options document files rules .render
  rw [Verb.request] at hevents
  rw [hevents, hload]
  simp only [Option.bind_some, Verb.picture?, hrealize, Option.map_some, outputText, hformat]

end

/-- **What is rendered can be read back.** With the standard types and constant rules, a view is
nested no deeper than its document. So whenever the program could read a document and realizes it as
a view, the JSON that it prints is read as that view, if its reader is limited and inverts its
writer within that limit. -/
theorem rendering_is_readable :
    (∀ (σ : Type) (values : List (String × Bool)) (s : σ) (document : Json) (v : View),
      ((standardWith σ values).render document).outcome s = .ok (some v) →
      v.toJson.nesting ≤ document.nesting) ∧
    ∀ (tools : Tools) (readView : String → Except Json.Error View),
      View.Reader.Limited ⟨tools.readJson, readView⟩ →
      View.Reader.Inverts ⟨tools.readJson, readView⟩ (tools.pretty · ++ "\n") →
      ∀ (files : Files) (options : Options) (document text : String) (rules : RuleSource)
        (value : Json) (ruleValues : RuleValues) (v : View),
        options.format = .json →
        files document = .ok text →
        tools.readJson text = .ok value →
        RuleValues.resolveWith tools.readRules files rules.file rules.assignments =
          .ok ruleValues →
        ((standardWith Unit ruleValues.entries).render value).outcome () = .ok (some v) →
        readView (answer tools files options (.render document rules)).output = .ok v := by
  refine ⟨fun σ values s document v h => Factory.nesting_of_render values s h, ?_⟩
  intro tools readView hlimited hinverts files options document text rules value ruleValues v
    hformat htext hvalue hrules h
  have hnesting : v.toJson.nesting ≤ 127 :=
    (Factory.nesting_of_render ruleValues.entries () h).trans (hlimited text value hvalue)
  rw [output_of_render hformat htext hvalue hrules h]
  exact hinverts.view_of_le (Factory.ordered_of_render ruleValues.entries () h) hnesting

/-- Tools that round the decimals that they read. -/
def roundingTools : Tools where
  readJson := View.Reader.rounding.value
  compact := Json.text
  pretty := Json.pretty
  readRules := RuleValues.ofText

theorem rendering_is_readable_bare :
    ∃ v, ((standardWith Unit []).render bare).outcome () = .ok (some v) ∧
      v.toJson.nesting ≤ bare.nesting ∧
      View.Reader.rounding.view (answer roundingTools (fun _ => .ok bare.text)
        ⟨.json, false, false⟩ (.render "bare.json" ⟨none, []⟩)).output = .ok v := by
  have hread : roundingTools.readJson bare.text = .ok bare :=
    View.Reader.rounding_inverts_text.reads bare (by decide)
  exact ⟨_, rfl, rendering_is_readable.1 Unit [] () bare _ rfl,
    rendering_is_readable.2 roundingTools View.Reader.rounding.view
      (View.Reader.limited_ofConversion _) View.Reader.rounding_inverts_pretty_line _ _ _ _ _ bare
      .empty _ rfl rfl hread rfl rfl⟩

end Command

end ViewTree
