import ViewTree.Component.Description

/-!
# What is inside a component

`Component.children` sees through gates, and so it is not how a component is taken apart: what is
behind a gate has children of its own, and asking the gate for them would pass a level over. One
step **inside** is what is behind a gate, and the children of anything else. Every component is
reached by such steps in one way.

Both ways to inspect a component go by these steps. A description has the component's own fields
and the descriptions of what is inside (`describe_eq`), a text has the component's own line and the
lines of what is inside, further in (`inspectionLines_eq`); and what a component says of itself is
decided in the same way for both, by whether it has a rule.
-/

set_option autoImplicit false

namespace ViewTree.Component

variable {σ N : Type}

/-- What is one step inside: the component behind a gate, or the children. -/
def inside (c : Component σ N) : List (Component σ N) :=
  match c.gatedComponent? with
  | some behind => [behind]
  | none => c.children

@[simp] theorem inside_wrapper (builder : Child σ N → Option (Metadata σ) → Action σ (Option N))
    (child : Component σ N) (metadata : Option (Metadata σ)) :
    (wrapper builder child metadata).inside = [child] := rfl

@[simp] theorem inside_gated (rule : Rule (Effect σ Bool)) (component : Component σ N) :
    (gated rule component).inside = [component] := rfl

/-- **Induction on components**: a property holds of a component when it holds of all that is
inside. -/
theorem induct {motive : Component σ N → Prop}
    (step : ∀ c : Component σ N, (∀ d ∈ c.inside, motive d) → motive c) (c : Component σ N) :
    motive c := by
  refine @Component.rec σ N motive (fun cs => ∀ d ∈ cs, motive d) ?_ ?_ ?_ ?_ ?_ ?_ c
  · intro builder metadata
    exact step _ fun d hd => absurd hd List.not_mem_nil
  · intro builder child metadata ih
    exact step _ (List.forall_mem_singleton.mpr ih)
  · intro builder children metadata ih
    exact step _ ih
  · intro rule component ih
    exact step _ (List.forall_mem_singleton.mpr ih)
  · intro d hd
    exact absurd hd List.not_mem_nil
  · intro head rest hhead hrest d hd
    rcases List.mem_cons.mp hd with rfl | hd
    · exact hhead
    · exact hrest d hd

/-! ## What a component says of itself -/

/-- The rule of a gate, or else the metadata, as fields of a description. -/
def detailFields (c : Component σ N) : List (String × Json) :=
  match c.rule? with
  | some rule => [("rule", .str rule.debug)]
  | none => metadataField c.metadata

/-- The rule of a gate, or else the metadata, on a line. -/
def detail (c : Component σ N) : String :=
  match c.rule? with
  | some rule => " " ++ rule.debug
  | none => metadataDetail Json.text c.metadata

@[simp] theorem childrenField_nil : childrenField [] = [] := rfl

@[simp] theorem childrenField_cons (description : Json) (rest : List Json) :
    childrenField (description :: rest) = [("children", .arr (description :: rest))] := rfl

theorem describeAll_eq_map (cs : List (Component σ N)) : describeAll cs = cs.map describe := by
  induction cs with
  | nil => rfl
  | cons c rest ih => rw [describeAll, ih, List.map_cons]

/-- **A description has the component's own fields and the descriptions of what is inside.** -/
theorem describe_eq (c : Component σ N) :
    c.describe =
      .obj (childrenField (c.inside.map describe) ++ kindField c.kind :: c.detailFields) := by
  cases c with
  | single builder metadata => rfl
  | wrapper builder child metadata =>
    rw [describe]
    rfl
  | cluster builder children metadata =>
    rw [describe, describeAll_eq_map]
    rfl
  | gated rule component =>
    rw [describe]
    rfl

theorem inspectionLinesAll_eq_flatMap (depth : Nat) (cs : List (Component σ N)) :
    inspectionLinesAll Json.text depth cs = cs.flatMap (inspectionLines Json.text depth) := by
  induction cs with
  | nil => rfl
  | cons c rest ih => rw [inspectionLinesAll, ih, List.flatMap_cons]

/-- **A text has the component's own line and the lines of what is inside.** -/
theorem inspectionLines_eq (depth : Nat) (c : Component σ N) :
    c.inspectionLines Json.text depth =
      inspectionLine depth c.kind c.detail ::
        c.inside.flatMap (inspectionLines Json.text (depth + 1)) := by
  cases c with
  | single builder metadata => rfl
  | wrapper builder child metadata =>
    rw [inspectionLines, inside_wrapper, List.flatMap_singleton]
    rfl
  | cluster builder children metadata =>
    rw [inspectionLines, inspectionLinesAll_eq_flatMap]
    rfl
  | gated rule component =>
    rw [inspectionLines, inside_gated, List.flatMap_singleton]
    rfl

end ViewTree.Component
