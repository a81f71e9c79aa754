import ViewTree.Component.Description
import ViewTree.Proofs.Rule.Renaming

/-!
# Skeletons of components

The **skeleton** of a component is what is left of it when the host is taken away: its builders
build nothing, and the leaves of its rules say nothing. Kinds, metadata, the shape of rules, and the
children with their order are all still there. Two components have the same skeleton when they
differ in what the host would do with them and in nothing else.

Inspecting a component looks at its skeleton only, so what an inspection shows cannot depend on what
an evaluator says, nor can an evaluator find out that it was inspected.
-/

set_option autoImplicit false

namespace ViewTree.Component

variable {σ N : Type}

mutual

/-- A component without its builders and evaluators. -/
def skeleton : Component σ N → Component σ Unit
  | .single _ metadata => .single (fun _ => pure none) metadata
  | .wrapper _ child metadata => .wrapper (fun _ _ => pure none) (skeleton child) metadata
  | .cluster _ children metadata =>
    .cluster (fun _ _ => pure none) (skeletonAll children) metadata
  | .gated rule component => .gated (rule.map fun _ => pure false) (skeleton component)

/-- Several components without their builders and evaluators. -/
def skeletonAll : List (Component σ N) → List (Component σ Unit)
  | [] => []
  | c :: rest => skeleton c :: skeletonAll rest

end

theorem skeletonAll_eq_map (cs : List (Component σ N)) : skeletonAll cs = cs.map skeleton := by
  induction cs with
  | nil => rfl
  | cons c rest ih => rw [skeletonAll, ih, List.map_cons]

/-- A component that is no gate has the skeleton that its kind, its metadata and the skeletons of
its children make. -/
theorem skeleton_eq_of_parts {c d : Component σ N} (hkind : c.kind = d.kind)
    (hgate : c.kind ≠ .rule) (hmetadata : c.metadata = d.metadata)
    (hchildren : c.children.map skeleton = d.children.map skeleton) : c.skeleton = d.skeleton := by
  cases c with
  | single builder metadata =>
    cases d with
    | single other metadata' =>
      obtain rfl : metadata = metadata' := hmetadata
      rfl
    | _ => exact absurd hkind (by simp [kind])
  | wrapper builder child metadata =>
    cases d with
    | wrapper other child' metadata' =>
      obtain rfl : metadata = metadata' := hmetadata
      rw [skeleton, skeleton, (List.cons.inj hchildren).1]
    | _ => exact absurd hkind (by simp [kind])
  | cluster builder children metadata =>
    cases d with
    | cluster other children' metadata' =>
      obtain rfl : metadata = metadata' := hmetadata
      rw [skeleton, skeleton, skeletonAll_eq_map, skeletonAll_eq_map,
        show children.map skeleton = children'.map skeleton from hchildren]
    | _ => exact absurd hkind (by simp [kind])
  | gated rule component => exact absurd rfl hgate

/-! ## Frames

Between a component and its skeleton is its **frame**, which has the rules as they are. -/

mutual

/-- A component without its builders. -/
def frame : Component σ N → Component σ Unit
  | .single _ metadata => .single (fun _ => pure none) metadata
  | .wrapper _ child metadata => .wrapper (fun _ _ => pure none) (frame child) metadata
  | .cluster _ children metadata => .cluster (fun _ _ => pure none) (frameAll children) metadata
  | .gated rule component => .gated rule (frame component)

/-- Several components without their builders. -/
def frameAll : List (Component σ N) → List (Component σ Unit)
  | [] => []
  | c :: rest => frame c :: frameAll rest

end

theorem frameAll_eq_map (cs : List (Component σ N)) : frameAll cs = cs.map frame := by
  induction cs with
  | nil => rfl
  | cons c rest ih => rw [frameAll, ih, List.map_cons]

/-! ## Inspecting -/

mutual

/-- The description of a component is the description of its skeleton. -/
theorem describe_skeleton (c : Component σ N) : c.skeleton.describe = c.describe := by
  match c with
  | .single builder metadata => rfl
  | .wrapper builder child metadata =>
    rw [skeleton, describe, describe, describe_skeleton child]
  | .cluster builder children metadata =>
    rw [skeleton, describe, describe, describeAll_skeletonAll children]
  | .gated rule component =>
    rw [skeleton, describe, describe, Rule.debug_map, describe_skeleton component]

theorem describeAll_skeletonAll (cs : List (Component σ N)) :
    describeAll (skeletonAll cs) = describeAll cs := by
  match cs with
  | [] => rfl
  | c :: rest =>
    rw [skeletonAll, describeAll, describeAll, describe_skeleton c, describeAll_skeletonAll rest]

end

mutual

theorem inspectionLines_skeleton (depth : Nat) (c : Component σ N) :
    c.skeleton.inspectionLines Json.text depth = c.inspectionLines Json.text depth := by
  match c with
  | .single builder metadata => rfl
  | .wrapper builder child metadata =>
    rw [skeleton, inspectionLines, inspectionLines, inspectionLines_skeleton (depth + 1) child]
  | .cluster builder children metadata =>
    rw [skeleton, inspectionLines, inspectionLines,
      inspectionLinesAll_skeletonAll (depth + 1) children]
  | .gated rule component =>
    rw [skeleton, inspectionLines, inspectionLines, Rule.debug_map,
      inspectionLines_skeleton (depth + 1) component]

theorem inspectionLinesAll_skeletonAll (depth : Nat) (cs : List (Component σ N)) :
    inspectionLinesAll Json.text depth (skeletonAll cs) =
      inspectionLinesAll Json.text depth cs := by
  match cs with
  | [] => rfl
  | c :: rest =>
    rw [skeletonAll, inspectionLinesAll, inspectionLinesAll, inspectionLines_skeleton depth c,
      inspectionLinesAll_skeletonAll depth rest]

end

/-- The text of a component is the text of its skeleton. -/
theorem inspection_skeleton (c : Component σ N) : c.skeleton.inspection = c.inspection := by
  rw [inspection, inspection, inspectionWith, inspectionWith, inspectionLines_skeleton 0 c]

end ViewTree.Component
