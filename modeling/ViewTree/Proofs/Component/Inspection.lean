import ViewTree.Proofs.Component.Inside
import ViewTree.Proofs.Document.Reachable
import ViewTree.Proofs.Json.Compact
import ViewTree.Proofs.Rule.Shape
import ViewTree.Proofs.Tree.Preorder

/-!
# The two ways to inspect a component

> The text of a component can be written by someone who has only its description.

A description is a JSON value, and what is inside an entry of it stands under the key under which a
document has its children. So a description is a `Node` like any document, and can be walked from
top to bottom: for each entry a line with its kind, and with its rule or its metadata, two spaces
further in for each level (`Node.walk`). The walk knows no component. It asks an entry for fields by
their keys, and it decides by what it finds there.

`inspection_walks_description` says that the walk gives the text of the component. Besides, the tree
of entries **is** the tree of components through `inside`, place by place, so both show every
component once, a gate as a level of its own; and a line is a line, for neither a rule nor metadata
in compact form has a line break in it.
-/

set_option autoImplicit false

namespace ViewTree

/-! ## Walking a description -/

namespace Node

mutual

/-- The places of all entries of a node, its own first. -/
def places : Node → List Place
  | ⟨_, entries⟩ => [] :: placesFrom 0 entries

/-- The places of several nodes, which stand side by side from a position on. -/
def placesFrom (start : Nat) : List Node → List Place
  | [] => []
  | n :: rest => (places n).map (start :: ·) ++ placesFrom (start + 1) rest

end

theorem placesFrom_eq (start : Nat) (entries : List Node) :
    placesFrom start entries = placesBeside start (entries.map places) := by
  induction entries generalizing start with
  | nil => rfl
  | cons n rest ih => rw [placesFrom, ih, List.map_cons, placesBeside]

theorem lists_places : Lists entries places where
  eq n := by
    obtain ⟨source, entries⟩ := n
    rw [places, placesFrom_eq]

/-- The key of the kind in a description. -/
def kindKey : String := "kind"

/-- What an entry of a description says of itself behind its kind: its rule as it is, or else its
metadata in compact form. -/
def entryDetail (entry : Json) : String :=
  match (entry.field? ruleKey).bind Json.str?, entry.field? metadataKey with
  | some rule, _ => " " ++ rule
  | none, some metadata => " " ++ metadata.text
  | none, none => ""

/-- The line of an entry at a depth. -/
def entryLine (depth : Nat) (entry : Json) : String :=
  String.ofList (List.replicate (2 * depth) ' ') ++
    ((entry.field? kindKey).bind Json.str?).getD "" ++ entryDetail entry ++ "\n"

mutual

/-- **The lines of a description**, which stands at a depth, from top to bottom. -/
def walk (depth : Nat) : Node → List String
  | ⟨source, entries⟩ => entryLine depth source :: walkAll (depth + 1) entries

/-- The lines of several descriptions. -/
def walkAll (depth : Nat) : List Node → List String
  | [] => []
  | n :: rest => walk depth n ++ walkAll depth rest

end

theorem walkAll_eq_flatMap (depth : Nat) (entries : List Node) :
    walkAll depth entries = entries.flatMap (walk depth) := by
  induction entries with
  | nil => rfl
  | cons n rest ih => rw [walkAll, ih, List.flatMap_cons]

theorem walks_walk : Walks entries (fun depth n => entryLine depth n.source) walk where
  eq depth n := by
    obtain ⟨source, entries⟩ := n
    rw [walk, walkAll_eq_flatMap]

end Node

namespace Component

variable {σ N : Type}

/-! ## What the walk finds -/

theorem field?_childrenField (descriptions : List Json) (fields : List (String × Json))
    {key : String} (h : key ≠ Node.childrenKey) :
    (Json.obj (childrenField descriptions ++ fields)).field? key =
      (Json.obj fields).field? key := by
  cases descriptions with
  | nil => rfl
  | cons description rest =>
    show ((Node.childrenKey, _) :: fields).lookup key = fields.lookup key
    rw [Dictionary.lookup_cons, if_neg h]

theorem field?_kindField (kind : Kind) (fields : List (String × Json)) {key : String}
    (h : key ≠ Node.kindKey) :
    (Json.obj (kindField kind :: fields)).field? key = (Json.obj fields).field? key := by
  show ((Node.kindKey, Json.str kind.name) :: fields).lookup key = fields.lookup key
  rw [Dictionary.lookup_cons, if_neg h]

theorem kindField?_describe (c : Component σ N) :
    c.describe.field? Node.kindKey = some (.str c.kind.name) := by
  rw [describe_eq, field?_childrenField _ _ (by decide)]
  rfl

/-- What a component says of itself can be seen in its description. -/
theorem entryDetail_describe (c : Component σ N) : Node.entryDetail c.describe = c.detail := by
  have hfield {key : String} (hchildren : key ≠ Node.childrenKey) (hkind : key ≠ Node.kindKey) :
      c.describe.field? key = (Json.obj c.detailFields).field? key := by
    rw [describe_eq, field?_childrenField _ _ hchildren, field?_kindField _ _ hkind]
  unfold Node.entryDetail detail
  rw [hfield (by decide) (by decide), hfield (by decide) (by decide), detailFields]
  cases c.rule? with
  | some rule => rfl
  | none =>
    cases c.metadata with
    | none => rfl
    | some metadata => rfl

theorem entryLine_describe (depth : Nat) (c : Component σ N) :
    Node.entryLine depth c.describe = inspectionLine depth c.kind c.detail := by
  rw [Node.entryLine, kindField?_describe, entryDetail_describe]
  rfl

theorem entriesOf_describe (c : Component σ N) :
    Node.entriesOf c.describe = c.inside.map describe := by
  rw [describe_eq, Node.entriesOf]
  cases c.inside with
  | nil =>
    have hfield :
        (Json.obj (kindField c.kind :: c.detailFields)).field? Node.childrenKey = none := by
      rw [field?_kindField _ _ (by decide), detailFields]
      cases c.rule? with
      | some rule => rfl
      | none => cases c.metadata <;> rfl
    rw [List.map_nil, childrenField, List.nil_append, hfield]
    rfl
  | cons d rest => rfl

/-- **The entries of a description are the descriptions of what is inside.** -/
theorem entries_describe (c : Component σ N) :
    (Node.ofJson c.describe).entries = c.inside.map fun d => Node.ofJson d.describe := by
  rw [Node.entries_ofJson, entriesOf_describe, List.map_map]
  rfl

theorem walk_describe (depth : Nat) (c : Component σ N) :
    (Node.ofJson c.describe).walk depth = c.inspectionLines Json.text depth := by
  induction c using induct generalizing depth with
  | step c ih =>
    have hinside : (c.inside.map fun d => Node.ofJson d.describe).flatMap (Node.walk (depth + 1)) =
        c.inside.flatMap (inspectionLines Json.text (depth + 1)) := by
      rw [List.flatMap_map]
      exact List.flatMap_congr fun d hd => ih d hd (depth + 1)
    rw [Node.walks_walk.eq, Node.source_ofJson, entryLine_describe, entries_describe, hinside,
      ← inspectionLines_eq]

/-! ## Lines -/

theorem newline_not_mem_detail (c : Component σ N) : '\n' ∉ c.detail.toList := by
  unfold detail
  cases c.rule? with
  | some rule =>
    have hrule := rule.newline_not_mem_debug
    simp [String.toList_append, hrule]
  | none =>
    cases c.metadata with
    | none => simp [metadataDetail]
    | some metadata =>
      have hvalue := Json.inline_text.unbroken (metadataValue metadata)
      simp [metadataDetail, hvalue]

/-- The line of a component at a level: two spaces for each level, the kind, and the rule or the
metadata, on one line. -/
structure LineOf (c : Component σ N) (level : Nat) (line : String) : Prop where
  eq : line = String.ofList (List.replicate (2 * level) ' ') ++ c.kind.name ++ c.detail
  unbroken : '\n' ∉ line.toList

theorem lineOf (c : Component σ N) (level : Nat) :
    LineOf c level (String.ofList (List.replicate (2 * level) ' ') ++ c.kind.name ++ c.detail) where
  eq := rfl
  unbroken := by
    have hdetail := c.newline_not_mem_detail
    have hkind : '\n' ∉ c.kind.name.toList := by
      cases c.kind <;> decide
    simp [hdetail, hkind]

theorem lists_places_describe :
    Lists inside fun c : Component σ N => (Node.ofJson c.describe).places where
  eq c := by
    rw [Node.lists_places.eq, entries_describe, List.map_map]
    rfl

theorem walks_inspectionLines :
    Walks inside (fun depth (c : Component σ N) => inspectionLine depth c.kind c.detail)
      (inspectionLines Json.text) where
  eq := inspectionLines_eq

/-- **Every component has its line.** -/
theorem exists_lines (c : Component σ N) :
    ∃ lines : List String, c.inspection = String.join (lines.map (· ++ "\n")) ∧
      List.Forall₂ (fun line p => ∃ d, follow inside c p = some d ∧ LineOf d p.length line) lines
        (Node.ofJson c.describe).places := by
  have hended : List.Forall₂ (fun ended p => ∃ line, ended = line ++ "\n" ∧
      ∃ d, follow inside c p = some d ∧ LineOf d p.length line)
      (c.inspectionLines Json.text 0) (Node.ofJson c.describe).places := by
    refine (walks_inspectionLines.lines_places lists_places_describe c 0).imp ?_
    rintro ended p ⟨d, hd, rfl⟩
    rw [Nat.zero_add]
    exact ⟨_, rfl, d, hd, d.lineOf p.length⟩
  obtain ⟨lines, hlines, heach⟩ := exists_map_of_forall₂ hended
  exact ⟨lines, congrArg String.join hlines, heach⟩

/-- Unbroken lines with a break behind each have as many breaks as lines. -/
theorem count_breaks {lines : List String} {ps : List Place}
    (h : List.Forall₂ (fun line _ => '\n' ∉ line.toList) lines ps) :
    (String.join (lines.map (· ++ "\n"))).toList.count '\n' = ps.length := by
  rw [String.toList_join, List.flatMap_map]
  induction h with
  | nil => rfl
  | @cons line p lines ps hline _ ih =>
    have hbreak : "\n".toList.count '\n' = 1 := by decide
    rw [List.flatMap_cons, List.count_append, ih, String.toList_append, List.count_append,
      List.count_eq_zero_of_not_mem hline, hbreak, List.length_cons, Nat.zero_add, Nat.add_comm]

/-! ## The two ways -/

/-- **The text of a component is the walk of its description**, whatever the component. The
description has an entry at exactly the places of the components, and what stands there is the
description of the component at that place; the text has a line for each of these places, from top
to bottom, and no other line. -/
theorem inspection_walks_description (c : Component σ N) :
    c.inspection = String.join ((Node.ofJson c.describe).walk 0) ∧
    (∀ p, follow Node.entries (.ofJson c.describe) p =
      (follow inside c p).map fun d => .ofJson d.describe) ∧
    (∃ lines : List String, c.inspection = String.join (lines.map (· ++ "\n")) ∧
      List.Forall₂ (fun line p => ∃ d, follow inside c p = some d ∧ LineOf d p.length line) lines
        (Node.ofJson c.describe).places) ∧
    (Node.ofJson c.describe).places.Pairwise (· < ·) ∧
    (∀ p, p ∈ (Node.ofJson c.describe).places ↔ ∃ d, follow inside c p = some d) ∧
    c.inspection.toList.count '\n' = (Node.ofJson c.describe).places.length := by
  refine ⟨?_, ?_, c.exists_lines, Node.lists_places.pairwise _, ?_, ?_⟩
  · rw [inspection, inspectionWith, walk_describe]
  · exact follow_map entries_describe c
  · exact fun p => lists_places_describe.mem_iff (p := p)
  · obtain ⟨lines, hjoined, hlines⟩ := c.exists_lines
    rw [hjoined]
    exact count_breaks (hlines.imp fun line p ⟨d, _, hd⟩ => hd.unbroken)

end Component

end ViewTree
