import ViewTree.Proofs.Json.Sorted
import ViewTree.Proofs.View.Reading

/-!
# The format of views

Reading undoes writing: that is said here of the **values** between a view and its text, where there
is no limit on the nesting. A value is read as its tree is, with all the room that it needs, so
nothing new has to be said of how the fields are read.

What makes it work is that a field is **left out** just when it is what an absent field is read as.
There are two sides to that, and they have to be kept together. The writer has a condition for every
field (`field?_toJson`), the reader a default (`absent_of_ofJson?`); a text that is empty is not the
title that a missing title stands for, and a null among the properties is a property.

A value may be read as a view without being how the view is written. It can have further fields,
fields in another order, fields that are there and empty, or no keys at all. Writing the view gives
another value then, and that one stays (`ordered_of_ofJson?`): whatever was read is a view that is
read back.

Of texts the same follows for any reader and writer that fit (`Reader.Inverts`): values are read
back as far as at most 127 containers are open at once, and views are read as their values are.
Those that are defined here fit, when numbers are rounded (`Reader.inverts_with`).
-/

set_option autoImplicit false

namespace ViewTree

open Json (Fault Tree nestingAll nestingFields nestingFields_append bind_eq_ok bind_ite_ok)

namespace View

/-- The view that a value is read as. -/
def ofJson? (j : Json) : Option View := (ofTree j.nesting (.ofJson j)).toOption

theorem ofTree_of_ofJson? {j : Json} {v : View} (h : ofJson? j = some v) :
    ofTree j.nesting (.ofJson j) = .ok v := by
  rw [ofJson?] at h
  cases hread : ofTree j.nesting (.ofJson j) with
  | error e =>
    rw [hread] at h
    exact absurd h (by simp [Except.toOption])
  | ok w =>
    rw [hread] at h
    exact congrArg Except.ok (Option.some.inj h)

/-! ## What is written is read -/

theorem ofJson?_toJson {v : View} (hv : v.Ordered) : ofJson? v.toJson = some v := by
  rw [ofJson?, ofTree_toJson hv, if_pos (Nat.le_refl _)]
  rfl

/-- The fields of a view in the order of their keys. -/
theorem entries_ofList_fields (title? properties? children? : Bool) (kind title properties
    children : Json) :
    (Dictionary.ofList (("kind", kind) :: (fieldIf title? "title" title ++
      fieldIf properties? "properties" properties ++
        fieldIf children? "children" children))).entries =
      fieldIf children? "children" children ++ ("kind", kind) ::
        (fieldIf properties? "properties" properties ++ fieldIf title? "title" title) := by
  have hkind : ("children" : String) < "kind" := by decide
  have htitle : ¬ ("title" : String) < "kind" ∧ ("title" : String) ≠ "kind" := by decide
  have hproperties : ¬ ("properties" : String) < "kind" ∧ ("properties" : String) ≠ "kind" ∧
      ("properties" : String) < "title" := by decide
  cases title? <;> cases properties? <;> cases children? <;>
    simp only [fieldIf, Dictionary.ofList, Dictionary.insertAll, Dictionary.insert,
      Dictionary.empty, Dictionary.insertEntry, hkind, htitle, hproperties, if_true, if_false,
      Bool.false_eq_true, List.nil_append, List.append_nil, List.cons_append, List.foldl_cons, List.foldl_nil]

theorem sortedFields_append (first second : List (String × Json)) :
    Json.sortedFields (first ++ second) = Json.sortedFields first ++ Json.sortedFields second := by
  induction first with
  | nil => rfl
  | cons field rest ih =>
    rw [List.cons_append, Json.sortedFields, Json.sortedFields, ih, List.cons_append]

theorem sortedFields_fieldIf (present : Bool) (key : String) (value : Json) :
    Json.sortedFields (fieldIf present key value) = fieldIf present key value.sorted := by
  cases present <;> rfl

theorem sorted_toJson (kind : String) (title : Option String) {properties : Dictionary Json}
    (hp : Json.OrderedFields properties.entries) (children : List View) :
    (toJson ⟨kind, title, properties, children⟩).sorted =
      .obj (fieldIf (!children.isEmpty) "children" (.arr (Json.sortedAll (toJsonAll children))) ++
        ("kind", .str kind) ::
          (fieldIf (!properties.isEmpty) "properties" (.ofDictionary properties) ++
            fieldIf title.isSome "title" (.str (title.getD "")))) := by
  have hproperties : (Json.ofDictionary properties).sorted = .ofDictionary properties :=
    Json.sorted_of_ordered ⟨properties.ordered, hp⟩
  rw [toJson, Json.sorted, Json.sortedFields, sortedFields_append, sortedFields_append,
    sortedFields_fieldIf, sortedFields_fieldIf, sortedFields_fieldIf, hproperties]
  exact congrArg Json.obj (entries_ofList_fields _ _ _ _ _ _ _)

mutual

/-- **A view is read back from its value as a map**, whose fields are in another order. -/
theorem ofTree_sorted {v : View} (hv : v.Ordered) (room : Nat) :
    ofTree room (.ofJson v.toJson.sorted) =
      if v.toJson.sorted.nesting ≤ room then .ok v else .error .malformed := by
  match v with
  | ⟨kind, title, properties, children⟩ =>
    rw [sorted_toJson kind title hv.1 children]
    cases room with
    | zero => rfl
    | succ room =>
      have htitle : nestingFields (fieldIf title.isSome "title" (.str (title.getD ""))) = 0 := by
        cases title <;> rfl
      let inside := if children.isEmpty then none else some children
      let given := if properties.isEmpty then none else some properties
      have hlast : ofFields room ⟨some kind, none, given, inside⟩
            (Tree.ofFields (fieldIf title.isSome "title" (.str (title.getD ""))) ++ []) =
          ofFields room ⟨some kind, title.map some, given, inside⟩ [] :=
        ofFields_title room [] title
      rw [List.append_nil] at hlast
      rw [Tree.ofJson, ofTree, ofFields_append, Draft.empty,
        ofFields_children _ (ofTrees_sorted hv.2), Tree.ofFields, Tree.ofJson, ofFields_kind,
        ofFields_append, ofFields_properties _ hv.1, hlast, ofFields]
      rw [Json.nesting, nestingFields_append, nestingFields, nestingFields_append, htitle]
      simp only [Json.nesting, Nat.zero_max, Nat.max_zero, Nat.succ_le_succ_iff, max_le_iff]
      rw [← ite_and, bind_ite_ok]
      exact if_congr Iff.rfl (toView_written kind title properties children) rfl

theorem ofTrees_sorted {vs : List View} (hv : OrderedAll vs) (room : Nat) :
    ofTrees room (Tree.ofItems (Json.sortedAll (toJsonAll vs))) =
      if nestingAll (Json.sortedAll (toJsonAll vs)) ≤ room then .ok vs else .error .malformed := by
  match vs with
  | [] => rfl
  | v :: rest =>
    rw [toJsonAll, Json.sortedAll, Tree.ofItems, ofTrees, ofTree_sorted hv.1 room,
      ofTrees_sorted hv.2 room, bind_ite_ok, bind_ite_ok, nestingAll]
    simp only [max_le_iff, ite_and]
    rfl

end

theorem ofJson?_sorted {v : View} (hv : v.Ordered) : ofJson? v.toJson.sorted = some v := by
  rw [ofJson?, ofTree_sorted hv, if_pos (Nat.le_refl _)]
  rfl

/-! ## Reading a field -/

/-- Refusing gives nothing. -/
theorem refuse_ne_ok {α : Type} (t : Tree) {a : α} : refuse t ≠ .ok a := by
  unfold refuse
  repeat' split
  all_goals simp

/-- **What reading one field does** to the fields that were given so far. -/
inductive Draft.Takes (room : Nat) (value : Tree) : String → Draft → Draft → Prop
  | kind {d : Draft} {content : String} : d.kind = none → readText value = .ok content →
    Takes room value "kind" d { d with kind := some content }
  | title {d : Draft} {content : Option String} : d.title = none → readTitle value = .ok content →
    Takes room value "title" d { d with title := some content }
  | properties {d : Draft} {content : Dictionary Json} : d.properties = none →
    readProperties room value = .ok content →
    Takes room value "properties" d { d with properties := some content }
  | children {d : Draft} {content : List View} : d.children = none →
    ofChildren room value = .ok content →
    Takes room value "children" d { d with children := some content }
  | other {d : Draft} {key : String} : key ∉ ["kind", "title", "properties", "children"] →
    value.skip = .ok () → Takes room value key d d

theorem unless_eq_ok {α : Type} {given : Option α} {β : Type} {x : Except Fault β} {b : β} :
    (if given.isSome = true then (do throw Fault.mismatched; x) else x) = .ok b ↔
      given = none ∧ x = .ok b := by
  cases given with
  | none => simp
  | some a => simp [throw, throwThe, MonadExceptOf.throw, bind, Except.bind]

theorem takes_of_ofFields {room : Nat} {draft d : Draft} {key : Except Fault String} {value : Tree}
    {rest : List (Except Fault String × Tree)}
    (h : ofFields room draft ((key, value) :: rest) = .ok d) :
    ∃ name next, key = .ok name ∧ Draft.Takes room value name draft next ∧
      ofFields room next rest = .ok d := by
  rw [ofFields] at h
  obtain ⟨name, rfl, hfield⟩ := bind_eq_ok.mp h
  clear h
  split at hfield
  · obtain ⟨hnew, hfield⟩ := unless_eq_ok.mp hfield
    obtain ⟨content, hread, hrest⟩ := bind_eq_ok.mp hfield
    exact ⟨_, _, rfl, .kind hnew hread, hrest⟩
  · obtain ⟨hnew, hfield⟩ := unless_eq_ok.mp hfield
    obtain ⟨content, hread, hrest⟩ := bind_eq_ok.mp hfield
    exact ⟨_, _, rfl, .title hnew hread, hrest⟩
  · obtain ⟨hnew, hfield⟩ := unless_eq_ok.mp hfield
    obtain ⟨content, hread, hrest⟩ := bind_eq_ok.mp hfield
    exact ⟨_, _, rfl, .properties hnew hread, hrest⟩
  · obtain ⟨hnew, hfield⟩ := unless_eq_ok.mp hfield
    obtain ⟨content, hread, hrest⟩ := bind_eq_ok.mp hfield
    exact ⟨_, _, rfl, .children hnew hread, hrest⟩
  · rename_i hkind htitle hproperties hchildren
    obtain ⟨_, hskip, hrest⟩ := bind_eq_ok.mp hfield
    exact ⟨_, _, rfl, .other (by simpa using ⟨hkind, htitle, hproperties, hchildren⟩) hskip, hrest⟩

/-! ## What is absent -/

/-- Reading a field leaves the others as they were. -/
theorem Draft.Takes.kept {room : Nat} {value : Tree} {name : String} {d next : Draft}
    (h : Draft.Takes room value name d next) :
    (name ≠ "title" → next.title = d.title) ∧
      (name ≠ "properties" → next.properties = d.properties) ∧
      (name ≠ "children" → next.children = d.children) := by
  cases h with
  | kind | other => exact ⟨fun _ => rfl, fun _ => rfl, fun _ => rfl⟩
  | title => exact ⟨fun hne => absurd rfl hne, fun _ => rfl, fun _ => rfl⟩
  | properties => exact ⟨fun _ => rfl, fun hne => absurd rfl hne, fun _ => rfl⟩
  | children => exact ⟨fun _ => rfl, fun _ => rfl, fun hne => absurd rfl hne⟩

theorem kept_of_ofFields {room : Nat} {fields : List (String × Json)} {draft d : Draft}
    (h : ofFields room draft (Tree.ofFields fields) = .ok d) :
    (fields.lookup "title" = none → d.title = draft.title) ∧
      (fields.lookup "properties" = none → d.properties = draft.properties) ∧
      (fields.lookup "children" = none → d.children = draft.children) := by
  induction fields generalizing draft with
  | nil =>
    rw [Tree.ofFields, ofFields] at h
    obtain rfl := Except.ok.inj h
    exact ⟨fun _ => rfl, fun _ => rfl, fun _ => rfl⟩
  | cons field rest ih =>
    obtain ⟨key, value⟩ := field
    rw [Tree.ofFields] at h
    obtain ⟨name, next, hname, htakes, hrest⟩ := takes_of_ofFields h
    obtain rfl := Except.ok.inj hname
    obtain ⟨htitle, hproperties, hchildren⟩ := ih hrest
    obtain ⟨htitle', hproperties', hchildren'⟩ := htakes.kept
    have hsplit : ∀ other, ((key, value) :: rest).lookup other = none →
        key ≠ other ∧ rest.lookup other = none := by
      intro other hnone
      rw [Dictionary.lookup_cons] at hnone
      by_cases hkey : other = key
      · exact absurd hnone (by simp [hkey])
      · rw [if_neg hkey] at hnone
        exact ⟨Ne.symm hkey, hnone⟩
    refine ⟨fun hnone => ?_, fun hnone => ?_, fun hnone => ?_⟩
    · obtain ⟨hne, hnone⟩ := hsplit _ hnone
      exact (htitle hnone).trans (htitle' hne)
    · obtain ⟨hne, hnone⟩ := hsplit _ hnone
      exact (hproperties hnone).trans (hproperties' hne)
    · obtain ⟨hne, hnone⟩ := hsplit _ hnone
      exact (hchildren hnone).trans (hchildren' hne)

/-- **A field that is absent is read as its default**: no title, no properties, no children. -/
theorem absent_of_ofJson? {fields : List (String × Json)} {v : View}
    (h : ofJson? (.obj fields) = some v) :
    (fields.lookup "title" = none → v.title = none) ∧
      (fields.lookup "properties" = none → v.properties = .empty) ∧
      (fields.lookup "children" = none → v.children = []) := by
  have hread := ofTree_of_ofJson? h
  rw [Json.nesting, Tree.ofJson, ofTree] at hread
  obtain ⟨d, hd, hread⟩ := bind_eq_ok.mp hread
  obtain ⟨_, hclosed, hview⟩ := bind_eq_ok.mp hread
  obtain rfl := (Json.closed_eq_ok.mp hclosed).2
  obtain ⟨htitle, hproperties, hchildren⟩ := kept_of_ofFields hd
  rw [Draft.toView] at hview
  cases hkind : d.kind with
  | none =>
    rw [hkind] at hview
    exact absurd hview (by simp)
  | some kind =>
    rw [hkind] at hview
    obtain rfl := Except.ok.inj hview
    refine ⟨fun hnone => ?_, fun hnone => ?_, fun hnone => ?_⟩
    · exact congrArg (·.getD none) (htitle hnone)
    · exact congrArg (·.getD .empty) (hproperties hnone)
    · exact congrArg (·.getD []) (hchildren hnone)

/-- **The writer leaves out** a title that is none, properties and children that are empty, and
nothing else. -/
theorem field?_toJson (v : View) (key : String) :
    v.toJson.field? key =
      if key = "kind" then some (.str v.kind)
      else if key = "title" then v.title.map .str
      else if key = "properties" then
        if v.properties.isEmpty then none else some (.ofDictionary v.properties)
      else if key = "children" then
        if v.children.isEmpty then none else some (.arr (v.children.map toJson))
      else none := by
  obtain ⟨kind, title, properties, children⟩ := v
  have hor (first second : List (String × Json)) :
      (first ++ second).lookup key = (first.lookup key).or (second.lookup key) := List.lookup_append
  have hfield (present : Bool) (other : String) (value : Json) :
      (fieldIf present other value).lookup key =
        if key = other ∧ present then some value else none := by
    cases present with
    | false => simp [fieldIf]
    | true => simp [fieldIf, Dictionary.lookup_cons]
  rw [toJson, Json.field?, Dictionary.lookup_cons, hor, hor, hfield, hfield, hfield,
    toJsonAll_eq_map]
  by_cases hkind : key = "kind"
  · rw [if_pos hkind, if_pos hkind]
  rw [if_neg hkind, if_neg hkind]
  by_cases htitle : key = "title"
  · subst htitle
    cases title <;> simp
  by_cases hproperties : key = "properties"
  · subst hproperties
    cases properties.isEmpty <;> simp
  by_cases hchildren : key = "children"
  · subst hchildren
    cases children.isEmpty <;> simp
  simp [htitle, hproperties, hchildren]

/-! ## What was read is read again -/

/-- Every object in what was given so far has its keys in order. -/
structure Draft.Ordered (d : Draft) : Prop where
  properties : ∀ p ∈ d.properties, Json.OrderedFields p.entries
  children : ∀ views ∈ d.children, OrderedAll views

theorem Draft.ordered_empty : Draft.empty.Ordered :=
  ⟨fun _ h => absurd h (by simp [empty]), fun _ h => absurd h (by simp [empty])⟩

theorem ordered_of_readProperties {room : Nat} {t : Tree} {d : Dictionary Json}
    (h : readProperties room t = .ok d) : Json.OrderedFields d.entries := by
  unfold readProperties at h
  split at h
  · cases room with
    | zero => exact absurd h (by simp)
    | succ room =>
      obtain ⟨fields, hfields, h⟩ := bind_eq_ok.mp h
      obtain rfl := (Json.closed_eq_ok.mp h).2
      exact Json.orderedFields_of_forall fun field hfield =>
        Json.inherited_ordered.of_ofFields hfields field (Dictionary.mem_ofList hfield)
  · exact absurd h (refuse_ne_ok _)

theorem Draft.Ordered.toView {d : Draft} (hd : d.Ordered) {v : View} (h : d.toView = .ok v) :
    v.Ordered := by
  rw [Draft.toView] at h
  cases hkind : d.kind with
  | none =>
    rw [hkind] at h
    exact absurd h (by simp)
  | some kind =>
    rw [hkind] at h
    obtain rfl := Except.ok.inj h
    refine ⟨?_, ?_⟩
    · cases hproperties : d.properties with
      | none => trivial
      | some p => exact hd.properties p hproperties
    · cases hchildren : d.children with
      | none => trivial
      | some views => exact hd.children views hchildren

mutual

/-- **A view that is read has its keys in order**, so it is read back from what it is written as. -/
theorem ordered_of_ofTree {room : Nat} {t : Tree} {v : View} (h : ofTree room t = .ok v) :
    v.Ordered := by
  match t, room with
  | .obj fields stop, 0 => exact absurd h (by simp [ofTree])
  | .obj fields stop, room + 1 =>
    rw [ofTree] at h
    obtain ⟨d, hd, h⟩ := bind_eq_ok.mp h
    obtain ⟨_, hclosed, h⟩ := bind_eq_ok.mp h
    obtain rfl := (Json.closed_eq_ok.mp hclosed).2
    exact (ordered_of_ofFields Draft.ordered_empty hd).toView h
  | .arr items stop, 0 => exact absurd h (by simp [ofTree])
  | .arr items stop, room + 1 =>
    rw [ofTree] at h
    obtain ⟨w, hw, h⟩ := bind_eq_ok.mp h
    obtain rfl := (Json.closed_eq_ok.mp h).2
    exact ordered_of_ofPositions hw
  | .broken _ _, room | .null, room | .bool _, room | .number _, room | .string _, room =>
    rw [ofTree] at h
    · exact absurd h (refuse_ne_ok _)
    all_goals simp

theorem ordered_of_ofFields {room : Nat} {fields : List (Except Fault String × Tree)}
    {draft d : Draft} (hdraft : draft.Ordered) (h : ofFields room draft fields = .ok d) :
    d.Ordered := by
  match fields with
  | [] =>
    rw [ofFields] at h
    exact Except.ok.inj h ▸ hdraft
  | (key, value) :: rest =>
    obtain ⟨name, next, -, htakes, hrest⟩ := takes_of_ofFields h
    refine ordered_of_ofFields ?_ hrest
    cases htakes with
    | kind _ _ | title _ _ | other _ _ => exact ⟨hdraft.properties, hdraft.children⟩
    | properties _ hread =>
      refine ⟨?_, hdraft.children⟩
      rintro p ⟨⟩
      exact ordered_of_readProperties hread
    | children _ hread =>
      refine ⟨hdraft.properties, ?_⟩
      rintro views ⟨⟩
      exact ordered_of_ofChildren hread

theorem ordered_of_ofPositions {room : Nat} {items : List Tree} {v : View}
    (h : ofPositions room items = .ok v) : v.Ordered := by
  match items with
  | [] => exact absurd h (by simp [ofPositions])
  | [kind] =>
    rw [ofPositions] at h
    obtain ⟨_, -, h⟩ := bind_eq_ok.mp h
    exact Except.ok.inj h ▸ ⟨trivial, trivial⟩
  | [kind, title] =>
    rw [ofPositions] at h
    obtain ⟨_, -, h⟩ := bind_eq_ok.mp h
    obtain ⟨_, -, h⟩ := bind_eq_ok.mp h
    exact Except.ok.inj h ▸ ⟨trivial, trivial⟩
  | [kind, title, properties] =>
    rw [ofPositions] at h
    obtain ⟨_, -, h⟩ := bind_eq_ok.mp h
    obtain ⟨_, -, h⟩ := bind_eq_ok.mp h
    obtain ⟨_, hproperties, h⟩ := bind_eq_ok.mp h
    exact Except.ok.inj h ▸ ⟨ordered_of_readProperties hproperties, trivial⟩
  | kind :: title :: properties :: children :: more =>
    rw [ofPositions] at h
    obtain ⟨_, -, h⟩ := bind_eq_ok.mp h
    obtain ⟨_, -, h⟩ := bind_eq_ok.mp h
    obtain ⟨_, hproperties, h⟩ := bind_eq_ok.mp h
    obtain ⟨_, hchildren, h⟩ := bind_eq_ok.mp h
    cases more with
    | nil =>
      exact Except.ok.inj h ▸
        ⟨ordered_of_readProperties hproperties, ordered_of_ofChildren hchildren⟩
    | cons _ _ => exact absurd h (by simp [throw, throwThe, MonadExceptOf.throw])

theorem ordered_of_ofChildren {room : Nat} {t : Tree} {views : List View}
    (h : ofChildren room t = .ok views) : OrderedAll views := by
  match t, room with
  | .arr items stop, 0 => exact absurd h (by simp [ofChildren])
  | .arr items stop, room + 1 =>
    rw [ofChildren] at h
    obtain ⟨_, hread, h⟩ := bind_eq_ok.mp h
    obtain rfl := (Json.closed_eq_ok.mp h).2
    exact ordered_of_ofTrees hread
  | .broken _ _, room | .null, room | .bool _, room | .number _, room | .string _, room
  | .obj _ _, room =>
    rw [ofChildren] at h
    · exact absurd h (refuse_ne_ok _)
    all_goals simp

theorem ordered_of_ofTrees {room : Nat} {items : List Tree} {views : List View}
    (h : ofTrees room items = .ok views) : OrderedAll views := by
  match items with
  | [] =>
    rw [ofTrees] at h
    exact Except.ok.inj h ▸ trivial
  | t :: rest =>
    rw [ofTrees] at h
    obtain ⟨_, hfirst, h⟩ := bind_eq_ok.mp h
    obtain ⟨_, hothers, h⟩ := bind_eq_ok.mp h
    exact Except.ok.inj h ▸ ⟨ordered_of_ofTree hfirst, ordered_of_ofTrees hothers⟩

end

theorem ordered_of_ofJson? {j : Json} {v : View} (h : ofJson? j = some v) : v.Ordered :=
  ordered_of_ofTree (ofTree_of_ofJson? h)

/-! ## Equality -/

theorem ne_of_mem_fieldIf {present : Bool} {key other : String} {value : Json}
    {field : String × Json} (h : field ∈ fieldIf present key value) (hne : key ≠ other) :
    field.1 ≠ other := by
  cases present with
  | false => exact absurd h (by simp [fieldIf])
  | true =>
    obtain rfl := List.mem_singleton.mp h
    exact hne

/-- A field that may be left out is equal when it is left out on both sides or on none. -/
theorem equalFields_fieldIf {present present' : Bool} {key : String} {value value' : Json}
    {rest rest' : List (String × Json)} (h : ∀ field ∈ rest, field.1 ≠ key)
    (h' : ∀ field ∈ rest', field.1 ≠ key) :
    Json.equalFields (fieldIf present key value ++ rest) (fieldIf present' key value' ++ rest') =
      (present == present' && (!present || value.equal value') && Json.equalFields rest rest') := by
  cases present with
  | false =>
    cases present' with
    | false => rfl
    | true =>
      cases rest with
      | nil => rfl
      | cons field rest =>
        have hne : (field.1 == key) = false := beq_eq_false_iff_ne.mpr (h field List.mem_cons_self)
        show (field.1 == key && _ && _) = false
        rw [hne]
        rfl
  | true =>
    cases present' with
    | false =>
      cases rest' with
      | nil => rfl
      | cons field rest' =>
        have hne : (key == field.1) = false :=
          beq_eq_false_iff_ne.mpr (h' field List.mem_cons_self).symm
        show (key == field.1 && _ && _) = false
        rw [hne]
        rfl
    | true =>
      show (key == key && value.equal value' && _) = _
      rw [beq_self_eq_true]
      rfl

mutual

/-- **Views are equal just when what they are written as is.** -/
theorem equal_toJson (v w : View) : v.toJson.equal w.toJson = v.equal w := by
  match v, w with
  | ⟨kind, title, properties, children⟩, ⟨kind', title', properties', children'⟩ =>
    have htitle : (title.isSome == title'.isSome &&
        (!title.isSome || Json.equal (.str (title.getD "")) (.str (title'.getD "")))) =
          (title == title') := by
      cases title <;> cases title' <;> simp [Json.equal]
    have hproperties : ((!properties.isEmpty) == (!properties'.isEmpty) &&
        (!(!properties.isEmpty) ||
          Json.equal (.ofDictionary properties) (.ofDictionary properties'))) =
          Json.equalFields properties.entries properties'.entries := by
      obtain ⟨entries, _⟩ := properties
      obtain ⟨entries', _⟩ := properties'
      cases entries <;> cases entries' <;>
        simp [Dictionary.isEmpty, Json.ofDictionary, Json.equal, Json.equalFields]
    have hchildren : ((!children.isEmpty) == (!children'.isEmpty) &&
        (!(!children.isEmpty) ||
          Json.equal (.arr (toJsonAll children)) (.arr (toJsonAll children')))) =
          equalAll children children' := by
      rw [Json.equal, equal_toJsonAll children children']
      cases children <;> cases children' <;> simp [equalAll]
    have hfields : Json.equalFields
        (fieldIf (!children.isEmpty) "children" (.arr (toJsonAll children)) ++ [])
        (fieldIf (!children'.isEmpty) "children" (.arr (toJsonAll children')) ++ []) = _ :=
      equalFields_fieldIf (by simp) (by simp)
    rw [List.append_nil, List.append_nil, hchildren] at hfields
    rw [toJson, toJson, Json.equal, Json.equalFields, List.append_assoc, List.append_assoc,
      equalFields_fieldIf, htitle, equalFields_fieldIf, hproperties, hfields, equal]
    · simp [Json.equal, Json.equalFields, Bool.and_assoc]
    -- What is behind a field has another key, so where one view has it and the other one has not,
    -- the keys differ.
    · exact fun field hfield => ne_of_mem_fieldIf hfield (by decide)
    · exact fun field hfield => ne_of_mem_fieldIf hfield (by decide)
    · exact fun field hfield => (List.mem_append.mp hfield).elim
        (ne_of_mem_fieldIf · (by decide)) (ne_of_mem_fieldIf · (by decide))
    · exact fun field hfield => (List.mem_append.mp hfield).elim
        (ne_of_mem_fieldIf · (by decide)) (ne_of_mem_fieldIf · (by decide))

theorem equal_toJsonAll (vs ws : List View) :
    Json.equalItems (toJsonAll vs) (toJsonAll ws) = equalAll vs ws := by
  match vs, ws with
  | [], [] => rfl
  | [], _ :: _ => rfl
  | _ :: _, [] => rfl
  | v :: vs, w :: ws =>
    rw [toJsonAll, toJsonAll, Json.equalItems, equal_toJson v w, equal_toJsonAll vs ws, equalAll]

end

/-! ## Texts -/

/-- A reader of JSON texts, which reads a text as a value or as a view. -/
structure Reader where
  value : String → Except Json.Error Json
  view : String → Except Json.Error View

/-- **A reader inverts a writer** within the limit on the nesting: what is written is read as it is
kept, and anything deeper is no JSON. A text that a view was written as is read as a view in the way
its value is, and where there is no value there is no view, with the same fault. -/
structure Reader.Inverts (reader : Reader) (write : Json → String) : Prop where
  reads : ∀ j : Json, j.nesting ≤ 127 → reader.value (write j) = .ok j.sorted
  refuses : ∀ j : Json, 127 < j.nesting →
    ∃ words, reader.value (write j) = .error ⟨.malformed, words⟩
  decodes : ∀ (v w : View) (j : Json), v.Ordered → reader.value (write v.toJson) = .ok j →
    ofJson? j = some w → reader.view (write v.toJson) = .ok w
  rejects : ∀ (v : View) (e : Json.Error), v.Ordered → reader.value (write v.toJson) = .error e →
    ∃ words, reader.view (write v.toJson) = .error ⟨e.fault, words⟩

section

variable {reader : Reader} {write : Json → String} (h : reader.Inverts write) {v : View}
  (hv : v.Ordered)
include h hv

theorem Reader.Inverts.view_of_le (hnesting : v.toJson.nesting ≤ 127) :
    reader.view (write v.toJson) = .ok v :=
  h.decodes v v _ hv (h.reads _ hnesting) (ofJson?_sorted hv)

theorem Reader.Inverts.view_of_lt (hnesting : 127 < v.toJson.nesting) :
    ∃ words, reader.view (write v.toJson) = .error ⟨.malformed, words⟩ := by
  obtain ⟨words, hvalue⟩ := h.refuses _ hnesting
  exact h.rejects v _ hv hvalue

/-- The text of a view is read as the view just when it is not nested too deep. -/
theorem Reader.Inverts.view_eq_ok_iff :
    reader.view (write v.toJson) = .ok v ↔ v.toJson.nesting ≤ 127 := by
  refine ⟨fun hread => ?_, h.view_of_le hv⟩
  by_contra hdeep
  obtain ⟨words, hview⟩ := h.view_of_lt hv (Nat.lt_of_not_le hdeep)
  rw [hread] at hview
  cases hview

end

/-- The reader that converts numbers in a given way. -/
def Reader.ofConversion (convert : Json.Conversion) : Reader where
  value s := (Json.parseWith convert s).mapError Fault.toError
  view s := (parseWith convert s).mapError Fault.toError

section

variable {convert : Json.Conversion} {num : Number → List Char} (hn : Json.Undoes convert num)
  {blanks : Json.Blanks} (hb : blanks.Blank) {ending : List Char}
  (hending : ∀ c ∈ ending, Json.isBlank c = true)
include hn hb hending

theorem Reader.value_ofConversion (j : Json) :
    (ofConversion convert).value (String.ofList (j.chars num blanks 0 ++ ending)) =
      if j.nesting ≤ 127 then .ok j.sorted else .error (Fault.toError .malformed) := by
  show (Json.parseWith convert _).mapError Fault.toError = _
  rw [Json.parseWith_chars hn hb j hending, Json.maxOpen]
  split <;> rfl

theorem Reader.view_ofConversion {v : View} (hv : v.Ordered) :
    (ofConversion convert).view (String.ofList (v.toJson.chars num blanks 0 ++ ending)) =
      if v.toJson.nesting ≤ 127 then .ok v else .error (Fault.toError .malformed) := by
  show (parseWith convert _).mapError Fault.toError = _
  rw [parseWith_chars hn hb hv hending, Json.maxOpen]
  split <;> rfl

/-- **The readers that are defined here invert the writers** when their conversion undoes the
spelling of numbers. What is written are the characters of a value, compact or indented, and blanks
behind them. -/
theorem Reader.inverts_ofConversion :
    (ofConversion convert).Inverts
      fun j => String.ofList (j.chars num blanks 0 ++ ending) where
  reads j hj := by rw [value_ofConversion hn hb hending, if_pos hj]
  refuses j hj := by
    rw [value_ofConversion hn hb hending, if_neg (Nat.not_le_of_lt hj)]
    exact ⟨_, rfl⟩
  decodes v w j hv hread hw := by
    rw [value_ofConversion hn hb hending] at hread
    rw [view_ofConversion hn hb hending hv]
    split at hread
    · rename_i hnesting
      rw [← Except.ok.inj hread, ofJson?_sorted hv] at hw
      rw [if_pos hnesting, Option.some.inj hw]
    · cases hread
  rejects v e hv hread := by
    rw [value_ofConversion hn hb hending] at hread
    rw [view_ofConversion hn hb hending hv]
    split at hread
    · cases hread
    · rename_i hnesting
      rw [if_neg hnesting, ← Except.error.inj hread]
      exact ⟨_, rfl⟩

end

/-- The reader that rounds. -/
abbrev Reader.rounding : Reader := .ofConversion Json.Literal.rounded?

theorem Reader.rounding_inverts_text : rounding.Inverts Json.text := by
  have h := inverts_ofConversion Json.undoes_rounded Json.Blanks.compact_blank
    (List.forall_mem_nil _)
  simp only [List.append_nil] at h
  exact h

theorem Reader.rounding_inverts_pretty_line : rounding.Inverts (·.pretty ++ "\n") := by
  have h := inverts_ofConversion Json.undoes_rounded Json.Blanks.indented_blank
    Json.isBlank_newline
  simpa only [Json.pretty_line] using h

/-! ## The format -/

/-- **Reading a view undoes writing it.** As a value, with its fields in the order in which they are
written or in that of their keys, a view is read back as it is. So no two views are written as the
same, and views are equal just when what they are written as is. What the writer leaves out are the
fields that are what an absent field is read as. Any value that is read as a view is written as one
that is read as the same view again. As a text, whatever the reader and the writer that fit, a view
is read back if at most 127 containers are open at once in it, and is no JSON otherwise. -/
theorem reading_undoes_writing (v : View) (hv : v.Ordered) :
    (ofJson? v.toJson = some v ∧ ofJson? v.toJson.sorted = some v) ∧
    (∀ w : View, w.Ordered →
      v.toJson = w.toJson ∨ v.toJson.sorted = w.toJson.sorted → v = w) ∧
    (∀ w : View, v.toJson.equal w.toJson = v.equal w) ∧
    (∀ key, v.toJson.field? key =
      if key = "kind" then some (.str v.kind)
      else if key = "title" then v.title.map .str
      else if key = "properties" then
        if v.properties.isEmpty then none else some (.ofDictionary v.properties)
      else if key = "children" then
        if v.children.isEmpty then none else some (.arr (v.children.map toJson))
      else none) ∧
    (∀ fields w, ofJson? (.obj fields) = some w →
      (fields.lookup "title" = none → w.title = none) ∧
      (fields.lookup "properties" = none → w.properties = .empty) ∧
      (fields.lookup "children" = none → w.children = [])) ∧
    (∀ j w, ofJson? j = some w → ofJson? w.toJson = some w) ∧
    ∀ (reader : Reader) (write : Json → String), reader.Inverts write →
      (reader.view (write v.toJson) = .ok v ↔ v.toJson.nesting ≤ 127) ∧
      (127 < v.toJson.nesting →
        ∃ words, reader.view (write v.toJson) = .error ⟨.malformed, words⟩) := by
  refine ⟨⟨ofJson?_toJson hv, ofJson?_sorted hv⟩, fun w hw h => ?_, equal_toJson v, field?_toJson v,
    fun fields w h => absent_of_ofJson? h, fun j w h => ofJson?_toJson (ordered_of_ofJson? h),
    fun reader write h => ⟨h.view_eq_ok_iff hv, h.view_of_lt hv⟩⟩
  rcases h with h | h
  · have hread := ofJson?_toJson hv
    rw [h, ofJson?_toJson hw] at hread
    exact (Option.some.inj hread).symm
  · have hread := ofJson?_sorted hv
    rw [h, ofJson?_sorted hw] at hread
    exact (Option.some.inj hread).symm

/-- A box in a box in a box, and so on. -/
def nestedBoxes : Nat → View
  | 0 => ofKind "label"
  | n + 1 => ⟨"box", none, .empty, [nestedBoxes n]⟩

theorem ordered_nestedBoxes (n : Nat) : (nestedBoxes n).Ordered := by
  induction n with
  | zero => exact ⟨trivial, trivial⟩
  | succ n ih => exact ⟨trivial, ih, trivial⟩

theorem nesting_nestedBoxes (n : Nat) : (nestedBoxes n).toJson.nesting = 2 * n + 1 := by
  induction n with
  | zero => rfl
  | succ n ih =>
    show Json.nesting (.obj [("kind", .str "box"), ("children", .arr [(nestedBoxes n).toJson])]) = _
    simp only [Json.nesting, nestingFields, nestingAll, ih]
    omega

/-- A title that is empty and a property that is null are written. A field that is there and empty
is read, and is not written again. Sixty-three boxes can be read back from their text, and one more
cannot. -/
theorem reading_undoes_writing_empty :
    let v : View := ⟨"stack", some "", .ofList [("note", .null)], [ofKind "label"]⟩
    let j : Json := .obj [("children", .arr []), ("color", .null), ("kind", .str "label")]
    v.Ordered ∧ ofJson? v.toJson = some v ∧ ofJson? v.toJson.sorted = some v ∧
    v.toJson.field? "title" = some (.str "") ∧
    v.toJson.field? "properties" = some (.obj [("note", .null)]) ∧
    (ofKind "label").Ordered ∧ v.toJson ≠ (ofKind "label").toJson ∧
    ofJson? j = some (ofKind "label") ∧ ofJson? (ofKind "label").toJson = some (ofKind "label") ∧
    Reader.rounding.Inverts Json.text ∧ Reader.rounding.view v.toJson.text = .ok v ∧
    Reader.rounding.view (nestedBoxes 63).toJson.text = .ok (nestedBoxes 63) ∧
    ∃ words, Reader.rounding.view (nestedBoxes 64).toJson.text = .error ⟨.malformed, words⟩ := by
  intro v j
  have hv : v.Ordered := ⟨⟨trivial, trivial⟩, ⟨trivial, trivial⟩, trivial⟩
  have hlabel : (ofKind "label").Ordered := ⟨trivial, trivial⟩
  have hinverts := Reader.rounding_inverts_text
  obtain ⟨⟨hread, hsorted⟩, hinj, -, hfield, -, hagain, htext⟩ := reading_undoes_writing v hv
  obtain ⟨-, -, -, -, -, -, hfits⟩ := reading_undoes_writing _ (ordered_nestedBoxes 63)
  obtain ⟨-, -, -, -, -, -, hdeep⟩ := reading_undoes_writing _ (ordered_nestedBoxes 64)
  refine ⟨hv, hread, hsorted, (hfield "title").trans rfl, (hfield "properties").trans rfl, hlabel,
    fun h => ?_, rfl, hagain j _ rfl, hinverts, (htext _ _ hinverts).1.mpr (by decide),
    (hfits _ _ hinverts).1.mpr ?_, (hdeep _ _ hinverts).2 ?_⟩
  · have htitle := congrArg View.title (hinj _ hlabel (.inl h))
    exact absurd htitle (by simp [v, ofKind])
  · rw [nesting_nestedBoxes]
  · rw [nesting_nestedBoxes]
    decide

end View

end ViewTree
