import ViewTree.Proofs.Json.Sorted
import ViewTree.View.Reader

/-!
# Views that are written are read

A view is written as an object with the fields it has something to say about, and read with a
default for each field that is missing. The two fit: what is left out is what the default is, field
by field, and so a view is read back as it was (`ofTree_toJson`). The fields that are left out are
no fields of the draft either, which is why the steps below are stated for a draft without them.

As with values, what is nested too deep is refused, and what is asked of a view is that the objects
in its properties have their keys in order.
-/

set_option autoImplicit false

namespace ViewTree

open Json (Fault Tree nestingAll nestingFields nestingFields_append bind_ite_ok)

namespace View

mutual

/-- Every object in the properties of a view has its keys in order. -/
def Ordered : View → Prop
  | ⟨_, _, properties, children⟩ =>
    Json.OrderedFields properties.entries ∧ OrderedAll children

/-- Every object in the properties of views has its keys in order. -/
def OrderedAll : List View → Prop
  | [] => True
  | v :: rest => Ordered v ∧ OrderedAll rest

end

theorem toJsonAll_eq_map (views : List View) : toJsonAll views = views.map toJson := by
  induction views with
  | nil => rfl
  | cons v rest ih => rw [toJsonAll, ih, List.map_cons]

theorem orderedAll_of_forall {views : List View} (h : ∀ v ∈ views, v.Ordered) :
    OrderedAll views := by
  induction views with
  | nil => trivial
  | cons v rest ih =>
    obtain ⟨hv, hrest⟩ := List.forall_mem_cons.mp h
    exact ⟨hv, ih hrest⟩

theorem ofFields_append (first second : List (String × Json)) :
    Tree.ofFields (first ++ second) = Tree.ofFields first ++ Tree.ofFields second := by
  induction first with
  | nil => rfl
  | cons field rest ih => rw [List.cons_append, Tree.ofFields, Tree.ofFields, ih, List.cons_append]

/-! ## The fields -/

section

variable (room : Nat) {kind : Option String} {title : Option (Option String)}
  {properties : Option (Dictionary Json)} {children : Option (List View)}
  (rest : List (Except Fault String × Tree))

theorem ofFields_kind (content : String) :
    ofFields room ⟨none, title, properties, children⟩
        ((.ok "kind", .string (.ok content)) :: rest) =
      ofFields room ⟨some content, title, properties, children⟩ rest := by
  rw [ofFields]
  rfl

theorem ofFields_title (content : Option String) :
    ofFields room ⟨kind, none, properties, children⟩
        (Tree.ofFields (fieldIf content.isSome "title" (.str (content.getD ""))) ++ rest) =
      ofFields room ⟨kind, content.map some, properties, children⟩ rest := by
  cases content with
  | none => rfl
  | some content =>
    rw [Option.isSome_some, fieldIf, if_pos rfl, Tree.ofFields, Tree.ofFields,
      List.singleton_append, ofFields]
    rfl

end

theorem readProperties_eq {properties : Dictionary Json}
    (hp : Json.OrderedFields properties.entries) (room : Nat) :
    readProperties room (.ofJson (.ofDictionary properties)) =
      if (Json.ofDictionary properties).nesting ≤ room then .ok properties
      else .error .malformed := by
  cases room with
  | zero => rfl
  | succ room =>
    rw [Json.ofDictionary, Tree.ofJson, readProperties,
      Json.ofFields_ofFields properties.entries room, Json.sortedFields_of_ordered hp, Json.nesting]
    have hclosed : Tree.closed (Dictionary.ofList properties.entries) none = .ok properties :=
      congrArg Except.ok properties.ofList_entries
    simp only [bind_ite_ok, hclosed, Nat.succ_le_succ_iff]

theorem nestingFields_singleton (key : String) (value : Json) :
    nestingFields [(key, value)] = value.nesting := by
  rw [nestingFields, nestingFields, Nat.max_zero]

/-- Properties and widgets inside are two containers further in. -/
theorem nesting_toJson_le_iff {v : View} {n : Nat} :
    v.toJson.nesting ≤ n + 2 ↔
      (∀ entry ∈ v.properties.entries, entry.2.nesting ≤ n) ∧
        ∀ c ∈ v.children, c.toJson.nesting ≤ n := by
  obtain ⟨kind, title, properties, children⟩ := v
  -- A field that is left out is empty, and then the right side holds of it as well.
  have htitle :
      Json.nestingFields (fieldIf title.isSome "title" (.str (title.getD ""))) ≤ n + 1 := by
    cases title <;> simp [fieldIf, Json.nestingFields, Json.nesting]
  have hproperties : Json.nestingFields
      (fieldIf (!properties.isEmpty) "properties" (.ofDictionary properties)) ≤ n + 1 ↔
      ∀ entry ∈ properties.entries, entry.2.nesting ≤ n := by
    obtain ⟨entries, hentries⟩ := properties
    cases entries with
    | nil => simp [fieldIf, Dictionary.isEmpty, Json.nestingFields]
    | cons entry rest =>
      rw [fieldIf, if_pos (by rfl), nestingFields_singleton, Json.ofDictionary, Json.nesting,
        Nat.succ_le_succ_iff, Json.nestingFields_le_iff]
  have hchildren : Json.nestingFields
      (fieldIf (!children.isEmpty) "children" (.arr (toJsonAll children))) ≤ n + 1 ↔
      ∀ c ∈ children, c.toJson.nesting ≤ n := by
    cases children with
    | nil => simp [fieldIf, Json.nestingFields]
    | cons c rest =>
      rw [fieldIf, if_pos (by rfl), nestingFields_singleton, Json.nesting, Nat.succ_le_succ_iff,
        toJsonAll_eq_map, Json.nestingAll_le_iff, List.forall_mem_map]
  rw [toJson, Json.nesting, Nat.succ_le_succ_iff, Json.nestingFields, max_le_iff,
    Json.nestingFields_append, Json.nestingFields_append, max_le_iff, max_le_iff, hproperties,
    hchildren]
  simp [htitle, Json.nesting]

section

variable (room : Nat) {kind : Option String} {title : Option (Option String)}
  {rest : List (Except Fault String × Tree)}

theorem ofFields_properties {children : Option (List View)} {content : Dictionary Json}
    (h : Json.OrderedFields content.entries) :
    ofFields room ⟨kind, title, none, children⟩
        (Tree.ofFields (fieldIf (!content.isEmpty) "properties" (.ofDictionary content)) ++ rest) =
      if nestingFields (fieldIf (!content.isEmpty) "properties" (.ofDictionary content)) ≤ room
      then ofFields room
        ⟨kind, title, if content.isEmpty then none else some content, children⟩ rest
      else .error .malformed := by
  cases content.isEmpty with
  | true => rfl
  | false =>
    rw [Bool.not_false, fieldIf, if_pos rfl, nestingFields_singleton, Tree.ofFields, Tree.ofFields,
      List.singleton_append, ofFields]
    show (readProperties room (.ofJson (.ofDictionary content)) >>= fun properties =>
      ofFields room ⟨kind, title, some properties, children⟩ rest) = _
    rw [readProperties_eq h room, bind_ite_ok]
    rfl

/-- The children are read if the elements they are written as can be read. -/
theorem ofFields_children {properties : Option (Dictionary Json)} {content : List View}
    {items : List Json} (h : ∀ room, ofTrees room (Tree.ofItems items) =
      if nestingAll items ≤ room then .ok content else .error .malformed) :
    ofFields room ⟨kind, title, properties, none⟩
        (Tree.ofFields (fieldIf (!content.isEmpty) "children" (.arr items)) ++ rest) =
      if nestingFields (fieldIf (!content.isEmpty) "children" (.arr items)) ≤ room
      then ofFields room
        ⟨kind, title, properties, if content.isEmpty then none else some content⟩ rest
      else .error .malformed := by
  cases hempty : content.isEmpty with
  | true => rfl
  | false =>
    rw [Bool.not_false, fieldIf, if_pos rfl, nestingFields_singleton, Tree.ofFields, Tree.ofFields,
      List.singleton_append, ofFields, Json.nesting]
    show (ofChildren room (.ofJson (.arr items)) >>= fun children =>
      ofFields room ⟨kind, title, properties, some children⟩ rest) = _
    cases room with
    | zero => rfl
    | succ room =>
      rw [Tree.ofJson, ofChildren, h room, bind_ite_ok]
      show ((if nestingAll items ≤ room then .ok content else .error .malformed) >>=
        fun children => ofFields (room + 1) ⟨kind, title, properties, some children⟩ rest) = _
      simp only [bind_ite_ok, Nat.succ_le_succ_iff]
      rfl

end

/-- The fields that are left out have what they are left out for by default. -/
theorem toView_written (kind : String) (title : Option String) (properties : Dictionary Json)
    (children : List View) :
    Draft.toView ⟨some kind, title.map some, if properties.isEmpty then none else some properties,
      if children.isEmpty then none else some children⟩ =
      .ok ⟨kind, title, properties, children⟩ := by
  have htitle : (title.map some).getD none = title := by cases title <;> rfl
  have hproperties :
      (if properties.isEmpty then none else some properties).getD .empty = properties := by
    cases hempty : properties.isEmpty with
    | false => rfl
    | true =>
      obtain ⟨entries, hentries⟩ := properties
      obtain rfl : entries = [] := List.isEmpty_iff.mp hempty
      rfl
  have hchildren : (if children.isEmpty then none else some children).getD [] = children := by
    cases children <;> rfl
  rw [Draft.toView]
  simp only [htitle, hproperties, hchildren]

mutual

/-- **A view that is written is read back**, unless it is nested too deep. -/
theorem ofTree_toJson {v : View} (hv : v.Ordered) (room : Nat) :
    ofTree room (.ofJson v.toJson) =
      if v.toJson.nesting ≤ room then .ok v else .error .malformed := by
  match v, room with
  | ⟨kind, title, properties, children⟩, 0 => rfl
  | ⟨kind, title, properties, children⟩, room + 1 =>
    have htitle : nestingFields (fieldIf title.isSome "title" (.str (title.getD ""))) = 0 := by
      cases title <;> rfl
    let given := if properties.isEmpty then none else some properties
    have hchildren : ofFields room ⟨some kind, title.map some, given, none⟩
        (Tree.ofFields (fieldIf (!children.isEmpty) "children" (.arr (toJsonAll children))) ++ []) =
          _ :=
      ofFields_children room (ofTrees_toJson hv.2)
    rw [List.append_nil] at hchildren
    rw [toJson, Tree.ofJson, ofTree, Tree.ofFields, Tree.ofJson, Draft.empty, ofFields_kind,
      ofFields_append, ofFields_append, List.append_assoc, ofFields_title,
      ofFields_properties _ hv.1, hchildren, ofFields]
    rw [Json.nesting, nestingFields, nestingFields_append, nestingFields_append, htitle]
    -- Properties and children each have to fit, and the greater nesting fits when both do.
    simp only [Json.nesting, Nat.zero_max, Nat.succ_le_succ_iff, max_le_iff]
    rw [← ite_and, bind_ite_ok]
    exact if_congr Iff.rfl (toView_written kind title properties children) rfl

theorem ofTrees_toJson {vs : List View} (hv : OrderedAll vs) (room : Nat) :
    ofTrees room (Tree.ofItems (toJsonAll vs)) =
      if nestingAll (toJsonAll vs) ≤ room then .ok vs else .error .malformed := by
  match vs with
  | [] => rfl
  | v :: rest =>
    rw [toJsonAll, Tree.ofItems, ofTrees, ofTree_toJson hv.1 room, ofTrees_toJson hv.2 room,
      bind_ite_ok, bind_ite_ok, nestingAll]
    simp only [max_le_iff, ite_and]
    rfl

end

/-- **The text of a view is read as the view**, compact or indented, unless it is nested too deep,
and then it is no JSON. -/
theorem parseWith_chars {convert : Json.Conversion} {num : Number → List Char}
    (hn : Json.Undoes convert num) {blanks : Json.Blanks} (hb : blanks.Blank) {v : View}
    (hv : v.Ordered) {ending : List Char} (h : ∀ c ∈ ending, Json.isBlank c = true) :
    parseWith convert (String.ofList (v.toJson.chars num blanks 0 ++ ending)) =
      if v.toJson.nesting ≤ Json.maxOpen then .ok v else .error .malformed := by
  rw [parseWith, String.toList_ofList, Tree.ofChars_chars hn hb v.toJson h]
  simp only [ofTree_toJson hv, bind_ite_ok]
  rfl

end View

end ViewTree
